import Mathlib.Data.List.Basic
import TextEmbed.Proofs.Source.Text
import TextEmbed.Proofs.Utf8.Validity

/-!
# Lines of bytes

A byte string falls apart into lines as a text does, whether it is a text or not. A call reads the
first line of what its source brings, and decodes it by itself. As every line but the last ends with
an ASCII byte, decoding the lines one by one comes to the same as decoding the whole.

## Main definitions

* `Source.splitLine`: the first line of a byte string, and the bytes behind it;
* `Source.lines`: the lines of a byte string;
* `Source.Brings`: sources that bring some bytes and nothing else.

## Main results

* `Source.lines_encode`: the lines of a text are those of its bytes;
* `Source.readLine_of_bytes`: a call reads the first line of the bytes that are left;
* `Source.decode_splitLine`: decoding goes on behind a line as at the start;
* `Source.splitLine_of_length_eq_none`: only the last line can end in the middle of a sequence.
-/

namespace TextEmbed

namespace Source

/-- The first line of a byte string with its terminator, and the bytes behind it. -/
def splitLine : List UInt8 → List UInt8 × List UInt8
  | [] => ([], [])
  | b :: rest =>
    if b = lineFeed then ([b], rest)
    else if b = carriageReturn then
      if rest.head? = some lineFeed then ([b, lineFeed], rest.tail) else ([b], rest)
    else (b :: (splitLine rest).1, (splitLine rest).2)

/-- Splitting off a line loses nothing. -/
theorem splitLine_append (data : List UInt8) : (splitLine data).1 ++ (splitLine data).2 = data := by
  fun_induction splitLine data with
  | case1 => rfl
  | case2 => rfl
  | case3 rest hhead _ =>
    obtain ⟨later, rfl⟩ := List.head?_eq_some_iff.mp hhead
    rfl
  | case4 => rfl
  | case5 b rest _ _ ih => rw [List.cons_append, ih]

theorem splitLine_ne_nil {data : List UInt8} (h : data ≠ []) : (splitLine data).1 ≠ [] := by
  fun_cases splitLine data with
  | case1 => exact absurd rfl h
  | case2 => simp
  | case3 => simp
  | case4 => simp
  | case5 => simp

theorem length_splitLine_lt {data : List UInt8} (h : data ≠ []) :
    (splitLine data).2.length < data.length := by
  have hline := List.length_pos_iff.mpr (splitLine_ne_nil h)
  have hdata := congrArg List.length (splitLine_append data)
  rw [List.length_append] at hdata
  omega

/-- The lines of a byte string, each with its terminator. -/
def lines : List UInt8 → List (List UInt8)
  | [] => []
  | b :: rest => (splitLine (b :: rest)).1 :: lines (splitLine (b :: rest)).2
termination_by data => data.length
decreasing_by exact length_splitLine_lt (List.cons_ne_nil b rest)

theorem flatten_lines (data : List UInt8) : (lines data).flatten = data := by
  fun_induction lines data with
  | case1 => rfl
  | case2 b rest ih => rw [List.flatten_cons, ih, splitLine_append]

/-- The first line of a byte string ends with a terminator, or it is the whole byte string and has
none. -/
theorem splitLine_cases (data : List UInt8) :
    (∃ text b, (splitLine data).1 = text ++ [b] ∧ isTerminator b = true) ∨
      ((splitLine data).2 = [] ∧ ∀ b ∈ (splitLine data).1, isTerminator b = false) := by
  fun_induction splitLine data with
  | case1 => exact .inr ⟨rfl, by simp⟩
  | case2 rest => exact .inl ⟨[], lineFeed, rfl, rfl⟩
  | case3 rest _ _ => exact .inl ⟨[carriageReturn], lineFeed, rfl, rfl⟩
  | case4 rest _ _ => exact .inl ⟨[], carriageReturn, rfl, rfl⟩
  | case5 b rest hlf hcr ih =>
    rcases ih with ⟨text, terminator, hline, hterminator⟩ | ⟨hrest, hline⟩
    · exact .inl ⟨b :: text, terminator, by rw [hline, List.cons_append], hterminator⟩
    · have hb : isTerminator b = false := by simp [isTerminator, hlf, hcr]
      exact .inr ⟨hrest, List.forall_mem_cons.mpr ⟨hb, hline⟩⟩

end Source

namespace Event

open Source

/-- Reading bytes that nothing comes between reads their first line. -/
theorem readBytes_bytes (data : List UInt8) :
    readBytes (data.map .byte) = (.ok (splitLine data).1, (splitLine data).2.map .byte) := by
  fun_induction splitLine data with
  | case1 => rfl
  | case2 rest => rfl
  | case3 rest hhead _ =>
    obtain ⟨later, rfl⟩ := List.head?_eq_some_iff.mp hhead
    rfl
  | case4 rest hhead _ =>
    cases rest with
    | nil => rfl
    | cons b rest =>
      have hb : b ≠ lineFeed := by simpa using hhead
      rw [List.map_cons, readBytes, if_neg (by decide), if_pos rfl, List.map_cons, takeLineFeed,
        if_neg hb]
      rfl
  | case5 b rest hlf hcr ih =>
    rw [List.map_cons, readBytes, if_neg hlf, if_neg hcr, ih]
    rfl

theorem map_byte_injective : Function.Injective (List.map byte) :=
  List.map_injective_iff.mpr fun _ _ => byte.inj

end Event

namespace Source

/-- The first line of the bytes of a text has the bytes of the first line. -/
theorem splitLine_encode (text : List Char) :
    splitLine (Utf8.encode text) =
      (Utf8.encode (Text.splitLine text).1, Utf8.encode (Text.splitLine text).2) := by
  have hbytes := (Event.readBytes_bytes (Utf8.encode text)).symm.trans (Event.readBytes_encode text)
  rw [Prod.mk.injEq, Except.ok.injEq, Event.map_byte_injective.eq_iff] at hbytes
  exact Prod.ext hbytes.1 hbytes.2

/-- The lines of the bytes of a text are those of the text. -/
theorem lines_encode (text : List Char) :
    lines (Utf8.encode text) = (Text.lines text).map Utf8.encode := by
  fun_induction Text.lines text with
  | case1 => simp [lines]
  | case2 c rest ih =>
    cases hbytes : Utf8.encode (c :: rest) with
    | nil => exact absurd (Utf8.encode_eq_nil_iff.mp hbytes) (List.cons_ne_nil c rest)
    | cons b bytes => rw [lines, ← hbytes, splitLine_encode, ih, List.map_cons]

/-- The source brings the bytes `data` and nothing else, in fills that are not empty. -/
def Brings (source : Source) (data : List UInt8) : Prop :=
  ∃ fills : List (List UInt8), source = fills.map .bytes ∧ (∀ fill ∈ fills, fill ≠ []) ∧
    fills.flatten = data

/-- A source brings bytes exactly if they are its events. -/
theorem brings_iff {source : Source} {data : List UInt8} :
    source.Brings data ↔ source.events = data.map .byte := by
  constructor
  · rintro ⟨fills, rfl, hfills, rfl⟩
    exact events_map_bytes hfills
  · intro h
    induction source generalizing data with
    | nil =>
      obtain rfl := List.map_eq_nil_iff.mp h.symm
      exact ⟨[], rfl, by simp, rfl⟩
    | cons fill rest ih =>
      rw [events_cons] at h
      obtain ⟨first, later, rfl, hfirst, hlater⟩ := List.map_eq_append_iff.mp h.symm
      obtain ⟨fills, rfl, hfills, rfl⟩ := ih hlater.symm
      -- an empty fill would show as an end, and a fault as a fault
      match fill with
      | .bytes [] => simp [Fill.events, List.map_eq_cons_iff] at hfirst
      | .fault f => simp [Fill.events, List.map_eq_cons_iff] at hfirst
      | .bytes (b :: bs) =>
        rw [Fill.events, Event.map_byte_injective.eq_iff] at hfirst
        subst hfirst
        refine ⟨(b :: bs) :: fills, rfl, ?_, rfl⟩
        exact List.forall_mem_cons.mpr ⟨List.cons_ne_nil b bs, hfills⟩

/-- A call reads the first line of the bytes that a source has left. -/
theorem readLine_of_bytes {source : Source} {data : List UInt8}
    (h : source.events = data.map .byte) :
    readLine source = (lineOf (.ok (splitLine data).1), (readLine source).2) ∧
      (readLine source).2.events = (splitLine data).2.map .byte := by
  have hread := readBytes_events source
  rw [h, Event.readBytes_bytes, Prod.mk.injEq] at hread
  rw [readLine_eq, ← hread.1]
  exact ⟨rfl, hread.2.symm⟩

/-! ## Decoding line by line -/

theorem toNat_lt_of_isTerminator {b : UInt8} (h : isTerminator b = true) : b.toNat < 0x80 := by
  rw [isTerminator, Bool.or_eq_true, beq_iff_eq, beq_iff_eq] at h
  rcases h with rfl | rfl <;> decide

/-- A byte string decodes to a text if its first line does and the rest does. The first error is
that of the line, or else that of the rest. -/
theorem decode_splitLine (data : List UInt8) :
    Utf8.decode data =
      match Utf8.decode (splitLine data).1 with
      | .error e => .error e
      | .ok text =>
        match Utf8.decode (splitLine data).2 with
        | .error e => .error { e with index := e.index + (splitLine data).1.length }
        | .ok later => .ok (text ++ later) := by
  have hdata := splitLine_append data
  rcases splitLine_cases data with ⟨text, b, hline, hb⟩ | ⟨hrest, -⟩
  -- no sequence goes on past a terminator
  · have hdecode := Utf8.decode_append (toNat_lt_of_isTerminator hb) text (splitLine data).2
    rw [hline, List.append_assoc, List.singleton_append] at hdata
    rw [hdata] at hdecode
    rw [hline]
    exact hdecode
  · rw [hrest, List.append_nil] at hdata
    have hnil : Utf8.decode [] = .ok [] := Utf8.decode_encode []
    rw [hrest, hdata, hnil]
    cases Utf8.decode data <;> simp

/-- A line ends in the middle of a sequence only if it has no terminator and is the last one. -/
theorem splitLine_of_length_eq_none {data : List UInt8} {e : Utf8.IllFormed}
    (h : Utf8.decode (splitLine data).1 = .error e) (hlength : e.length = none) :
    (splitLine data).2 = [] ∧ ∀ b ∈ (splitLine data).1, isTerminator b = false := by
  rcases splitLine_cases data with ⟨text, b, hline, hb⟩ | hwhole
  · rw [hline] at h
    exact absurd hlength (Utf8.length_ne_none (toNat_lt_of_isTerminator hb) h)
  · exact hwhole

end Source

end TextEmbed
