import TextEmbed.Proofs.Source.Events
import TextEmbed.Proofs.Utf8.Validity

/-!
# What calls use up

Every call of `Source.readLine` uses up a segment of the bytes of its source, whatever it returns.
The segments of successive calls lie next to each other, so no byte is read twice, out of order, or
passed over unnoticed. None of them reaches beyond the end of a line: what a fault makes a call lose
is part of one line.

## Main definitions

* `Source.WithinLine`: bytes with at most one terminator, at their end;
* `Event.Completes`: when a line is read to its end;
* `Source.UsesUp`: the segment of a call, by what the call returns.

## Main results

* `Event.exists_used_readBytes`: what is used up to read the bytes of a line;
* `Source.exists_segments`: what some calls use up.
-/

namespace TextEmbed

namespace Source

/-- Bytes that have at most one terminator, and that at their end. -/
def WithinLine (segment : List UInt8) : Prop :=
  ∃ text terminator, segment = text ++ terminator ∧ (∀ b ∈ text, isTerminator b = false) ∧
    (terminator = [] ∨ terminator = [lineFeed] ∨ terminator = [carriageReturn] ∨
      terminator = [carriageReturn, lineFeed])

theorem withinLine_terminator {terminator : List UInt8}
    (h : terminator = [] ∨ terminator = [lineFeed] ∨ terminator = [carriageReturn] ∨
      terminator = [carriageReturn, lineFeed]) : WithinLine terminator :=
  ⟨[], terminator, rfl, by simp, h⟩

theorem withinLine_nil : WithinLine [] :=
  withinLine_terminator (.inl rfl)

theorem WithinLine.cons {b : UInt8} {segment : List UInt8} (hb : isTerminator b = false)
    (h : WithinLine segment) : WithinLine (b :: segment) := by
  obtain ⟨text, terminator, rfl, htext, hterminator⟩ := h
  exact ⟨b :: text, terminator, rfl, List.forall_mem_cons.mpr ⟨hb, htext⟩, hterminator⟩

end Source

namespace Event

open Source

/-- The bytes among some events. -/
def bytes (events : List Event) : List UInt8 :=
  events.filterMap fun
    | .byte b => some b
    | .ended | .fault _ => none

@[simp]
theorem bytes_nil : bytes [] = [] := rfl

@[simp]
theorem bytes_cons_byte (b : UInt8) (events : List Event) :
    bytes (.byte b :: events) = b :: bytes events := rfl

@[simp]
theorem bytes_cons_fault (f : Fault) (events : List Event) :
    bytes (.fault f :: events) = bytes events := rfl

@[simp]
theorem bytes_cons_ended (events : List Event) : bytes (.ended :: events) = bytes events := rfl

@[simp]
theorem bytes_append (first second : List Event) :
    bytes (first ++ second) = bytes first ++ bytes second :=
  List.filterMap_append

@[simp]
theorem bytes_map_byte (data : List UInt8) : bytes (data.map .byte) = data := by
  induction data with
  | nil => rfl
  | cons b data ih => rw [List.map_cons, bytes_cons_byte, ih]

/-- The events `used` complete `line`, in front of the events `left`: the line ends with a line
feed, or with a carriage return that something else than a line feed follows, or the source is at an
end behind the line. -/
def Completes (used : List Event) (line : List UInt8) (left : List Event) : Prop :=
  line.getLast? = some lineFeed ∨
    (line.getLast? = some carriageReturn ∧ ∃ b, left.head? = some (.byte b) ∧ b ≠ lineFeed) ∨
    used.getLast? = some .ended ∨ left = []

theorem getLast?_cons_of_eq_some {α : Type} {items : List α} {last : α}
    (h : items.getLast? = some last) (item : α) : (item :: items).getLast? = some last := by
  rw [List.getLast?_cons, h, Option.getD_some]

/-- What is used up and read in front makes no difference to how a line is completed. -/
theorem Completes.cons {used left : List Event} {line : List UInt8}
    (h : Completes used line left) (event : Event) (front : List UInt8) :
    Completes (event :: used) (front ++ line) left := by
  have hlast : ∀ b, line.getLast? = some b → (front ++ line).getLast? = some b := by
    intro b hb
    rw [List.getLast?_append, hb, Option.some_or]
  rcases h with h | ⟨h, hleft⟩ | h | h
  · exact .inl (hlast _ h)
  · exact .inr (.inl ⟨hlast _ h, hleft⟩)
  · exact .inr (.inr (.inl (getLast?_cons_of_eq_some h event)))
  · exact .inr (.inr (.inr h))

/-- What reading behind a carriage return uses up: a line feed, a fault, or nothing but an end,
where the carriage return completes its line. -/
theorem exists_used_takeLineFeed (events : List Event) :
    ∃ used, events = used ++ (takeLineFeed events).2 ∧
      match (takeLineFeed events).1 with
      | .ok true => used = [.byte lineFeed]
      | .ok false => bytes used = [] ∧
          Completes (.byte carriageReturn :: used) [carriageReturn] (takeLineFeed events).2
      | .error f => used = [.fault f] := by
  match events with
  | [] => exact ⟨[], rfl, rfl, .inr (.inr (.inr rfl))⟩
  | .fault f :: rest => exact ⟨[.fault f], rfl, rfl⟩
  | .ended :: rest => exact ⟨[.ended], rfl, rfl, .inr (.inr (.inl rfl))⟩
  | .byte b :: rest =>
    by_cases hb : b = lineFeed
    · subst hb
      exact ⟨[.byte lineFeed], rfl, rfl⟩
    · rw [takeLineFeed, if_neg hb]
      exact ⟨[], rfl, rfl, .inr (.inl ⟨rfl, b, rfl, hb⟩)⟩

/-- What reading the bytes of a line uses up: the line, as far as it is read. Only a fault keeps it
from being read to its end. -/
theorem exists_used_readBytes (events : List Event) :
    ∃ used, events = used ++ (readBytes events).2 ∧ WithinLine (bytes used) ∧
      match (readBytes events).1 with
      | .ok line => bytes used = line ∧ Completes used line (readBytes events).2
      | .error f => used.getLast? = some (.fault f) := by
  fun_induction readBytes events with
  | case1 => exact ⟨[], rfl, withinLine_nil, rfl, .inr (.inr (.inr rfl))⟩
  -- an interrupted fill is used up with what is read behind it
  | case2 f rest hf ih =>
    obtain ⟨used, hused, hwithin, hresult⟩ := ih
    refine ⟨.fault f :: used, congrArg (.fault f :: ·) hused, hwithin, ?_⟩
    cases hread : (readBytes rest).1 with
    | ok line =>
      simp only [hread] at hresult
      exact ⟨hresult.1, hresult.2.cons (.fault f) []⟩
    | error g =>
      simp only [hread] at hresult
      exact getLast?_cons_of_eq_some hresult _
  | case3 f rest hf => exact ⟨[.fault f], rfl, withinLine_nil, rfl⟩
  | case4 rest => exact ⟨[.ended], rfl, withinLine_nil, rfl, .inr (.inr (.inl rfl))⟩
  | case5 rest =>
    exact ⟨[.byte lineFeed], rfl, withinLine_terminator (.inr (.inl rfl)), rfl, .inl rfl⟩
  -- behind a carriage return only the look-ahead can be used up
  | case6 rest ahead hlf =>
    obtain ⟨used, hused, hresult⟩ := exists_used_takeLineFeed rest
    refine ⟨.byte carriageReturn :: used, congrArg (.byte carriageReturn :: ·) hused, ?_⟩
    cases hread : ahead.1 with
    | error f =>
      simp only [ahead, hread] at hresult
      subst hresult
      exact ⟨withinLine_terminator (by simp), rfl⟩
    | ok found =>
      cases found with
      | true =>
        simp only [ahead, hread] at hresult
        subst hresult
        exact ⟨withinLine_terminator (by simp), rfl, .inl rfl⟩
      | false =>
        simp only [ahead, hread] at hresult
        obtain ⟨hbytes, hcompletes⟩ := hresult
        rw [bytes_cons_byte, hbytes]
        exact ⟨withinLine_terminator (by simp), rfl, hcompletes⟩
  -- any other byte is put in front of what is read behind it
  | case7 b rest hlf hcr later ih =>
    have hb : isTerminator b = false := by simp [isTerminator, hlf, hcr]
    obtain ⟨used, hused, hwithin, hresult⟩ := ih
    refine ⟨.byte b :: used, congrArg (.byte b :: ·) hused, hwithin.cons hb, ?_⟩
    cases hread : (readBytes rest).1 with
    | ok line =>
      simp only [hread, later] at hresult ⊢
      exact ⟨congrArg (b :: ·) hresult.1, hresult.2.cons (.byte b) [b]⟩
    | error g =>
      simp only [hread, later] at hresult ⊢
      exact getLast?_cons_of_eq_some hresult _

end Event

namespace Source

/-- The bytes that nobody has read yet are those of the events to come. -/
theorem unread_eq_bytes (source : Source) : source.unread = Event.bytes source.events := by
  induction source with
  | nil => rfl
  | cons fill rest ih =>
    rw [events_cons, Event.bytes_append, ← ih]
    match fill with
    | .bytes [] => rfl
    | .bytes (b :: bs) =>
      rw [Fill.events, Event.bytes_map_byte]
      rfl
    | .fault f => rfl

/-- A call on `before` that returns `result` uses up the bytes `segment` and leaves `after`: the
whole line that it returns, or that it finds to be no text, and what it has read of a line if a fill
fails. At the end of the source it uses up no byte. -/
def UsesUp (before : Source) (result : Except Fault (Option (List Char))) (segment : List UInt8)
    (after : Source) : Prop :=
  ∃ used, before.events = used ++ after.events ∧ Event.bytes used = segment ∧
    WithinLine segment ∧
    match result with
    | .ok (some line) =>
      segment = Utf8.encode line ∧ segment ≠ [] ∧ Event.Completes used segment after.events
    | .ok none => segment = []
    | .error f =>
      (∃ e, f = .illFormed e ∧ Utf8.decode segment = .error e ∧
        Event.Completes used segment after.events) ∨
      used.getLast? = some (.fault f)

/-- Every call uses up a segment. -/
theorem exists_segment (source : Source) :
    ∃ segment, source.UsesUp (readLine source).1 segment (readLine source).2 := by
  obtain ⟨used, hused, hwithin, hresult⟩ := Event.exists_used_readBytes source.events
  rw [readBytes_events] at hused hresult
  rw [readLine_eq]
  refine ⟨Event.bytes used, used, hused, rfl, hwithin, ?_⟩
  match hread : (readBytes source).1 with
  | .error f =>
    simp only [hread] at hresult
    exact .inr hresult
  | .ok [] =>
    simp only [hread] at hresult
    exact hresult.1
  | .ok (b :: bs) =>
    simp only [hread] at hresult
    obtain ⟨hbytes, hcompletes⟩ := hresult
    rw [lineOf, hbytes]
    cases hdecode : Utf8.decode (b :: bs) with
    | ok text => exact ⟨Utf8.decode_eq_ok_iff.mp hdecode, List.cons_ne_nil b bs, hcompletes⟩
    | error e => exact .inl ⟨e, rfl, rfl, hcompletes⟩

/-- The segment of a call lies at the front of what nobody has read yet. -/
theorem UsesUp.unread {before after : Source} {result : Except Fault (Option (List Char))}
    {segment : List UInt8} (h : before.UsesUp result segment after) :
    before.unread = segment ++ after.unread := by
  obtain ⟨used, hused, hbytes, -⟩ := h
  rw [unread_eq_bytes, hused, Event.bytes_append, hbytes, ← unread_eq_bytes]

/-- What some calls use up: one segment each, next to each other and in order, so that each call
starts at the first byte behind the segment of the call before. -/
theorem exists_segments (calls : Nat) (source : Source) :
    ∃ segments : List (List UInt8), segments.length = calls ∧
      (∀ k ≤ calls, source.unread = (segments.take k).flatten ++ (readLines k source).2.unread) ∧
      ∀ k < calls, ∃ result segment, (readLines calls source).1[k]? = some result ∧
        segments[k]? = some segment ∧
        UsesUp (readLines k source).2 result segment (readLines (k + 1) source).2 := by
  induction calls generalizing source with
  | zero =>
    refine ⟨[], rfl, ?_, by simp⟩
    intro k hk
    obtain rfl := Nat.le_zero.mp hk
    rfl
  | succ calls ih =>
    -- the first call uses up its segment, and the others go on with what it left
    obtain ⟨first, hfirst⟩ := exists_segment source
    obtain ⟨segments, hlength, hunread, hsegments⟩ := ih (readLine source).2
    refine ⟨first :: segments, congrArg (· + 1) hlength, ?_, ?_⟩
    · intro k hk
      cases k with
      | zero => rfl
      | succ k =>
        rw [List.take_succ_cons, List.flatten_cons, List.append_assoc, hfirst.unread,
          hunread k (Nat.le_of_succ_le_succ hk)]
        rfl
    · intro k hk
      cases k with
      | zero => exact ⟨(readLine source).1, first, rfl, rfl, hfirst⟩
      | succ k => exact hsegments k (Nat.lt_of_succ_lt_succ hk)

/-- For example a fill that is interrupted behind a carriage return: the call loses what it has read
of the line, and the next one starts with the line feed. -/
theorem exists_segments_interrupted :
    let interrupted : Fault := .reported .interrupted []
    let source : Source := [.bytes [0x61, 0x0D], .fault interrupted, .bytes [0x0A, 0x62]]
    (readLines 1 source).1 = [.error interrupted] ∧
      source.UsesUp (.error interrupted) [0x61, 0x0D] [.bytes [0x0A, 0x62]] := by
  intro interrupted source
  obtain ⟨segments, -, hunread, hsegments⟩ := exists_segments 1 source
  obtain ⟨result, segment, hresult, hsegment, huses⟩ := hsegments 0 Nat.zero_lt_one
  have hread : (readLine source) = (.error interrupted, [.bytes [0x0A, 0x62]]) := rfl
  obtain rfl : .error interrupted = result := Option.some.inj hresult
  have hbytes : [0x61, 0x0D] ++ [0x0A, 0x62] = segment ++ [0x0A, 0x62] := huses.unread
  obtain rfl := List.append_cancel_right hbytes
  exact ⟨rfl, huses⟩

end Source

end TextEmbed
