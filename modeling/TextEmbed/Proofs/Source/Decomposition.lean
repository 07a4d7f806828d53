import Mathlib.Data.List.Chain
import TextEmbed.Proofs.Source.Lines

/-!
# The lines that calls return

A text falls apart into lines in one way only, if line feeds and carriage returns end lines, a line
feed behind a carriage return belongs to the same line, and no line is empty. The calls of
`Source.readLine` return these lines one after the other, and then the end for ever. Wherever one
stops to read, what is left is a text with lines of its own, which are those still to come.

## Main definitions

* `Text.IsLineDecomposition`: what makes parts of a text its lines.

## Main results

* `Text.IsLineDecomposition.splitLine_eq`: the first part of a decomposition is the first line;
* `Text.isLineDecomposition_iff`: only the lines of a text are a decomposition of it;
* `Source.readLines_of_events`: what some calls return and leave;
* `Source.readLines_decomposes`: calls return the decomposition, wherever they start.
-/

namespace TextEmbed

namespace Text

/-! ## First lines -/

/-- Characters that end no line belong to the line behind them. -/
theorem splitLine_append_of_forall {content : List Char}
    (h : ∀ c ∈ content, isLineEnd c = false) (rest : List Char) :
    splitLine (content ++ rest) = (content ++ (splitLine rest).1, (splitLine rest).2) := by
  induction content with
  | nil => rfl
  | cons c content ih =>
    obtain ⟨hc, hcontent⟩ := List.forall_mem_cons.mp h
    have hother : c ≠ '\n' ∧ c ≠ '\r' := by simpa [isLineEnd] using hc
    rw [List.cons_append, splitLine, ih hcontent, List.cons_append]
    · exact hother.1
    · exact fun _ hcr => absurd hcr hother.2
    · exact hother.2

/-- A terminator ends a line, unless it is a carriage return and a line feed comes next. -/
theorem splitLine_terminator_append {terminator rest : List Char} (h : terminator ∈ terminators)
    (hrest : terminator = ['\r'] → rest.head? ≠ some '\n') :
    splitLine (terminator ++ rest) = (terminator, rest) := by
  rcases mem_terminators.mp h with rfl | rfl | rfl
  · rfl
  · match rest with
    | [] => rfl
    | c :: rest =>
      have hc : c ≠ '\n' := by simpa using hrest rfl
      rw [List.singleton_append, splitLine]
      exact fun later hlater => hc (List.cons.inj hlater).1
  · rfl

/-- The line feed behind a carriage return belongs to the same line. -/
theorem head?_splitLine_ne {text : List Char} (h : (splitLine text).1.getLast? = some '\r') :
    (splitLine text).2.head? ≠ some '\n' := by
  fun_induction splitLine text with
  | case1 => simp
  | case2 => simp at h
  | case3 => simp at h
  | case4 rest hrest =>
    intro hhead
    obtain ⟨later, hlater⟩ := List.head?_eq_some_iff.mp hhead
    exact hrest later hlater
  | case5 c rest hlf hcrlf hcr ih =>
    apply ih
    rw [List.getLast?_cons] at h
    cases hlast : (splitLine rest).1.getLast? with
    | none => exact absurd (by simpa [hlast] using h) hcr
    | some last => simpa [hlast] using h

/-! ## Decompositions -/

/-- The parts of a text are its lines: each has a terminator at its end if anywhere, and only the
last one can do without. -/
structure IsLineDecomposition (text : List Char) (parts : List (List Char)) : Prop where
  /-- The parts make up the text. -/
  flatten_eq : parts.flatten = text
  /-- No part is empty. -/
  ne_nil : ∀ part ∈ parts, part ≠ []
  /-- Line feeds and carriage returns occur only in a terminator at the end of a part. -/
  exists_content : ∀ part ∈ parts, ∃ content ending, part = content ++ ending ∧
    (∀ c ∈ content, isLineEnd c = false) ∧ (ending = [] ∨ ending ∈ terminators)
  /-- Every part but the last ends with a terminator. -/
  terminated : ∀ part ∈ parts.dropLast, ∃ content, ∃ terminator ∈ terminators,
    part = content ++ terminator
  /-- No carriage return at the end of a part is torn from a line feed. -/
  apart : parts.IsChain fun part next =>
    ¬ (part.getLast? = some '\r' ∧ next.head? = some '\n')

theorem mem_dropLast_cons {α : Type} {item first : α} {rest : List α} (h : item ∈ rest.dropLast) :
    item ∈ (first :: rest).dropLast := by
  cases rest with
  | nil => exact absurd h List.not_mem_nil
  | cons next rest => exact List.mem_cons_of_mem first h

/-- Without its first part a decomposition is one of the text behind it. -/
theorem IsLineDecomposition.tail {text first : List Char} {rest : List (List Char)}
    (h : IsLineDecomposition text (first :: rest)) : IsLineDecomposition rest.flatten rest where
  flatten_eq := rfl
  ne_nil part hpart := h.ne_nil part (List.mem_cons_of_mem first hpart)
  exists_content part hpart := h.exists_content part (List.mem_cons_of_mem first hpart)
  terminated part hpart := h.terminated part (mem_dropLast_cons hpart)
  apart := h.apart.tail

/-- A part in front of another one has a terminator, and a line feed behind it is not torn off. -/
theorem IsLineDecomposition.splitLine_eq {text first : List Char} {rest : List (List Char)}
    (h : IsLineDecomposition text (first :: rest)) : splitLine text = (first, rest.flatten) := by
  obtain ⟨content, ending, hfirst, hcontent, hending⟩ :=
    h.exists_content first List.mem_cons_self
  have htext : text = content ++ (ending ++ rest.flatten) := by
    rw [← h.flatten_eq, List.flatten_cons, hfirst, List.append_assoc]
  rw [htext, hfirst, splitLine_append_of_forall hcontent]
  rcases hending with rfl | hterminator
  · cases rest with
    | nil => rfl
    -- then the part would have a terminator, which has no place in its content
    | cons next rest =>
      obtain ⟨front, terminator, hterminator, hends⟩ := h.terminated first List.mem_cons_self
      obtain ⟨c, hc⟩ : ∃ c, c ∈ terminator := by
        rcases mem_terminators.mp hterminator with rfl | rfl | rfl <;> exact ⟨_, List.mem_cons_self⟩
      have hmem : c ∈ content := by
        rw [List.append_nil] at hfirst
        rw [← hfirst, hends]
        exact List.mem_append_right front hc
      have hend := isLineEnd_of_mem_terminators hterminator c hc
      simp [hcontent c hmem] at hend
  · rw [splitLine_terminator_append hterminator]
    rintro rfl
    cases rest with
    | nil => simp
    | cons next rest =>
      have hnext : next ≠ [] := h.ne_nil next (by simp)
      have hlast : first.getLast? = some '\r' := by rw [hfirst, List.getLast?_concat]
      obtain ⟨hapart, -⟩ := List.isChain_cons_cons.mp h.apart
      rw [List.flatten_cons, List.head?_append_of_ne_nil next hnext]
      exact fun hhead => hapart ⟨hlast, hhead⟩

/-- The first line of a text in front of a decomposition of the rest is a decomposition. -/
theorem IsLineDecomposition.cons {text first : List Char} {rest : List (List Char)}
    (hne : text ≠ []) (hsplit : splitLine text = (first, rest.flatten))
    (h : IsLineDecomposition rest.flatten rest) : IsLineDecomposition text (first :: rest) := by
  have hfirst : (splitLine text).1 = first := by rw [hsplit]
  have hrest : (splitLine text).2 = rest.flatten := by rw [hsplit]
  have hcases := splitLine_cases text
  simp only [hsplit, Prod.mk.injEq, and_true] at hcases
  obtain ⟨content, hcontent, hends⟩ := hcases
  refine ⟨?_, ?_, ?_, ?_, ?_⟩
  · rw [List.flatten_cons, ← hfirst, ← hrest, splitLine_append]
  · exact List.forall_mem_cons.mpr ⟨hfirst ▸ splitLine_ne_nil hne, h.ne_nil⟩
  · refine List.forall_mem_cons.mpr ⟨?_, h.exists_content⟩
    rcases hends with ⟨rfl, -⟩ | ⟨terminator, hterminator, rfl⟩
    · exact ⟨first, [], (List.append_nil first).symm, hcontent, .inl rfl⟩
    · exact ⟨content, terminator, rfl, hcontent, .inr hterminator⟩
  · cases rest with
    | nil => simp
    | cons next rest =>
      refine List.forall_mem_cons.mpr ⟨?_, h.terminated⟩
      rcases hends with ⟨-, hnil⟩ | ⟨terminator, hterminator, rfl⟩
      -- only the last part can be without a terminator
      · exact absurd (List.flatten_eq_nil_iff.mp hnil next List.mem_cons_self)
          (h.ne_nil next List.mem_cons_self)
      · exact ⟨content, terminator, hterminator, rfl⟩
  · cases rest with
    | nil => exact .singleton first
    | cons next rest =>
      refine List.isChain_cons_cons.mpr ⟨?_, h.apart⟩
      rintro ⟨hlast, hhead⟩
      refine head?_splitLine_ne (hfirst ▸ hlast) ?_
      rw [hrest, List.flatten_cons,
        List.head?_append_of_ne_nil next (h.ne_nil next List.mem_cons_self), hhead]

theorem lines_of_ne_nil {text : List Char} (h : text ≠ []) :
    lines text = (splitLine text).1 :: lines (splitLine text).2 := by
  cases text with
  | nil => exact absurd rfl h
  | cons c rest => rw [lines]

theorem flatten_lines (text : List Char) : (lines text).flatten = text := by
  fun_induction lines text with
  | case1 => rfl
  | case2 c rest ih => rw [List.flatten_cons, ih, splitLine_append]

/-- The lines of a text are the only decomposition of it. -/
theorem isLineDecomposition_iff {text : List Char} {parts : List (List Char)} :
    IsLineDecomposition text parts ↔ parts = lines text := by
  constructor
  · intro h
    induction parts generalizing text with
    | nil =>
      obtain rfl := h.flatten_eq
      simp [lines]
    | cons first rest ih =>
      have hne : text ≠ [] := by
        rintro rfl
        exact h.ne_nil first List.mem_cons_self (List.flatten_eq_nil_iff.mp h.flatten_eq first
          List.mem_cons_self)
      rw [lines_of_ne_nil hne, h.splitLine_eq, ← ih h.tail]
  · rintro rfl
    fun_induction lines text with
    | case1 => exact ⟨rfl, by simp, by simp, by simp, .nil⟩
    | case2 c rest ih =>
      have hflatten := flatten_lines (splitLine (c :: rest)).2
      refine .cons (List.cons_ne_nil c rest) ?_ (by rwa [hflatten])
      rw [hflatten]

/-- Behind some lines of a text are the lines of what is behind them. -/
theorem lines_flatten_drop (text : List Char) (count : Nat) :
    lines ((lines text).drop count).flatten = (lines text).drop count := by
  induction count generalizing text with
  | zero => rw [List.drop_zero, flatten_lines]
  | succ count ih =>
    cases text with
    | nil => simp [lines]
    | cons c rest => rw [lines, List.drop_succ_cons, ih]

end Text

namespace Source

/-! ## Calls -/

/-- Calls return the lines of the text that a source has left, one after the other and then the end
for ever, and leave the text behind these lines. -/
theorem readLines_of_events {source : Source} {text : List Char}
    (h : source.events = (Utf8.encode text).map .byte) (calls : Nat) :
    (readLines calls source).1 = (List.range calls).map (fun k => .ok (Text.lines text)[k]?) ∧
      (readLines calls source).2.events =
        (Utf8.encode ((Text.lines text).drop calls).flatten).map .byte := by
  induction calls generalizing source text with
  | zero => exact ⟨rfl, by rw [List.drop_zero, Text.flatten_lines]; exact h⟩
  | succ calls ih =>
    obtain ⟨hresults, hleft⟩ := ih (readLine_of_events h).2
    rw [readLines, List.range_succ_eq_map, List.map_cons, List.map_map, hresults]
    cases text with
    | nil =>
      rw [readLine_of_eq_nil h]
      simp only [Text.splitLine, Text.lines, List.drop_nil] at hleft ⊢
      exact ⟨rfl, hleft⟩
    | cons c rest =>
      rw [readLine_of_ne_nil (List.cons_ne_nil c rest) h, Text.lines]
      exact ⟨rfl, hleft⟩

/-- A source of a text returns the one decomposition of the text into lines, one line a call, and
then the end for ever. Wherever one stops, it is left with a text that the lines to come are the
decomposition of, and reads on like any source of that text. -/
theorem readLines_decomposes {source : Source} {text : List Char} (h : source.Delivers text) :
    (∀ parts, Text.IsLineDecomposition text parts ↔ parts = Text.lines text) ∧
      (∀ calls,
        (readLines calls source).1 = (List.range calls).map fun k => .ok (Text.lines text)[k]?) ∧
      ∀ calls, ∃ rest, text = ((Text.lines text).take calls).flatten ++ rest ∧
        (readLines calls source).2.Delivers rest ∧
        Text.IsLineDecomposition rest ((Text.lines text).drop calls) ∧
        ∀ (fresh : Source) (more : Nat), fresh.Delivers rest →
          (readLines more (readLines calls source).2).1 = (readLines more fresh).1 := by
  refine ⟨fun _ => Text.isLineDecomposition_iff,
    fun calls => (readLines_of_events h.events calls).1, fun calls => ?_⟩
  have hleft := (readLines_of_events h.events calls).2
  refine ⟨((Text.lines text).drop calls).flatten, ?_, brings_iff.mpr hleft, ?_, ?_⟩
  · rw [← List.flatten_append, List.take_append_drop, Text.flatten_lines]
  · exact Text.isLineDecomposition_iff.mpr (Text.lines_flatten_drop text calls).symm
  · intro fresh more hfresh
    rw [(readLines_of_events hleft more).1, (readLines_of_events hfresh.events more).1]

/-- For example carriage returns and line feeds in fills that tear them apart, and what is left
behind the first two lines. -/
theorem readLines_decomposes_torn :
    let source : Source := [.bytes [0x61, 0x0D], .bytes [0x0A, 0x0D], .bytes [0x0D, 0x0A, 0x62]]
    let text := "a\r\n\r\r\nb".toList
    let rest := "\r\nb".toList
    source.Delivers text ∧
      Text.IsLineDecomposition text ["a\r\n".toList, ['\r'], "\r\n".toList, ['b']] ∧
      (readLines 5 source).1 = [.ok (some "a\r\n".toList), .ok (some ['\r']),
        .ok (some "\r\n".toList), .ok (some ['b']), .ok none] ∧
      (ofData (Utf8.encode rest)).Delivers rest ∧
      (readLines 3 (readLines 2 source).2).1 = (readLines 3 (ofData (Utf8.encode rest))).1 := by
  intro source text rest
  have hsource : source.Delivers text :=
    ⟨[[0x61, 0x0D], [0x0A, 0x0D], [0x0D, 0x0A, 0x62]], rfl, by decide, by decide⟩
  have hrest : (ofData (Utf8.encode rest)).Delivers rest :=
    ⟨[Utf8.encode rest], rfl, by decide, List.append_nil _⟩
  have hlines : Text.lines text = ["a\r\n".toList, ['\r'], "\r\n".toList, ['b']] := by
    simp [text, Text.lines, Text.splitLine]
  obtain ⟨hparts, hresults, hlater⟩ := readLines_decomposes hsource
  refine ⟨hsource, (hparts _).mpr hlines.symm, ?_, hrest, ?_⟩
  · rw [hresults, hlines]
    rfl
  · obtain ⟨left, hleft, -, -, hreads⟩ := hlater 2
    rw [hlines] at hleft
    have hfront : "a\r\n\r".toList ++ rest = "a\r\n\r".toList ++ left := hleft
    obtain rfl := List.append_cancel_left hfront
    exact hreads _ 3 hrest

end Source

end TextEmbed
