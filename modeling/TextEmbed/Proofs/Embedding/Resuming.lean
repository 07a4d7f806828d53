import Mathlib.Data.List.GetD
import TextEmbed.Proofs.Embedding.IllFormed
import TextEmbed.Proofs.Embedding.Literals

/-!
# Reading on behind a line that is no text

A declaration that fails in a line that is no text leaves its source right behind that line. So it
can be begun again there, as often as there are such lines, and each time it gets the lines up to
the next of them. The lines of the rest are those that the whole has there, so every line that is a
text is written exactly once, in order. The last declaration is completed, and there is nothing left
for any further one.

## Main definitions

* `afterCalls`: where some calls leave an input and a sink;
* `Ending.FailsBehind` and `Ending.Completes`: calls that stop in a line that is no text, and calls
  that don't.

## Main results

* `Source.exists_rows`: the lines that are no texts cut the others into rows;
* `embedInput_of_rows`: one call takes a row;
* `embedInput_resumes`: the calls one after the other.
-/

namespace TextEmbed

namespace Source

/-- Behind some lines of a byte string are the lines of what is behind them. -/
theorem lines_flatten_of_append {data : List UInt8} {front back : List (List UInt8)}
    (h : lines data = front ++ back) : lines back.flatten = back := by
  fun_induction lines data generalizing front with
  | case1 =>
    obtain ⟨-, rfl⟩ := List.append_eq_nil_iff.mp h.symm
    simp [lines]
  | case2 b rest ih =>
    cases front with
    | nil =>
      rw [List.nil_append] at h
      rw [← h, List.flatten_cons, flatten_lines, splitLine_append, lines]
    | cons line front => exact ih (List.cons.inj h).2

/-- A source that brings a text has nothing left when the text was read. -/
theorem events_left_reading (stripComments : Bool) {source : Source} {text : List Char}
    (h : source.events = (Utf8.encode text).map .byte) :
    (source.reading stripComments).left.events = [] := by
  fun_induction Text.lines text generalizing source with
  | case1 =>
    have hline : source.readLine = (.ok none, source.readLine.2) :=
      Prod.ext (readLine_of_eq_nil h) rfl
    rw [reading_eq, hline]
    exact (readLine_of_events h).2
  | case2 c rest ih =>
    have hline : source.readLine = (.ok (some (Text.splitLine (c :: rest)).1), source.readLine.2) :=
      Prod.ext (readLine_of_ne_nil (by simp) h) rfl
    rw [(reading_of_readLine_eq_some stripComments hline).2.2]
    exact ih (readLine_of_events h).2

/-- The line that reading stops in is no text: if it were, the first error would stand behind it. -/
theorem Reading.StopsInLine.not_isValid {stripComments : Bool} {data line : List UInt8}
    {e : Utf8.IllFormed} {before : List (List Char)} {after : List (List UInt8)} {reading : Reading}
    (h : reading.StopsInLine stripComments data e before line after)
    (he : Utf8.decode data = .error e) : ¬ Utf8.IsValid line := by
  rintro ⟨text, rfl⟩
  have hdata : data = Utf8.encode (before.flatten ++ text) ++ after.flatten := by
    rw [← flatten_lines data, h.lines_eq, List.flatten_append, List.flatten_cons,
      Utf8.encode_append, List.append_assoc, ← Utf8.encode_flatten]
  have hgreatest := (Utf8.isGreatest_index he).1.2
  have hle := hgreatest (a := (Utf8.encode (before.flatten ++ text)).length)
    ⟨by rw [hdata]; simp, by rw [hdata, List.take_left]; exact ⟨_, rfl⟩⟩
  have hlt := h.index_lt
  rw [Utf8.encode_append, List.length_append] at hle
  omega

/-! ## Rows of lines -/

/-- The line is no text. -/
def isIllFormed (line : List UInt8) : Bool :=
  decide (¬ Utf8.IsValid line)

theorem isIllFormed_encode (text : List Char) : isIllFormed (Utf8.encode text) = false := by
  simp only [isIllFormed, decide_eq_false_iff_not, not_not]
  exact ⟨text, rfl⟩

/-- Cut at those that are no text, lines fall apart into rows of texts, of which there is one more
than there are cuts. -/
theorem exists_rows (parts : List (List UInt8)) :
    ∃ rows : List (List (List Char)),
      parts.splitOnP isIllFormed = rows.map (List.map Utf8.encode) ∧
        rows.length = parts.countP isIllFormed + 1 ∧
        rows.flatten.map Utf8.encode = parts.filter (!isIllFormed ·) := by
  induction parts with
  | nil => exact ⟨[[]], List.splitOnP_nil, rfl, rfl⟩
  | cons part parts ih =>
    obtain ⟨rows, hrows, hlength, hflatten⟩ := ih
    rw [List.splitOnP_cons_eq_if_modifyHead]
    cases hpart : isIllFormed part with
    | true =>
      exact ⟨[] :: rows, by simp [hrows], by simp [hpart, hlength], by simp [hpart, hflatten]⟩
    | false =>
      obtain ⟨text, rfl⟩ : Utf8.IsValid part := by simpa [isIllFormed] using hpart
      cases rows with
      | nil => simp at hlength
      | cons row rows =>
        refine ⟨(text :: row) :: rows, by simp [hrows], by simpa [hpart] using hlength, ?_⟩
        simpa [hpart] using hflatten

/-- Texts are one row. -/
theorem splitOnP_map_encode (texts : List (List Char)) :
    (texts.map Utf8.encode).splitOnP isIllFormed = [texts.map Utf8.encode] := by
  apply List.splitOnP_eq_singleton
  intro line hline
  obtain ⟨text, -, rfl⟩ := List.mem_map.mp hline
  exact isIllFormed_encode text

/-- A line that is no text ends a row. -/
theorem splitOnP_append_cons {line : List UInt8} (h : ¬ Utf8.IsValid line)
    (texts : List (List Char)) (after : List (List UInt8)) :
    (texts.map Utf8.encode ++ line :: after).splitOnP isIllFormed =
      texts.map Utf8.encode :: after.splitOnP isIllFormed := by
  rw [List.splitOnP_append_cons _ _ (by simpa [isIllFormed] using h), splitOnP_map_encode,
    List.singleton_append]

theorem map_map_encode_injective :
    Function.Injective (List.map (List.map Utf8.encode)) :=
  List.map_injective_iff.mpr (List.map_injective_iff.mpr Utf8.encode_injective)

end Source

/-- A declaration up to its fragments, as text. -/
def Declaration.beginning (pointerType : List Char) (declaration : Declaration) : List Char :=
  header pointerType declaration.identifier ++ ['\n'] ++ declaration.initializer

/-- Where some calls leave an input and a sink. Each call writes the declaration of the input, and
reads on where the one before stopped. -/
def afterCalls (settings : Settings) : Nat → Input → ByteSink → Input × ByteSink
  | 0, input, sink => (input, sink)
  | calls + 1, input, sink =>
    let ending := embedInput settings input sink
    afterCalls settings calls (ending.inputs.headD input) ending.sink

/-- The call fails in a line that is no text, and has written the declaration of `name` up to the
fragments of `lines`. -/
structure Ending.FailsBehind (settings : Settings) (name : List Char) (lines : List (List Char))
    (sink : ByteSink) (ending : Ending ByteSink) : Prop where
  result : ∃ f, ending.result = .error (.read name f) ∧ f.kind = .invalidData
  written : ending.sink.written.toList = sink.written.toList ++ Utf8.encode
    (Declaration.beginning settings.pointerType
      { identifier := Identifier.ofName settings.lead name
        body := lines.filterMap (Line.contribution settings.stripComments) })

/-- The call succeeds, and has written the declaration of `name` with the fragments of `lines`. -/
structure Ending.Completes (settings : Settings) (name : List Char) (lines : List (List Char))
    (sink : ByteSink) (ending : Ending ByteSink) : Prop where
  result : ending.result = .ok ()
  written : ending.sink.written.toList = sink.written.toList ++ Utf8.encode
    (Declaration.render settings.pointerType
      { identifier := Identifier.ofName settings.lead name
        body := lines.filterMap (Line.contribution settings.stripComments) })

/-- The call leaves `rest` of an input, and a sink with the bounds that it had. -/
structure Ending.Leaves (input : Input) (rest : List UInt8) (sink : ByteSink)
    (ending : Ending ByteSink) : Prop where
  inputs : ∃ next : Input, ending.inputs = [next] ∧ next.name = input.name ∧ next.source.Brings rest
  limit : ending.sink.limit = sink.limit
  step : ending.sink.step = sink.step

section Calls

variable (settings : Settings) {input : Input} {data : List UInt8} {sink : ByteSink}

/-- A call on a text completes the declaration. -/
theorem completes_of_decode_eq_ok {text : List Char}
    (hdata : input.source.Brings (Utf8.encode text)) (hlimit : sink.limit = none)
    (hstep : sink.step ≠ some 0) :
    (embedInput settings input sink).Completes settings input.name (Text.lines text) sink ∧
      (embedInput settings input sink).Leaves input [] sink := by
  have hevents := Source.brings_iff.mp hdata
  obtain ⟨hresult, hkept⟩ := Source.reading_of_events settings.stripComments hevents
  have hleft := Source.events_left_reading settings.stripComments hevents
  rw [embedInput_eq_of_limit_eq_none settings input hlimit hstep]
  refine ⟨⟨?_, ?_⟩, ⟨_, rfl, rfl, Source.brings_iff.mpr hleft⟩, rfl, rfl⟩
  · simp only [Transcript.ending, Input.transcript, hresult]
  · rw [Transcript.ending, ByteSink.toList_written_extend, bytesOf_transcript_of_reading hresult,
      Input.declaration, hkept]

/-- A call on bytes that are no text stops in the first line that is none. -/
theorem exists_failsBehind_of_decode_eq_error {e : Utf8.IllFormed}
    (hdata : input.source.Brings data) (he : Utf8.decode data = .error e)
    (hlimit : sink.limit = none) (hstep : sink.step ≠ some 0) :
    ∃ before line after, Source.lines data = before.map Utf8.encode ++ line :: after ∧
      ¬ Utf8.IsValid line ∧
      (embedInput settings input sink).FailsBehind settings input.name before sink ∧
      (embedInput settings input sink).Leaves input after.flatten sink := by
  obtain ⟨before, line, after, hstops⟩ :=
    Source.exists_stopsInLine settings.stripComments (Source.brings_iff.mp hdata) he
  have hresult := hstops.result_eq
  have hleft := Source.brings_iff.mpr hstops.events_left
  have hfails : (input.transcript settings).result = .error (.read input.name (.illFormed
      { e with index := e.index - (Utf8.encode before.flatten).length })) := by
    simp only [Input.transcript, hresult]
  rw [embedInput_eq_of_limit_eq_none settings input hlimit hstep]
  refine ⟨before, line, after, hstops.lines_eq, hstops.not_isValid he, ⟨⟨_, hfails, rfl⟩, ?_⟩,
    ⟨_, rfl, rfl, hleft⟩, rfl, rfl⟩
  rw [Transcript.ending, ByteSink.toList_written_extend, bytesOf_transcript_of_error hresult,
    hstops.kept_eq, Declaration.beginning, Declaration.initializer, List.append_assoc,
    List.singleton_append]

/-- A call takes the first row of the lines. It fails if there are others, and leaves these. -/
theorem embedInput_of_rows (hdata : input.source.Brings data) (hlimit : sink.limit = none)
    (hstep : sink.step ≠ some 0) {rows : List (List (List Char))}
    (hrows : (Source.lines data).splitOnP Source.isIllFormed = rows.map (List.map Utf8.encode)) :
    (∃ row, rows = [row] ∧ (embedInput settings input sink).Completes settings input.name row sink ∧
        (embedInput settings input sink).Leaves input [] sink) ∨
      ∃ row others rest, rows = row :: others ∧ others ≠ [] ∧
        (Source.lines rest).splitOnP Source.isIllFormed = others.map (List.map Utf8.encode) ∧
        (embedInput settings input sink).FailsBehind settings input.name row sink ∧
        (embedInput settings input sink).Leaves input rest sink := by
  cases hdecode : Utf8.decode data with
  | ok text =>
    obtain rfl := Utf8.decode_eq_ok_iff.mp hdecode
    have hone : [Text.lines text] = rows := by
      apply Source.map_map_encode_injective
      rw [← hrows, Source.lines_encode, Source.splitOnP_map_encode, List.map_singleton]
    exact .inl ⟨_, hone.symm, completes_of_decode_eq_ok settings hdata hlimit hstep⟩
  | error e =>
    obtain ⟨before, line, after, hlines, hline, hfails, hleaves⟩ :=
      exists_failsBehind_of_decode_eq_error settings hdata hdecode hlimit hstep
    rw [hlines, Source.splitOnP_append_cons hline] at hrows
    obtain ⟨row, others, rfl, hrow, hothers⟩ := List.map_eq_cons_iff.mp hrows.symm
    obtain rfl : row = before := List.map_injective_iff.mpr Utf8.encode_injective hrow
    have hne : others ≠ [] := by
      rintro rfl
      exact List.splitOnP_ne_nil _ _ hothers.symm
    -- the lines behind the line are those of the bytes behind it
    have hsplit : Source.lines data = row.map Utf8.encode ++ [line] ++ after := by
      rw [hlines, List.append_assoc, List.singleton_append]
    have hafter := Source.lines_flatten_of_append hsplit
    exact .inr ⟨row, others, _, rfl, hne, by rw [hafter, hothers], hfails, hleaves⟩

/-- Each call takes the next row of the lines, and fails as long as there are others behind. -/
theorem embedInput_afterCalls (calls : Nat) (hdata : input.source.Brings data)
    (hlimit : sink.limit = none) (hstep : sink.step ≠ some 0) {rows : List (List (List Char))}
    (hrows : (Source.lines data).splitOnP Source.isIllFormed = rows.map (List.map Utf8.encode)) :
    let state := afterCalls settings calls input sink
    let ending := embedInput settings state.1 state.2
    (calls + 1 < rows.length →
        ending.FailsBehind settings input.name (rows.getD calls []) state.2) ∧
      (rows.length ≤ calls + 1 →
        ending.Completes settings input.name (rows.getD calls []) state.2) := by
  induction calls generalizing input data sink rows with
  | zero =>
    intro state ending
    rcases embedInput_of_rows settings hdata hlimit hstep hrows with
      ⟨row, rfl, hcompletes, -⟩ | ⟨row, others, rest, rfl, hothers, -, hfails, -⟩
    · exact ⟨fun h => absurd h (by simp), fun _ => hcompletes⟩
    · have hlength := List.length_pos_iff.mpr hothers
      exact ⟨fun _ => hfails, fun h => absurd h (by rw [List.length_cons]; omega)⟩
  | succ calls ih =>
    -- the calls behind the first one are the calls on what it leaves
    rcases embedInput_of_rows settings hdata hlimit hstep hrows with
      ⟨row, rfl, -, hleaves⟩ | ⟨row, others, rest, rfl, -, hothers, -, hleaves⟩
    · obtain ⟨next, hinputs, hname, hnext⟩ := hleaves.inputs
      have hnone : (Source.lines []).splitOnP Source.isIllFormed =
          [[]].map (List.map Utf8.encode) := by
        simp [Source.lines]
      have hrow : ([[]] : List (List (List Char))).getD calls [] = [] := by cases calls <;> rfl
      obtain ⟨-, hcompletes⟩ := ih hnext (hleaves.limit.trans hlimit)
        (hleaves.step.symm ▸ hstep) hnone
      rw [hname, hrow] at hcompletes
      simp only [afterCalls, hinputs, List.headD_cons]
      exact ⟨fun h => absurd h (by simp), fun _ => hcompletes (by simp)⟩
    · obtain ⟨next, hinputs, hname, hnext⟩ := hleaves.inputs
      have hlater := ih hnext (hleaves.limit.trans hlimit) (hleaves.step.symm ▸ hstep) hothers
      simp only [hname] at hlater
      simp only [afterCalls, hinputs, List.headD_cons, List.length_cons, Nat.add_lt_add_iff_right,
        Nat.add_le_add_iff_right]
      exact hlater

end Calls

/-- A source can be read on behind every line that is no text. If `data` has some such lines, then
as many calls fail in them, one in each, and every later call succeeds. The calls write the rows of
lines between these lines, each with a header of its own. In these rows every line that is a text
stands once, in order. Behind the first call that succeeds nothing is left, so the next one writes a
declaration without fragments. -/
theorem embedInput_resumes (settings : Settings) {input : Input} {data : List UInt8}
    (hdata : input.source.Brings data) {sink : ByteSink} (hlimit : sink.limit = none)
    (hstep : sink.step ≠ some 0) :
    let failures := (Source.lines data).countP Source.isIllFormed
    ∃ rows : List (List (List Char)),
      (Source.lines data).splitOnP Source.isIllFormed = rows.map (List.map Utf8.encode) ∧
      rows.length = failures + 1 ∧
      rows.flatten.map Utf8.encode = (Source.lines data).filter (!Source.isIllFormed ·) ∧
      ∀ calls,
        let state := afterCalls settings calls input sink
        let ending := embedInput settings state.1 state.2
        (calls < failures →
          ending.FailsBehind settings input.name (rows.getD calls []) state.2) ∧
        (calls = failures →
          ending.Completes settings input.name (rows.getD calls []) state.2) ∧
        (failures < calls → ending.Completes settings input.name [] state.2) := by
  intro failures
  obtain ⟨rows, hrows, hlength, hflatten⟩ := Source.exists_rows (Source.lines data)
  refine ⟨rows, hrows, hlength, hflatten, fun calls => ?_⟩
  obtain ⟨hfails, hcompletes⟩ := embedInput_afterCalls settings calls hdata hlimit hstep hrows
  refine ⟨fun h => hfails (by omega), fun h => hcompletes (by omega), fun h => ?_⟩
  have hbehind : rows.getD calls [] = [] :=
    List.getD_eq_default _ _ (by omega)
  rw [← hbehind]
  exact hcompletes (by omega)

/-- For example a file whose second line is no text, and whose last line ends in the middle of a
sequence, in fills that tear the terminator between them. -/
theorem embedInput_resumes_incomplete :
    let source : Source :=
      [.bytes [0x78, 0x0A, 0xFF], .bytes [0x0D], .bytes [0x0A, 0x79, 0x0D, 0xC3]]
    let input : Input := { name := ['a'], source }
    let data : List UInt8 := [0x78, 0x0A, 0xFF, 0x0D, 0x0A, 0x79, 0x0D, 0xC3]
    let sink := fun calls => (afterCalls {} calls input {}).2
    let call := fun calls => embedInput {} (afterCalls {} calls input {}).1 (sink calls)
    input.source.Brings data ∧
      (call 0).FailsBehind {} ['a'] [['x', '\n']] (sink 0) ∧
      (call 1).FailsBehind {} ['a'] [['y', '\r']] (sink 1) ∧
      (call 2).Completes {} ['a'] [] (sink 2) ∧ (call 3).Completes {} ['a'] [] (sink 3) := by
  intro source input data sink call
  have hdata : input.source.Brings data :=
    ⟨[[0x78, 0x0A, 0xFF], [0x0D], [0x0A, 0x79, 0x0D, 0xC3]], rfl, by decide, rfl⟩
  have hlimit : ({} : ByteSink).limit = none := rfl
  obtain ⟨rows, hrows, hlength, -, hcalls⟩ := embedInput_resumes {} hdata hlimit (by simp)
  have hfailures : (Source.lines data).countP Source.isIllFormed = 2 := by decide +kernel
  have hsplit : (Source.lines data).splitOnP Source.isIllFormed =
      [[['x', '\n']], [['y', '\r']], []].map (List.map Utf8.encode) := by decide +kernel
  obtain rfl := Source.map_map_encode_injective (hrows.symm.trans hsplit)
  rw [hfailures] at hcalls
  exact ⟨hdata, (hcalls 0).1 (by decide), (hcalls 1).1 (by decide), (hcalls 2).2.1 rfl,
    (hcalls 3).2.2 (by decide)⟩

end TextEmbed
