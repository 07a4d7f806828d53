import TextEmbed.Proofs.Embedding.Meaning
import TextEmbed.Proofs.Source.Lines

/-!
# Inputs that are no text

A file is read line by line, and every line is decoded by itself. That finds what decoding the whole
file finds: the same byte strings are texts, and where one isn't, the first error is the same, told
from the start of its line. Everything in front of that line is written, nothing of the line itself
is, and the source is left behind it.

## Main definitions

* `Source.Reading.StopsInLine`: reading that fails in a line that is no text;
* `Ending.StopsInLine`: endings of runs that fail in such a line.

## Main results

* `Source.exists_stopsInLine` and `Source.exists_delivers_of_reading`: reading a source stops in the
  line of the first error, so only texts are read to their end;
* `embedInput_of_brings`: an input is embedded if it is a text, and otherwise up to that line.
-/

namespace TextEmbed

namespace Source

theorem lineOf_of_ne_nil {line : List UInt8} (h : line ≠ []) :
    lineOf (.ok line) =
      match Utf8.decode line with
      | .ok text => .ok (some text)
      | .error e => .error (.illFormed e) := by
  cases line with
  | nil => exact absurd rfl h
  | cons b bytes => rfl

/-- Reading goes on behind a line with what the line left. -/
theorem reading_of_readLine_eq_some (stripComments : Bool) {source left : Source}
    {line : List Char} (h : source.readLine = (.ok (some line), left)) :
    (source.reading stripComments).kept.map Prod.fst =
        (Line.contribution stripComments line).toList ++
          (left.reading stripComments).kept.map Prod.fst ∧
      (source.reading stripComments).result = (left.reading stripComments).result ∧
      (source.reading stripComments).left = (left.reading stripComments).left := by
  rw [reading_eq, h]
  simp only
  cases Line.contribution stripComments line <;> exact ⟨rfl, rfl, rfl⟩

/-- Reading a source that brings `data` stops in the line `line`, in front of which there are the
lines `before` and behind which there are the lines `after`. The first error of `data` is `e`. -/
structure Reading.StopsInLine (stripComments : Bool) (data : List UInt8) (e : Utf8.IllFormed)
    (before : List (List Char)) (line : List UInt8) (after : List (List UInt8))
    (reading : Reading) : Prop where
  lines_eq : lines data = before.map Utf8.encode ++ line :: after
  le_index : (Utf8.encode before.flatten).length ≤ e.index
  index_lt : e.index < (Utf8.encode before.flatten).length + line.length
  /-- What was read before are the lines in front. -/
  kept_eq : reading.kept.map Prod.fst = before.filterMap (Line.contribution stripComments)
  result_eq : reading.result =
    .error (.illFormed { e with index := e.index - (Utf8.encode before.flatten).length })
  /-- What is left are the lines behind. -/
  events_left : reading.left.events = after.flatten.map .byte
  last : e.length = none → after = [] ∧ ∀ b ∈ line, isTerminator b = false

/-- Reading stops in the first line if that is no text. -/
theorem stopsInLine_nil (stripComments : Bool) {source : Source} {b : UInt8} {rest : List UInt8}
    {e : Utf8.IllFormed} (h : source.events = (b :: rest).map .byte)
    (he : Utf8.decode (splitLine (b :: rest)).1 = .error e) :
    (source.reading stripComments).StopsInLine stripComments (b :: rest) e []
      (splitLine (b :: rest)).1 (lines (splitLine (b :: rest)).2) := by
  obtain ⟨hread, hleft⟩ := readLine_of_bytes h
  rw [lineOf_of_ne_nil (splitLine_ne_nil (List.cons_ne_nil b rest)), he] at hread
  rw [reading_eq, hread]
  exact
    { lines_eq := by rw [lines, List.map_nil, List.nil_append]
      le_index := Nat.zero_le _
      index_lt := by simpa using (Utf8.isGreatest_index he).2
      kept_eq := rfl
      result_eq := rfl
      events_left := by rw [flatten_lines]; exact hleft
      last := by
        intro hlength
        obtain ⟨hrest, hterminator⟩ := splitLine_of_length_eq_none he hlength
        exact ⟨by rw [hrest, lines], hterminator⟩ }

/-- A first line that is a text is read, and what stops reading stops it as far behind that line. -/
theorem Reading.StopsInLine.cons {stripComments : Bool} {source left : Source}
    {data rest line : List UInt8} {e : Utf8.IllFormed} {text : List Char}
    {before : List (List Char)} {after : List (List UInt8)}
    (h : (left.reading stripComments).StopsInLine stripComments rest e before line after)
    (hread : source.readLine = (.ok (some text), left))
    (hlines : lines data = Utf8.encode text :: lines rest) :
    (source.reading stripComments).StopsInLine stripComments data
      { e with index := e.index + (Utf8.encode text).length } (text :: before) line after := by
  obtain ⟨hkept, hresult, hleft⟩ := reading_of_readLine_eq_some stripComments hread
  have hlength : (Utf8.encode (text :: before).flatten).length =
      (Utf8.encode before.flatten).length + (Utf8.encode text).length := by
    rw [List.flatten_cons, Utf8.encode_append, List.length_append, Nat.add_comm]
  exact
    { lines_eq := by rw [hlines, h.lines_eq, List.map_cons, List.cons_append]
      le_index := by rw [hlength]; exact Nat.add_le_add_right h.le_index _
      index_lt := by
        rw [hlength, Nat.add_right_comm]
        exact Nat.add_lt_add_right h.index_lt _
      kept_eq := by rw [hkept, h.kept_eq, ← Text.filterMap_cons_eq_append]
      -- the error of the rest is told from the start of the rest
      result_eq := by rw [hresult, h.result_eq, hlength, Nat.add_sub_add_right]
      events_left := by rw [hleft, h.events_left]
      last := h.last }

/-- Reading a source that brings no text stops in the line of the first error. -/
theorem exists_stopsInLine (stripComments : Bool) {source : Source} {data : List UInt8}
    {e : Utf8.IllFormed} (h : source.events = data.map .byte) (he : Utf8.decode data = .error e) :
    ∃ before line after,
      (source.reading stripComments).StopsInLine stripComments data e before line after := by
  -- by induction on the lines: a line that is a text is read, and moves the error of the rest
  fun_induction lines data generalizing source e with
  | case1 =>
    have hnil : Utf8.decode [] = .ok [] := Utf8.decode_encode []
    simp [hnil] at he
  | case2 b rest ih =>
    obtain ⟨hread, hleft⟩ := readLine_of_bytes h
    have hwhole := decode_splitLine (b :: rest)
    rw [he] at hwhole
    cases hline : Utf8.decode (splitLine (b :: rest)).1 with
    | error f =>
      simp only [hline, Except.error.injEq] at hwhole
      subst hwhole
      exact ⟨[], _, _, stopsInLine_nil stripComments h hline⟩
    | ok text =>
      rw [lineOf_of_ne_nil (splitLine_ne_nil (List.cons_ne_nil b rest)), hline] at hread
      simp only [hline] at hwhole
      cases hrest : Utf8.decode (splitLine (b :: rest)).2 with
      | ok later => simp [hrest] at hwhole
      | error f =>
        have htext := Utf8.decode_eq_ok_iff.mp hline
        simp only [hrest, Except.error.injEq] at hwhole
        rw [hwhole, htext]
        obtain ⟨before, line, after, hstops⟩ := ih hleft hrest
        exact ⟨text :: before, line, after, hstops.cons hread (by rw [lines, htext])⟩

/-- Only texts are read to their end. -/
theorem exists_delivers_of_reading {stripComments : Bool} {source : Source} {data : List UInt8}
    (hdata : source.Brings data) (h : (source.reading stripComments).result = .ok ()) :
    ∃ text, source.Delivers text := by
  cases hdecode : Utf8.decode data with
  | error e =>
    obtain ⟨before, line, after, hstops⟩ :=
      exists_stopsInLine stripComments (brings_iff.mp hdata) hdecode
    rw [hstops.result_eq] at h
    cases h
  | ok text =>
    rw [Utf8.decode_eq_ok_iff.mp hdecode] at hdata
    exact ⟨text, hdata⟩

end Source

/-- The run on `input`, which brings `data`, fails in the line `line`, in front of which there are
the lines `before` and behind which there are the lines `after`. The first error of
`data` is `e`. -/
structure Ending.StopsInLine (settings : Settings) (input : Input) (data : List UInt8)
    (e : Utf8.IllFormed) (before : List (List Char)) (line : List UInt8)
    (after : List (List UInt8)) (sink : ByteSink) (ending : Ending ByteSink) : Prop where
  /-- The lines in front are texts. -/
  lines : Source.lines data = before.map Utf8.encode ++ line :: after
  /-- The error lies in the line. -/
  index : (Utf8.encode before.flatten).length ≤ e.index ∧
    e.index < (Utf8.encode before.flatten).length + line.length
  /-- It is told from the start of the line, and otherwise as it is. -/
  result : ∃ f, ending.result = .error (.read input.name f) ∧ f.kind = .invalidData ∧
    f = .illFormed { e with index := e.index - (Utf8.encode before.flatten).length }
  /-- The header and the fragments of the lines in front are written, and nothing else. -/
  written : ending.sink.written.toList = sink.written.toList ++ Utf8.encode
    (Declaration.header settings.pointerType (Identifier.ofName settings.lead input.name) ++
      '\n' :: (before.filterMap (Line.contribution settings.stripComments)).flatMap fun kept =>
        Declaration.fragmentLine kept ++ ['\n'])
  /-- The source is left behind the line. -/
  inputs : ∃ left : Source, ending.inputs = [{ input with source := left }] ∧
    left.Brings after.flatten
  /-- Only the last line can end in the middle of a sequence, and only without a terminator. -/
  last : e.length = none → after = [] ∧ ∀ b ∈ line, Source.isTerminator b = false

/-- The run on one input into a sink without a limit. -/
theorem embedInput_eq_of_limit_eq_none (settings : Settings) (input : Input) {sink : ByteSink}
    (hlimit : sink.limit = none) (hstep : sink.step ≠ some 0) :
    embedInput settings input sink =
      (input.transcript settings).ending
        (sink.extend (bytesOf (input.transcript settings).lines)) := by
  rw [embedInput_eq_play]
  exact Transcript.play_eq_ending hstep (ByteSink.fits_of_limit_eq_none hlimit _)

/-- The bytes of an input whose source fails are the header and the fragments of what was read. -/
theorem bytesOf_transcript_of_error {settings : Settings} {input : Input} {f : Fault}
    (h : (input.source.reading settings.stripComments).result = .error f) :
    bytesOf (input.transcript settings).lines = Utf8.encode
      (Declaration.header settings.pointerType (Identifier.ofName settings.lead input.name) ++
        '\n' :: ((input.source.reading settings.stripComments).kept.map Prod.fst).flatMap
          fun kept => Declaration.fragmentLine kept ++ ['\n']) := by
  simp only [bytesOf_eq_encode, Input.transcript, h, Source.Reading.fragments, List.map_cons,
    List.map_map, List.flatMap_cons, List.flatMap_map, List.append_assoc, List.singleton_append]
  rfl

/-- Decoding line by line agrees with decoding the whole file. An input is embedded if its bytes are
a text. Otherwise the run stops in the line of the first error, which stands behind the longest
start of the bytes that is a text. -/
theorem embedInput_of_brings (settings : Settings) {input : Input} {data : List UInt8}
    (hdata : input.source.Brings data) {sink : ByteSink} (hlimit : sink.limit = none)
    (hstep : sink.step ≠ some 0) :
    ((embedInput settings input sink).result = .ok () ↔ Utf8.IsValid data) ∧
      (¬ Utf8.IsValid data → ∃ e, Utf8.decode data = .error e ∧
        IsGreatest {n | n ≤ data.length ∧ Utf8.IsValid (data.take n)} e.index ∧
        ∃ before line after, (embedInput settings input sink).StopsInLine settings input data e
          before line after sink) := by
  rw [embedInput_eq_of_limit_eq_none settings input hlimit hstep]
  have hevents := Source.brings_iff.mp hdata
  cases hdecode : Utf8.decode data with
  | ok text =>
    have hvalid : Utf8.IsValid data := Utf8.isValid_iff.mpr ⟨text, hdecode⟩
    rw [Utf8.decode_eq_ok_iff.mp hdecode] at hevents
    have hresult := (Source.reading_of_events settings.stripComments hevents).1
    refine ⟨iff_of_true ?_ hvalid, fun h => absurd hvalid h⟩
    simp only [Transcript.ending, Input.transcript, hresult]
  | error e =>
    have hinvalid : ¬ Utf8.IsValid data := by
      rw [Utf8.isValid_iff, hdecode]
      simp
    obtain ⟨before, line, after, hstops⟩ :=
      Source.exists_stopsInLine settings.stripComments hevents hdecode
    have hresult := hstops.result_eq
    refine ⟨iff_of_false ?_ hinvalid, fun _ =>
      ⟨e, rfl, (Utf8.isGreatest_index hdecode).1, before, line, after, ?_⟩⟩
    · simp [Transcript.ending, Input.transcript, hresult]
    · exact
        { lines := hstops.lines_eq
          index := ⟨hstops.le_index, hstops.index_lt⟩
          result := ⟨_, by simp only [Transcript.ending, Input.transcript, hresult], rfl, rfl⟩
          written := by
            rw [Transcript.ending, ByteSink.toList_written_extend,
              bytesOf_transcript_of_error hresult, hstops.kept_eq]
          inputs := ⟨_, rfl, Source.brings_iff.mpr hstops.events_left⟩
          last := hstops.last }

/-- For example a file whose second line has a sequence that the line feed breaks off, in fills that
tear the sequence and the terminator in front. -/
theorem embedInput_of_brings_torn :
    let source : Source :=
      [.bytes [0x78, 0x0D], .bytes [0x0A, 0x79, 0xE2], .bytes [0x82, 0x0A, 0x7A]]
    let input : Input := { name := ['a'], source }
    let data : List UInt8 := [0x78, 0x0D, 0x0A, 0x79, 0xE2, 0x82, 0x0A, 0x7A]
    input.source.Brings data ∧ ¬ Utf8.IsValid data ∧
      (embedInput {} input ({} : ByteSink)).StopsInLine {} input data
        { index := 4, length := some 2 } [['x', '\r', '\n']] [0x79, 0xE2, 0x82, 0x0A] [[0x7A]]
        {} := by
  intro source input data
  have hdata : input.source.Brings data :=
    ⟨[[0x78, 0x0D], [0x0A, 0x79, 0xE2], [0x82, 0x0A, 0x7A]], rfl, by decide, rfl⟩
  have hdecode : Utf8.decode data = .error { index := 4, length := some 2 } := by decide +kernel
  have hinvalid : ¬ Utf8.IsValid data := by
    rw [Utf8.isValid_iff, hdecode]
    simp
  have hsplit : Source.lines data = [[0x78, 0x0D, 0x0A], [0x79, 0xE2, 0x82, 0x0A], [0x7A]] := by
    decide +kernel
  have hlimit : ({} : ByteSink).limit = none := rfl
  obtain ⟨-, hstops⟩ := embedInput_of_brings {} hdata hlimit (by simp)
  obtain ⟨e, he, -, before, line, after, h⟩ := hstops hinvalid
  obtain rfl : { index := 4, length := some 2 } = e := Except.error.inj (hdecode.symm.trans he)
  have hlines := h.lines
  rw [hsplit] at hlines
  -- the byte number 4 lies in the second line
  obtain ⟨hstart, hend⟩ := h.index
  match before with
  | [] =>
    obtain ⟨rfl, -⟩ := List.cons.inj hlines
    exact absurd hend (by decide)
  | [first] =>
    obtain ⟨hfirst, hrest⟩ := List.cons.inj hlines
    obtain ⟨rfl, rfl⟩ := List.cons.inj hrest
    have hbytes : Utf8.encode ['x', '\r', '\n'] = [0x78, 0x0D, 0x0A] := rfl
    obtain rfl := Utf8.encode_injective (hfirst.symm.trans hbytes.symm)
    exact ⟨hdata, hinvalid, h⟩
  | first :: second :: rest =>
    obtain ⟨hfirst, hrest⟩ := List.cons.inj hlines
    obtain ⟨hsecond, -⟩ := List.cons.inj hrest
    rw [List.flatten_cons, List.flatten_cons, Utf8.encode_append, Utf8.encode_append, ← hfirst,
      ← hsecond] at hstart
    simp only [List.length_append, List.length_cons, List.length_nil] at hstart
    omega

end TextEmbed
