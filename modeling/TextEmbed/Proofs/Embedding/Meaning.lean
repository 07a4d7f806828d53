import TextEmbed.Proofs.Embedding.Bytes
import TextEmbed.Proofs.Source.Text

/-!
# What runs mean

A run on files that are texts writes one block of C text per file, in the order of the files. The
block is a matter of the name and the text of the file: the text is cut at every single line feed
and carriage return, and every piece that contributes something becomes a fragment. How the bytes of
the file fall into fills, how its lines end and which of them are blank can't be seen.

## Main definitions

* `TextFile`: a file as its name and text, with its `body`, `declaration` and `block`;
* `Input.Delivers`: inputs that bring the text of a file.

## Main results

* `TextFile.block_eq_render`: the block of a file is its declaration as text;
* `lines_transcript_of_delivers`: the lines of a run are those of the declarations;
* `embed_eq_blocks`: runs write the blocks of their files.
-/

namespace TextEmbed

/-- A file whose contents are a text. -/
structure TextFile where
  /-- The base name of the file. -/
  name : List Char
  /-- The contents. -/
  text : List Char

namespace TextFile

/-- What is embedded of a file: what is kept of the pieces between its line feeds and carriage
returns. -/
def body (stripComments : Bool) (file : TextFile) : List (List Char) :=
  (file.text.splitOnP Text.isLineEnd).filterMap (Line.contribution stripComments)

/-- The declaration of a file. -/
def declaration (settings : Settings) (file : TextFile) : Declaration where
  identifier := Identifier.ofName settings.lead file.name
  body := file.body settings.stripComments

/-- The block of C text that stands for a file. -/
def block (settings : Settings) (file : TextFile) : List Char :=
  "static const ".toList ++ settings.pointerType ++ [' '] ++ settings.lead ++
      file.name.map Identifier.symbolChar ++ " =\n".toList ++
    ((file.body settings.stripComments).flatMap fun kept =>
      "    ".toList ++ Fragment.ofLine kept ++ ['\n']) ++
    "    ;\n\n".toList

/-- The block of a file is its declaration as text. -/
theorem block_eq_render (settings : Settings) (file : TextFile) :
    file.block settings = (file.declaration settings).render settings.pointerType := by
  have hend : " =\n".toList = " =".toList ++ ['\n'] := rfl
  have hclosing : "    ;\n\n".toList = Declaration.closing ++ ['\n'] := rfl
  have hfragment : Declaration.fragmentLine = fun kept => "    ".toList ++ Fragment.ofLine kept :=
    rfl
  dsimp only [block, declaration, Declaration.render, Declaration.lines, Declaration.header,
    Identifier.ofName]
  rw [hend, hclosing, hfragment]
  -- what the literals are makes no difference any more
  generalize "static const ".toList = opening, " =".toList = equals, "    ".toList = indent,
    Declaration.closing = closing
  simp only [List.flatMap_cons, List.flatMap_append, List.flatMap_map, List.flatMap_nil,
    List.append_assoc, List.cons_append, List.nil_append, List.append_nil]

end TextFile

/-- The source brings the bytes of the text of `file`, in fills that are not empty, and the name is
that of the file. -/
def Input.Delivers (input : Input) (file : TextFile) : Prop :=
  input.name = file.name ∧ input.source.Delivers file.text

/-- What is read of a source that has a text left is what the lines of the text contribute. -/
theorem Source.reading_of_events (stripComments : Bool) {source : Source} {text : List Char}
    (h : source.events = (Utf8.encode text).map .byte) :
    (source.reading stripComments).result = .ok () ∧
      (source.reading stripComments).kept.map Prod.fst =
        (Text.lines text).filterMap (Line.contribution stripComments) := by
  -- by induction on the lines of the text: each call leaves the text behind the first line
  fun_induction Text.lines text generalizing source with
  | case1 =>
    have hline : source.readLine = (.ok none, source.readLine.2) :=
      Prod.ext (readLine_of_eq_nil h) rfl
    rw [Source.reading_eq, hline]
    exact ⟨rfl, rfl⟩
  | case2 c rest ih =>
    have hline : source.readLine = (.ok (some (Text.splitLine (c :: rest)).1), source.readLine.2) :=
      Prod.ext (readLine_of_ne_nil (by simp) h) rfl
    obtain ⟨hresult, hkept⟩ := ih (readLine_of_events h).2
    rw [Source.reading_eq, hline, List.filterMap_cons]
    simp only
    cases Line.contribution stripComments (Text.splitLine (c :: rest)).1 with
    | none => exact ⟨hresult, hkept⟩
    | some kept => exact ⟨hresult, congrArg (kept :: ·) hkept⟩

/-! ## Transcripts -/

/-- The lines of an input that is read to its end are those of one declaration. -/
theorem lines_transcript_of_reading {settings : Settings} {input : Input}
    (h : (input.source.reading settings.stripComments).result = .ok ()) :
    (input.transcript settings).result = .ok () ∧
      (input.transcript settings).lines.map Prod.fst =
        Declaration.lines settings.pointerType
          { identifier := Identifier.ofName settings.lead input.name
            body := (input.source.reading settings.stripComments).kept.map Prod.fst } := by
  refine ⟨by simp only [Input.transcript, h], ?_⟩
  simp only [Input.transcript, h, Source.Reading.fragments, List.cons_append, List.map_cons,
    List.map_append, List.map_map, List.map_nil, Declaration.lines]
  rfl

/-- The declaration of what is read of an input. -/
def Input.declaration (settings : Settings) (input : Input) : Declaration where
  identifier := Identifier.ofName settings.lead input.name
  body := (input.source.reading settings.stripComments).kept.map Prod.fst

/-- The bytes of an input that is read to its end are those of its declaration. -/
theorem bytesOf_transcript_of_reading {settings : Settings} {input : Input}
    (h : (input.source.reading settings.stripComments).result = .ok ()) :
    bytesOf (input.transcript settings).lines =
      Utf8.encode ((input.declaration settings).render settings.pointerType) := by
  rw [bytesOf_eq_encode, (lines_transcript_of_reading h).2]
  rfl

/-- What is read of an input that delivers a file is what its declaration is made of. -/
theorem reading_of_delivers (settings : Settings) {input : Input} {file : TextFile}
    (h : input.Delivers file) :
    (input.source.reading settings.stripComments).result = .ok () ∧
      { identifier := Identifier.ofName settings.lead input.name
        body := (input.source.reading settings.stripComments).kept.map Prod.fst } =
        file.declaration settings := by
  obtain ⟨hname, hsource⟩ := h
  obtain ⟨hresult, hkept⟩ := Source.reading_of_events settings.stripComments hsource.events
  -- lines are read, pieces are what the declaration is made of
  rw [Text.filterMap_lines] at hkept
  rw [hname, hkept]
  exact ⟨hresult, rfl⟩

/-- The lines of an input that delivers a file are those of the declaration of the file. -/
theorem lines_transcript_of_delivers (settings : Settings) {input : Input} {file : TextFile}
    (h : input.Delivers file) :
    (input.transcript settings).result = .ok () ∧
      (input.transcript settings).lines.map Prod.fst =
        (file.declaration settings).lines settings.pointerType := by
  obtain ⟨hresult, hdeclaration⟩ := reading_of_delivers settings h
  rw [← hdeclaration]
  exact lines_transcript_of_reading hresult

/-- The lines of a run on files are those of the declarations of the files, in order. -/
theorem lines_transcriptFrom_of_delivers (settings : Settings) (written : Nat)
    {inputs : List Input} {files : List TextFile} (h : List.Forall₂ Input.Delivers inputs files) :
    (transcriptFrom settings written inputs).result = .ok () ∧
      (transcriptFrom settings written inputs).lines.map Prod.fst =
        files.flatMap fun file => (file.declaration settings).lines settings.pointerType := by
  induction h generalizing written with
  | nil => exact ⟨rfl, rfl⟩
  | cons hinput _ ih =>
    obtain ⟨hresult, hlines⟩ := lines_transcript_of_delivers settings hinput
    obtain ⟨hresults, hrest⟩ := ih (written + 1)
    refine ⟨by simp only [transcriptFrom, Transcript.followedBy, hresult, hresults], ?_⟩
    rw [lines_transcriptFrom_of_ok hresult, List.map_append, List.map_map, List.flatMap_cons,
      ← hlines, ← hrest]
    rfl

/-- The bytes of a run on files are those of the blocks of the files, in order. -/
theorem bytesOf_transcript_of_delivers (settings : Settings) {inputs : List Input}
    {files : List TextFile} (h : List.Forall₂ Input.Delivers inputs files) :
    bytesOf (transcript settings inputs).lines =
      Utf8.encode (files.flatMap fun file => (file.declaration settings).render
        settings.pointerType) := by
  rw [bytesOf_eq_encode, transcript, (lines_transcriptFrom_of_delivers settings 0 h).2,
    List.flatMap_assoc]
  rfl

/-! ## Runs -/

theorem result_embed_of_delivers (settings : Settings) {inputs : List Input}
    {files : List TextFile} (hinputs : List.Forall₂ Input.Delivers inputs files) {sink : ByteSink}
    (hlimit : sink.limit = none) (hstep : sink.step ≠ some 0) :
    (embed settings inputs sink).result = .ok () := by
  rw [embed_eq_of_limit_eq_none settings inputs hlimit hstep]
  exact (lines_transcriptFrom_of_delivers settings 0 hinputs).1

/-- What a run means. On files that are texts, delivered in any fills, into a sink that takes
everything, a run succeeds and writes the blocks of the files in order. In a block, it makes no
difference which terminators end the lines of the file, and neither does whether one ends the last
line. -/
theorem embed_eq_blocks (settings : Settings) {inputs : List Input} {files : List TextFile}
    (hinputs : List.Forall₂ Input.Delivers inputs files) {sink : ByteSink}
    (hlimit : sink.limit = none) (hstep : sink.step ≠ some 0) :
    (embed settings inputs sink).result = .ok () ∧
      (embed settings inputs sink).sink.written.toList =
        sink.written.toList ++ Utf8.encode (files.flatMap (TextFile.block settings)) ∧
      ∀ (ended : List (List Char × List Char)) (last : List Char),
        (∀ entry ∈ ended, (∀ c ∈ entry.1, Text.isLineEnd c = false) ∧ entry.2 ∈ Text.terminators) →
        (∀ c ∈ last, Text.isLineEnd c = false) →
        ∀ name, TextFile.body settings.stripComments
            { name, text := ended.flatMap (fun entry => entry.1 ++ entry.2) ++ last } =
          (ended.map Prod.fst ++ [last]).filterMap (Line.contribution settings.stripComments) := by
  have hbytes := bytesOf_transcript_of_delivers settings hinputs
  refine ⟨result_embed_of_delivers settings hinputs hlimit hstep, ?_, ?_⟩
  · rw [embed_eq_of_limit_eq_none settings inputs hlimit hstep, Transcript.ending,
      ByteSink.toList_written_extend, hbytes]
    simp only [funext (TextFile.block_eq_render settings)]
  · intro ended last hended hlast name
    exact Text.filterMap_splitOnP_flatMap settings.stripComments hended hlast

/-- For example on a file whose second byte, and whose first terminator, begin another fill. -/
theorem embed_eq_blocks_torn :
    let file : TextFile := { name := "a.b".toList, text := "é\r\n\rz".toList }
    let input : Input :=
      { name := "a.b".toList
        source := [.bytes [0xC3], .bytes [0xA9, 0x0D], .bytes [0x0A, 0x0D, 0x7A]] }
    input.Delivers file ∧ (embed {} [input] ({} : ByteSink)).result = .ok () ∧
      (embed {} [input] ({} : ByteSink)).sink.written.toList = Utf8.encode
        "static const GLchar* _a_b =\n    \"é\\n\"\n    \"z\\n\"\n    ;\n\n".toList := by
  intro file input
  have hinput : input.Delivers file :=
    ⟨rfl, [[0xC3], [0xA9, 0x0D], [0x0A, 0x0D, 0x7A]], rfl, by decide, by decide⟩
  have hinputs : List.Forall₂ Input.Delivers [input] [file] := .cons hinput .nil
  have hlimit : ({} : ByteSink).limit = none := rfl
  obtain ⟨hresult, hwritten, hbodies⟩ := embed_eq_blocks {} hinputs hlimit (by simp)
  have hpieces := hbodies [(['é'], ['\r', '\n']), ([], ['\r'])] ['z']
    (by simp [Text.isLineEnd, Text.terminators]) (by simp [Text.isLineEnd]) file.name
  have hbody : file.body false = [['é'], ['z']] := hpieces.trans rfl
  have hblock : file.block {} =
      "static const GLchar* _a_b =\n    \"é\\n\"\n    \"z\\n\"\n    ;\n\n".toList := by
    dsimp only [TextFile.block]
    rw [hbody]
    rfl
  refine ⟨hinput, hresult, hwritten.trans ?_⟩
  rw [List.flatMap_cons, hblock]
  rfl

end TextEmbed
