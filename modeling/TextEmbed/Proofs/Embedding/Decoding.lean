import TextEmbed.Proofs.Declaration.Reader
import TextEmbed.Proofs.Embedding.Meaning

/-!
# Decoding the output of runs

The output of a run that succeeds tells which declarations were written: their number, their order,
their identifiers and their lines. What a file is called and what is in it can't change that, so two
runs with the same settings write the same bytes exactly if they declare the same.

## Main definitions

* `output`: what a run adds to what its sink held;
* `Declaration.readOutput`: the declarations that an output tells of.

## Main results

* `output_of_delivers`: the output of a run is a matter of the declarations;
* `readOutput_output`: the declarations are a matter of the output.
-/

namespace TextEmbed

/-- What a run adds to what its sink held before. -/
def output (settings : Settings) (inputs : List Input) (sink : ByteSink) : List UInt8 :=
  (embed settings inputs sink).sink.written.toList.drop sink.written.size

/-- The declarations that an output tells of. -/
def Declaration.readOutput (settings : Settings) (bytes : List UInt8) :
    Option (List Declaration) :=
  match Utf8.decode bytes with
  | .ok text => readAll settings text
  | .error _ => none

/-- A run that succeeds wrote all of its lines, whatever its sink is like. -/
theorem output_of_result_eq_ok {settings : Settings} {inputs : List Input} {sink : ByteSink}
    (h : (embed settings inputs sink).result = .ok ()) :
    output settings inputs sink = bytesOf (transcript settings inputs).lines := by
  rw [embed_eq_play, Transcript.play] at h
  rw [output, embed_eq_play, Transcript.play]
  -- a sink that refused a line would have made the run fail
  rcases hput : putEach (transcript settings inputs).lines sink with ⟨_ | ⟨f, moment⟩, left⟩
  · simp only
    rw [ByteSink.eq_extend_of_putEach_eq_none hput, ByteSink.toList_written_extend,
      ← Array.length_toList, List.drop_left]
  · simp [hput] at h

/-- The output of a run that succeeds is a matter of the declarations of its files. -/
theorem output_of_delivers {settings : Settings} {inputs : List Input} {files : List TextFile}
    {sink : ByteSink} (hinputs : List.Forall₂ Input.Delivers inputs files)
    (h : (embed settings inputs sink).result = .ok ()) :
    output settings inputs sink = Utf8.encode ((files.map (TextFile.declaration settings)).flatMap
      (Declaration.render settings.pointerType)) := by
  rw [output_of_result_eq_ok h, bytesOf_transcript_of_delivers settings hinputs, List.flatMap_map]

/-- The declarations of files are read back from their bytes. -/
theorem readOutput_encode (settings : Settings) (files : List TextFile) :
    Declaration.readOutput settings (Utf8.encode
        ((files.map (TextFile.declaration settings)).flatMap
          (Declaration.render settings.pointerType))) =
      some (files.map (TextFile.declaration settings)) := by
  have hnames : ∀ declaration ∈ files.map (TextFile.declaration settings),
      ∃ name, declaration.identifier = Identifier.ofName settings.lead name := by
    intro declaration hdeclaration
    obtain ⟨file, -, rfl⟩ := List.mem_map.mp hdeclaration
    exact ⟨file.name, rfl⟩
  rw [Declaration.readOutput, Utf8.decode_encode]
  exact Declaration.readAll_flatMap_render settings hnames

/-- The output of a run that succeeds is unambiguous. The declarations of its files are read back
from it, so two runs that succeed write the same exactly if their files have the same declarations.
And whatever is in a file, its declaration is read back in front of anything. -/
theorem readOutput_output (settings : Settings) {inputs : List Input} {files : List TextFile}
    {sink : ByteSink} (hinputs : List.Forall₂ Input.Delivers inputs files)
    (hresult : (embed settings inputs sink).result = .ok ()) :
    Declaration.readOutput settings (output settings inputs sink) =
        some (files.map (TextFile.declaration settings)) ∧
      (∀ (others : List Input) (otherFiles : List TextFile) (otherSink : ByteSink),
        List.Forall₂ Input.Delivers others otherFiles →
        (embed settings others otherSink).result = .ok () →
        (output settings inputs sink = output settings others otherSink ↔
          files.map (TextFile.declaration settings) =
            otherFiles.map (TextFile.declaration settings))) ∧
      ∀ (file : TextFile) (rest : List Char),
        Declaration.read settings (file.block settings ++ rest) =
          some (file.declaration settings, rest) := by
  have houtput := output_of_delivers hinputs hresult
  have hread := readOutput_encode settings files
  refine ⟨by rw [houtput, hread], ?_, ?_⟩
  · intro others otherFiles otherSink hothers hother
    rw [houtput, output_of_delivers hothers hother]
    constructor
    -- the same bytes are read back as the same declarations
    · intro hsame
      rw [hsame, readOutput_encode] at hread
      exact (Option.some.inj hread).symm
    · intro hsame
      rw [hsame]
  · intro file rest
    rw [TextFile.block_eq_render]
    exact Declaration.read_render settings rfl rest

/-- For example a file that tries to end its declaration and to open another. -/
theorem readOutput_output_quoted :
    let text := "\";\n    ;\n\nstatic const".toList
    let file : TextFile := { name := "a\".c".toList, text }
    let input : Input := { name := "a\".c".toList, source := .ofData (Utf8.encode text) }
    let empty : Input := { name := [], source := [] }
    input.Delivers file ∧ (embed {} [input] ({} : ByteSink)).result = .ok () ∧
      Declaration.readOutput {} (output {} [input] {}) = some [
        { identifier := "_a__c".toList
          body := ["\";".toList, "    ;".toList, "static const".toList] }] ∧
      output {} [input] {} ≠ output {} [empty] {} := by
  intro text file input empty
  have hinput : input.Delivers file :=
    ⟨rfl, [Utf8.encode text], rfl, by decide, List.append_nil _⟩
  have hempty : empty.Delivers { name := [], text := [] } := ⟨rfl, [], rfl, by simp, rfl⟩
  have hinputs : List.Forall₂ Input.Delivers [input] [file] := .cons hinput .nil
  have hothers : List.Forall₂ Input.Delivers [empty] [{ name := [], text := [] }] :=
    .cons hempty .nil
  have hlimit : ({} : ByteSink).limit = none := rfl
  have hresult := result_embed_of_delivers {} hinputs hlimit (by simp)
  have hother := result_embed_of_delivers {} hothers hlimit (by simp)
  obtain ⟨hread, hiff, -⟩ := readOutput_output {} hinputs hresult
  have hname : Identifier.ofName ['_'] file.name = "_a__c".toList := rfl
  have hbody : file.body false = ["\";".toList, "    ;".toList, "static const".toList] := by
    decide +kernel
  have hdeclaration : file.declaration {} =
      { identifier := "_a__c".toList
        body := ["\";".toList, "    ;".toList, "static const".toList] } := by
    rw [← hname, ← hbody]
    rfl
  refine ⟨hinput, hresult, ?_, ?_⟩
  · rw [hread, List.map_singleton, hdeclaration]
  · rw [Ne, hiff _ _ _ hothers hother, List.map_singleton, hdeclaration]
    simp [TextFile.declaration, Identifier.ofName]

end TextEmbed
