import TextEmbed.Proofs.Command.Arguments
import TextEmbed.Proofs.Command.Output
import TextEmbed.Proofs.Command.Startup
import TextEmbed.Proofs.Embedding.Limit
import TextEmbed.Proofs.Sink.FullDevice

/-!
# Runs to full devices

A run whose output goes to a full device always fails. The failure is that of a run into a sink that
takes as many bytes as a block has: it is put down to the file whose declaration runs over the
block, if there is one. What comes to less than a block is noticed in the end, when the block is
handed over, unless reading has failed before.

## Main results

* `BlockWriter.Mimics.putEach`: lines are refused where a sink of the size of a block refuses them;
* `Command.result_embedInBlocks_of_full` and `Command.result_run_of_full`: embedding in blocks into
  a full device;
* `Command.run_to_full_device`: how runs to full devices fail.
-/

namespace TextEmbed

/-- Of some lines, both refuse the same one. -/
theorem BlockWriter.Mimics.putEach {α : Type} {writer : BlockWriter} {f : Fault} {sink : ByteSink}
    (h : writer.Mimics f sink) (entries : List (List Char × α)) :
    ∃ refused next after, TextEmbed.putEach entries writer = (refused, next) ∧
      TextEmbed.putEach entries sink = (refused, after) ∧
      (refused = none → next.Mimics f after) := by
  induction entries generalizing writer sink with
  | nil => exact ⟨none, writer, sink, rfl, rfl, fun _ => h⟩
  | cons entry entries ih =>
    obtain ⟨line, mark⟩ := entry
    rcases h.putLine line with ⟨next, after, hnext, hafter, hmimics⟩ | ⟨next, after, hnext, hafter⟩
    · simp only [TextEmbed.putEach, hnext, hafter]
      exact ih hmimics
    · simp only [TextEmbed.putEach, hnext, hafter]
      exact ⟨some (f, mark), next, after, rfl, rfl, by simp⟩

namespace Command

/-- Embedding in blocks into a full device fails as embedding into a sink of the size of a block. If
that takes everything, then it turns out in the end that the device is full. -/
theorem result_embedInBlocks_of_full (settings : Settings) {inputs : List Input}
    (hinputs : inputs ≠ []) {device : ByteSink} (hdevice : device.room? = some 0) :
    let sink : ByteSink := { limit := some BlockWriter.capacity, refusal := some device.fault }
    (embedInBlocks settings (inputs.map .given) device).1 =
      match (embed settings inputs sink).result with
      | .error e => .error (.run e)
      | .ok () => .error (.context "couldn't flush the output".toList (.fault device.fault)) := by
  intro sink
  have hstart : BlockWriter.Mimics { device } device.fault sink :=
    BlockWriter.mimics_of_full hdevice
  obtain ⟨refused, next, after, hnext, hafter, hmimics⟩ :=
    hstart.putEach (transcript settings inputs).lines
  have hblocks : embedFeeds settings (inputs.map .given) { device } =
      (transcript settings inputs).play ({ device } : BlockWriter) := by
    rw [embedFeeds_map_given, embed_eq_play]
  cases refused with
  -- a line is refused, and what is in the buffer makes no difference any more
  | some refused =>
    simp only [embedInBlocks, hblocks, embed_eq_play, Transcript.play, hnext, hafter]
  | none =>
    have hmimics := hmimics rfl
    have hpending : next.pending = after.written := Array.ext' hmimics.written_eq.symm
    -- all lines are in the buffer, and there is one at least
    have hwritten : after.written ≠ #[] := by
      intro hempty
      apply bytesOf_transcript_ne_nil settings hinputs
      rw [ByteSink.eq_extend_of_putEach_eq_none hafter] at hempty
      simpa [sink] using congrArg Array.toList hempty
    simp only [embedInBlocks, hblocks, embed_eq_play, Transcript.play, hnext, hafter,
      BlockWriter.flush_of_full hmimics.device_full, hpending, hmimics.device_fault,
      if_neg hwritten]
    cases (transcript settings inputs).result with
    | error e => rfl
    | ok => rfl

/-- A full device is as it was when it has been created. -/
theorem feeds_of_full {files : FileTree} {location : Location}
    (hfull : files.node? location = some .fullDevice) (stdin : List UInt8) (opened : List Opened) :
    Opened.feeds files (.file location) stdin opened =
      (Opened.inputs files stdin opened).map .given := by
  refine Opened.feeds_eq_map_given_of_not_echoed files stdin ?_
  intro name there _
  by_cases hthere : location = there
  · subst hthere
    simp [Output.isEchoedAt, FileTree.contents?, hfull]
  · simp [Output.isEchoedAt, hthere]

/-- A run to a full device has the result of a run into a sink of the size of a block, except that
it never succeeds. -/
theorem result_run_of_full {options : Options} {world : World} {opened : List Opened}
    {location : Location} {files : FileTree} (hfiles : options.files ≠ [])
    (hstarts : Starts options world opened (.file location) files)
    (hfull : files.node? location = some .fullDevice) :
    let full : Fault := .system .noSpace
    let sink : ByteSink := { limit := some BlockWriter.capacity, refusal := some full }
    (run options world).result =
      match (embed options.settings (Opened.inputs world.files world.stdin opened) sink).result with
      | .error e => .error (.run e)
      | .ok () => .error (.context "couldn't flush the output".toList (.fault full)) := by
  intro full sink
  obtain ⟨path, hcreated⟩ := exists_create_of_file hstarts.created_eq
  obtain ⟨hroot, htruncate⟩ := FileTree.of_create_eq_ok hcreated
  -- creating the device changes nothing, so the inputs are as they were
  have hsame : files = world.files := by
    rw [htruncate]
    apply FileTree.truncate_eq_self hroot
    rw [← htruncate, FileTree.contents?, hfull]
  have hinputs : Opened.inputs world.files world.stdin opened ≠ [] := by
    have hlength := Opened.length_inputs world.files world.stdin opened
    have hopened := (forall₂_of_mapM_eq_ok hstarts.opened_eq).length_eq
    have hpos := List.length_pos_iff.mpr hfiles
    apply List.ne_nil_of_length_pos
    omega
  subst hsame
  have hdevice : Output.device world.files (.file location) =
      { limit := some 0, refusal := some full } := by
    simp only [Output.device, hfull, full]
  simp only [hstarts.run_eq, embedOpened, feeds_of_full hfull, hdevice]
  exact result_embedInBlocks_of_full options.settings hinputs rfl

/-- How runs to full devices fail. If the inputs come to more output than a block holds, the run
fails in writing the declaration of the file that the first byte behind the block belongs to.
Otherwise it fails as reading fails, if that does, and in handing over the block if it doesn't. So
no such run succeeds. -/
theorem run_to_full_device {arguments : List (List UInt8)} {options : Options}
    (haccepted : Options.ofArguments arguments = .ok options) (world : World)
    {opened : List Opened} {path : Path} {location : Location} {created : FileTree}
    (hopened : options.files.mapM (Opened.ofPath world.files) = .ok opened)
    (hpath : Output.filePath? options.output = some path)
    (hcreated : world.files.create path = .ok (location, created))
    (hfull : world.files.node? location = some .fullDevice) :
    let inputs := Opened.inputs world.files world.stdin opened
    let embedded := embed options.settings inputs ({} : ByteSink)
    let output := embedded.sink.written.toList
    let full : Fault := .system .noSpace
    let outcome := run options world
    full.kind = .storageFull ∧
    (8192 < output.length →
      ∃ i input, inputs[i]? = some input ∧
        (embed options.settings (inputs.take i) ({} : ByteSink)).sink.written.size ≤ 8192 ∧
        8192 < (embed options.settings (inputs.take (i + 1)) ({} : ByteSink)).sink.written.size ∧
        outcome.result = .error (.run (.write input.name full))) ∧
    (output.length ≤ 8192 →
      (∀ e, embedded.result = .error e →
        (∃ input ∈ inputs, ∃ f, e = .read input.name f) ∧ outcome.result = .error (.run e)) ∧
      (embedded.result = .ok () → outcome.result =
        .error (.context "couldn't flush the output".toList (.fault full)))) ∧
    outcome.result ≠ .ok () := by
  intro inputs embedded output full outcome
  obtain ⟨hroot, hfiles⟩ := FileTree.of_create_eq_ok hcreated
  have hstarts : Starts options world opened (.file location) created :=
    starts_of_create hopened hpath hcreated
  have hcreatedFull : created.node? location = some .fullDevice := by
    rw [hfiles]
    simp only [FileTree.truncate, hfull]
  -- the run is the one into a sink that takes as much as a block
  let sink : ByteSink := { limit := some 8192, refusal := some full }
  have hsink : sink.StopsAt 8192 :=
    { limit := rfl
      step := by simp [sink]
      refusal := by simp [sink, full, Fault.kind, SystemError.kind]
      written := rfl }
  have hblocks : outcome.result = match (embed options.settings inputs sink).result with
      | .error e => .error (.run e)
      | .ok () => .error (.context "couldn't flush the output".toList (.fault full)) :=
    result_run_of_full (Options.files_ne_nil haccepted) hstarts hcreatedFull
  have houtput : output = bytesOf (transcript options.settings inputs).lines :=
    toList_written_embed options.settings inputs
  have hwithin : output.length ≤ 8192 →
      (embed options.settings inputs sink).result = embedded.result := by
    intro hle
    rw [houtput] at hle
    rw [embed_eq_of_fits hsink.step (ByteSink.fits_of_room? hsink.room? hle)]
    exact (result_embed_eq_transcript options.settings inputs).symm
  refine ⟨rfl, ?_, ?_, ?_⟩
  · intro hlt
    rw [houtput] at hlt
    obtain ⟨-, i, moment, ⟨input, hinput, hresult, -⟩, -, hle, hlt⟩ :=
      embed_of_lt_length hsink hlt
    simp only [size_written_embed]
    refine ⟨i, input, hinput, hle, hlt, ?_⟩
    rw [hblocks, hresult]
    rfl
  · intro hle
    rw [hblocks, hwithin hle]
    refine ⟨fun e he => ⟨?_, by rw [he]⟩, fun hok => by rw [hok]⟩
    rw [result_embed_eq_transcript] at he
    exact result_transcriptFrom_eq_error he
  · rw [hblocks]
    cases (embed options.settings inputs sink).result with
    | error e => simp
    | ok => simp

/-- For example where there is little output, which is noticed at the end. -/
theorem run_to_full_device_short :
    let name := Utf8.encode ['a']
    let device := Utf8.encode "/dev/full".toList
    let arguments := [Utf8.encode "-o".toList, device, name]
    let options : Options := { output := some ⟨device⟩, files := [⟨name⟩] }
    let files : FileTree :=
      { nodes := [([name], .regular [0x78, 0x0A]), ([Utf8.encode "dev".toList], .directory),
          ([Utf8.encode "dev".toList, Utf8.encode "full".toList], .fullDevice)]
        workingDirectory := [] }
    Options.ofArguments arguments = .ok options ∧
      (run options { files }).result =
        .error (.context "couldn't flush the output".toList (.fault (.system .noSpace))) := by
  intro name device arguments options files
  have haccepted : Options.ofArguments arguments = .ok options := by decide +kernel
  have hopened : options.files.mapM (Opened.ofPath files) = .ok [.file ['a'] [name]] := by
    decide +kernel
  have hpath : Output.filePath? options.output = some ⟨device⟩ := by decide
  have hcreated : files.create ⟨device⟩ =
      .ok ([Utf8.encode "dev".toList, Utf8.encode "full".toList], files) := rfl
  have hfull : files.node? [Utf8.encode "dev".toList, Utf8.encode "full".toList] =
      some .fullDevice := by decide
  obtain ⟨-, -, hwithin, -⟩ := run_to_full_device haccepted { files } hopened hpath hcreated hfull
  exact ⟨haccepted, (hwithin (by decide +kernel)).2 (by decide +kernel)⟩

end Command

end TextEmbed
