import TextEmbed.Command.Run
import TextEmbed.Proofs.Embedding.Bytes
import TextEmbed.Proofs.Sink.Blocks

/-!
# Runs in blocks

A run that writes in blocks comes to the same as one that writes byte by byte, if the device takes
everything: to the same result, and to the same bytes in the device once the last block has gone
out. This goes out whether the run succeeded or not.

## Main results

* `BlockWriter.takes_putEach`: lines are taken one after the other;
* `Command.embedInBlocks_map_given`: embedding in blocks is embedding.
-/

namespace TextEmbed

/-- All lines are taken. -/
theorem BlockWriter.takes_putEach {α : Type} {writer : BlockWriter} (h : writer.Unbounded)
    (entries : List (List Char × α)) :
    ∃ next, putEach entries writer = (none, next) ∧ writer.Takes (bytesOf entries) next := by
  induction entries generalizing writer with
  | nil => exact ⟨writer, rfl, takes_nil h⟩
  | cons entry entries ih =>
    obtain ⟨line, mark⟩ := entry
    obtain ⟨middle, hline, hmiddle⟩ := takes_putLine h line
    obtain ⟨next, hentries, hnext⟩ := ih hmiddle.unbounded
    refine ⟨next, ?_, hmiddle.append hnext⟩
    simp only [putEach, hline, hentries]

namespace Command

/-- Embedding in blocks into a device that takes everything has the result of embedding into a sink
that takes everything, and leaves the same bytes in the device. -/
theorem embedInBlocks_map_given (settings : Settings) (inputs : List Input) {device : ByteSink}
    (hlimit : device.limit = none) (hstep : device.step ≠ some 0) :
    (embedInBlocks settings (inputs.map .given) device).1 =
        (embed settings inputs ({} : ByteSink)).result.mapError .run ∧
      (embedInBlocks settings (inputs.map .given) device).2.sink.device.written.toList =
        device.written.toList ++ (embed settings inputs ({} : ByteSink)).sink.written.toList := by
  have hwriter : BlockWriter.Unbounded { device } := ⟨hlimit, hstep⟩
  obtain ⟨last, hput, htakes⟩ :=
    BlockWriter.takes_putEach hwriter (transcript settings inputs).lines
  have hembed : embedFeeds settings (inputs.map .given) { device } =
      (transcript settings inputs).ending last := by
    rw [embedFeeds_map_given, embed_eq_play, Transcript.play, hput, Transcript.ending]
  simp only [embedInBlocks, hembed, Transcript.ending, BlockWriter.flush_eq_ok htakes.unbounded]
  rw [result_embed_eq_transcript, toList_written_embed]
  refine ⟨?_, ?_⟩
  · cases (transcript settings inputs).result with
    | error e => rfl
    | ok => rfl
  -- what waited in the buffer is in the device now, behind what was there
  · have hcontents := htakes.contents_eq
    simpa [BlockWriter.contents] using hcontents

end Command

end TextEmbed
