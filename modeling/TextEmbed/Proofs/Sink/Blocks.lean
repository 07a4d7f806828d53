import TextEmbed.Proofs.Sink.Bytes
import TextEmbed.Sink.Blocks

/-!
# What block writers hand over

Where a block ends can't be seen behind a device that takes everything. What was written is either
in the device or in the buffer, in this order, whether a piece fits behind what is in the buffer,
makes it go out, or goes past it. Once the buffer is handed over, everything is in the device.

## Main definitions

* `BlockWriter.contents`: all bytes that were written, in order;
* `BlockWriter.Takes`: a writer takes some bytes and leaves another one.

## Main results

* `BlockWriter.flush_eq_ok`: a hand-over empties the buffer into the device;
* `BlockWriter.takes_put`: a piece of any length is taken;
* `BlockWriter.takes_putLine`: a line and its line feed are taken.
-/

namespace TextEmbed.BlockWriter

/-- All bytes that were written, those in the device in front of those in the buffer. -/
def contents (writer : BlockWriter) : List UInt8 :=
  writer.device.written.toList ++ writer.pending.toList

/-- The device takes all that it is given. -/
structure Unbounded (writer : BlockWriter) : Prop where
  limit_eq_none : writer.device.limit = none
  step_ne_zero : writer.device.step ≠ some 0

/-- `next` is what is left of `writer` when it has taken `bytes`. -/
structure Takes (writer : BlockWriter) (bytes : List UInt8) (next : BlockWriter) : Prop where
  unbounded : next.Unbounded
  contents_eq : next.contents = writer.contents ++ bytes

variable {writer : BlockWriter}

theorem takes_nil (h : writer.Unbounded) : writer.Takes [] writer where
  unbounded := h
  contents_eq := (List.append_nil _).symm

theorem Takes.append {first second : List UInt8} {middle next : BlockWriter}
    (hfirst : writer.Takes first middle) (hsecond : middle.Takes second next) :
    writer.Takes (first ++ second) next where
  unbounded := hsecond.unbounded
  contents_eq := by rw [hsecond.contents_eq, hfirst.contents_eq, List.append_assoc]

/-- What the device is given goes in. -/
theorem writeAll_device (h : writer.Unbounded) (bytes : List UInt8) :
    writer.device.writeAll bytes = (.ok (), writer.device.extend bytes) :=
  ByteSink.writeAll_eq_ok h.step_ne_zero (ByteSink.fits_of_limit_eq_none h.limit_eq_none bytes)

/-- A hand-over empties the buffer into the device. -/
theorem flush_eq_ok (h : writer.Unbounded) :
    writer.flush = (.ok (), { device := writer.device.extend writer.pending.toList }) := by
  have hsize : (writer.device.extend writer.pending.toList).written.size =
      writer.device.written.size + writer.pending.size := by
    rw [← Array.length_toList, ByteSink.toList_written_extend, List.length_append,
      Array.length_toList, Array.length_toList]
  simp only [flush, writeAll_device h, hsize, Nat.add_sub_cancel_left]
  simp

theorem takes_flush (h : writer.Unbounded) :
    ∃ next, writer.flush = (.ok (), next) ∧ writer.Takes [] next ∧ next.pending = #[] := by
  refine ⟨_, flush_eq_ok h, ⟨⟨h.limit_eq_none, h.step_ne_zero⟩, ?_⟩, rfl⟩
  simp [contents]

/-- Making room changes nothing in what was written. Behind it, a piece fits into the buffer, or the
buffer is empty and the piece can go past it. -/
theorem takes_makeRoom (h : writer.Unbounded) (piece : List UInt8) :
    ∃ next, writer.makeRoom piece = (.ok (), next) ∧ writer.Takes [] next ∧
      (piece.length < capacity ∨ next.pending = #[]) := by
  unfold makeRoom
  split
  next =>
    obtain ⟨next, hflush, htakes, hempty⟩ := takes_flush h
    exact ⟨next, hflush, htakes, .inr hempty⟩
  next hfits =>
    refine ⟨writer, rfl, takes_nil h, ?_⟩
    -- only the empty buffer has room for a piece of its own size
    by_cases hpiece : piece.length < capacity
    · exact .inl hpiece
    · have hcapacity : 0 < capacity := by decide
      have hsize : writer.pending.size = 0 := by
        unfold spare at hfits
        omega
      exact .inr (Array.size_eq_zero_iff.mp hsize)

/-- A piece of any length is taken. -/
theorem takes_put (h : writer.Unbounded) (piece : List UInt8) :
    ∃ next, writer.put piece = (.ok (), next) ∧ writer.Takes piece next := by
  obtain ⟨middle, hroom, hmiddle, hfits⟩ := takes_makeRoom h piece
  have hdevice := writeAll_device hmiddle.unbounded piece
  simp only [put, hroom]
  split
  -- a short piece waits behind what was written before
  next =>
    refine ⟨_, rfl, hmiddle.append ⟨⟨hmiddle.unbounded.1, hmiddle.unbounded.2⟩, ?_⟩⟩
    simp [contents, collect]
  -- a long piece goes past the buffer, in which nothing waits
  next hlong =>
    have hempty : middle.pending = #[] := hfits.resolve_left hlong
    rw [hdevice]
    refine ⟨_, rfl, hmiddle.append ⟨⟨hmiddle.unbounded.1, hmiddle.unbounded.2⟩, ?_⟩⟩
    simp [contents, hempty]

/-- A line is taken with its line feed. -/
theorem takes_putLine (h : writer.Unbounded) (line : List Char) :
    ∃ next, putLine line writer = (.ok (), next) ∧ writer.Takes (ByteSink.lineBytes line) next := by
  obtain ⟨middle, htext, hmiddle⟩ := takes_put h (Utf8.encode line)
  obtain ⟨next, hlineFeed, hnext⟩ := takes_put hmiddle.unbounded (Utf8.encode ['\n'])
  refine ⟨next, ?_, ?_⟩
  · simp only [putLine, htext, hlineFeed]
  · rw [ByteSink.lineBytes, Utf8.encode_append]
    exact hmiddle.append hnext

end TextEmbed.BlockWriter
