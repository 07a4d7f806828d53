import TextEmbed.Proofs.Sink.Blocks

/-!
# Block writers in front of full devices

That a device is full is noticed when a block is handed over to it. This happens with the first byte
that the buffer has no room for, however the bytes fall into pieces: a piece that doesn't fit makes
the buffer go out, and one that goes past the buffer is as long as the buffer itself. So whoever
writes lines can't tell the writer from a byte sink that takes as many bytes as the buffer holds.

## Main definitions

* `BlockWriter.Mimics`: a writer whose device is full, beside the byte sink that it looks like.

## Main results

* `BlockWriter.put_eq_collect` and `BlockWriter.put_eq_error`: pieces that stay in the buffer, and
  pieces that don't;
* `BlockWriter.Mimics.putLine`: one line comes to the same on both sides.
-/

namespace TextEmbed.BlockWriter

variable {writer : BlockWriter}

@[simp]
theorem device_collect (piece : List UInt8) (writer : BlockWriter) :
    (writer.collect piece).device = writer.device := rfl

@[simp]
theorem toList_pending_collect (piece : List UInt8) (writer : BlockWriter) :
    (writer.collect piece).pending.toList = writer.pending.toList ++ piece := by
  simp [collect]

@[simp]
theorem size_pending_collect (piece : List UInt8) (writer : BlockWriter) :
    (writer.collect piece).pending.size = writer.pending.size + piece.length := by
  rw [← Array.length_toList, toList_pending_collect, List.length_append, Array.length_toList]

theorem collect_collect (first second : List UInt8) (writer : BlockWriter) :
    (writer.collect first).collect second = writer.collect (first ++ second) := by
  have h : writer.pending ++ first ++ second = writer.pending ++ (first ++ second) := by
    apply Array.ext'
    simp
  simp only [collect, h]

/-- A piece that fits into the buffer waits there, whatever the device is like. -/
theorem put_eq_collect {piece : List UInt8} (hshort : piece.length < capacity)
    (hfits : piece.length ≤ writer.spare) : writer.put piece = (.ok (), writer.collect piece) := by
  have hroom : writer.makeRoom piece = (.ok (), writer) := if_neg (Nat.not_lt.mpr hfits)
  simp only [put, hroom, if_pos hshort]

/-- A full device takes nothing of the buffer, which is an error unless there is nothing in it. -/
theorem flush_of_full (hdevice : writer.device.room? = some 0) :
    writer.flush =
      (if writer.pending = #[] then .ok () else .error writer.device.fault, writer) := by
  obtain ⟨device, pending⟩ := writer
  by_cases hpending : pending = #[]
  · subst hpending
    simp [flush, ByteSink.writeAll]
  · have hbytes : pending.toList ≠ [] := by simpa using hpending
    simp [flush, ByteSink.writeAll_full hdevice hbytes, hpending]

/-- A piece that has no room in the buffer, or is as long as the buffer, gets to the full device. -/
theorem put_eq_error (hdevice : writer.device.room? = some 0) {piece : List UInt8}
    (h : writer.spare < piece.length ∨ capacity ≤ piece.length) :
    writer.put piece = (.error writer.device.fault, writer) := by
  have hpiece : piece ≠ [] := by
    have hcapacity : 0 < capacity := by decide
    apply List.ne_nil_of_length_pos
    omega
  unfold put makeRoom
  by_cases hspare : writer.spare < piece.length
  · rw [if_pos hspare, flush_of_full hdevice]
    by_cases hpending : writer.pending = #[]
    -- the empty buffer has room for every piece that doesn't go past it
    · have hlong : ¬ piece.length < capacity := by
        simp only [spare, hpending, Array.size_empty] at hspare
        omega
      simp only [if_pos hpending, if_neg hlong, ByteSink.writeAll_full hdevice hpiece]
    · simp only [if_neg hpending]
  · have hlong : ¬ piece.length < capacity := by omega
    simp only [if_neg hspare, if_neg hlong, ByteSink.writeAll_full hdevice hpiece]

/-! ## Lines -/

/-- A line and its line feed are two pieces. -/
theorem putLine_eq (line : List Char) (writer : BlockWriter) :
    putLine line writer =
      match writer.put (Utf8.encode line) with
      | (.error f, writer) => (.error f, writer)
      | (.ok (), writer) => writer.put (Utf8.encode ['\n']) := rfl

/-- A line that fits into the buffer waits there. -/
theorem putLine_eq_collect {line : List Char}
    (h : writer.pending.size + (ByteSink.lineBytes line).length ≤ capacity) :
    putLine line writer = (.ok (), writer.collect (ByteSink.lineBytes line)) := by
  rw [ByteSink.length_lineBytes] at h
  have htext : writer.put (Utf8.encode line) = (.ok (), writer.collect (Utf8.encode line)) := by
    apply put_eq_collect
    · omega
    · unfold spare
      omega
  have hlineFeed : (writer.collect (Utf8.encode line)).put (Utf8.encode ['\n']) =
      (.ok (), (writer.collect (Utf8.encode line)).collect (Utf8.encode ['\n'])) := by
    apply put_eq_collect
    · decide
    · have hlength : (Utf8.encode ['\n']).length = 1 := rfl
      rw [spare, size_pending_collect, hlength]
      omega
  rw [putLine_eq, htext]
  simp only [hlineFeed, collect_collect, ByteSink.lineBytes, Utf8.encode_append]

/-- A line that doesn't fit into the buffer gets to the full device, with its text or with its line
feed. -/
theorem putLine_eq_error (hdevice : writer.device.room? = some 0) {line : List Char}
    (h : capacity < writer.pending.size + (ByteSink.lineBytes line).length) :
    ∃ next, putLine line writer = (.error writer.device.fault, next) := by
  rw [ByteSink.length_lineBytes] at h
  rw [putLine_eq]
  by_cases htext : writer.spare < (Utf8.encode line).length ∨ capacity ≤ (Utf8.encode line).length
  · rw [put_eq_error hdevice htext]
    exact ⟨writer, rfl⟩
  -- the text is the last thing that fits
  · obtain ⟨hfits, hshort⟩ := not_or.mp htext
    have hfull : (writer.collect (Utf8.encode line)).spare < (Utf8.encode ['\n']).length := by
      have hlength : (Utf8.encode ['\n']).length = 1 := rfl
      rw [spare, size_pending_collect, hlength]
      omega
    have hdevice' : (writer.collect (Utf8.encode line)).device.room? = some 0 := hdevice
    rw [put_eq_collect (Nat.not_le.mp hshort) (Nat.not_lt.mp hfits)]
    exact ⟨_, put_eq_error hdevice' (.inl hfull)⟩

/-! ## Full devices -/

/-- The device of the writer is full, and `sink` holds what is in the buffer and has as much room as
there is left in the buffer. Both fail with `f`. -/
structure Mimics (writer : BlockWriter) (f : Fault) (sink : ByteSink) : Prop where
  device_full : writer.device.room? = some 0
  device_fault : writer.device.fault = f
  room_eq : sink.room? = some (capacity - writer.pending.size)
  step_ne_zero : sink.step ≠ some 0
  fault_eq : sink.fault = f
  written_eq : sink.written.toList = writer.pending.toList
  size_le : writer.pending.size ≤ capacity

/-- An empty buffer in front of a full device looks like an empty sink of its capacity. -/
theorem mimics_of_full {device : ByteSink} (hdevice : device.room? = some 0) :
    Mimics { device } device.fault { limit := some capacity, refusal := some device.fault } where
  device_full := hdevice
  device_fault := rfl
  room_eq := rfl
  step_ne_zero := by simp
  fault_eq := rfl
  written_eq := rfl
  size_le := Nat.zero_le _

/-- A line is taken by both or refused by both. -/
theorem Mimics.putLine {f : Fault} {sink : ByteSink} (h : writer.Mimics f sink)
    (line : List Char) :
    (∃ next after, putLine line writer = (.ok (), next) ∧ putLine line sink = (.ok (), after) ∧
        next.Mimics f after) ∨
      ∃ next after, putLine line writer = (.error f, next) ∧
        putLine line sink = (.error f, after) := by
  have hle := h.size_le
  by_cases hfits : writer.pending.size + (ByteSink.lineBytes line).length ≤ capacity
  · have hsink : sink.Fits (ByteSink.lineBytes line) :=
      ByteSink.fits_of_room? h.room_eq (by omega)
    refine .inl ⟨_, _, putLine_eq_collect hfits, ByteSink.putLine_eq_ok h.step_ne_zero hsink, ?_⟩
    refine ⟨h.device_full, h.device_fault, ?_, h.step_ne_zero, h.fault_eq, ?_, ?_⟩
    · rw [ByteSink.room?_extend_of_room? h.room_eq, size_pending_collect, Nat.sub_sub]
    · rw [ByteSink.toList_written_extend, toList_pending_collect, h.written_eq]
    · rwa [size_pending_collect]
  · have hlt : capacity - writer.pending.size < (ByteSink.lineBytes line).length := by omega
    obtain ⟨next, hnext⟩ := putLine_eq_error h.device_full (Nat.not_le.mp hfits)
    have hsink := ByteSink.putLine_eq_error h.step_ne_zero h.room_eq hlt
    rw [h.device_fault] at hnext
    rw [h.fault_eq] at hsink
    exact .inr ⟨next, _, hnext, hsink⟩

end TextEmbed.BlockWriter
