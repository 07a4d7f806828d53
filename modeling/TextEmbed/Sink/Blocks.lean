import TextEmbed.Sink.Bytes

/-!
# Block writers

A block writer collects pieces of output and hands them to a device in blocks, so a device that
fails is noticed at the next hand-over only. A line is two pieces, its text and its line feed.
-/

namespace TextEmbed

/-- A device with a buffer in front. -/
structure BlockWriter where
  /-- Where the blocks go. -/
  device : ByteSink
  /-- The bytes collected since the last hand-over. -/
  pending : Array UInt8 := #[]

namespace BlockWriter

/-- The number of bytes that the buffer holds. -/
def capacity : Nat := 8192

/-- How many more bytes the buffer holds. -/
def spare (writer : BlockWriter) : Nat :=
  capacity - writer.pending.size

/-- Adds a piece to the buffer. -/
def collect (piece : List UInt8) (writer : BlockWriter) : BlockWriter :=
  { writer with pending := writer.pending ++ piece }

/-- Hands the collected bytes to the device. What the device doesn't take stays in the buffer. A
device that takes nothing, without a refusal, would be reported in other words here than by a write.
The devices that runs write to have no limit, or a refusal, so this doesn't come up. -/
def flush (writer : BlockWriter) : Except Fault Unit × BlockWriter :=
  let (result, device) := writer.device.writeAll writer.pending.toList
  let taken := device.written.size - writer.device.written.size
  (result, { device, pending := writer.pending.drop taken })

/-- Makes room for a piece that doesn't fit. -/
def makeRoom (piece : List UInt8) (writer : BlockWriter) : Except Fault Unit × BlockWriter :=
  if writer.spare < piece.length then writer.flush else (.ok (), writer)

/-- Writes a piece: it is collected, behind a hand-over of the buffer if it wouldn't fit, or goes to
the device at once if it is as long as the buffer. -/
def put (piece : List UInt8) (writer : BlockWriter) : Except Fault Unit × BlockWriter :=
  match writer.makeRoom piece with
  | (.error f, writer) => (.error f, writer)
  | (.ok (), writer) =>
    if piece.length < capacity then (.ok (), writer.collect piece)
    else
      let (result, device) := writer.device.writeAll piece
      (result, { writer with device })

/-- A line and its line feed are two pieces. -/
instance : LineSink BlockWriter where
  putLine line writer :=
    match writer.put (Utf8.encode line) with
    | (.error f, writer) => (.error f, writer)
    | (.ok (), writer) => writer.put (Utf8.encode ['\n'])

end BlockWriter

end TextEmbed
