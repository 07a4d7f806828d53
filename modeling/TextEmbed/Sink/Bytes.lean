import TextEmbed.Sink

/-!
# Byte sinks

A byte sink takes a bounded number of bytes, and a bounded number at a time. A text is encoded in
UTF-8 on its way in. When the sink is full, a write fails, or takes nothing, which is a failure as
well.

A refusal is final. A write that is interrupted is meant to be tried again, and a sink that refuses
everything as interrupted would be tried for ever. There is no such sink here: a refusal of the kind
`interrupted` is like one of any other kind, and what is said of sinks says nothing about writes
that are interrupted.
-/

namespace TextEmbed

/-- A sink of bytes. -/
structure ByteSink where
  /-- The number of bytes that the sink takes in all, if it is bounded. -/
  limit : Option Nat := none
  /-- The number of bytes that one write takes at most, if it is bounded. -/
  step : Option Nat := none
  /-- How a write to the full sink fails, for good; it takes nothing if there is no such fault. -/
  refusal : Option Fault := none
  /-- The bytes taken so far. -/
  written : Array UInt8 := #[]

namespace ByteSink

/-- How many more bytes the sink takes, if that is bounded. -/
def room? (sink : ByteSink) : Option Nat :=
  sink.limit.map (· - sink.written.size)

/-- How many bytes the next write takes at most, if that is bounded. -/
def allowance? (sink : ByteSink) : Option Nat :=
  match sink.room?, sink.step with
  | some room, some step => some (min room step)
  | some room, none => some room
  | none, step => step

/-- One write of some bytes, which tells how many of them the sink took. -/
def write (bytes : List UInt8) (sink : ByteSink) : Except Fault Nat × ByteSink :=
  match sink.room?, sink.refusal with
  | some 0, some f => (.error f, sink)
  | _, _ =>
    let taken : List UInt8 := match sink.allowance? with
      | none => bytes
      | some allowance => bytes.take allowance
    (.ok taken.length, { sink with written := sink.written ++ taken })

/-- Writes all bytes, in as many writes as it takes. No bytes are no write. -/
def writeAll (bytes : List UInt8) (sink : ByteSink) : Except Fault Unit × ByteSink :=
  match bytes with
  | [] => (.ok (), sink)
  | b :: rest =>
    match sink.write (b :: rest) with
    | (.error f, sink) => (.error f, sink)
    | (.ok 0, sink) => (.error .nothingTaken, sink)
    | (.ok (taken + 1), sink) => sink.writeAll (rest.drop taken)
termination_by bytes.length
decreasing_by simp only [List.length_drop, List.length_cons]; omega

/-- A line goes in before its line feed, which is written apart. -/
instance : LineSink ByteSink where
  putLine line sink :=
    match sink.writeAll (Utf8.encode line) with
    | (.error f, sink) => (.error f, sink)
    | (.ok (), sink) => sink.writeAll (Utf8.encode ['\n'])

end ByteSink

end TextEmbed
