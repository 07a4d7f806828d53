import TextEmbed.Sink

/-!
# Line sinks

A line sink keeps whole lines and refuses one more when it holds a given number of them.
-/

namespace TextEmbed

/-- A sink of lines. -/
structure LineLog where
  /-- The number of lines at which the sink refuses the next one. -/
  refusesAt : Nat
  /-- How it refuses. -/
  refusal : Fault
  /-- The lines taken so far. -/
  lines : Array (List Char) := #[]

namespace LineLog

/-- A line is taken whole or not at all. -/
instance : LineSink LineLog where
  putLine line sink :=
    if sink.lines.size = sink.refusesAt then (.error sink.refusal, sink)
    else (.ok (), { sink with lines := sink.lines.push line })

end LineLog

end TextEmbed
