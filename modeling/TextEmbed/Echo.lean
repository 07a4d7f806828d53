import TextEmbed.Embedding
import TextEmbed.Sink.Blocks

/-!
# Echoes

An input can be the file that the output goes to. Such an echo gives the bytes that were delivered
to the file, from the first one on: the declarations in front of its own, and as much of its own as
is delivered while it is read. So an echo may never end.

It is read in rounds, each of which reads what was delivered before. A round that ends inside a line
ends in front of its terminator, which makes a blank line of the next round and contributes nothing.
So the fragments are those of whole lines.
-/

namespace TextEmbed

/-- What is behind an input of a run whose output goes out in blocks. -/
inductive Feed where
  /-- A source of its own. -/
  | given (input : Input)
  /-- The file that takes the output, by its base name. -/
  | echo (name : List Char)

/-- An echo that brings more blocks than this while it is read never ends: a fragment that is read
again has more than twice as many escapes, so after a dozen times it is longer than a block and goes
out at once, every time. -/
def maxEchoBlocks : Nat := 16

/-- Writes the fragments of the lines that were delivered behind the first `read` bytes, and of
those that are delivered meanwhile. The result counts them, starting from `fragments`. There is
space for `space` bytes in all. -/
def embedEchoLines (settings : Settings) (name : List Char) (space read fragments : Nat)
    (writer : BlockWriter) : Except RunError Nat × Source × BlockWriter :=
  let delivered := writer.device.written.size
  if space < delivered then (.error (.write name (.system .noSpace)), [], writer)
  else if delivered ≤ read then (.ok fragments, [], writer)
  else
    let source := Source.ofData (writer.device.written.toList.drop read)
    match embedLines settings name fragments source writer with
    | (.error e, left, writer) => (.error e, left, writer)
    | (.ok fragments, _, writer) => embedEchoLines settings name space delivered fragments writer
termination_by space - read
decreasing_by omega

/-- Writes the declaration of an echo. -/
def embedEcho (settings : Settings) (name : List Char) (writer : BlockWriter) :
    Ending BlockWriter :=
  let body := fun writer : BlockWriter =>
    let space := writer.device.written.size + maxEchoBlocks * BlockWriter.capacity
    embedEchoLines settings name space 0 0 writer
  embedDeclaration settings { name, source := [] } body writer

/-- Writes the declaration of what is behind an input. -/
def embedFeed (settings : Settings) : Feed → BlockWriter → Ending BlockWriter
  | .given input => embedInput settings input
  | .echo name => embedEcho settings name

/-- Writes one declaration per input, in order. -/
def embedFeeds (settings : Settings) (feeds : List Feed) (writer : BlockWriter) :
    Ending BlockWriter :=
  embedEach (embedFeed settings) 0 feeds writer

/-- Without echoes, blocks are written as lines are into any sink. -/
theorem embedFeeds_map_given (settings : Settings) (inputs : List Input) (writer : BlockWriter) :
    embedFeeds settings (inputs.map .given) writer = embed settings inputs writer :=
  embedEach_map (embedFeed settings) .given 0 inputs writer

end TextEmbed
