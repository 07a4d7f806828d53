import TextEmbed.Fault

/-!
# Sinks

A sink takes generated text line by line. A sink that fails keeps whatever it took before.
-/

namespace TextEmbed

/-- States of something that text can be written into. -/
class LineSink (σ : Type) where
  /-- Writes a line and the line feed behind it. -/
  putLine : List Char → σ → Except Fault Unit × σ

export LineSink (putLine)

end TextEmbed
