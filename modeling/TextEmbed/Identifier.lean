/-!
# Identifiers

The symbol under which a file is declared is derived from its name alone.
-/

namespace TextEmbed.Identifier

/-- Letters and digits of ASCII stay, every other character becomes an underscore. -/
def symbolChar (c : Char) : Char :=
  if c.isAlphanum then c else '_'

/-- The identifier of a file: `lead` verbatim, then the name, character for character. -/
def ofName (lead name : List Char) : List Char :=
  lead ++ name.map symbolChar

example : ofName ['_'] "my-shader.frag".toList = "_my_shader_frag".toList := by decide

end TextEmbed.Identifier
