/-!
# Fragments

A fragment is one line of text as a string literal: quoted, with a line feed appended, and with the
escapes of a JSON string, as the library that writes it (serde_json) documents them.
-/

namespace TextEmbed.Fragment

/-- How a character is written between the quotes: quotes, backslashes and control characters are
escaped, everything else stands for itself. -/
def escapeChar (c : Char) : List Char :=
  if c = '"' then ['\\', '"']
  else if c = '\\' then ['\\', '\\']
  else if c = '\x08' then ['\\', 'b']
  else if c = '\t' then ['\\', 't']
  else if c = '\n' then ['\\', 'n']
  else if c = '\x0c' then ['\\', 'f']
  else if c = '\r' then ['\\', 'r']
  else if c < ' ' then
    ['\\', 'u', '0', '0', Nat.digitChar (c.toNat / 16), Nat.digitChar (c.toNat % 16)]
  else [c]

/-- A text between quotes. -/
def quote (text : List Char) : List Char :=
  '"' :: text.flatMap escapeChar ++ ['"']

/-- The fragment of a line, which denotes the line and a line feed. -/
def ofLine (line : List Char) : List Char :=
  quote (line ++ ['\n'])

example : ofLine "say(\"hi\")\t".toList = "\"say(\\\"hi\\\")\\t\\n\"".toList := by decide

example : ofLine ['\x07'] = "\"\\u0007\\n\"".toList := by decide

end TextEmbed.Fragment
