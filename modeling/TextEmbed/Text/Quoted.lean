import TextEmbed.Text.Extending
import TextEmbed.Text.Invisible
import TextEmbed.Utf8

/-!
# Quoted byte strings

How diagnostics show a byte string, such as a path: between double quotes, decoded as far as it is
UTF-8, with an escape for everything that couldn't be told apart by looking at it.
-/

namespace TextEmbed.Text

/-- The digits of a number in lower case hexadecimal. -/
def hexDigits (n : Nat) : List Char :=
  Nat.toDigits 16 n

/-- How a character is shown between the quotes. -/
def quotedChar (c : Char) : List Char :=
  if c = '"' then ['\\', '"']
  else if c = '\\' then ['\\', '\\']
  else if c = '\n' then ['\\', 'n']
  else if c = '\r' then ['\\', 'r']
  else if c = '\t' then ['\\', 't']
  else if c = '\x00' then ['\\', '0']
  else if isInvisible c || isExtending c then "\\u\x7b".toList ++ hexDigits c.toNat ++ "\x7d".toList
  else [c]

/-- How a byte that belongs to no character is shown: by two upper case digits. -/
def quotedByte (b : UInt8) : List Char :=
  "\\x".toList ++ [Nat.digitChar (b.toNat / 16), Nat.digitChar (b.toNat % 16)].map Char.toUpper

/-- How a piece of a byte string is shown between the quotes. -/
def quotedPiece : Utf8.Piece → List Char
  | .scalar c => quotedChar c
  | .invalid bytes | .incomplete bytes => bytes.flatMap quotedByte

/-- A byte string between quotes. -/
def quoted (bytes : List UInt8) : List Char :=
  '"' :: (Utf8.pieces bytes).flatMap quotedPiece ++ ['"']

end TextEmbed.Text
