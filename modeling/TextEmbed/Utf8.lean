/-!
# UTF-8

Texts are lists of scalar values, files are lists of bytes. This module writes a text as bytes and
reads bytes as text, saying exactly where and how bytes fail to be a text.

A byte string falls apart into `Piece`s in one way: well-formed sequences, and between them the
longest starts of a sequence that a following byte breaks off. Everything else is read off from the
pieces: the decoded text or the first error (`decode`), and the text with replacement characters
(`lossy`).
-/

namespace TextEmbed.Utf8

/-- The bytes of a text. -/
def encode (text : List Char) : List UInt8 :=
  text.flatMap String.utf8EncodeChar

@[simp]
theorem encode_nil : encode [] = [] := rfl

@[simp]
theorem encode_cons (c : Char) (text : List Char) :
    encode (c :: text) = String.utf8EncodeChar c ++ encode text := rfl

@[simp]
theorem encode_append (first second : List Char) :
    encode (first ++ second) = encode first ++ encode second :=
  List.flatMap_append

/-- What a first byte announces. -/
structure Lead where
  /-- The number of bytes that continue the sequence. -/
  more : Nat
  /-- The bits of the scalar value that the first byte holds. -/
  payload : Nat
  /-- The least second byte, which rules out overlong forms. -/
  low : UInt8 := 0x80
  /-- The greatest second byte, which rules out surrogates and values above `10FFFF`. -/
  high : UInt8 := 0xBF

/-- Reads a first byte; `none` for a byte that starts no sequence. -/
def lead? (b : UInt8) : Option Lead :=
  if b < 0x80 then some { more := 0, payload := b.toNat }
  else if b < 0xC2 then none
  else if b < 0xE0 then some { more := 1, payload := b.toNat - 0xC0 }
  else if b = 0xE0 then some { more := 2, payload := 0, low := 0xA0 }
  else if b = 0xED then some { more := 2, payload := 0xD, high := 0x9F }
  else if b < 0xF0 then some { more := 2, payload := b.toNat - 0xE0 }
  else if b = 0xF0 then some { more := 3, payload := 0, low := 0x90 }
  else if b = 0xF4 then some { more := 3, payload := 4, high := 0x8F }
  else if b < 0xF4 then some { more := 3, payload := b.toNat - 0xF0 }
  else none

/-- The bytes at the front that continue a sequence: at most `more`, the first of them between `low`
and `high`, the others between `80` and `BF`. -/
def continuation (more : Nat) (low high : UInt8) : List UInt8 → List UInt8
  | [] => []
  | b :: rest =>
    match more with
    | 0 => []
    | more + 1 =>
      if low ≤ b ∧ b ≤ high then b :: continuation more 0x80 0xBF rest else []

/-- A part of a byte string. -/
inductive Piece where
  /-- The encoding of one scalar value. -/
  | scalar (c : Char)
  /-- The start of a sequence that the byte behind it can't continue, or a byte that starts none. -/
  | invalid (bytes : List UInt8)
  /-- The start of a sequence at the end of the byte string. -/
  | incomplete (bytes : List UInt8)
  deriving DecidableEq, Repr

/-- The first piece of `b :: rest`, and how many bytes of `rest` belong to it. -/
def front (b : UInt8) (rest : List UInt8) : Piece × Nat :=
  match lead? b with
  | none => (.invalid [b], 0)
  | some lead =>
    let taken := continuation lead.more lead.low lead.high rest
    let piece :=
      if taken.length = lead.more then
        .scalar (.ofNat (taken.foldl (fun value c => value * 64 + (c.toNat - 0x80)) lead.payload))
      else if taken.length = rest.length then .incomplete (b :: taken)
      else .invalid (b :: taken)
    (piece, taken.length)

/-- The pieces of a byte string, in order. -/
def pieces : List UInt8 → List Piece
  | [] => []
  | b :: rest => (front b rest).1 :: pieces (rest.drop (front b rest).2)
termination_by bytes => bytes.length
decreasing_by simp only [List.length_drop, List.length_cons]; omega

/-- How a byte string fails to be a text. -/
structure IllFormed where
  /-- Where the first piece that is no scalar value starts. -/
  index : Nat
  /-- The length of that piece, `none` if the byte string ends in the middle of a sequence. -/
  length : Option Nat
  deriving DecidableEq, Repr

namespace IllFormed

/-- The wording of the failure. -/
def message (e : IllFormed) : List Char :=
  match e.length with
  | some n =>
    "invalid utf-8 sequence of ".toList ++ Nat.toDigits 10 n ++ " bytes from index ".toList
      ++ Nat.toDigits 10 e.index
  | none => "incomplete utf-8 byte sequence from index ".toList ++ Nat.toDigits 10 e.index

end IllFormed

/-- The text that the pieces spell, the first of them starting at `index`. -/
def ofPieces (index : Nat) : List Piece → Except IllFormed (List Char)
  | [] => .ok []
  | .scalar c :: rest => (ofPieces (index + c.utf8Size) rest).map (c :: ·)
  | .invalid bytes :: _ => .error { index, length := some bytes.length }
  | .incomplete _ :: _ => .error { index, length := none }

/-- The text of a byte string, or its first error. -/
def decode (bytes : List UInt8) : Except IllFormed (List Char) :=
  ofPieces 0 (pieces bytes)

/-- The scalar value shown for a piece: ill-formed pieces show as the replacement character. -/
def Piece.shown : Piece → Char
  | .scalar c => c
  | .invalid _ | .incomplete _ => '\uFFFD'

/-- The text of a byte string with every ill-formed piece replaced. -/
def lossy (bytes : List UInt8) : List Char :=
  (pieces bytes).map Piece.shown

end TextEmbed.Utf8
