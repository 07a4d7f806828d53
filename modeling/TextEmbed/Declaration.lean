import TextEmbed.Fragment
import TextEmbed.Identifier

/-!
# Declarations

A declaration gives the lines of one file to a C program as adjacent string literals:

    static const GLchar* _blit_frag =
        "#version 330\n"
        "void main() {}\n"
        ;

A blank line follows each declaration.
-/

namespace TextEmbed

/-- What all declarations of a run have in common. -/
structure Settings where
  /-- Whether comments are left out of the embedded text. -/
  stripComments : Bool := false
  /-- What every identifier starts with. -/
  lead : List Char := ['_']
  /-- The pointer type that declarations name. -/
  pointerType : List Char := "GLchar*".toList
  deriving DecidableEq, Repr

/-- A file as a C program sees it. -/
structure Declaration where
  /-- The declared symbol. -/
  identifier : List Char
  /-- The embedded lines, without terminators. -/
  body : List (List Char)
  deriving DecidableEq, Repr

namespace Declaration

/-- The line that opens the declaration of `identifier`. -/
def header (pointerType identifier : List Char) : List Char :=
  "static const ".toList ++ pointerType ++ ' ' :: identifier ++ " =".toList

/-- The line of an embedded line. -/
def fragmentLine (line : List Char) : List Char :=
  "    ".toList ++ Fragment.ofLine line

/-- The line that closes a declaration, with the line feed in front of the blank line. -/
def closing : List Char :=
  "    ;\n".toList

/-- The lines of a declaration, in order. -/
def lines (pointerType : List Char) (declaration : Declaration) : List (List Char) :=
  header pointerType declaration.identifier ::
    (declaration.body.map fragmentLine ++ [closing])

/-- A declaration as text. -/
def render (pointerType : List Char) (declaration : Declaration) : List Char :=
  (declaration.lines pointerType).flatMap (· ++ ['\n'])

end Declaration

end TextEmbed
