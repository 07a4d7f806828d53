import TextEmbed.Declaration
import TextEmbed.Proofs.Fragment.Json

/-!
# Reading declarations

What runs write can be read back. The reader knows the settings of the run and nothing else of it:
neither the names of the files nor what is in them, nor how many there are. It reads a declaration
from its header to its closing line, wherever that is, so nothing in a name or in a line can end the
declaration early or pass for something else.

## Main definitions

* `Declaration.readBody`: reads fragments up to the line that closes their declaration;
* `Declaration.read`: reads a declaration;
* `Declaration.readAll`: reads declarations to the end of a text.

## Main results

* `Declaration.read_render`: a declaration is read back, whatever is behind it;
* `Declaration.readAll_flatMap_render`: declarations are read back one by one.
-/

namespace TextEmbed.Declaration

open Text

/-! ## Readers -/

/-- The text in front of the last line feed, which has to be there. -/
def withoutLineFeed (text : List Char) : Option (List Char) :=
  if text.getLast? = some '\n' then some text.dropLast else none

/-- Reads the line of a fragment: the line it denotes, and what is behind its line feed. -/
def readFragment : Reader (List Char) := fun text =>
  match (text.dropPrefix? "    ".toList).bind Json.readString with
  | some (inside, '\n' :: rest) => (withoutLineFeed inside).map fun line => (line, rest)
  | _ => none

/-- Reads the fragments of a declaration, and the line that closes it with the blank line. -/
def readBody : Reader (List (List Char)) :=
  readUntil (·.dropPrefix? (closing ++ ['\n'])) readFragment

/-- Characters that names of files turn into. -/
def isSymbolChar (c : Char) : Bool :=
  c.isAlphanum || c == '_'

/-- What every declaration of a run starts with. -/
def opening (settings : Settings) : List Char :=
  "static const ".toList ++ settings.pointerType ++ ' ' :: settings.lead

/-- Reads a declaration, and tells what is behind it. -/
def read (settings : Settings) : Reader Declaration := fun text =>
  match text.dropPrefix? (opening settings) with
  | none => none
  | some text =>
    match (text.dropWhile isSymbolChar).dropPrefix? " =\n".toList with
    | none => none
    | some rest => (readBody rest).map fun later =>
      ({ identifier := settings.lead ++ text.takeWhile isSymbolChar, body := later.1 }, later.2)

/-- Nothing is behind the end of a text. -/
def atEnd (text : List Char) : Option (List Char) :=
  if text = [] then some [] else none

/-- Reads declarations to the end of a text. -/
def readAll (settings : Settings) (text : List Char) : Option (List Declaration) :=
  (readUntil atEnd (read settings) text).map Prod.fst

/-! ## Reading what is written -/

/-- The line of a fragment is read back. -/
theorem readFragment_fragmentLine (line : List Char) :
    readFragment.Undoes (fun line => fragmentLine line ++ ['\n']) line := by
  intro rest
  have hline : withoutLineFeed (line ++ ['\n']) = some line := by
    simp [withoutLineFeed]
  show readFragment (fragmentLine line ++ ['\n'] ++ rest) = some (line, rest)
  rw [readFragment, fragmentLine, List.append_assoc, List.append_assoc, dropPrefix?_append,
    Option.bind_some, Fragment.ofLine, Fragment.readString_quote]
  simp only [List.singleton_append, hline, Option.map_some]

/-- The line of a fragment doesn't close a declaration. -/
theorem dropPrefix?_fragmentLine (line rest : List Char) :
    (fragmentLine line ++ ['\n'] ++ rest).dropPrefix? (closing ++ ['\n']) = none := rfl

/-- The lines of a declaration behind its header are read back, up to the last of them. -/
theorem readBody_lines (body : List (List Char)) (rest : List Char) :
    readBody ((body.map fragmentLine ++ [closing]).flatMap (· ++ ['\n']) ++ rest) =
      some (body, rest) := by
  rw [List.flatMap_append, List.flatMap_map, List.flatMap_singleton, List.append_assoc]
  refine readUntil_flatMap ?_ ?_ (dropPrefix?_append _ rest)
  · intro line _
    exact readFragment_fragmentLine line
  · intro line _
    exact ⟨by simp, dropPrefix?_fragmentLine line⟩

theorem isSymbolChar_symbolChar (c : Char) : isSymbolChar (Identifier.symbolChar c) = true := by
  unfold Identifier.symbolChar
  split
  next h => simp [isSymbolChar, h]
  next => rfl

/-- A declaration as text: what all declarations start with, the symbol that the name of the file
turns into, and the lines behind the header. -/
theorem render_append {settings : Settings} {declaration : Declaration} {name : List Char}
    (h : declaration.identifier = Identifier.ofName settings.lead name) (rest : List Char) :
    declaration.render settings.pointerType ++ rest =
      opening settings ++ (name.map Identifier.symbolChar ++ (" =\n".toList ++
        ((declaration.body.map fragmentLine ++ [closing]).flatMap (· ++ ['\n']) ++ rest))) := by
  have hend : " =\n".toList = " =".toList ++ ['\n'] := rfl
  rw [hend]
  dsimp only [render, lines, header, opening]
  rw [h]
  dsimp only [Identifier.ofName]
  generalize "static const ".toList = first, " =".toList = last
  simp only [List.flatMap_cons, List.append_assoc, List.cons_append, List.nil_append]

/-- A declaration is read back, whatever is behind it. -/
theorem read_render (settings : Settings) {declaration : Declaration} {name : List Char}
    (h : declaration.identifier = Identifier.ofName settings.lead name) :
    (read settings).Undoes (render settings.pointerType) declaration := by
  intro rest
  -- the symbol goes as far as its characters, because a blank is none of them
  have hsymbol : ∀ c ∈ name.map Identifier.symbolChar, isSymbolChar c = true := by
    intro c hc
    obtain ⟨original, -, rfl⟩ := List.mem_map.mp hc
    exact isSymbolChar_symbolChar original
  have hdrop : ∀ text : List Char, (" =\n".toList ++ text).dropWhile isSymbolChar =
      " =\n".toList ++ text := by
    intro text
    rfl
  have htake : ∀ text : List Char, (" =\n".toList ++ text).takeWhile isSymbolChar = [] := by
    intro text
    rfl
  rw [render_append h, read, dropPrefix?_append]
  simp only [List.dropWhile_append_of_pos hsymbol, List.takeWhile_append_of_pos hsymbol, hdrop,
    htake, dropPrefix?_append, readBody_lines, Option.map_some, List.append_nil]
  rw [← Identifier.ofName, ← h]

/-- Declarations are read back one by one. -/
theorem readAll_flatMap_render (settings : Settings) {declarations : List Declaration}
    (h : ∀ declaration ∈ declarations,
      ∃ name, declaration.identifier = Identifier.ofName settings.lead name) :
    readAll settings (declarations.flatMap (render settings.pointerType)) =
      some declarations := by
  -- every declaration has a header, so none of them is mistaken for the end
  have hread : readUntil atEnd (read settings)
      (declarations.flatMap (render settings.pointerType) ++ []) = some (declarations, []) := by
    refine readUntil_flatMap ?_ ?_ rfl
    · intro declaration hmem
      obtain ⟨name, hname⟩ := h declaration hmem
      exact read_render settings hname
    · intro declaration _
      exact ⟨by simp [render, lines], fun later => by simp [atEnd, render, lines]⟩
  rw [List.append_nil] at hread
  rw [readAll, hread, Option.map_some]

end TextEmbed.Declaration
