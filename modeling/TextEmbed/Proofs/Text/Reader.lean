import Mathlib.Data.List.Basic

/-!
# Readers

A reader takes an item off the front of a text. What was written item by item is read back item by
item, if the reader undoes the writing of each item and no item passes for the end.

## Main definitions

* `Text.Reader`: readers of one kind of item;
* `Text.readUntil`: reads items up to an end;
* `Text.Reader.Undoes`: readers that read back an item, whatever is behind it.

## Main results

* `Text.readUntil_flatMap_eq`: what is read of items that were written one after the other;
* `Text.readUntil_flatMap`: such items are read back.
-/

namespace TextEmbed.Text

/-- Reads an item at the front of a text, and tells what is behind it. -/
abbrev Reader (α : Type) := List Char → Option (α × List Char)

section

variable {α : Type}

/-- Reads items until `stop` finds the end, and tells what is behind that. A reader that uses up
nothing would not come to an end. -/
def readUntil (stop : List Char → Option (List Char)) (reader : Reader α) : Reader (List α) :=
  fun text =>
    match stop text with
    | some rest => some ([], rest)
    | none =>
      match reader text with
      | none => none
      | some (item, rest) =>
        if rest.length < text.length then
          (readUntil stop reader rest).map fun later => (item :: later.1, later.2)
        else none
termination_by text => text.length

/-- The reader reads an item back that `write` wrote, whatever is behind it. -/
def Reader.Undoes (reader : Reader α) (write : α → List Char) (item : α) : Prop :=
  ∀ rest, reader (write item ++ rest) = some (item, rest)

/-- What is read of items that were written one after the other: the value of each, up to the end
behind them, unless one of them is refused. -/
theorem readUntil_flatMap_eq {β : Type} {stop : List Char → Option (List Char)} {reader : Reader β}
    {write : α → List Char} {refused : α → Bool} {value : α → β} {items : List α}
    {tail rest : List Char}
    (hread : ∀ item ∈ items, ∀ later, reader (write item ++ later) =
      if refused item then none else some (value item, later))
    (hopen : ∀ item ∈ items, write item ≠ [] ∧ ∀ later, stop (write item ++ later) = none)
    (hend : stop tail = some rest) :
    readUntil stop reader (items.flatMap write ++ tail) =
      if items.any refused then none else some (items.map value, rest) := by
  induction items with
  | nil => rw [List.flatMap_nil, List.nil_append, readUntil, hend]; rfl
  | cons item items ih =>
    obtain ⟨hitem, hitems⟩ := List.forall_mem_cons.mp hread
    obtain ⟨⟨hwrite, hstop⟩, hopen⟩ := List.forall_mem_cons.mp hopen
    -- an item that is not empty makes the text shorter, so the guard lets it pass
    have hshorter : (items.flatMap write ++ tail).length <
        (write item ++ (items.flatMap write ++ tail)).length := by
      have hpos := List.length_pos_iff.mpr hwrite
      simp only [List.length_append]
      omega
    rw [List.flatMap_cons, List.append_assoc, readUntil, hstop, hitem, List.any_cons]
    cases refused item with
    | true => rfl
    | false =>
      simp only [Bool.false_or, Bool.false_eq_true, if_false, if_pos hshorter, ih hitems hopen]
      split <;> rfl

/-- Items that were written one after the other are read back, up to the end behind them. -/
theorem readUntil_flatMap {stop : List Char → Option (List Char)} {reader : Reader α}
    {write : α → List Char} {items : List α} {tail rest : List Char}
    (hread : ∀ item ∈ items, reader.Undoes write item)
    (hopen : ∀ item ∈ items, write item ≠ [] ∧ ∀ later, stop (write item ++ later) = none)
    (hend : stop tail = some rest) :
    readUntil stop reader (items.flatMap write ++ tail) = some (items, rest) := by
  have hnone : ∀ item ∈ items, ∀ later, reader (write item ++ later) =
      if (fun _ => false) item then none else some (id item, later) := by
    intro item hitem later
    exact hread item hitem later
  rw [readUntil_flatMap_eq hnone hopen hend]
  simp

theorem dropPrefix?_append [BEq α] [LawfulBEq α] (front text : List α) :
    (front ++ text).dropPrefix? front = some text :=
  List.dropPrefix?_append_of_beq text (beq_self_eq_true front)

end

end TextEmbed.Text
