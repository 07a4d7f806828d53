import Mathlib.Data.List.DropRight
import TextEmbed.Path
import TextEmbed.Proofs.Utf8.Lossy

/-!
# Last segments of paths

What stands behind the last slash of a path is its last part. If it is a name then it is the last
component of the path as well, so the path ends in that name. Otherwise it is empty or a dot, and
the path can lead to a directory only, or it is two dots, and the path ends at the directory above.

## Main definitions

* `Path.lastSegment`: what stands behind the last slash;
* `Path.IsName`: parts that are the name of an entry;
* `Path.IsBaseName`: what makes a text the base name of a path.

## Main results

* `Path.exists_parts_eq`: the last segment is the last part;
* `Path.endsAsDirectory_or`: how a path can end;
* `Path.isBaseName_lossy`: a last segment that is a name is shown as the base name.
-/

namespace TextEmbed

section

variable {α : Type} [DecidableEq α] {separator : α}

/-- What is behind the last separator is taken, and nothing in front. -/
theorem rtakeWhile_append_cons {back : List α} (h : separator ∉ back) (front : List α) :
    (front ++ separator :: back).rtakeWhile (· ≠ separator) = back := by
  have htake : ∀ x ∈ back.reverse, decide (x ≠ separator) = true := by
    intro x hx
    exact decide_eq_true fun heq => h (heq ▸ List.mem_reverse.mp hx)
  rw [List.rtakeWhile, List.reverse_append, List.reverse_cons, List.append_assoc,
    List.takeWhile_append_of_pos htake]
  simp

theorem rtakeWhile_of_not_mem {items : List α} (h : separator ∉ items) :
    items.rtakeWhile (· ≠ separator) = items :=
  List.rtakeWhile_eq_self_iff.mpr fun _ hx => decide_eq_true fun heq => h (heq ▸ hx)

theorem not_mem_rtakeWhile (separator : α) (items : List α) :
    separator ∉ items.rtakeWhile (· ≠ separator) := by
  intro h
  simpa using List.mem_rtakeWhile_imp h

/-- Items have no separator, or a last one. -/
theorem not_mem_or_exists_append_cons (separator : α) (items : List α) :
    separator ∉ items ∨
      ∃ front, items = front ++ separator :: items.rtakeWhile (· ≠ separator) := by
  have hsplit := List.rdropWhile_append_rtakeWhile (p := (· ≠ separator)) (l := items)
  by_cases hfront : items.rdropWhile (· ≠ separator) = []
  · rw [hfront, List.nil_append] at hsplit
    exact .inl (hsplit ▸ not_mem_rtakeWhile separator items)
  · have hlast := List.rdropWhile_last_not (· ≠ separator) items hfront
    have hseparator : (items.rdropWhile (· ≠ separator)).getLast hfront = separator := by
      simpa using hlast
    refine .inr ⟨(items.rdropWhile (· ≠ separator)).dropLast, ?_⟩
    conv_lhs => rw [← hsplit, ← List.dropLast_concat_getLast hfront, hseparator]
    rw [List.append_assoc, List.singleton_append]

end

namespace Path

/-- What stands behind the last slash of a path, which is all of it if it has none. -/
def lastSegment (path : Path) : List UInt8 :=
  path.bytes.rtakeWhile (· ≠ slash)

/-- The part is the name of an entry. -/
def IsName (part : List UInt8) : Prop :=
  part ≠ [] ∧ part ≠ [dot] ∧ part ≠ [dot, dot]

/-- A path has no slash, and is its last segment, or there is a last slash in front of it. -/
theorem lastSegment_cases (path : Path) :
    (slash ∉ path.bytes ∧ path.lastSegment = path.bytes) ∨
      (slash ∉ path.lastSegment ∧ ∃ front, path.bytes = front ++ slash :: path.lastSegment) := by
  rcases not_mem_or_exists_append_cons slash path.bytes with hnone | hfront
  · exact .inl ⟨hnone, rtakeWhile_of_not_mem hnone⟩
  · exact .inr ⟨not_mem_rtakeWhile slash path.bytes, hfront⟩

/-- The last part of a path is what stands behind its last slash. -/
theorem exists_parts_eq (path : Path) : ∃ earlier, path.parts = earlier ++ [path.lastSegment] := by
  rcases path.lastSegment_cases with ⟨hnone, hlast⟩ | ⟨hlast, front, hfront⟩
  · exact ⟨[], by rw [parts, List.splitOn_eq_singleton hnone, hlast, List.nil_append]⟩
  · refine ⟨front.splitOn slash, ?_⟩
    rw [parts, hfront, List.splitOn_append_cons_self, List.splitOn_eq_singleton hlast]

theorem componentOfPart_of_isName {part : List UInt8} (h : IsName part) :
    componentOfPart part = some (.name part) := by
  rw [componentOfPart, if_neg (by simp [h.1, h.2.1]), if_neg h.2.2]

/-- The last component of a path is the one that its last part stands for. -/
theorem getLast?_components {path : Path} {component : Component}
    (h : componentOfPart path.lastSegment = some component) :
    path.components.getLast? = some component := by
  obtain ⟨earlier, hparts⟩ := path.exists_parts_eq
  simp [components, hparts, h]

/-- Only behind a slash at the end of a path there is nothing. -/
theorem lastSegment_ne_nil {path : Path} (h : path.bytes ≠ []) (hslash : path.endsInSlash = false) :
    path.lastSegment ≠ [] := by
  rcases path.lastSegment_cases with ⟨-, hlast⟩ | ⟨-, front, hfront⟩
  · rwa [hlast]
  · intro hnil
    rw [endsInSlash, hfront, hnil, List.getLast?_concat] at hslash
    simp at hslash

/-- A path can lead to a directory only, or it ends at the directory above, or in a name. -/
theorem endsAsDirectory_or {path : Path} (h : path.bytes ≠ []) :
    path.endsAsDirectory = true ∨ path.components.getLast? = some .parent ∨
      (IsName path.lastSegment ∧ path.components.getLast? = some (.name path.lastSegment)) := by
  cases hend : path.endsAsDirectory with
  | true => exact .inl rfl
  | false =>
    refine .inr ?_
    obtain ⟨hslash, hdot⟩ := Bool.or_eq_false_iff.mp hend
    have hnil := lastSegment_ne_nil h hslash
    have hlast : path.lastPart? = some path.lastSegment := by
      obtain ⟨earlier, hparts⟩ := path.exists_parts_eq
      simp [lastPart?, hparts, hnil]
    -- neither empty nor a dot, the last part stands for a component: two dots, or a name
    have hne : path.lastSegment ≠ [dot] := by simpa [hlast] using hdot
    by_cases hparent : path.lastSegment = [dot, dot]
    · exact .inl (getLast?_components (by rw [hparent]; rfl))
    · have hname : IsName path.lastSegment := ⟨hnil, hne, hparent⟩
      exact .inr ⟨hname, getLast?_components (componentOfPart_of_isName hname)⟩

/-! ## Base names -/

theorem slash_mem_encode_iff {text : List Char} : slash ∈ Utf8.encode text ↔ '/' ∈ text := by
  constructor
  · intro h
    obtain ⟨c, hc, hslash⟩ := List.mem_flatMap.mp h
    obtain rfl : c = '/' := Utf8.eq_of_mem_utf8EncodeChar hslash (by decide) rfl
    exact hc
  · intro h
    exact List.mem_flatMap.mpr ⟨'/', h, by decide⟩

/-- What stands behind the last slash of a text is a text. -/
theorem lastSegment_ofText (text : List Char) :
    (ofText text).lastSegment = Utf8.encode (text.rtakeWhile (· ≠ '/')) := by
  rcases not_mem_or_exists_append_cons '/' text with hnone | ⟨front, hfront⟩
  · rw [rtakeWhile_of_not_mem hnone]
    exact rtakeWhile_of_not_mem (slash_mem_encode_iff.not.mpr hnone)
  · have hlast := slash_mem_encode_iff.not.mpr (not_mem_rtakeWhile '/' text)
    have hbytes : Utf8.encode text =
        Utf8.encode front ++ slash :: Utf8.encode (text.rtakeWhile (· ≠ '/')) := by
      conv_lhs => rw [hfront, Utf8.encode_append, Utf8.encode_cons]
      rfl
    rw [lastSegment, ofText, hbytes, rtakeWhile_append_cons hlast]

/-- The text is the base name of a path: what stands behind the last slash, shown as a text. -/
structure IsBaseName (path : Path) (name : List Char) : Prop where
  /-- Whatever bytes there are behind the last slash, they are shown. -/
  eq_lossy : name = Utf8.lossy path.lastSegment
  /-- If the path is a text, then the name is exactly what is behind the last slash. -/
  eq_of_text : ∀ text, path = ofText text → name = text.rtakeWhile (· ≠ '/')
  ne_nil : name ≠ []
  slash_not_mem : '/' ∉ name
  ne_dot : name ≠ ['.']
  ne_dots : name ≠ ['.', '.']

/-- A name behind the last slash is shown as the base name. -/
theorem isBaseName_lossy {path : Path} (h : IsName path.lastSegment) :
    path.IsBaseName (Utf8.lossy path.lastSegment) where
  eq_lossy := rfl
  eq_of_text := by
    rintro text rfl
    rw [lastSegment_ofText, Utf8.lossy_encode]
  ne_nil hnil := h.1 (Utf8.lossy_eq_nil_iff.mp hnil)
  slash_not_mem hslash := by
    rcases Utf8.mem_lossy hslash with hbytes | hreplacement
    · exact not_mem_rtakeWhile slash path.bytes (hbytes slash (by decide))
    · exact absurd hreplacement (by decide)
  ne_dot hdot := h.2.1 ((Utf8.lossy_eq_iff (by decide)).mp hdot)
  ne_dots hdots := h.2.2 ((Utf8.lossy_eq_iff (by decide)).mp hdots)

end Path

end TextEmbed
