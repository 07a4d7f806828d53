import TextEmbed.Line.Comment
import TextEmbed.Proofs.Text.Lines
import TextEmbed.Proofs.Utf8.RoundTrip

/-!
# Where comments start

A comment marker is two slashes that don't stand right behind a backslash. Slashes and backslashes
are single bytes, and no other character has such a byte, so markers can be found among the bytes of
a line as well as among its characters. A comment starts at the first marker.

## Main definitions

* `Line.IsMarkerAt`: the markers among the bytes of a line.

## Main results

* `Line.exists_first_marker_or`: what is left of a line is what stands before its first marker;
* `Line.cutComment_eq_self_iff`: all of a line is left exactly if it has no marker;
* `Line.cutCommentAfter_append_eq_self_iff`: markers don't reach across the end of a line.
-/

namespace TextEmbed.Line

/-- The slash. -/
def slash : UInt8 := 0x2F

/-- The backslash. -/
def backslash : UInt8 := 0x5C

/-- A comment marker starts at index `i`: there are two slashes, and no backslash right before. -/
def IsMarkerAt (bytes : List UInt8) (i : Nat) : Prop :=
  bytes[i]? = some slash ∧ bytes[i + 1]? = some slash ∧
    (i = 0 ∨ bytes[i - 1]? ≠ some backslash)

/-! ## Markers among bytes -/

/-- A marker starts at index `i`, `escaped` telling whether the byte right before the first one is a
backslash. -/
def IsMarkerAfter (escaped : Bool) (bytes : List UInt8) (i : Nat) : Prop :=
  bytes[i]? = some slash ∧ bytes[i + 1]? = some slash ∧
    if i = 0 then escaped = false else bytes[i - 1]? ≠ some backslash

theorem isMarkerAfter_false {bytes : List UInt8} {i : Nat} :
    IsMarkerAfter false bytes i ↔ IsMarkerAt bytes i := by
  unfold IsMarkerAfter IsMarkerAt
  split <;> simp_all

theorem isMarkerAfter_zero {escaped : Bool} {b : UInt8} {bytes : List UInt8} :
    IsMarkerAfter escaped (b :: bytes) 0 ↔
      escaped = false ∧ b = slash ∧ bytes.head? = some slash := by
  simp only [IsMarkerAfter, List.getElem?_cons_zero, List.getElem?_cons_succ, Option.some.injEq,
    List.head?_eq_getElem?, if_true]
  exact ⟨fun ⟨hb, hnext, hescaped⟩ => ⟨hescaped, hb, hnext⟩,
    fun ⟨hescaped, hb, hnext⟩ => ⟨hb, hnext, hescaped⟩⟩

theorem isMarkerAfter_succ {escaped : Bool} {b : UInt8} {bytes : List UInt8} {i : Nat} :
    IsMarkerAfter escaped (b :: bytes) (i + 1) ↔ IsMarkerAfter (b == backslash) bytes i := by
  cases i with
  | zero => simp [IsMarkerAfter]
  | succ i => simp [IsMarkerAfter]

/-- No marker starts within bytes that are neither slashes nor backslashes. -/
theorem isMarkerAfter_append {front : List UInt8} (hne : front ≠ [])
    (hfront : ∀ b ∈ front, b ≠ slash ∧ b ≠ backslash) {escaped : Bool} {bytes : List UInt8}
    {i : Nat} :
    IsMarkerAfter escaped (front ++ bytes) i ↔
      front.length ≤ i ∧ IsMarkerAfter false bytes (i - front.length) := by
  induction front generalizing escaped i with
  | nil => exact absurd rfl hne
  | cons b front ih =>
    obtain ⟨⟨hslash, hbackslash⟩, hfront⟩ := List.forall_mem_cons.mp hfront
    have hb : (b == backslash) = false := beq_false_of_ne hbackslash
    rw [List.cons_append, List.length_cons]
    cases i with
    | zero => simp [isMarkerAfter_zero, hslash]
    | succ i =>
      rw [isMarkerAfter_succ, hb, Nat.add_sub_add_right, Nat.add_le_add_iff_right]
      cases front with
      | nil => simp
      | cons next front => exact ih (List.cons_ne_nil next front) hfront

/-! ## Markers among characters -/

theorem head?_encode_eq_slash_iff {text : List Char} :
    (Utf8.encode text).head? = some slash ↔ text.head? = some '/' := by
  cases text with
  | nil => simp
  | cons c rest =>
    rw [Utf8.encode_cons, List.head?_cons, Option.some.injEq]
    constructor
    · intro h
      have hmem : slash ∈ String.utf8EncodeChar c := by
        rw [List.head?_append] at h
        cases hbytes : String.utf8EncodeChar c with
        | nil => exact absurd hbytes String.utf8EncodeChar_ne_nil
        | cons b bytes => simp_all
      exact Utf8.eq_of_mem_utf8EncodeChar hmem (by decide) rfl
    · rintro rfl
      rfl

/-- A marker starts at a character, or somewhere behind it. -/
theorem isMarkerAfter_encode_cons {escaped : Bool} {c : Char} {rest : List Char} {i : Nat} :
    IsMarkerAfter escaped (Utf8.encode (c :: rest)) i ↔
      (i = 0 ∧ escaped = false ∧ c = '/' ∧ rest.head? = some '/') ∨
        (c.utf8Size ≤ i ∧ IsMarkerAfter (c == '\\') (Utf8.encode rest) (i - c.utf8Size)) := by
  rw [Utf8.encode_cons]
  by_cases hslash : c = '/'
  · subst hslash
    have hbytes : String.utf8EncodeChar '/' = [slash] := rfl
    have hsize : Char.utf8Size '/' = 1 := rfl
    have hescape : (slash == backslash) = ('/' == '\\') := rfl
    rw [hbytes, hsize, List.singleton_append]
    cases i with
    | zero => simp [isMarkerAfter_zero, head?_encode_eq_slash_iff]
    | succ i => simp [isMarkerAfter_succ, hescape]
  by_cases hbackslash : c = '\\'
  · subst hbackslash
    have hbytes : String.utf8EncodeChar '\\' = [backslash] := rfl
    have hsize : Char.utf8Size '\\' = 1 := rfl
    have hne : backslash ≠ slash := by decide
    rw [hbytes, hsize, List.singleton_append]
    cases i with
    | zero => simp [isMarkerAfter_zero, hne]
    | succ i => simp [isMarkerAfter_succ]
  -- the bytes of any other character are neither slashes nor backslashes
  · have hfront : ∀ b ∈ String.utf8EncodeChar c, b ≠ slash ∧ b ≠ backslash := by
      intro b hb
      refine ⟨?_, ?_⟩
      · rintro rfl
        exact hslash (Utf8.eq_of_mem_utf8EncodeChar hb (by decide) rfl)
      · rintro rfl
        exact hbackslash (Utf8.eq_of_mem_utf8EncodeChar hb (by decide) rfl)
    have hescape : (c == '\\') = false := beq_false_of_ne hbackslash
    rw [isMarkerAfter_append String.utf8EncodeChar_ne_nil hfront, String.length_utf8EncodeChar]
    simp [hslash, hescape]

/-! ## Cutting -/

theorem cutCommentAfter_cons (escaped : Bool) (c : Char) (rest : List Char) :
    cutCommentAfter escaped (c :: rest) =
      if escaped = false ∧ c = '/' ∧ rest.head? = some '/' then []
      else c :: cutCommentAfter (c == '\\') rest := by
  rw [cutCommentAfter]
  simp only [Bool.and_eq_true, Bool.not_eq_true', beq_iff_eq, and_assoc]

/-- A line has no marker and is left as it is, or what is left of it is what stands before its first
marker. -/
theorem exists_first_marker_or (escaped : Bool) (line : List Char) :
    ((∀ i, ¬ IsMarkerAfter escaped (Utf8.encode line) i) ∧ cutCommentAfter escaped line = line) ∨
      ∃ i, IsMarkerAfter escaped (Utf8.encode line) i ∧
        (∀ j < i, ¬ IsMarkerAfter escaped (Utf8.encode line) j) ∧
        Utf8.encode (cutCommentAfter escaped line) = (Utf8.encode line).take i := by
  induction line generalizing escaped with
  | nil => exact .inl ⟨by simp [IsMarkerAfter], rfl⟩
  | cons c rest ih =>
    rw [cutCommentAfter_cons]
    by_cases hmarker : escaped = false ∧ c = '/' ∧ rest.head? = some '/'
    · rw [if_pos hmarker]
      exact .inr ⟨0, isMarkerAfter_encode_cons.mpr (.inl ⟨rfl, hmarker⟩), by simp, rfl⟩
    · rw [if_neg hmarker]
      -- any marker is one of the rest, behind the bytes of the first character
      have hbehind : ∀ i, IsMarkerAfter escaped (Utf8.encode (c :: rest)) i ↔ c.utf8Size ≤ i ∧
          IsMarkerAfter (c == '\\') (Utf8.encode rest) (i - c.utf8Size) := by
        intro i
        rw [isMarkerAfter_encode_cons, or_iff_right (fun h => hmarker h.2)]
      rcases ih (c == '\\') with ⟨hnone, hrest⟩ | ⟨i, hi, hfirst, hrest⟩
      · refine .inl ⟨fun i hi => hnone _ ((hbehind i).mp hi).2, ?_⟩
        rw [hrest]
      · refine .inr ⟨c.utf8Size + i, ?_, ?_, ?_⟩
        · rw [hbehind, Nat.add_sub_cancel_left]
          exact ⟨Nat.le_add_right _ _, hi⟩
        · intro j hj hmarkerAt
          obtain ⟨hle, hmarkerAt⟩ := (hbehind j).mp hmarkerAt
          exact hfirst (j - c.utf8Size) (by omega) hmarkerAt
        · rw [Utf8.encode_cons, Utf8.encode_cons, hrest, ← String.length_utf8EncodeChar,
            List.take_length_add_append]

/-- All of a line is left exactly if no marker is among its bytes. -/
theorem cutComment_eq_self_iff {line : List Char} :
    cutComment line = line ↔ ∀ i, ¬ IsMarkerAt (Utf8.encode line) i := by
  simp only [← isMarkerAfter_false]
  rcases exists_first_marker_or false line with ⟨hnone, hline⟩ | ⟨i, hi, -, hline⟩
  · exact ⟨fun _ => hnone, fun _ => hline⟩
  · refine ⟨fun hself => ?_, fun hnone => absurd hi (hnone i)⟩
    -- what stands before a marker is shorter than the line
    rw [show cutCommentAfter false line = line from hself] at hline
    have hlength := congrArg List.length hline
    obtain ⟨hlt, -⟩ := List.getElem?_eq_some_iff.mp hi.1
    rw [List.length_take] at hlength
    omega

/-- What is cut off a line starts with a marker. -/
theorem exists_eq_cutCommentAfter_append (escaped : Bool) (line : List Char) :
    cutCommentAfter escaped line = line ∨
      ∃ comment, line = cutCommentAfter escaped line ++ '/' :: comment := by
  induction line generalizing escaped with
  | nil => exact .inl rfl
  | cons c rest ih =>
    rw [cutCommentAfter_cons]
    split
    next hmarker =>
      obtain ⟨-, rfl, -⟩ := hmarker
      exact .inr ⟨rest, rfl⟩
    next =>
      rcases ih (c == '\\') with hrest | ⟨comment, hrest⟩
      · exact .inl (by rw [hrest])
      · exact .inr ⟨comment, by rw [List.cons_append, ← hrest]⟩

/-- No marker reaches across the end of a line, so a line and what is behind it are left as they are
exactly if each of them is. -/
theorem cutCommentAfter_append_eq_self_iff (escaped : Bool) (line : List Char) {c : Char}
    (hc : Text.isLineEnd c = true) (rest : List Char) :
    cutCommentAfter escaped (line ++ c :: rest) = line ++ c :: rest ↔
      cutCommentAfter escaped (line ++ [c]) = line ++ [c] ∧ cutComment rest = rest := by
  have hslash : c ≠ '/' := by
    rintro rfl
    exact absurd hc (by decide)
  have hescape : (c == '\\') = false := by
    apply beq_false_of_ne
    rintro rfl
    exact absurd hc (by decide)
  induction line generalizing escaped with
  | nil => simp [cutCommentAfter_cons, hslash, hescape, cutComment, cutCommentAfter]
  | cons first line ih =>
    -- whether a marker starts at the first character is a matter of the line
    have hhead : (line ++ c :: rest).head? = (line ++ [c]).head? := by
      cases line <;> rfl
    rw [List.cons_append, List.cons_append, cutCommentAfter_cons, cutCommentAfter_cons, hhead]
    split
    next => simp
    next => simpa using ih (first == '\\')

end TextEmbed.Line
