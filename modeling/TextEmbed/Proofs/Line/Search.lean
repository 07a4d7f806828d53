import Mathlib.Order.Bounds.Basic
import TextEmbed.Proofs.Line.Comment

/-!
# Searching for a comment

A comment can be searched for among the bytes of a line, from two slashes in a row to the next ones,
until no backslash stands right before them. Slashes overlap, so the search goes on one byte behind
the first of the two. It looks at parts of the line that start or end at the indexes it comes to,
and such a part is a text only if its ends lie between characters. The search of this module stops
without a result where they don't. It is shown to come to a result on every line, and to find the
first marker.

## Main definitions

* `Utf8.splitAt?`: a text in front of and behind an index of its bytes;
* `Line.searchFrom`: the search from some index on;
* `Line.SearchedTo`: what holds whenever the search looks for the next slashes.

## Main results

* `Line.SearchedTo.step`: passing over slashes behind a backslash passes over no marker;
* `Line.SearchedTo.searchFrom_eq`: the search comes to what is left of the line;
* `Line.cutComment_eq_before_first_marker`: a line is cut at its first marker, and none is left.
-/

namespace TextEmbed

namespace Utf8

/-- A text in front of and behind an index of its bytes, `none` if the index lies within a character
or outside of the text. -/
def splitAt? : List Char → Nat → Option (List Char × List Char)
  | text, 0 => some ([], text)
  | [], _ + 1 => none
  | c :: rest, i + 1 =>
    if c.utf8Size ≤ i + 1 then
      (splitAt? rest (i + 1 - c.utf8Size)).map fun parts => (c :: parts.1, parts.2)
    else none

/-- A text can be split behind any start of it. -/
theorem splitAt?_append (front behind : List Char) :
    splitAt? (front ++ behind) (encode front).length = some (front, behind) := by
  induction front with
  | nil => cases behind <;> rfl
  | cons c front ih =>
    have hlength : (encode (c :: front)).length = c.utf8Size + (encode front).length := by
      rw [encode_cons, List.length_append, String.length_utf8EncodeChar]
    have hpos := c.utf8Size_pos
    obtain ⟨i, hi⟩ : ∃ i, c.utf8Size + (encode front).length = i + 1 :=
      ⟨c.utf8Size + (encode front).length - 1, by omega⟩
    have hbehind : i + 1 - c.utf8Size = (encode front).length := by omega
    rw [hlength, hi, List.cons_append, splitAt?, if_pos (by omega), hbehind, ih, Option.map_some]

theorem splitAt?_eq_some_iff {text front behind : List Char} {i : Nat} :
    splitAt? text i = some (front, behind) ↔
      text = front ++ behind ∧ (encode front).length = i := by
  constructor
  · intro h
    fun_induction splitAt? text i generalizing front with
    | case1 text =>
      obtain ⟨rfl, rfl⟩ := Prod.mk.inj (Option.some.inj h)
      exact ⟨rfl, rfl⟩
    | case2 => cases h
    | case3 c rest i hle ih =>
      obtain ⟨⟨front, behind⟩, hsplit, hparts⟩ := Option.map_eq_some_iff.mp h
      obtain ⟨rfl, rfl⟩ := Prod.mk.inj hparts
      obtain ⟨rfl, hlength⟩ := ih hsplit
      refine ⟨rfl, ?_⟩
      rw [encode_cons, List.length_append, String.length_utf8EncodeChar, hlength]
      omega
    | case4 => cases h
  · rintro ⟨rfl, rfl⟩
    exact splitAt?_append front behind

end Utf8

namespace Line

/-! ## Slashes -/

/-- Two slashes in a row start at index `i`. -/
def SlashesAt (bytes : List UInt8) (i : Nat) : Prop :=
  bytes[i]? = some slash ∧ bytes[i + 1]? = some slash

instance (bytes : List UInt8) (i : Nat) : Decidable (SlashesAt bytes i) := by
  unfold SlashesAt
  infer_instance

/-- The index of the first two slashes in a row. -/
def findSlashes? (bytes : List UInt8) : Option Nat :=
  (List.range bytes.length).find? fun i => SlashesAt bytes i

theorem SlashesAt.lt_length {bytes : List UInt8} {i : Nat} (h : SlashesAt bytes i) :
    i < bytes.length :=
  (List.getElem?_eq_some_iff.mp h.1).1

theorem findSlashes?_eq_some_iff {bytes : List UInt8} {i : Nat} :
    findSlashes? bytes = some i ↔ SlashesAt bytes i ∧ ∀ j < i, ¬ SlashesAt bytes j := by
  rw [findSlashes?, List.find?_range_eq_some]
  simp only [decide_eq_true_eq, List.mem_range, Bool.not_eq_true', decide_eq_false_iff_not]
  exact ⟨fun ⟨hi, _, hfirst⟩ => ⟨hi, hfirst⟩, fun ⟨hi, hfirst⟩ => ⟨hi, hi.lt_length, hfirst⟩⟩

theorem findSlashes?_eq_none_iff {bytes : List UInt8} :
    findSlashes? bytes = none ↔ ∀ i, ¬ SlashesAt bytes i := by
  rw [findSlashes?, List.find?_range_eq_none]
  simp only [Bool.not_eq_true', decide_eq_false_iff_not]
  exact ⟨fun h i hi => h i hi.lt_length hi, fun h i _ => h i⟩

/-- Behind an index the slashes of a line are those of what is behind the index. -/
theorem slashesAt_of_splitAt? {line front behind : List Char} {start : Nat}
    (hsplit : Utf8.splitAt? line start = some (front, behind)) (i : Nat) :
    SlashesAt (Utf8.encode line) (start + i) ↔ SlashesAt (Utf8.encode behind) i := by
  obtain ⟨rfl, rfl⟩ := Utf8.splitAt?_eq_some_iff.mp hsplit
  rw [Utf8.encode_append, SlashesAt, SlashesAt, Nat.add_assoc,
    List.getElem?_append_right (Nat.le_add_right _ _),
    List.getElem?_append_right (Nat.le_add_right _ _), Nat.add_sub_cancel_left,
    Nat.add_sub_cancel_left]

/-- The byte of a slash is the character, so a line can be split in front of it. -/
theorem exists_eq_append_slash {line : List Char} {i : Nat}
    (h : (Utf8.encode line)[i]? = some slash) :
    ∃ front behind, line = front ++ '/' :: behind ∧ (Utf8.encode front).length = i := by
  induction line generalizing i with
  | nil => simp at h
  | cons c rest ih =>
    have hsize : (String.utf8EncodeChar c).length = c.utf8Size := String.length_utf8EncodeChar c
    rw [Utf8.encode_cons] at h
    by_cases hi : i < c.utf8Size
    · rw [List.getElem?_append_left (by omega)] at h
      obtain rfl : c = '/' := Utf8.eq_of_mem_utf8EncodeChar (List.mem_of_getElem? h) (by decide) rfl
      obtain rfl : i = 0 := Nat.lt_one_iff.mp hi
      exact ⟨[], rest, rfl, rfl⟩
    · rw [List.getElem?_append_right (by omega)] at h
      obtain ⟨front, behind, rfl, hlength⟩ := ih h
      refine ⟨c :: front, behind, rfl, ?_⟩
      rw [Utf8.encode_cons, List.length_append, hlength]
      omega

/-! ## The search -/

/-- Whether a backslash stands right before index `i`, `none` if there is no byte to look at. -/
def escapedAt? (bytes : List UInt8) (i : Nat) : Option Bool :=
  if i = 0 then some false else bytes[i - 1]?.map (· == backslash)

/-- What a search from index `start` on finds to stand before the comment of a line, `none` if it
comes to an index where the line can't be split or looked at. -/
def searchFrom (line : List Char) (start : Nat) : Option (List Char) :=
  match _ : Utf8.splitAt? line start with
  | none => none
  | some (_, behind) =>
    match _ : findSlashes? (Utf8.encode behind) with
    | none => some line
    | some offset =>
      match escapedAt? (Utf8.encode line) (start + offset) with
      | none => none
      -- the next slashes may start with the second of these
      | some true => searchFrom line (start + offset + 1)
      | some false => (Utf8.splitAt? line (start + offset)).map Prod.fst
termination_by (Utf8.encode line).length - start
decreasing_by
  rename_i hsplit hfind
  obtain ⟨rfl, rfl⟩ := Utf8.splitAt?_eq_some_iff.mp hsplit
  have hlt := (findSlashes?_eq_some_iff.mp hfind).1.lt_length
  rw [Utf8.encode_append, List.length_append]
  omega

/-- The search can go on from index `start`: the line can be split there, and no marker is in front
of it. -/
structure SearchedTo (line : List Char) (start : Nat) : Prop where
  /-- The index doesn't lie within a character or outside of the line. -/
  exists_splitAt? : ∃ front behind, Utf8.splitAt? line start = some (front, behind)
  /-- There is no marker in front of the index. -/
  not_isMarkerAt : ∀ i < start, ¬ IsMarkerAt (Utf8.encode line) i

theorem searchedTo_zero (line : List Char) : SearchedTo line 0 where
  exists_splitAt? := ⟨[], line, Utf8.splitAt?_eq_some_iff.mpr ⟨rfl, rfl⟩⟩
  not_isMarkerAt := by simp

theorem IsMarkerAt.slashesAt {bytes : List UInt8} {i : Nat} (h : IsMarkerAt bytes i) :
    SlashesAt bytes i :=
  ⟨h.1, h.2.1⟩

/-- Behind slashes that were found there is a byte to look at, unless they come first. It tells
whether the slashes are a marker. -/
theorem escapedAt?_of_slashesAt {bytes : List UInt8} {i : Nat} (h : SlashesAt bytes i) :
    IsMarkerAt bytes i ∧ escapedAt? bytes i = some false ∨
      ¬ IsMarkerAt bytes i ∧ escapedAt? bytes i = some true := by
  by_cases hzero : i = 0
  · exact .inl ⟨⟨h.1, h.2, .inl hzero⟩, if_pos hzero⟩
  have hlt : i - 1 < bytes.length := by
    have := h.lt_length
    omega
  have hbefore : bytes[i - 1]? = some bytes[i - 1] := List.getElem?_eq_getElem hlt
  have hescaped : escapedAt? bytes i = some (bytes[i - 1] == backslash) := by
    rw [escapedAt?, if_neg hzero, hbefore, Option.map_some]
  by_cases hbackslash : bytes[i - 1] = backslash
  · refine .inr ⟨?_, by rw [hescaped, hbackslash, beq_self_eq_true]⟩
    rintro ⟨-, -, hfirst | hother⟩
    · exact hzero hfirst
    · exact hother (by rw [hbefore, hbackslash])
  · refine .inl ⟨⟨h.1, h.2, .inr ?_⟩, by rw [hescaped, beq_false_of_ne hbackslash]⟩
    rw [hbefore]
    exact fun hsome => hbackslash (Option.some.inj hsome)

/-- A marker in front of the first slashes behind index `start` would lie in front of the index. -/
theorem SearchedTo.not_isMarkerAt_of_lt {line front behind : List Char} {start offset : Nat}
    (h : SearchedTo line start) (hsplit : Utf8.splitAt? line start = some (front, behind))
    (hfirst : ∀ j < offset, ¬ SlashesAt (Utf8.encode behind) j) :
    ∀ i < start + offset, ¬ IsMarkerAt (Utf8.encode line) i := by
  intro i hi hmarker
  by_cases hbefore : i < start
  · exact h.not_isMarkerAt i hbefore hmarker
  · obtain ⟨j, rfl⟩ := Nat.exists_eq_add_of_le (Nat.le_of_not_lt hbefore)
    exact hfirst j (by omega) ((slashesAt_of_splitAt? hsplit j).mp hmarker.slashesAt)

/-- The slashes that the search comes to are slashes of the line, with no marker in front. -/
theorem SearchedTo.found {line front behind : List Char} {start offset : Nat}
    (h : SearchedTo line start) (hsplit : Utf8.splitAt? line start = some (front, behind))
    (hfind : findSlashes? (Utf8.encode behind) = some offset) :
    SlashesAt (Utf8.encode line) (start + offset) ∧
      ∀ i < start + offset, ¬ IsMarkerAt (Utf8.encode line) i := by
  obtain ⟨hslashes, hfirst⟩ := findSlashes?_eq_some_iff.mp hfind
  exact ⟨(slashesAt_of_splitAt? hsplit offset).mpr hslashes, h.not_isMarkerAt_of_lt hsplit hfirst⟩

/-- Where slashes are passed over the line can be split behind the first of them, and no marker is
missed. -/
theorem SearchedTo.step {line : List Char} {i : Nat} (hslashes : SlashesAt (Utf8.encode line) i)
    (hbefore : ∀ j < i, ¬ IsMarkerAt (Utf8.encode line) j)
    (hescaped : escapedAt? (Utf8.encode line) i = some true) : SearchedTo line (i + 1) where
  exists_splitAt? := by
    obtain ⟨front, behind, rfl, hlength⟩ := exists_eq_append_slash hslashes.1
    refine ⟨front ++ ['/'], behind, Utf8.splitAt?_eq_some_iff.mpr ⟨by simp, ?_⟩⟩
    rw [Utf8.encode_append, List.length_append, hlength]
    rfl
  not_isMarkerAt := by
    have hnot : ¬ IsMarkerAt (Utf8.encode line) i := by
      rcases escapedAt?_of_slashesAt hslashes with ⟨-, hother⟩ | ⟨hnot, -⟩
      · simp [hescaped] at hother
      · exact hnot
    exact Nat.forall_lt_succ_right.mpr ⟨hbefore, hnot⟩

/-! ## What is cut -/

/-- What stands before the first marker is left of a line, and the line can be split there. -/
theorem splitAt?_of_first_marker {line : List Char} {i : Nat}
    (hmarker : IsMarkerAt (Utf8.encode line) i)
    (hfirst : ∀ j < i, ¬ IsMarkerAt (Utf8.encode line) j) :
    ∃ behind, Utf8.splitAt? line i = some (cutComment line, behind) := by
  obtain ⟨behind, hline⟩ := cutComment_isPrefix line
  refine ⟨behind, Utf8.splitAt?_eq_some_iff.mpr ⟨hline.symm, ?_⟩⟩
  rcases exists_first_marker_or false line with ⟨hnone, -⟩ | ⟨j, hj, hbefore, hcut⟩
  · exact absurd (isMarkerAfter_false.mpr hmarker) (hnone i)
  · simp only [isMarkerAfter_false] at hj hbefore
    -- both are the first marker
    have hij : j = i := by
      rcases Nat.lt_trichotomy j i with hlt | heq | hgt
      · exact absurd hj (hfirst j hlt)
      · exact heq
      · exact absurd hmarker (hbefore i hgt)
    have hlength := hmarker.slashesAt.lt_length
    rw [cutComment, hcut, List.length_take, hij]
    omega

/-- From every index that it can go on from the search comes to what is left of the line. -/
theorem SearchedTo.searchFrom_eq {line : List Char} {start : Nat} (h : SearchedTo line start) :
    searchFrom line start = some (cutComment line) := by
  fun_induction searchFrom line start with
  | case1 start hsplit =>
    obtain ⟨front, behind, hsome⟩ := h.exists_splitAt?
    simp [hsplit] at hsome
  -- without slashes there is no marker
  | case2 start front behind hsplit hfind =>
    have hnone : ∀ i, ¬ IsMarkerAt (Utf8.encode line) i := fun i =>
      h.not_isMarkerAt_of_lt hsplit (fun j _ => findSlashes?_eq_none_iff.mp hfind j) i
        (Nat.lt_of_lt_of_le (Nat.lt_succ_self i) (Nat.le_add_left _ _))
    rw [cutComment_eq_self_iff.mpr hnone]
  | case3 start front behind hsplit offset hfind hescaped =>
    obtain ⟨hslashes, -⟩ := h.found hsplit hfind
    rcases escapedAt?_of_slashesAt hslashes with ⟨-, hsome⟩ | ⟨-, hsome⟩ <;>
      simp [hescaped] at hsome
  | case4 start front behind hsplit offset hfind hescaped ih =>
    obtain ⟨hslashes, hbefore⟩ := h.found hsplit hfind
    exact ih (.step hslashes hbefore hescaped)
  | case5 start front behind hsplit offset hfind hescaped =>
    obtain ⟨hslashes, hbefore⟩ := h.found hsplit hfind
    rcases escapedAt?_of_slashesAt hslashes with ⟨hmarker, -⟩ | ⟨-, hsome⟩
    · obtain ⟨rest, hcut⟩ := splitAt?_of_first_marker hmarker hbefore
      rw [hcut, Option.map_some]
    · simp [hescaped] at hsome

theorem IsMarkerAt.of_isPrefix {bytes longer : List UInt8} (h : bytes <+: longer) {i : Nat}
    (hmarker : IsMarkerAt bytes i) : IsMarkerAt longer i := by
  obtain ⟨rest, rfl⟩ := h
  obtain ⟨hslash, hnext, hbefore⟩ := hmarker
  obtain ⟨hlt, -⟩ := List.getElem?_eq_some_iff.mp hnext
  refine ⟨?_, ?_, hbefore.imp_right fun hother => ?_⟩
  · rwa [List.getElem?_append_left (by omega)]
  · rwa [List.getElem?_append_left hlt]
  · rwa [List.getElem?_append_left (by omega)]

/-- A start of a line that is left as it is is left as it is, too. -/
theorem cutComment_eq_self_of_isPrefix {first second : List Char} (h : first <+: second)
    (hsecond : cutComment second = second) : cutComment first = first := by
  have hbytes : Utf8.encode first <+: Utf8.encode second := by
    obtain ⟨rest, rfl⟩ := h
    exact ⟨Utf8.encode rest, (Utf8.encode_append first rest).symm⟩
  rw [cutComment_eq_self_iff] at hsecond ⊢
  exact fun i hmarker => hsecond i (hmarker.of_isPrefix hbytes)

/-- No marker is in front of the first one, so none is left. -/
theorem not_isMarkerAt_cutComment (line : List Char) (i : Nat) :
    ¬ IsMarkerAt (Utf8.encode (cutComment line)) i := by
  intro hmarker
  rcases exists_first_marker_or false line with ⟨hnone, hline⟩ | ⟨j, -, hfirst, hcut⟩
  · rw [cutComment, hline] at hmarker
    exact hnone i (isMarkerAfter_false.mpr hmarker)
  · rw [cutComment, hcut] at hmarker
    have hlt := hmarker.slashesAt.lt_length
    rw [List.length_take] at hlt
    refine hfirst i (by omega) (isMarkerAfter_false.mpr ?_)
    exact hmarker.of_isPrefix (List.take_prefix j _)

/-- What is left of a line is what stands before its first marker, and the whole line if there is
none. A search among the bytes of the line finds that, and never comes to an index within a
character or outside of the line. No marker is left, so cutting once more changes nothing. -/
theorem cutComment_eq_before_first_marker (line : List Char) :
    ((∀ i, ¬ IsMarkerAt (Utf8.encode line) i) ∧ cutComment line = line ∨
        ∃ i behind, IsLeast {i | IsMarkerAt (Utf8.encode line) i} i ∧
          Utf8.splitAt? line i = some (cutComment line, behind)) ∧
      searchFrom line 0 = some (cutComment line) ∧
      (∀ i, ¬ IsMarkerAt (Utf8.encode (cutComment line)) i) ∧
      cutComment (cutComment line) = cutComment line := by
  refine ⟨?_, (searchedTo_zero line).searchFrom_eq, not_isMarkerAt_cutComment line, ?_⟩
  · rcases exists_first_marker_or false line with ⟨hnone, hline⟩ | ⟨i, hi, hfirst, -⟩
    · simp only [isMarkerAfter_false] at hnone
      exact .inl ⟨hnone, hline⟩
    · simp only [isMarkerAfter_false] at hi hfirst
      obtain ⟨behind, hsplit⟩ := splitAt?_of_first_marker hi hfirst
      refine .inr ⟨i, behind, ⟨hi, fun j hj => ?_⟩, hsplit⟩
      exact Nat.le_of_not_lt fun hlt => hfirst j hlt hj
  · exact cutComment_eq_self_iff.mpr (not_isMarkerAt_cutComment line)

end Line

end TextEmbed
