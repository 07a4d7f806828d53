import TextEmbed.Line.Contribution

/-!
# What the end of a line contributes

Blank characters at the end of a line make no difference to what the line contributes. Terminators
are blank, so it doesn't matter how a line ends, and not either whether the terminator is taken away
before the comment or after it.

## Main results

* `Text.trimEnd_isPrefix_trimEnd`: of a longer text at least as much is left;
* `Line.exists_cutCommentAfter_append`: characters behind a line don't move its comment;
* `Line.contribution_append_of_blank`: blank characters behind a line make no difference.
-/

namespace TextEmbed

namespace Text

/-- Blank characters behind a text are trimmed with those at its end. -/
theorem trimEnd_append_of_blank {tail : List Char} (h : ∀ c ∈ tail, isBlank c = true)
    (text : List Char) : trimEnd (text ++ tail) = trimEnd text := by
  -- trimming starts from the end, with the characters of `tail`
  have hreverse : ∀ c ∈ tail.reverse, isBlank c = true := by
    intro c hc
    exact h c (List.mem_reverse.mp hc)
  rw [trimEnd, List.reverse_append, List.dropWhile_append_of_pos hreverse, trimEnd]

/-- Of a longer text at least as much is left. -/
theorem trimEnd_isPrefix_trimEnd {first second : List Char} (h : first <+: second) :
    trimEnd first <+: trimEnd second := by
  obtain ⟨rest, rfl⟩ := h
  rw [trimEnd, trimEnd, List.reverse_append, List.dropWhile_append]
  split
  next => exact List.prefix_rfl
  -- something of `rest` is left, and all of `first` stands in front of that
  next =>
    rw [List.reverse_append, List.reverse_reverse]
    exact (trimEnd_isPrefix first).trans (List.prefix_append _ _)

end Text

namespace Line

/-- The comment of a line starts where it started, whatever comes behind the line, as long as that
can't complete a marker. Where there was none, a start of what comes behind the line stays. -/
theorem exists_cutCommentAfter_append (escaped : Bool) (line : List Char) {tail : List Char}
    (h : tail.head? ≠ some '/') :
    ∃ kept, kept <+: tail ∧
      cutCommentAfter escaped (line ++ tail) = cutCommentAfter escaped line ++ kept := by
  induction line generalizing escaped with
  | nil => exact ⟨_, cutCommentAfter_isPrefix escaped tail, rfl⟩
  | cons c rest ih =>
    -- whether a marker starts here depends on the next character, which may be the first of `tail`
    have hhead : ((rest ++ tail).head? == some '/') = (rest.head? == some '/') := by
      cases rest with
      | nil => simpa using h
      | cons next rest => rfl
    obtain ⟨kept, hkept, hrest⟩ := ih (c == '\\')
    rw [List.cons_append, cutCommentAfter, cutCommentAfter, hhead]
    split
    · exact ⟨[], List.nil_prefix, rfl⟩
    · exact ⟨kept, hkept, by rw [hrest, List.cons_append]⟩

@[simp]
theorem contribution_nil (stripComments : Bool) : contribution stripComments [] = none := by
  cases stripComments <;> rfl

/-- Blank characters behind a line make no difference to what it contributes. -/
theorem contribution_append_of_blank {tail : List Char} (h : ∀ c ∈ tail, Text.isBlank c = true)
    (stripComments : Bool) (line : List Char) :
    contribution stripComments (line ++ tail) = contribution stripComments line := by
  have hhead : tail.head? ≠ some '/' := by
    intro hslash
    exact absurd (h '/' (List.mem_of_mem_head? hslash)) (by decide)
  -- a comment takes some of the blank characters away, and trimming takes the others
  have htail : ∃ kept, kept <+: tail ∧
      withoutComment stripComments (line ++ tail) = withoutComment stripComments line ++ kept := by
    cases stripComments with
    | false => exact ⟨tail, List.prefix_rfl, rfl⟩
    | true => exact exists_cutCommentAfter_append false line hhead
  obtain ⟨kept, hkept, hline⟩ := htail
  have hblank : ∀ c ∈ kept, Text.isBlank c = true := by
    intro c hc
    exact h c (hkept.subset hc)
  rw [contribution, hline, Text.trimEnd_append_of_blank hblank, contribution]

end Line

end TextEmbed
