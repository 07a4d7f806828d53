import TextEmbed.Proofs.Line.Contribution

/-!
# Lines of texts

A text falls apart into lines, each with its terminator: a line feed, a carriage return, or both in
this order. To what the lines contribute this makes no difference: the text could as well be cut at
every single line feed and carriage return, with nothing left of them.

## Main definitions

* `Text.splitLine`: the first line of a text, and the text behind it;
* `Text.lines`: the lines of a text.

## Main results

* `Text.splitLine_cases`: how a first line can end;
* `Text.filterMap_lines`: the lines contribute what the pieces between the terminators contribute;
* `Text.filterMap_splitOnP_flatMap`: which terminators end the lines makes no difference to that.
-/

namespace TextEmbed.Text

/-- Characters that end a line. -/
def isLineEnd (c : Char) : Bool :=
  c == '\n' || c == '\r'

theorem isBlank_of_isLineEnd {c : Char} (h : isLineEnd c = true) : isBlank c = true :=
  isBlank_of_terminator (by simpa [isLineEnd] using h)

/-- The first line of a text with its terminator, and the text behind it. -/
def splitLine : List Char → List Char × List Char
  | [] => ([], [])
  | '\n' :: rest => (['\n'], rest)
  | '\r' :: '\n' :: rest => (['\r', '\n'], rest)
  | '\r' :: rest => (['\r'], rest)
  | c :: rest => (c :: (splitLine rest).1, (splitLine rest).2)

/-- Splitting off a line loses nothing. -/
theorem splitLine_append (text : List Char) : (splitLine text).1 ++ (splitLine text).2 = text := by
  fun_induction splitLine text with
  | case1 => rfl
  | case2 => rfl
  | case3 => rfl
  | case4 => rfl
  | case5 c rest _ _ _ ih => rw [List.cons_append, ih]

theorem splitLine_ne_nil {text : List Char} (h : text ≠ []) : (splitLine text).1 ≠ [] := by
  fun_cases splitLine text with
  | case1 => exact absurd rfl h
  | case2 => simp
  | case3 => simp
  | case4 => simp
  | case5 => simp

theorem length_splitLine_lt {text : List Char} (h : text ≠ []) :
    (splitLine text).2.length < text.length := by
  have hline := List.length_pos_iff.mpr (splitLine_ne_nil h)
  have htext := congrArg List.length (splitLine_append text)
  rw [List.length_append] at htext
  omega

/-- The lines of a text, each with its terminator. -/
def lines : List Char → List (List Char)
  | [] => []
  | c :: rest => (splitLine (c :: rest)).1 :: lines (splitLine (c :: rest)).2
termination_by text => text.length
decreasing_by exact length_splitLine_lt (List.cons_ne_nil c rest)

/-- The terminators of lines. -/
def terminators : List (List Char) :=
  [['\n'], ['\r'], ['\r', '\n']]

theorem mem_terminators {terminator : List Char} :
    terminator ∈ terminators ↔
      terminator = ['\n'] ∨ terminator = ['\r'] ∨ terminator = ['\r', '\n'] := by
  simp [terminators]

theorem isLineEnd_of_mem_terminators {terminator : List Char} (h : terminator ∈ terminators) :
    ∀ c ∈ terminator, isLineEnd c = true := by
  rcases mem_terminators.mp h with rfl | rfl | rfl <;> simp [isLineEnd]

/-- The first line of a text ends with a terminator, or it is the whole text. -/
theorem splitLine_cases (text : List Char) :
    ∃ line, (∀ c ∈ line, isLineEnd c = false) ∧
      (splitLine text = (line, []) ∨
        ∃ terminator ∈ terminators, splitLine text = (line ++ terminator, (splitLine text).2)) := by
  fun_induction splitLine text with
  | case1 => exact ⟨[], by simp, .inl rfl⟩
  | case2 rest => exact ⟨[], by simp, .inr ⟨['\n'], by decide, rfl⟩⟩
  | case3 rest => exact ⟨[], by simp, .inr ⟨['\r', '\n'], by decide, rfl⟩⟩
  | case4 rest => exact ⟨[], by simp, .inr ⟨['\r'], by decide, rfl⟩⟩
  | case5 c rest hlf _ hcr ih =>
    -- a character that ends no line belongs to the line behind it
    obtain ⟨line, hline, hends⟩ := ih
    have hc : isLineEnd c = false := by
      simp only [isLineEnd, Bool.or_eq_false_iff, beq_eq_false_iff_ne]
      exact ⟨hlf, hcr⟩
    refine ⟨c :: line, List.forall_mem_cons.mpr ⟨hc, hline⟩, ?_⟩
    rcases hends with hwhole | ⟨terminator, hterminator, hsplit⟩
    · exact .inl (by rw [hwhole])
    · exact .inr ⟨terminator, hterminator, by rw [hsplit, List.cons_append]⟩

/-! ## Pieces

A carriage return with a line feed behind it ends one line, but cuts a text twice. The piece in
between is empty and contributes nothing. -/

theorem filterMap_cons_eq_append {α β : Type} (f : α → Option β) (item : α) (items : List α) :
    (item :: items).filterMap f = (f item).toList ++ items.filterMap f := by
  rw [List.filterMap_cons]
  cases f item <;> rfl

/-- The pieces up to the first terminator contribute what the line contributes. -/
theorem filterMap_splitOnP_append (stripComments : Bool) {line terminator : List Char}
    (hline : ∀ c ∈ line, isLineEnd c = false) (hterminator : terminator ∈ terminators)
    (rest : List Char) :
    ((line ++ (terminator ++ rest)).splitOnP isLineEnd).filterMap
        (Line.contribution stripComments) =
      (Line.contribution stripComments line).toList ++
        (rest.splitOnP isLineEnd).filterMap (Line.contribution stripComments) := by
  have hpiece : ∀ (c : Char) (rest : List Char), isLineEnd c = true →
      (line ++ c :: rest).splitOnP isLineEnd = line :: rest.splitOnP isLineEnd :=
    fun c rest hc => List.splitOnP_append_cons_of_forall_mem hline c hc rest
  rcases mem_terminators.mp hterminator with rfl | rfl | rfl
  · rw [List.singleton_append, hpiece _ _ (by decide), filterMap_cons_eq_append]
  · rw [List.singleton_append, hpiece _ _ (by decide), filterMap_cons_eq_append]
  -- the carriage return cuts in front of the line feed, and the line feed cuts once more
  · have hbetween : ('\n' :: rest).splitOnP isLineEnd = [] :: rest.splitOnP isLineEnd := by
      rw [List.splitOnP_cons_eq_if_modifyHead, if_pos (by decide)]
    rw [List.cons_append, List.singleton_append, hpiece _ _ (by decide), hbetween,
      filterMap_cons_eq_append, filterMap_cons_eq_append, Line.contribution_nil]
    rfl

/-- The first line of a text contributes what the pieces up to its end contribute. -/
theorem filterMap_splitOnP_splitLine (stripComments : Bool) (text : List Char) :
    (text.splitOnP isLineEnd).filterMap (Line.contribution stripComments) =
      (Line.contribution stripComments (splitLine text).1).toList ++
        ((splitLine text).2.splitOnP isLineEnd).filterMap (Line.contribution stripComments) := by
  have htext := splitLine_append text
  obtain ⟨line, hline, hwhole | ⟨terminator, hterminator, hsplit⟩⟩ := splitLine_cases text
  -- the text is one line and one piece, and the rest of it is empty
  · rw [hwhole, List.append_nil] at htext
    subst htext
    rw [hwhole, List.splitOnP_eq_singleton hline, filterMap_cons_eq_append, List.splitOnP_nil,
      filterMap_cons_eq_append, Line.contribution_nil]
    rfl
  -- the terminator is blank, so the line contributes what is in front of it
  · have hfirst : (splitLine text).1 = line ++ terminator := by rw [hsplit]
    have hblank : ∀ c ∈ terminator, isBlank c = true := fun c hc =>
      isBlank_of_isLineEnd (isLineEnd_of_mem_terminators hterminator c hc)
    rw [hfirst, List.append_assoc] at htext
    rw [hfirst, Line.contribution_append_of_blank hblank, ← filterMap_splitOnP_append stripComments
      hline hterminator, htext]

/-- The lines of a text contribute what the pieces between its terminators contribute. -/
theorem filterMap_lines (stripComments : Bool) (text : List Char) :
    (lines text).filterMap (Line.contribution stripComments) =
      (text.splitOnP isLineEnd).filterMap (Line.contribution stripComments) := by
  fun_induction lines text with
  | case1 => rw [List.splitOnP_nil, filterMap_cons_eq_append, Line.contribution_nil]; rfl
  | case2 c rest ih => rw [filterMap_splitOnP_splitLine, ← ih, filterMap_cons_eq_append]

/-- Which terminators end the lines of a text makes no difference to what it contributes, and
neither does whether one ends the last line. -/
theorem filterMap_splitOnP_flatMap (stripComments : Bool)
    {ended : List (List Char × List Char)}
    (hended : ∀ entry ∈ ended, (∀ c ∈ entry.1, isLineEnd c = false) ∧ entry.2 ∈ terminators)
    {last : List Char} (hlast : ∀ c ∈ last, isLineEnd c = false) :
    ((ended.flatMap (fun entry => entry.1 ++ entry.2) ++ last).splitOnP isLineEnd).filterMap
        (Line.contribution stripComments) =
      (ended.map Prod.fst ++ [last]).filterMap (Line.contribution stripComments) := by
  induction ended with
  | nil => rw [List.flatMap_nil, List.nil_append, List.splitOnP_eq_singleton hlast]; rfl
  | cons entry ended ih =>
    obtain ⟨⟨hline, hterminator⟩, hended⟩ := List.forall_mem_cons.mp hended
    rw [List.flatMap_cons, List.append_assoc, List.append_assoc,
      filterMap_splitOnP_append stripComments hline hterminator, ih hended, List.map_cons,
      List.cons_append, filterMap_cons_eq_append]

end TextEmbed.Text
