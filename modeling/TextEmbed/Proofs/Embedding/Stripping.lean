import TextEmbed.Proofs.Embedding.Decoding
import TextEmbed.Proofs.Line.Comment

/-!
# What stripping comments takes away

Two runs that differ only in whether comments are stripped write the same declarations, up to their
bodies. A line that still contributes something contributes a start of what it contributes with its
comment. So the run that strips comments can't write more fragments than the other, and where it
writes as many, no line lost anything: the two outputs are the same only if no file has a comment
marker.

## Main definitions

* `Text.contributing`: the lines of a text that contribute something.

## Main results

* `Line.contribution_true_eq_iff`: a line contributes the same exactly if it has no comment;
* `TextFile.body_true_eq_iff`: a file has the same body exactly if it has no marker;
* `stripping_takes_comments_only`: what stripping makes of the output of a run.
-/

namespace TextEmbed

namespace Line

/-- What a line contributes without its comment is a start of what it contributes with it. -/
theorem contribution_isPrefix {line shorter : List Char}
    (h : contribution true line = some shorter) :
    ∃ longer, contribution false line = some longer ∧ shorter <+: longer := by
  obtain ⟨hne, rfl⟩ := contribution_eq_some_iff.mp h
  have hprefix : Text.trimEnd (cutComment line) <+: Text.trimEnd line :=
    Text.trimEnd_isPrefix_trimEnd (cutComment_isPrefix line)
  refine ⟨Text.trimEnd line, contribution_eq_some_iff.mpr ⟨?_, rfl⟩, hprefix⟩
  intro hnil
  rw [hnil] at hprefix
  exact hne (List.prefix_nil.mp hprefix)

theorem isSome_contribution {line : List Char} (h : (contribution true line).isSome) :
    (contribution false line).isSome := by
  obtain ⟨shorter, hshorter⟩ := Option.isSome_iff_exists.mp h
  obtain ⟨longer, hlonger, -⟩ := contribution_isPrefix hshorter
  rw [hlonger, Option.isSome_some]

/-- The slash that opens a comment isn't blank, so it stays where the comment does. -/
theorem append_slash_isPrefix_trimEnd {line : List Char} (h : cutComment line ≠ line) :
    cutComment line ++ ['/'] <+: Text.trimEnd line := by
  obtain ⟨comment, hline⟩ := (exists_eq_cutCommentAfter_append false line).resolve_left h
  have hslash : Text.trimEnd (cutComment line ++ ['/']) = cutComment line ++ ['/'] := by
    simp [Text.trimEnd, show Text.isBlank '/' = false by decide]
  have hprefix : cutComment line ++ ['/'] <+: line :=
    ⟨comment, by rw [List.append_assoc]; exact hline.symm⟩
  rw [← hslash]
  exact Text.trimEnd_isPrefix_trimEnd hprefix

/-- A line contributes the same with and without its comment exactly if it has none. -/
theorem contribution_true_eq_iff {line : List Char} :
    contribution true line = contribution false line ↔ cutComment line = line := by
  constructor
  · intro hsame
    by_contra hcut
    have hlonger := append_slash_isPrefix_trimEnd hcut
    have hne : Text.trimEnd line ≠ [] := by
      intro hnil
      rw [hnil, List.prefix_nil] at hlonger
      exact absurd hlonger (by simp)
    -- what is left without the comment would be as long as what is left with it
    have hshorter : contribution true line = some (Text.trimEnd line) :=
      hsame.trans (contribution_eq_some_iff.mpr ⟨hne, rfl⟩)
    obtain ⟨-, htrimmed⟩ := contribution_eq_some_iff.mp hshorter
    have hprefix : Text.trimEnd (cutComment line) <+: cutComment line := Text.trimEnd_isPrefix _
    have hlength : (cutComment line ++ ['/']).length ≤ (cutComment line).length :=
      calc (cutComment line ++ ['/']).length
        _ ≤ (Text.trimEnd line).length := hlonger.length_le
        _ = (Text.trimEnd (cutComment line)).length := by rw [← htrimmed]; rfl
        _ ≤ (cutComment line).length := hprefix.length_le
    simp at hlength
  · intro hline
    rw [contribution, withoutComment, if_pos rfl, hline, contribution]
    rfl

end Line

namespace Text

/-- The lines of a text that contribute something, in order. -/
def contributing (stripComments : Bool) (text : List Char) : List (List Char) :=
  (lines text).filter fun line => (Line.contribution stripComments line).isSome

/-- Nothing of a body is lost with the lines that contribute nothing. -/
theorem filterMap_contributing (stripComments : Bool) (text : List Char) :
    (contributing stripComments text).filterMap (Line.contribution stripComments) =
      (text.splitOnP isLineEnd).filterMap (Line.contribution stripComments) := by
  rw [← filterMap_lines, contributing, List.filterMap_filter]
  refine List.filterMap_congr fun line _ => ?_
  cases Line.contribution stripComments line <;> rfl

/-- The lines that contribute something without their comments do so with them. -/
theorem contributing_sublist (text : List Char) :
    (contributing true text).Sublist (contributing false text) :=
  List.monotone_filter_right (lines text) fun _ hline => Line.isSome_contribution hline

/-- A text has no comment exactly if neither its first line has one nor the text behind that. -/
theorem cutComment_eq_self_iff_splitLine (text : List Char) :
    Line.cutComment text = text ↔ Line.cutComment (splitLine text).1 = (splitLine text).1 ∧
      Line.cutComment (splitLine text).2 = (splitLine text).2 := by
  have htext := splitLine_append text
  obtain ⟨line, -, hwhole | ⟨terminator, hterminator, hsplit⟩⟩ := splitLine_cases text
  · rw [hwhole, List.append_nil] at htext
    rw [hwhole, htext]
    exact ⟨fun h => ⟨h, rfl⟩, And.left⟩
  -- the last character of the terminator is one that no marker reaches across
  · have hlast : ∃ front c, terminator = front ++ [c] ∧ isLineEnd c = true := by
      rcases mem_terminators.mp hterminator with rfl | rfl | rfl
      · exact ⟨[], '\n', rfl, by decide⟩
      · exact ⟨[], '\r', rfl, by decide⟩
      · exact ⟨['\r'], '\n', rfl, by decide⟩
    obtain ⟨front, c, rfl, hc⟩ := hlast
    have hfirst : (splitLine text).1 = line ++ front ++ [c] := by
      rw [hsplit, List.append_assoc]
    rw [hfirst, List.append_assoc, List.singleton_append] at htext
    have hcut := Line.cutCommentAfter_append_eq_self_iff false (line ++ front) hc (splitLine text).2
    rwa [htext, ← hfirst] at hcut

/-- A text has no comment exactly if none of its lines has one. -/
theorem forall_cutComment_lines_iff {text : List Char} :
    (∀ line ∈ lines text, Line.cutComment line = line) ↔ Line.cutComment text = text := by
  fun_induction lines text with
  | case1 => exact ⟨fun _ => rfl, fun _ => by simp⟩
  | case2 c rest ih => rw [cutComment_eq_self_iff_splitLine, List.forall_mem_cons, ih]

end Text

/-! ## Bodies -/

/-- Where `g` keeps something of every item that `f` does, both keep the same in all only if they
keep the same of each item. -/
theorem eq_of_filterMap_eq {α β : Type} {f g : α → Option β} {items : List α}
    (hsome : ∀ item, (f item).isSome → (g item).isSome)
    (h : items.filterMap f = items.filterMap g) : ∀ item ∈ items, f item = g item := by
  induction items with
  | nil => simp
  | cons item rest ih =>
    -- with `f` no more is kept of the rest than with `g`
    have hlength : (rest.filterMap f).length ≤ (rest.filterMap g).length := by
      rw [List.length_filterMap_eq_countP, List.length_filterMap_eq_countP]
      exact List.countP_mono_left fun other _ => hsome other
    have hitem := hsome item
    rw [List.filterMap_cons, List.filterMap_cons] at h
    cases hf : f item with
    | none =>
      cases hg : g item with
      | none =>
        rw [hf, hg] at h
        exact List.forall_mem_cons.mpr ⟨hf.trans hg.symm, ih h⟩
      -- then `f` would have to make up for it in the rest
      | some b =>
        rw [hf, hg] at h
        simp only at h
        rw [h, List.length_cons] at hlength
        omega
    | some a =>
      cases hg : g item with
      | none => simp [hf, hg] at hitem
      | some b =>
        rw [hf, hg] at h
        obtain ⟨rfl, hrest⟩ := List.cons.inj h
        exact List.forall_mem_cons.mpr ⟨hf.trans hg.symm, ih hrest⟩

/-- A file has the same body with and without its comments exactly if there is no marker in it. -/
theorem TextFile.body_true_eq_iff (file : TextFile) :
    file.body true = file.body false ↔ ∀ i, ¬ Line.IsMarkerAt (Utf8.encode file.text) i := by
  rw [← Line.cutComment_eq_self_iff, ← Text.forall_cutComment_lines_iff, TextFile.body,
    TextFile.body, ← Text.filterMap_lines, ← Text.filterMap_lines]
  constructor
  · intro hbody line hline
    have hsame := eq_of_filterMap_eq (fun _ => Line.isSome_contribution) hbody line hline
    exact Line.contribution_true_eq_iff.mp hsame
  · intro hlines
    exact List.filterMap_congr fun line hline =>
      Line.contribution_true_eq_iff.mpr (hlines line hline)

/-- The outputs of two runs on the same files that succeed, with and without stripping, are the same
exactly if the files have the same bodies. -/
theorem output_eq_iff_body_eq (settings : Settings) {inputs : List Input} {files : List TextFile}
    (hinputs : List.Forall₂ Input.Delivers inputs files) {sink : ByteSink}
    (hlimit : sink.limit = none) (hstep : sink.step ≠ some 0) :
    output { settings with stripComments := true } inputs sink =
        output { settings with stripComments := false } inputs sink ↔
      ∀ file ∈ files, file.body true = file.body false := by
  have hstripped := result_embed_of_delivers { settings with stripComments := true } hinputs hlimit
    hstep
  have hwhole := result_embed_of_delivers { settings with stripComments := false } hinputs hlimit
    hstep
  rw [output_of_delivers hinputs hstripped, output_of_delivers hinputs hwhole]
  constructor
  -- a reader of declarations needn't know whether comments were stripped
  · intro hsame
    have hread := (readOutput_encode { settings with stripComments := true } files).symm.trans
      ((congrArg _ hsame).trans (readOutput_encode { settings with stripComments := false } files))
    have hdeclarations := List.map_inj_left.mp (Option.some.inj hread)
    exact fun file hfile => congrArg Declaration.body (hdeclarations file hfile)
  · intro hbodies
    have hdeclarations : files.map (TextFile.declaration { settings with stripComments := true }) =
        files.map (TextFile.declaration { settings with stripComments := false }) :=
      List.map_inj_left.mpr fun file hfile => by
        simp only [TextFile.declaration, hbodies file hfile]
    rw [hdeclarations]

/-- Stripping takes comments away and nothing else. On files that are texts, delivered in any fills,
runs with and without stripping succeed, and their outputs are made of what the lines contribute. A
line that contributes something without its comment contributes a start of what it contributes with
it, the lines that do are among those that contribute something anyway, in the same order, and the
outputs are the same exactly if there is no marker in any of the files. -/
theorem stripping_takes_comments_only (settings : Settings) {inputs : List Input}
    {files : List TextFile} (hinputs : List.Forall₂ Input.Delivers inputs files) {sink : ByteSink}
    (hlimit : sink.limit = none) (hstep : sink.step ≠ some 0) :
    (∀ stripComments, (embed { settings with stripComments } inputs sink).result = .ok () ∧
      output { settings with stripComments } inputs sink =
        Utf8.encode (files.flatMap fun file => Declaration.render settings.pointerType
          { identifier := Identifier.ofName settings.lead file.name
            body := (Text.contributing stripComments file.text).filterMap
              (Line.contribution stripComments) })) ∧
      (∀ file ∈ files,
        (Text.contributing true file.text).Sublist (Text.contributing false file.text) ∧
        ∀ line ∈ Text.contributing true file.text, ∃ shorter longer,
          Line.contribution true line = some shorter ∧
          Line.contribution false line = some longer ∧ shorter <+: longer) ∧
      (output { settings with stripComments := true } inputs sink =
          output { settings with stripComments := false } inputs sink ↔
        ∀ file ∈ files, ∀ i, ¬ Line.IsMarkerAt (Utf8.encode file.text) i) := by
  refine ⟨fun stripComments => ?_, fun file _ => ⟨Text.contributing_sublist file.text, ?_⟩, ?_⟩
  · have hresult := result_embed_of_delivers { settings with stripComments } hinputs hlimit hstep
    refine ⟨hresult, ?_⟩
    simp only [Text.filterMap_contributing]
    rw [output_of_delivers hinputs hresult, List.flatMap_map]
    rfl
  · intro line hline
    obtain ⟨-, hsome⟩ := List.mem_filter.mp hline
    obtain ⟨shorter, hshorter⟩ := Option.isSome_iff_exists.mp hsome
    obtain ⟨longer, hlonger, hprefix⟩ := Line.contribution_isPrefix hshorter
    exact ⟨shorter, longer, hshorter, hlonger, hprefix⟩
  · simp only [output_eq_iff_body_eq settings hinputs hlimit hstep, TextFile.body_true_eq_iff]

/-- For example a file whose only slashes stand behind a backslash, and one with a slash more. -/
theorem stripping_takes_comments_only_escaped :
    let escaped : TextFile := { name := ['a'], text := "\\//b\n".toList }
    let commented : TextFile := { name := ['a'], text := "\\///b\n".toList }
    let input (file : TextFile) : Input :=
      { name := file.name, source := .ofData (Utf8.encode file.text) }
    (input escaped).Delivers escaped ∧ (input commented).Delivers commented ∧
      output { stripComments := true } [input escaped] {} = output {} [input escaped] {} ∧
      output { stripComments := true } [input commented] {} ≠ output {} [input commented] {} := by
  intro escaped commented input
  have hescaped : (input escaped).Delivers escaped :=
    ⟨rfl, [Utf8.encode escaped.text], rfl, by decide, List.append_nil _⟩
  have hcommented : (input commented).Delivers commented :=
    ⟨rfl, [Utf8.encode commented.text], rfl, by decide, List.append_nil _⟩
  have hlimit : ({} : ByteSink).limit = none := rfl
  have hnone : ∀ i, ¬ Line.IsMarkerAt (Utf8.encode escaped.text) i :=
    Line.cutComment_eq_self_iff.mp (by decide)
  have hmarker : Line.IsMarkerAt (Utf8.encode commented.text) 2 := by
    refine ⟨rfl, rfl, .inr ?_⟩
    decide
  obtain ⟨-, -, hsame⟩ := stripping_takes_comments_only {} (.cons hescaped .nil) hlimit (by simp)
  obtain ⟨-, -, hother⟩ := stripping_takes_comments_only {} (.cons hcommented .nil) hlimit (by simp)
  refine ⟨hescaped, hcommented, hsame.mpr ?_, fun h => hother.mp h commented ?_ 2 hmarker⟩
  · intro file hfile
    rw [List.mem_singleton.mp hfile]
    exact hnone
  · exact List.mem_singleton_self commented

end TextEmbed
