import TextEmbed.Proofs.Embedding.Meaning
import TextEmbed.Proofs.Fragment.Literal

/-!
# What a compiler reads in a declaration

The text between the header of a declaration and the line that closes it is meant for a C compiler,
although its fragments are written as JSON strings. The two languages agree on all that fragments
can be made of, except for the control characters that JSON writes by their code: C has no universal
character names for those. And where nothing is kept of a file, C lacks the one literal that it asks
for. Everywhere else the literals denote the lines that were kept.

## Main definitions

* `Declaration.initializer`: the text between the header and the closing line of a declaration.

## Main results

* `Declaration.value?_initializer`: what the literals of a declaration denote;
* `embed_initializers`: which runs write literals of C, and what they denote.
-/

namespace TextEmbed

namespace Declaration

/-- The text between the header of a declaration and the line that closes it. -/
def initializer (declaration : Declaration) : List Char :=
  declaration.body.flatMap fun line => fragmentLine line ++ ['\n']

/-- The texts between quotes in the initializer of a declaration, each with the white space in front
of it. -/
def quoted : List (List Char) → List (List Char × List Char)
  | [] => []
  | first :: rest =>
    ("    ".toList, first ++ ['\n']) ::
      rest.map fun line => ('\n' :: "    ".toList, line ++ ['\n'])

theorem render_eq_initializer (pointerType : List Char) (declaration : Declaration) :
    declaration.render pointerType =
      header pointerType declaration.identifier ++ ['\n'] ++ declaration.initializer ++
        (closing ++ ['\n']) := by
  rw [render, lines, List.flatMap_cons, List.flatMap_append, List.flatMap_map,
    List.flatMap_singleton, initializer, ← List.append_assoc]

theorem map_snd_quoted (body : List (List Char)) :
    (quoted body).map Prod.snd = body.map (· ++ ['\n']) := by
  cases body with
  | nil => rfl
  | cons first rest => rw [quoted, List.map_cons, List.map_map, List.map_cons]; rfl

theorem isSpace_of_mem_quoted {body : List (List Char)} :
    ∀ entry ∈ quoted body, ∀ c ∈ entry.1, Literal.isSpace c = true := by
  intro entry hentry
  cases body with
  | nil => simp [quoted] at hentry
  | cons first rest =>
    rw [quoted, List.mem_cons, List.mem_map] at hentry
    have hindent : ∀ c ∈ '\n' :: "    ".toList, Literal.isSpace c = true :=
      List.all_eq_true.mp (by decide)
    rcases hentry with rfl | ⟨line, -, rfl⟩
    · exact fun c hc => hindent c (List.mem_cons_of_mem _ hc)
    · exact hindent

/-- The line feed behind a fragment is white space in front of the next one. -/
theorem initializer_eq_quoted {declaration : Declaration} (h : declaration.body ≠ []) :
    declaration.initializer =
      (quoted declaration.body).flatMap Literal.spaced ++ ['\n'] := by
  have hshift : ∀ body : List (List Char),
      '\n' :: body.flatMap (fun line => fragmentLine line ++ ['\n']) =
        (body.map fun line => ('\n' :: "    ".toList, line ++ ['\n'])).flatMap Literal.spaced ++
          ['\n'] := by
    intro body
    induction body with
    | nil => rfl
    | cons line body ih =>
      rw [List.flatMap_cons, List.append_assoc, List.singleton_append, ih, List.map_cons,
        List.flatMap_cons, List.append_assoc]
      rfl
  obtain ⟨first, rest, hbody⟩ := List.exists_cons_of_ne_nil h
  rw [initializer, hbody, List.flatMap_cons, List.append_assoc, List.singleton_append, hshift,
    quoted, List.flatMap_cons, List.append_assoc]
  rfl

/-- What the literals of a declaration denote: the lines of its body, each with a line feed. Without
lines there are no literals, and with control characters that have no letter they are ill-formed. -/
theorem value?_initializer (declaration : Declaration) :
    Literal.value? declaration.initializer =
      if declaration.body = [] ∨ declaration.body.any (·.any Literal.isUnnamed) then none
      else some (Utf8.encode (declaration.body.flatMap (· ++ ['\n']))) := by
  by_cases hbody : declaration.body = []
  · rw [if_pos (.inl hbody), initializer, hbody, List.flatMap_nil, Literal.value?, Literal.readAll,
      Text.readUntil]
    rfl
  · have hvalue : ((declaration.body.map (· ++ ['\n'])).map Utf8.encode).flatten =
        Utf8.encode (declaration.body.flatMap (· ++ ['\n'])) := by
      rw [← Utf8.encode_flatten, List.flatMap_def]
    -- the line feed that ends each text has a letter
    have hany : (declaration.body.map (· ++ ['\n'])).any (·.any Literal.isUnnamed) =
        declaration.body.any (·.any Literal.isUnnamed) := by
      rw [List.any_map]
      refine congrArg _ (funext fun line => ?_)
      simp [Literal.isUnnamed]
    have hlineFeed : ∀ c ∈ ['\n'], Literal.isSpace c = true := List.all_eq_true.mp (by decide)
    rw [Literal.value?, initializer_eq_quoted hbody,
      Literal.readAll_flatMap_spaced isSpace_of_mem_quoted hlineFeed, map_snd_quoted, hany]
    by_cases hunnamed : declaration.body.any (·.any Literal.isUnnamed) = true
    · rw [if_pos hunnamed, if_pos (.inr hunnamed), Option.bind_none]
    · rw [if_neg hunnamed, if_neg (not_or.mpr ⟨hbody, hunnamed⟩), Option.bind_some, hvalue,
        if_neg (by simp [hbody])]

end Declaration

/-! ## Runs -/

/-- What a C compiler makes of the output of a run. Between the header and the closing line of each
declaration there is a sequence of string literals exactly if something is kept of the file, and
nothing that is kept has a control character in it without a letter of its own. The literals then
denote what is kept of the lines of the file, each with a line feed behind it. -/
theorem embed_initializers (settings : Settings) {inputs : List Input} {files : List TextFile}
    (hinputs : List.Forall₂ Input.Delivers inputs files) {sink : ByteSink}
    (hlimit : sink.limit = none) (hstep : sink.step ≠ some 0) :
    (embed settings inputs sink).result = .ok () ∧
      (embed settings inputs sink).sink.written.toList =
        sink.written.toList ++ Utf8.encode (files.flatMap fun file =>
          Declaration.header settings.pointerType (Identifier.ofName settings.lead file.name) ++
            ['\n'] ++ (file.declaration settings).initializer ++
            (Declaration.closing ++ ['\n'])) ∧
      ∀ file ∈ files,
        let kept := (Text.lines file.text).filterMap (Line.contribution settings.stripComments)
        let value? := Literal.value? (file.declaration settings).initializer
        (value?.isSome ↔ kept ≠ [] ∧ ∀ line ∈ kept, ∀ c ∈ line, Literal.isUnnamed c = false) ∧
          ∀ bytes, value? = some bytes → bytes = Utf8.encode (kept.flatMap (· ++ ['\n'])) := by
  refine ⟨result_embed_of_delivers settings hinputs hlimit hstep, ?_, ?_⟩
  · rw [embed_eq_of_limit_eq_none settings inputs hlimit hstep, Transcript.ending,
      ByteSink.toList_written_extend, bytesOf_transcript_of_delivers settings hinputs]
    simp only [Declaration.render_eq_initializer]
    rfl
  · intro file _ kept value?
    -- the body is made of the pieces of the text, which contribute what the lines contribute
    have hbody : (file.declaration settings).body = kept :=
      (Text.filterMap_lines settings.stripComments file.text).symm
    have hvalue : value? = if kept = [] ∨ kept.any (·.any Literal.isUnnamed) then none
        else some (Utf8.encode (kept.flatMap (· ++ ['\n']))) := by
      rw [← hbody]
      exact Declaration.value?_initializer _
    have hrefused : ¬ (kept = [] ∨ kept.any (·.any Literal.isUnnamed) = true) ↔
        kept ≠ [] ∧ ∀ line ∈ kept, ∀ c ∈ line, Literal.isUnnamed c = false := by
      rw [not_or, Bool.not_eq_true, List.any_eq_false]
      simp only [Bool.not_eq_true, List.any_eq_false, ne_eq]
    rw [hvalue, ← hrefused]
    split
    next hill =>
      refine ⟨iff_of_false Bool.false_ne_true (not_not_intro hill), fun bytes hbytes => ?_⟩
      cases hbytes
    next hwell =>
      exact ⟨iff_of_true rfl hwell, fun bytes hbytes => (Option.some.inj hbytes).symm⟩

/-- For example a line with a tab and quotes, and a line with a control character that C can't
name. -/
theorem embed_initializers_bell :
    let quoted : TextFile := { name := "a".toList, text := "\t\"é\\\r\n\n".toList }
    let bell : TextFile := { name := "b".toList, text := "ok\nno\x07\n".toList }
    let inputs : List Input := [quoted, bell].map fun file =>
      { name := file.name, source := .ofData (Utf8.encode file.text) }
    List.Forall₂ Input.Delivers inputs [quoted, bell] ∧
      (embed {} inputs ({} : ByteSink)).result = .ok () ∧
      Literal.value? (quoted.declaration {}).initializer =
        some (Utf8.encode "\t\"é\\\n".toList) ∧
      Literal.value? (bell.declaration {}).initializer = none := by
  intro quoted bell inputs
  have hquoted : Input.Delivers { name := quoted.name, source := .ofData (Utf8.encode quoted.text) }
      quoted := ⟨rfl, [Utf8.encode quoted.text], rfl, by decide, List.append_nil _⟩
  have hbell : Input.Delivers { name := bell.name, source := .ofData (Utf8.encode bell.text) }
      bell := ⟨rfl, [Utf8.encode bell.text], rfl, by decide, List.append_nil _⟩
  have hinputs : List.Forall₂ Input.Delivers inputs [quoted, bell] :=
    .cons hquoted (.cons hbell .nil)
  have hlimit : ({} : ByteSink).limit = none := rfl
  obtain ⟨hresult, -, hfiles⟩ := embed_initializers {} hinputs hlimit (by simp)
  obtain ⟨hwell, hbytes⟩ := hfiles quoted (by simp)
  obtain ⟨hill, -⟩ := hfiles bell (by simp)
  have hkept : (Text.lines quoted.text).filterMap (Line.contribution false) =
      ["\t\"é\\".toList] := by
    rw [Text.filterMap_lines]
    decide +kernel
  have hbellKept : (Text.lines bell.text).filterMap (Line.contribution false) =
      ["ok".toList, "no\x07".toList] := by
    rw [Text.filterMap_lines]
    decide +kernel
  have hsome : (Literal.value? (quoted.declaration {}).initializer).isSome := by
    have hnamed : "\t\"é\\".toList.any Literal.isUnnamed = false := by decide
    rw [hwell, hkept]
    refine ⟨by simp, fun line hline c hc => ?_⟩
    rw [List.mem_singleton.mp hline] at hc
    exact Bool.eq_false_of_not_eq_true (List.any_eq_false.mp hnamed c hc)
  have hnone : ¬ (Literal.value? (bell.declaration {}).initializer).isSome := by
    intro hsome
    -- the second line is kept with its control character
    have hnamed := (hill.mp hsome).2 "no\x07".toList (by rw [hbellKept]; simp) '\x07' (by simp)
    exact absurd hnamed (by decide)
  refine ⟨hinputs, hresult, ?_, Option.not_isSome_iff_eq_none.mp hnone⟩
  obtain ⟨bytes, hvalue⟩ := Option.isSome_iff_exists.mp hsome
  rw [hvalue, hbytes bytes hvalue, hkept]
  rfl

end TextEmbed
