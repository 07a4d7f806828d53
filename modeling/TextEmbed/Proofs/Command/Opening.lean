import Mathlib.Data.List.Forall2
import TextEmbed.Command.Run
import TextEmbed.Proofs.FileTree

/-!
# Opening inputs

Inputs are opened one after the other, up to the first that can't be opened. Opening changes
nothing, so what can be opened is a matter of the files as they are when the run begins.

## Main definitions

* `Command.Opens`: paths that can be opened.

## Main results

* `forall₂_of_mapM_eq_ok` and `exists_of_mapM_eq_error`: steps in a row, each of which can fail;
* `Command.forall_opens_or`: inputs are all opened, or there is a first one that can't be opened.
-/

namespace TextEmbed

/-- What is beside an element of a row. -/
theorem exists_getElem?_of_forall₂ {α β : Type} {r : α → β → Prop} {first : List α}
    {second : List β} (h : List.Forall₂ r first second) {i : Nat} {a : α}
    (ha : first[i]? = some a) :
    ∃ b, second[i]? = some b ∧ r a b := by
  obtain ⟨hfirst, rfl⟩ := List.getElem?_eq_some_iff.mp ha
  have hsecond : i < second.length := h.length_eq ▸ hfirst
  exact ⟨second[i], List.getElem?_eq_getElem hsecond, h.get hfirst hsecond⟩

section

variable {ε α β : Type} {step : α → Except ε β} {items : List α}

/-- If steps in a row succeed, so does each of them. -/
theorem forall₂_of_mapM_eq_ok {results : List β} (h : items.mapM step = .ok results) :
    List.Forall₂ (fun item result => step item = .ok result) items results := by
  induction items generalizing results with
  | nil =>
    obtain rfl : [] = results := Except.ok.inj h
    exact .nil
  | cons item rest ih =>
    rw [List.mapM_cons] at h
    obtain ⟨result, hitem, h⟩ := exists_of_bind_eq_ok h
    obtain ⟨others, hrest, h⟩ := exists_of_bind_eq_ok h
    obtain rfl : result :: others = results := Except.ok.inj h
    exact .cons hitem (ih hrest)

/-- The result of a step is among the results of the row. -/
theorem exists_mem_of_mapM_eq_ok {results : List β} (h : items.mapM step = .ok results) {item : α}
    (hitem : item ∈ items) : ∃ result ∈ results, step item = .ok result := by
  obtain ⟨i, hi⟩ := List.mem_iff_getElem?.mp hitem
  obtain ⟨result, hresult, hstep⟩ := exists_getElem?_of_forall₂ (forall₂_of_mapM_eq_ok h) hi
  exact ⟨result, List.mem_of_getElem? hresult, hstep⟩

/-- If steps in a row fail, they fail as the first of them does that fails. -/
theorem exists_of_mapM_eq_error {e : ε} (h : items.mapM step = .error e) :
    ∃ before item after, items = before ++ item :: after ∧
      (∀ earlier ∈ before, ∃ result, step earlier = .ok result) ∧ step item = .error e := by
  induction items with
  | nil => cases h
  | cons item rest ih =>
    rw [List.mapM_cons] at h
    cases hitem : step item with
    | error failure =>
      rw [hitem] at h
      obtain rfl : failure = e := Except.error.inj h
      exact ⟨[], item, rest, rfl, by simp, hitem⟩
    | ok result =>
      -- the others fail, and behind them only the results are put together
      have hrest : rest.mapM step = .error e := by
        rw [hitem] at h
        cases hothers : rest.mapM step with
        | error failure =>
          rw [hothers] at h
          exact congrArg _ (Except.error.inj h)
        | ok others =>
          rw [hothers] at h
          cases h
      obtain ⟨before, found, after, rfl, hbefore, hfound⟩ := ih hrest
      refine ⟨item :: before, found, after, rfl, ?_, hfound⟩
      intro earlier hearlier
      rcases List.mem_cons.mp hearlier with rfl | hearlier
      · exact ⟨result, hitem⟩
      · exact hbefore earlier hearlier

end

namespace Command

/-- A path that can be opened: it stands for standard input, or leads to a file or a directory. -/
def Opens (files : FileTree) (path : Path) : Prop :=
  path.isStandard ∨ ∃ location, files.openPath path = .ok location

variable {files : FileTree} {path : Path}

theorem opens_of_ofPath {opened : Opened} (h : Opened.ofPath files path = .ok opened) :
    Opens files path := by
  unfold Opened.ofPath at h
  split at h
  next hstandard => exact .inl hstandard
  next hstandard =>
    split at h
    next location hlocation => exact .inr ⟨location, hlocation⟩
    next => cases h

/-- Only a path that leads to nothing can't be opened. -/
theorem of_ofPath_eq_error {e : RunError} (h : Opened.ofPath files path = .error e) :
    path.isStandard = false ∧ ∃ f, files.openPath path = .error f ∧ e = .openInput path f := by
  unfold Opened.ofPath at h
  split at h
  next => cases h
  next hstandard =>
    split at h
    next => cases h
    next f hf => exact ⟨Bool.eq_false_iff.mpr hstandard, f, hf, (Except.error.inj h).symm⟩

/-- An input that is no standard input is called by the base name of its path. -/
theorem of_ofPath_eq_file {name : List Char} {location : Location}
    (h : Opened.ofPath files path = .ok (.file name location)) :
    path.isStandard = false ∧ files.openPath path = .ok location ∧ name = path.baseName := by
  unfold Opened.ofPath at h
  split at h
  next => cases h
  next hstandard =>
    split at h
    next there hopen =>
      obtain ⟨rfl, rfl⟩ := Opened.file.inj (Except.ok.inj h)
      exact ⟨Bool.eq_false_iff.mpr hstandard, hopen, rfl⟩
    next => cases h

/-! ## All inputs -/

/-- Inputs can all be opened, or there is a first one that can't. -/
theorem forall_opens_or (files : FileTree) (paths : List Path) :
    ((∀ path ∈ paths, Opens files path) ∧
        ∃ opened, paths.mapM (Opened.ofPath files) = .ok opened) ∨
      ∃ before path after f, paths = before ++ path :: after ∧
        (∀ earlier ∈ before, Opens files earlier) ∧ ¬ Opens files path ∧
        files.openPath path = .error f ∧
        paths.mapM (Opened.ofPath files) = .error (.openInput path f) := by
  cases hpaths : paths.mapM (Opened.ofPath files) with
  | error e =>
    obtain ⟨before, path, after, rfl, hbefore, hpath⟩ := exists_of_mapM_eq_error hpaths
    obtain ⟨hstandard, f, hf, rfl⟩ := of_ofPath_eq_error hpath
    refine .inr ⟨before, path, after, f, rfl, ?_, ?_, hf, rfl⟩
    · intro earlier hearlier
      obtain ⟨opened, hopened⟩ := hbefore earlier hearlier
      exact opens_of_ofPath hopened
    · simp [Opens, hstandard, hf]
  | ok opened =>
    refine .inl ⟨?_, opened, rfl⟩
    intro path hpath
    obtain ⟨found, -, hfound⟩ := exists_mem_of_mapM_eq_ok hpaths hpath
    exact opens_of_ofPath hfound

theorem exists_opened_of_opens {files : FileTree} {paths : List Path}
    (h : ∀ path ∈ paths, Opens files path) :
    ∃ opened, paths.mapM (Opened.ofPath files) = .ok opened := by
  rcases forall_opens_or files paths with ⟨-, hopened⟩ | ⟨before, path, after, f, rfl, -, hpath, -⟩
  · exact hopened
  · exact absurd (h path (by simp)) hpath

end Command

end TextEmbed
