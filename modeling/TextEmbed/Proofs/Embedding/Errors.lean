import TextEmbed.Echo
import TextEmbed.Proofs.Embedding.Transcript

/-!
# Errors of runs

Once the inputs are open and the output is created, a run fails in reading or in writing, and the
error names the file whose declaration it failed in. This is so for echoes as well. A run that
succeeds has handled every input.

## Main definitions

* `RunError.IsWithin`: errors of reading and writing within the declaration of a file.

## Main results

* `exists_mem_of_embedEach_eq_error` and `of_embedEach_eq_ok`: a run fails as one of its steps does,
  and succeeds if all of them do;
* `isWithin_of_embedFeeds`: the error of a run names one of its inputs.
-/

namespace TextEmbed

/-- Reading or writing failed within the declaration of the file `name`. -/
def RunError.IsWithin (name : List Char) (e : RunError) : Prop :=
  ∃ f, e = .read name f ∨ e = .write name f

section Sinks

variable {σ : Type} [LineSink σ] {settings : Settings}

theorem isWithin_of_embedLines {name : List Char} {fragments : Nat} {source left : Source}
    {sink next : σ} {e : RunError}
    (h : embedLines settings name fragments source sink = (.error e, left, next)) :
    e.IsWithin name := by
  rw [embedLines_eq_putEach] at h
  split at h
  next f rest after hput => exact ⟨f, .inr (Except.error.inj (Prod.mk.inj h).1).symm⟩
  next after hput =>
    cases hresult : (source.reading settings.stripComments).result with
    | error f =>
      simp only [hresult] at h
      exact ⟨f, .inl (Except.error.inj (Prod.mk.inj h).1).symm⟩
    | ok => simp [hresult] at h

/-- The errors of a declaration are those of its two ends, and of what stands between. -/
theorem isWithin_of_embedDeclaration {input : Input}
    {body : σ → Except RunError Nat × Source × σ} {sink : σ} {e : RunError}
    (hbody : ∀ opened e left next, body opened = (.error e, left, next) → e.IsWithin input.name)
    (h : (embedDeclaration settings input body sink).result = .error e) :
    e.IsWithin input.name := by
  dsimp only [embedDeclaration] at h
  split at h
  next f next hheader => exact ⟨f, .inr (Except.error.inj h).symm⟩
  next opened hheader =>
    split at h
    next failure left next hfailure =>
      obtain rfl := Except.error.inj h
      exact hbody opened failure left next hfailure
    next fragments left written hwritten =>
      split at h
      next f next hclosing => exact ⟨f, .inr (Except.error.inj h).symm⟩
      next => cases h

end Sinks

/-! ## Echoes -/

/-- The base name of what is behind an input. -/
def Feed.name : Feed → List Char
  | given input => input.name
  | echo name => name

theorem isWithin_of_embedEchoLines {settings : Settings} {name : List Char}
    {space read fragments : Nat} {writer next : BlockWriter} {left : Source} {e : RunError}
    (h : embedEchoLines settings name space read fragments writer = (.error e, left, next)) :
    e.IsWithin name := by
  fun_induction embedEchoLines settings name space read fragments writer with
  | case1 => exact ⟨_, .inr (Except.error.inj (Prod.mk.inj h).1).symm⟩
  | case2 => simp at h
  -- a round reads what was delivered as any source is read
  | case3 read fragments writer delivered hspace hread source failure rest after hround =>
    obtain rfl := Except.error.inj (Prod.mk.inj h).1
    exact isWithin_of_embedLines hround
  | case4 read fragments writer delivered hspace hread source later rest after hround ih =>
    exact ih h

theorem isWithin_of_embedFeed {settings : Settings} {feed : Feed} {writer : BlockWriter}
    {e : RunError} (h : (embedFeed settings feed writer).result = .error e) :
    e.IsWithin feed.name := by
  cases feed with
  | given input => exact isWithin_of_embedDeclaration (fun _ _ _ _ => isWithin_of_embedLines) h
  | echo name => exact isWithin_of_embedDeclaration (fun _ _ _ _ => isWithin_of_embedEchoLines) h

/-! ## Runs -/

section Runs

variable {α σ : Type} {step : α → σ → Ending σ} {written : Nat} {items : List α} {sink : σ}

/-- A run that fails does so in the step of one of its items. -/
theorem exists_mem_of_embedEach_eq_error {e : RunError}
    (h : (embedEach step written items sink).result = .error e) :
    ∃ item ∈ items, ∃ before, (step item before).result = .error e := by
  induction items generalizing written sink with
  | nil => cases h
  | cons item rest ih =>
    rw [embedEach] at h
    split at h
    next failure hfirst => exact ⟨item, List.mem_cons_self, sink, h⟩
    next hfirst =>
      obtain ⟨found, hfound, before, hbefore⟩ := ih h
      exact ⟨found, List.mem_cons_of_mem item hfound, before, hbefore⟩

/-- A run that succeeds does so in the steps of all its items. -/
theorem of_embedEach_eq_ok (h : (embedEach step written items sink).result = .ok ()) :
    ∀ item ∈ items, ∃ before, (step item before).result = .ok () := by
  induction items generalizing written sink with
  | nil => simp
  | cons item rest ih =>
    rw [embedEach] at h
    split at h
    next failure hfirst =>
      rw [hfirst] at h
      cases h
    next hfirst =>
      intro found hfound
      rcases List.mem_cons.mp hfound with rfl | hfound
      · exact ⟨sink, hfirst⟩
      · exact ih h found hfound

end Runs

/-- The error of a run names one of its inputs. -/
theorem isWithin_of_embedFeeds {settings : Settings} {feeds : List Feed} {writer : BlockWriter}
    {e : RunError} (h : (embedFeeds settings feeds writer).result = .error e) :
    ∃ feed ∈ feeds, e.IsWithin feed.name := by
  obtain ⟨feed, hfeed, before, hbefore⟩ := exists_mem_of_embedEach_eq_error h
  exact ⟨feed, hfeed, isWithin_of_embedFeed hbefore⟩

end TextEmbed
