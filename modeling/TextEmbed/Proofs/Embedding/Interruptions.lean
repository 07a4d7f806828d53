import Mathlib.Data.List.Forall2
import TextEmbed.Proofs.Embedding.Transcript
import TextEmbed.Proofs.Source.Interruptions

/-!
# Runs on interrupted sources

What a run does is a matter of what calls return: sources that no number of calls can tell apart
leave the same result, the same sink and the same log. So a run doesn't notice a fill that is
interrupted, unless that happens right behind a carriage return.

## Main definitions

* `Source.ReadsLike`: sources that no number of calls can tell apart;
* `Ending.Agrees`: endings that differ in what is left of the inputs only.

## Main results

* `embed_agrees`: runs on sources that can't be told apart;
* `interruptions_unnoticed`: where interruptions are noticed, and where they aren't.
-/

namespace TextEmbed

/-- No number of calls can tell the sources apart. -/
def Source.ReadsLike (first second : Source) : Prop :=
  ∀ calls, (readLines calls first).1 = (readLines calls second).1

/-- A call returns the same on both, and they can't be told apart behind it either. -/
theorem Source.ReadsLike.readLine {first second : Source} (h : first.ReadsLike second) :
    (readLine first).1 = (readLine second).1 ∧
      ReadsLike (readLine first).2 (readLine second).2 := by
  refine ⟨List.cons.inj (h 1) |>.1, fun calls => ?_⟩
  exact List.cons.inj (h (calls + 1)) |>.2

/-- Endings of runs that differ in what is left of the inputs only. -/
structure Ending.Agrees {σ : Type} (first second : Ending σ) : Prop where
  result_eq : first.result = second.result
  sink_eq : first.sink = second.sink
  log_eq : first.log = second.log

/-- Runs agree whose steps agree one by one. -/
theorem embedEach_agrees {α σ : Type} {step : α → σ → Ending σ} {items others : List α}
    (h : List.Forall₂ (fun item other => ∀ sink, (step item sink).Agrees (step other sink))
      items others) (written : Nat) (sink : σ) :
    (embedEach step written items sink).Agrees (embedEach step written others sink) := by
  induction h generalizing written sink with
  | nil => exact ⟨rfl, rfl, rfl⟩
  | @cons item other rest later hstep _ ih =>
    obtain ⟨hresult, hsink, hlog⟩ := hstep sink
    simp only [embedEach, hresult, hsink]
    split
    next e he => exact ⟨hresult, hsink, hlog⟩
    next hok =>
      have hlater := ih (written + 1) (step other sink).sink
      exact ⟨hlater.result_eq, hlater.sink_eq, by rw [hlog, hlater.log_eq]⟩

section Sinks

variable {σ : Type} [LineSink σ]

/-- The fragments of sources that can't be told apart are the same. -/
theorem embedLines_of_readsLike (settings : Settings) (name : List Char) (fragments : Nat)
    {first second : Source} (h : first.ReadsLike second) (sink : σ) :
    (embedLines settings name fragments first sink).1 =
        (embedLines settings name fragments second sink).1 ∧
      (embedLines settings name fragments first sink).2.2 =
        (embedLines settings name fragments second sink).2.2 := by
  -- by induction on what the first source still has to give
  induction hn : first.size using Nat.strongRecOn generalizing first second fragments sink with
  | _ n ih =>
    obtain ⟨hresult, hleft⟩ := h.readLine
    rw [embedLines_eq_step, embedLines_eq_step]
    rcases hfirst : first.readLine with ⟨result, left⟩
    rcases hsecond : second.readLine with ⟨other, rest⟩
    rw [hfirst, hsecond] at hresult hleft
    obtain rfl : result = other := hresult
    match result with
    | .error f => exact ⟨rfl, rfl⟩
    | .ok none => exact ⟨rfl, rfl⟩
    | .ok (some line) =>
      have hsmaller : left.size < n := hn ▸ Source.size_lt_of_readLine hfirst
      dsimp only
      rcases embedLine settings name fragments line sink with ⟨e | fragments, sink⟩
      · exact ⟨rfl, rfl⟩
      · exact ih left.size hsmaller fragments hleft sink rfl

/-- A declaration is a matter of its name, and of what its body comes to and writes. -/
theorem embedDeclaration_agrees (settings : Settings) {first second : Input}
    (hname : first.name = second.name) {body other : σ → Except RunError Nat × Source × σ}
    (hbody : ∀ opened, (body opened).1 = (other opened).1 ∧
      (body opened).2.2 = (other opened).2.2) (sink : σ) :
    (embedDeclaration settings first body sink).Agrees
      (embedDeclaration settings second other sink) := by
  rcases hheader : putLine (Declaration.header settings.pointerType
    (Identifier.ofName settings.lead second.name)) sink with ⟨f | _, opened⟩
  · simp only [embedDeclaration, hname, hheader]
    exact ⟨rfl, rfl, rfl⟩
  · obtain ⟨hresult, hsink⟩ := hbody opened
    rcases hfirst : body opened with ⟨result, left, written⟩
    rcases hsecond : other opened with ⟨otherResult, otherLeft, otherWritten⟩
    rw [hfirst, hsecond] at hresult hsink
    obtain rfl : result = otherResult := hresult
    obtain rfl : written = otherWritten := hsink
    cases result with
    | error e =>
      simp only [embedDeclaration, hname, hheader, hfirst, hsecond]
      exact ⟨rfl, rfl, rfl⟩
    | ok fragments =>
      rcases hclosing : putLine Declaration.closing written with ⟨f | _, closed⟩
      · simp only [embedDeclaration, hname, hheader, hfirst, hsecond, hclosing]
        exact ⟨rfl, rfl, rfl⟩
      · simp only [embedDeclaration, hname, hheader, hfirst, hsecond, hclosing]
        exact ⟨rfl, rfl, rfl⟩

/-- Runs agree on sources that can't be told apart. -/
theorem embed_agrees (settings : Settings) {inputs others : List Input}
    (h : List.Forall₂ (fun input other => input.name = other.name ∧
      input.source.ReadsLike other.source) inputs others) (sink : σ) :
    (embed settings inputs sink).Agrees (embed settings others sink) := by
  refine embedEach_agrees (h.imp ?_) 0 sink
  rintro input other ⟨hname, hsource⟩ sink
  unfold embedInput
  rw [hname]
  exact embedDeclaration_agrees settings hname
    (fun opened => embedLines_of_readsLike settings other.name 0 hsource opened) sink

end Sinks

/-- Where interrupted fills can be noticed. Wherever they come in between, but not right behind a
carriage return, all calls return what they return without them, and a run has the same result and
the same output. Right behind a carriage return, the call that reads it fails with the first
interruption and loses what it has read, and the calls behind it go on with what comes next. -/
theorem interruptions_unnoticed {source other : Source} {before interruptions after : List Event}
    (hinterrupted : ∀ event ∈ interruptions, event.IsInterruption)
    (hsource : source.events = before ++ after)
    (hother : other.events = before ++ (interruptions ++ after)) :
    (before.getLast? ≠ some (.byte Source.carriageReturn) →
      (∀ calls, (Source.readLines calls source).1 = (Source.readLines calls other).1) ∧
      ∀ {σ : Type} [LineSink σ] (settings : Settings) (name : List Char) (front behind : List Input)
        (sink : σ),
        (embed settings (front ++ { name, source } :: behind) sink).Agrees
          (embed settings (front ++ { name, source := other } :: behind) sink)) ∧
    (∀ f more, before.getLast? = some (.byte Source.carriageReturn) →
      interruptions = .fault f :: more →
      ∃ calls result,
        (Source.readLines (calls + 1) source).1 = (Source.readLines calls source).1 ++ [result] ∧
        (Source.readLines (calls + 1) other).1 =
          (Source.readLines calls source).1 ++ [.error f] ∧
        (Source.readLines (calls + 1) other).2.events = more ++ after ∧
        ((∀ g rest, after ≠ .fault g :: rest) → result ≠ .error f)) := by
  refine ⟨?_, ?_⟩
  · intro hlast
    have hdelayed : Event.Delayed false source.events other.events := by
      rw [hsource, hother]
      exact Event.delayed_append hinterrupted hlast (fun _ => rfl) after
    have hlike : source.ReadsLike other := Source.readLines_delayed hdelayed
    refine ⟨hlike, ?_⟩
    intro σ _ settings name front behind sink
    apply embed_agrees
    have hsame : ∀ inputs : List Input, List.Forall₂ (fun input other => input.name = other.name ∧
        input.source.ReadsLike other.source) inputs inputs := fun inputs =>
      List.forall₂_same.mpr fun _ _ => ⟨rfl, fun _ => rfl⟩
    exact List.rel_append (hsame front) (.cons ⟨rfl, hlike⟩ (hsame behind))
  · rintro f more hlast rfl
    obtain ⟨⟨g, hg, hf⟩, -⟩ := List.forall_mem_cons.mp hinterrupted
    obtain rfl := Event.fault.inj hg
    obtain ⟨front, rfl⟩ := List.getLast?_eq_some_iff.mp hlast
    rw [List.append_assoc] at hsource hother
    exact Source.exists_call_interrupted hf hsource hother

/-- For example two interruptions in front of a carriage return, and one behind it. -/
theorem interruptions_unnoticed_carriageReturn :
    let interrupted : Fault := .reported .interrupted []
    let source : Source := [.bytes [0x61, 0x0D, 0x0A]]
    let early : Source :=
      [.bytes [0x61], .fault interrupted, .fault interrupted, .bytes [0x0D, 0x0A]]
    let late : Source := [.bytes [0x61, 0x0D], .fault interrupted, .bytes [0x0A]]
    (∀ calls, (Source.readLines calls source).1 = (Source.readLines calls early).1) ∧
      (Source.readLines 1 early).1 = [.ok (some ['a', '\r', '\n'])] ∧
      ∃ calls result,
        (Source.readLines (calls + 1) source).1 = (Source.readLines calls source).1 ++ [result] ∧
        (Source.readLines (calls + 1) late).1 =
          (Source.readLines calls source).1 ++ [.error interrupted] ∧
        result ≠ .error interrupted := by
  intro interrupted source early late
  have hinterrupted : Event.IsInterruption (.fault interrupted) := ⟨interrupted, rfl, rfl⟩
  have hsource : source.events = [.byte 0x61] ++ [.byte 0x0D, .byte 0x0A] := rfl
  have hearly : early.events = [.byte 0x61] ++
      ([.fault interrupted, .fault interrupted] ++ [.byte 0x0D, .byte 0x0A]) := rfl
  have hlast : source.events = [.byte 0x61, .byte 0x0D] ++ [.byte 0x0A] := rfl
  have hlate : late.events = [.byte 0x61, .byte 0x0D] ++ ([.fault interrupted] ++ [.byte 0x0A]) :=
    rfl
  obtain ⟨hunnoticed, -⟩ := interruptions_unnoticed (by simp [hinterrupted]) hsource hearly
  obtain ⟨-, hnoticed⟩ := interruptions_unnoticed (by simp [hinterrupted]) hlast hlate
  obtain ⟨hcalls, -⟩ := hunnoticed (by decide)
  obtain ⟨calls, result, hsource, hlate, -, hne⟩ := hnoticed interrupted [] rfl rfl
  refine ⟨hcalls, ?_, calls, result, hsource, hlate, hne (by simp)⟩
  rw [← hcalls]
  decide +kernel

end TextEmbed
