import TextEmbed.Proofs.Embedding.Errors
import TextEmbed.Proofs.Embedding.Meaning

/-!
# What the log says about the output

A run reports of every file that its declaration is begun, and that it is completed if its source
was read to its end and the sink took all of the declaration. It counts the fragments that the
output has there. A run that succeeds reports in the end how many declarations it has written. This
is so whatever the sources bring and whatever the sink takes, so the log can be relied on. What a
sink refuses it refuses for good; writes that are interrupted are not among the sinks' faults.

## Main definitions

* `Input.IsComplete`: inputs that were read to their end, and whose declaration is in the output;
* `Ending.Embeds`: the two ways in which the run on one input can end;
* `Ending.IsLogged`: runs whose log agrees with their output.

## Main results

* `embeds_embedInput`: how the run on one input ends, for a sink of any kind;
* `embed_isLogged`: the log of a run agrees with its output.
-/

namespace TextEmbed

/-- What an event says: its level and its wording. -/
def LogEvent.record (event : LogEvent) : LogLevel × List Char :=
  (event.level, event.message)

/-- What the log says of an input that is begun. If its declaration is completed then `fragments`
tells how many fragments that has. -/
def Input.records (settings : Settings) (input : Input) (fragments : Option Nat) :
    List (LogLevel × List Char) :=
  let identifier := Identifier.ofName settings.lead input.name
  (.debug, "Embedding ".toList ++ input.name ++ " as ".toList ++ identifier) ::
    fragments.toList.map fun count =>
      (.trace, identifier ++ ": ".toList ++ Nat.toDigits 10 count ++ " fragment(s)".toList)

/-- What the log says last, of a run that wrote `count` declarations if it succeeded. -/
def lastRecords (count : Nat) : Except RunError Unit → List (LogLevel × List Char)
  | .ok () => [(.info, "Wrote ".toList ++ Nat.toDigits 10 count ++ " declaration(s)".toList)]
  | .error _ => []

/-- The source of an input was read to its end without a fault, and behind the bytes `front` the
output has all bytes of its declaration. -/
structure Input.IsComplete (settings : Settings) (input : Input) (front output : List UInt8) :
    Prop where
  read : (input.source.reading settings.stripComments).result = .ok ()
  taken : front ++ Utf8.encode ((input.declaration settings).render settings.pointerType) <+: output

/-! ## One input -/

/-- How the run on one input ends. Either its source is read to its end, and the sink takes its
declaration. Or it fails, and if its source could be read to its end then the sink takes less. -/
inductive Ending.Embeds (settings : Settings) (input : Input) (sink : ByteSink) :
    Ending ByteSink → Prop
  | complete (left : Source) (h : (input.source.reading settings.stripComments).result = .ok ()) :
      Embeds settings input sink
        { result := .ok ()
          inputs := [{ input with source := left }]
          sink := sink.extend
            (Utf8.encode ((input.declaration settings).render settings.pointerType))
          log := [.embedding input.name (Identifier.ofName settings.lead input.name),
            .embedded (Identifier.ofName settings.lead input.name)
              (input.declaration settings).body.length] }
  | broken (left : Source) {e : RunError} (he : e.IsWithin input.name) {taken : List UInt8}
      (h : (input.source.reading settings.stripComments).result = .ok () →
        taken.length <
          (Utf8.encode ((input.declaration settings).render settings.pointerType)).length) :
      Embeds settings input sink
        { result := .error e
          inputs := [{ input with source := left }]
          sink := sink.extend taken
          log := [.embedding input.name (Identifier.ofName settings.lead input.name)] }

/-- The run on one input ends in one of two ways, whatever the sink is like. -/
theorem embeds_embedInput (settings : Settings) (input : Input) (sink : ByteSink) :
    (embedInput settings input sink).Embeds settings input sink := by
  rw [embedInput_eq_play, Transcript.play]
  rcases hput : putEach (input.transcript settings).lines sink with ⟨_ | ⟨f, moment⟩, next⟩
  -- the sink takes all lines, so reading decides
  · obtain rfl := ByteSink.eq_extend_of_putEach_eq_none hput
    cases hread : (input.source.reading settings.stripComments).result with
    | error f =>
      simp only [Input.transcript, hread]
      exact .broken _ ⟨f, .inl rfl⟩ (by simp [hread])
    | ok =>
      rw [bytesOf_transcript_of_reading hread]
      have hcount : (input.source.reading settings.stripComments).kept.length =
          (input.declaration settings).body.length := by
        rw [Input.declaration, List.length_map]
      simp only [Input.transcript, hread, hcount]
      exact .complete _ hread
  -- the sink refuses a line, and lacks what is left of the declaration
  · obtain ⟨line, hline⟩ := exists_mem_of_putEach_eq_some hput
    obtain ⟨source, rfl⟩ : ∃ source, moment = input.moment settings source :=
      exists_moment_of_mem_transcript hline
    obtain ⟨taken, rest, hlines, hrest, rfl⟩ := ByteSink.exists_of_putEach_eq_some hput
    refine .broken source ⟨f, .inr rfl⟩ fun hread => ?_
    have hpos := List.length_pos_iff.mpr hrest
    rw [← bytesOf_transcript_of_reading hread, hlines, List.length_append]
    omega

/-! ## Runs -/

section Each

variable {α σ : Type} {step : α → σ → Ending σ} {item : α} {sink : σ}

/-- If the first item fails then the others are not begun. -/
theorem embedEach_of_eq_error {e : RunError} (h : (step item sink).result = .error e)
    (written : Nat) (rest : List α) :
    embedEach step written (item :: rest) sink = step item sink := by
  simp only [embedEach, h]

/-- If the first item succeeds then the others are handled behind it. -/
theorem embedEach_of_eq_ok (h : (step item sink).result = .ok ()) (written : Nat) (rest : List α) :
    embedEach step written (item :: rest) sink =
      { embedEach step (written + 1) rest (step item sink).sink with
        inputs := (step item sink).inputs ++
          (embedEach step (written + 1) rest (step item sink).sink).inputs
        log := (step item sink).log ++
          (embedEach step (written + 1) rest (step item sink).sink).log } := by
  simp only [embedEach, h]

end Each

/-- A run adds to what its sink holds. -/
theorem exists_sink_embedEach (settings : Settings) (written : Nat) (inputs : List Input)
    (sink : ByteSink) :
    ∃ bytes, (embedEach (embedInput settings) written inputs sink).sink = sink.extend bytes := by
  induction inputs generalizing written sink with
  | nil => exact ⟨[], (sink.extend_nil).symm⟩
  | cons input rest ih =>
    have hstep := embeds_embedInput settings input sink
    generalize hfirst : embedInput settings input sink = first at hstep
    cases hstep with
    | complete left hread =>
      obtain ⟨bytes, hbytes⟩ := ih (written + 1) (sink.extend _)
      rw [embedEach_of_eq_ok (by rw [hfirst]), hfirst, hbytes, ByteSink.extend_extend]
      exact ⟨_, rfl⟩
    | broken left he h =>
      rw [embedEach_of_eq_error (by rw [hfirst]), hfirst]
      exact ⟨_, rfl⟩

/-- The log of a run on `inputs` agrees with its output. `front` tells what is in the sink when an
input is begun, and `fragments` tells of every input that is begun, in order, how many fragments its
declaration has, if that was completed. A run that succeeds has written `count` declarations. -/
structure Ending.IsLogged (settings : Settings) (inputs : List Input) (count : Nat)
    (front : Nat → List UInt8) (fragments : List (Option Nat)) (ending : Ending ByteSink) :
    Prop where
  /-- The inputs that are begun are the first ones. -/
  begun : ending.inputs.map Input.name = (inputs.take fragments.length).map Input.name
  log_eq : ending.log.map LogEvent.record =
    (List.zipWith (Input.records settings) inputs fragments).flatten ++
      lastRecords count ending.result
  /-- A declaration is reported as completed exactly if it is, with the number of its fragments. -/
  complete_iff : ∀ (i : Nat) (input : Input) (reported : Option Nat), inputs[i]? = some input →
    fragments[i]? = some reported → ∀ k, reported = some k ↔
      input.IsComplete settings (front i) ending.sink.written.toList ∧
        k = (input.declaration settings).body.length
  succeeded : ending.result = .ok () → fragments.length = inputs.length
  /-- The error names the input that was begun last, whose declaration was not completed. -/
  failed : ∀ e, ending.result = .error e → ∃ (i : Nat) (input : Input),
    fragments.length = i + 1 ∧ fragments[i]? = some none ∧ inputs[i]? = some input ∧
      e.IsWithin input.name

section Logged

variable {settings : Settings} {input : Input} {rest : List Input} {sink : ByteSink}

/-- A run that goes on behind a complete declaration is logged if the rest is. -/
theorem Ending.IsLogged.cons {first later : Ending ByteSink} {count : Nat}
    {front next : Nat → List UInt8} {fragments : List (Option Nat)}
    (h : later.IsLogged settings rest count next fragments)
    (hnames : first.inputs.map Input.name = [input.name])
    (hlog : first.log.map LogEvent.record =
      input.records settings (some (input.declaration settings).body.length))
    (hcomplete : input.IsComplete settings (front 0) later.sink.written.toList)
    (hfront : ∀ i, front (i + 1) = next i) :
    Ending.IsLogged settings (input :: rest) count front
      (some (input.declaration settings).body.length :: fragments)
      { later with inputs := first.inputs ++ later.inputs, log := first.log ++ later.log } where
  begun := by
    rw [List.map_append, hnames, h.begun, List.length_cons, List.take_succ_cons, List.map_cons,
      List.singleton_append]
  log_eq := by
    rw [List.map_append, hlog, h.log_eq, List.zipWith_cons_cons, List.flatten_cons,
      List.append_assoc]
  complete_iff i found reported hfound hreported k := by
    cases i with
    | zero =>
      obtain rfl : input = found := by simpa using hfound
      obtain rfl : some (input.declaration settings).body.length = reported := by
        simpa using hreported
      rw [Option.some_inj, eq_comm]
      exact (and_iff_right hcomplete).symm
    | succ i =>
      rw [hfront]
      exact h.complete_iff i found reported (by simpa using hfound) (by simpa using hreported) k
  succeeded hresult := congrArg (· + 1) (h.succeeded hresult)
  failed e hresult := by
    obtain ⟨i, found, hlength, hnone, hfound, he⟩ := h.failed e hresult
    exact ⟨i + 1, found, congrArg (· + 1) hlength, by simpa using hnone, by simpa using hfound, he⟩

/-- A run whose first declaration is broken off is logged as such. -/
theorem isLogged_of_broken {ending : Ending ByteSink} {e : RunError} {taken : List UInt8}
    {front : Nat → List UInt8} (hresult : ending.result = .error e) (he : e.IsWithin input.name)
    (hnames : ending.inputs.map Input.name = [input.name])
    (hlog : ending.log.map LogEvent.record = input.records settings none)
    (hsink : ending.sink.written.toList = front 0 ++ taken)
    (htaken : (input.source.reading settings.stripComments).result = .ok () → taken.length <
      (Utf8.encode ((input.declaration settings).render settings.pointerType)).length)
    (count : Nat) : ending.IsLogged settings (input :: rest) count front [none] where
  begun := by simpa using hnames
  log_eq := by simp [hlog, hresult, lastRecords]
  complete_iff i found reported hfound hreported k := by
    cases i with
    | zero =>
      obtain rfl : input = found := by simpa using hfound
      obtain rfl : none = reported := by simpa using hreported
      simp only [reduceCtorEq, false_iff, not_and]
      rintro ⟨hread, hprefix⟩
      -- the sink took less than the declaration
      rw [hsink, List.prefix_append_right_inj] at hprefix
      exact absurd hprefix.length_le (Nat.not_le_of_lt (htaken hread))
    | succ i => simp at hreported
  succeeded hok := by simp [hresult] at hok
  failed other hother := by
    obtain rfl : e = other := Except.error.inj (hresult.symm.trans hother)
    exact ⟨0, input, rfl, rfl, rfl, he⟩

end Logged

/-- The log of a run from some declaration on agrees with the output. -/
theorem exists_isLogged_embedEach (settings : Settings) (written : Nat) (inputs : List Input)
    (sink : ByteSink) :
    ∃ fragments, (embedEach (embedInput settings) written inputs sink).IsLogged settings inputs
      (written + inputs.length)
      (fun i => (embedEach (embedInput settings) written (inputs.take i) sink).sink.written.toList)
      fragments := by
  induction inputs generalizing written sink with
  | nil => exact ⟨[], rfl, rfl, by simp, fun _ => rfl, fun e h => by cases h⟩
  | cons input rest ih =>
    have hstep := embeds_embedInput settings input sink
    generalize hfirst : embedInput settings input sink = first at hstep
    cases hstep with
    | complete left hread =>
      have hok := congrArg Ending.result hfirst
      obtain ⟨fragments, hlogged⟩ := ih (written + 1) (embedInput settings input sink).sink
      obtain ⟨bytes, hbytes⟩ := exists_sink_embedEach settings (written + 1) rest
        (embedInput settings input sink).sink
      rw [Nat.add_right_comm] at hlogged
      rw [embedEach_of_eq_ok hok]
      refine ⟨_, hlogged.cons (by rw [hfirst]; rfl) (by rw [hfirst]; rfl) ⟨hread, ?_⟩ fun i => ?_⟩
      · rw [hbytes, hfirst, ByteSink.toList_written_extend, ByteSink.toList_written_extend]
        exact List.prefix_append _ _
      · simp only [List.take_succ_cons, embedEach_of_eq_ok hok]
    | broken left he h =>
      have herror := congrArg Ending.result hfirst
      rw [embedEach_of_eq_error herror]
      refine ⟨_, isLogged_of_broken herror he (by rw [hfirst]; rfl) (by rw [hfirst]; rfl) ?_ h _⟩
      rw [hfirst, ByteSink.toList_written_extend]
      rfl

/-- The log never lies about the output. Whatever the sources bring, and whatever the sink takes,
the log says of every input that is begun that it is, and that its declaration is completed exactly
if the source was read to its end and the sink took the whole declaration, which has as many
fragments as the log says. If the run succeeds then the log says last how many declarations it has
written, one for every input. If it fails then the error names the input that was begun last. -/
theorem embed_isLogged (settings : Settings) (inputs : List Input) (sink : ByteSink) :
    ∃ fragments, (embed settings inputs sink).IsLogged settings inputs inputs.length
      (fun i => (embed settings (inputs.take i) sink).sink.written.toList) fragments := by
  have hlogged := exists_isLogged_embedEach settings 0 inputs sink
  rwa [Nat.zero_add] at hlogged

end TextEmbed
