import TextEmbed.Embedding

/-!
# Transcripts of runs

What a run does doesn't depend on its sink, except that the sink may end it: the lines that are
handed over, and what has been read and reported by then, are a matter of the inputs alone. The
transcript of a run lists them. A run is its transcript, handed to the sink line by line until the
sink refuses one.

## Main definitions

* `Source.reading`: the contributions of a source, each with what is left of the source behind it;
* `Moment`: where a run stands when it hands over a line;
* `transcript`: the lines of a run with their moments, and the ending of a run whose sink takes all;
* `putEach`: handing lines to a sink until it refuses one.

## Main results

* `embed_eq_play`: a run is its transcript, played into the sink;
* `result_transcriptFrom_eq_error`: only reading makes a run fail whose sink takes everything;
* `exists_liesIn`: a line of a transcript lies in the declaration of the last input begun by then.
-/

namespace TextEmbed

/-- What the declaration of a source needs of it. -/
structure Source.Reading where
  /-- What the lines contribute, in order, each with what is left of the source behind the line. -/
  kept : List (List Char × Source)
  /-- Whether the source was read to its end. -/
  result : Except Fault Unit
  /-- What is left of the source in the end. -/
  left : Source

/-- Reads a source line by line, to its end or to its first fault. -/
def Source.reading (stripComments : Bool) (source : Source) : Source.Reading :=
  match _h : source.readLine with
  | (.error f, left) => { kept := [], result := .error f, left }
  | (.ok none, left) => { kept := [], result := .ok (), left }
  | (.ok (some line), left) =>
    let later := Source.reading stripComments left
    match Line.contribution stripComments line with
    | none => later
    | some text => { later with kept := (text, left) :: later.kept }
termination_by source.size
decreasing_by exact Source.size_lt_of_readLine ‹_›

/-- The fragments of what was read, each with what is left of the source behind its line. -/
def Source.Reading.fragments (reading : Source.Reading) : List (List Char × Source) :=
  reading.kept.map fun entry => (Declaration.fragmentLine entry.1, entry.2)

/-- Where a run stands when it hands a line to its sink. -/
structure Moment where
  /-- The name of the file whose declaration the line is part of. -/
  name : List Char
  /-- The inputs begun by then, in order, with what is left of their sources. -/
  inputs : List Input
  /-- The events of the run by then. -/
  log : List LogEvent

/-- What a run does if its sink takes every line. -/
structure Transcript where
  /-- The lines in the order in which they are handed over, each with its moment. -/
  lines : List (List Char × Moment)
  /-- Whether the run succeeds. -/
  result : Except RunError Unit
  /-- The inputs that are begun, in order, with what is left of their sources. -/
  inputs : List Input
  /-- The events of the run in order. -/
  log : List LogEvent

section Sinks

variable {σ : Type} [LineSink σ]

/-- Hands lines to a sink, one after the other, until it refuses one. The result tells how and
where, where being what stands beside the line. -/
def putEach {α : Type} : List (List Char × α) → σ → Option (Fault × α) × σ
  | [], sink => (none, sink)
  | (line, mark) :: rest, sink =>
    match putLine line sink with
    | (.error f, sink) => (some (f, mark), sink)
    | (.ok (), sink) => putEach rest sink

theorem putEach_append {α : Type} (first second : List (List Char × α)) (sink : σ) :
    putEach (first ++ second) sink =
      match putEach first sink with
      | (some refused, sink) => (some refused, sink)
      | (none, sink) => putEach second sink := by
  induction first generalizing sink with
  | nil => rfl
  | cons entry first ih =>
    simp only [List.cons_append, putEach]
    split
    · rfl
    · exact ih _

/-- Other marks beside the lines make no difference to the sink. -/
theorem putEach_map {α β : Type} (f : α → β) (entries : List (List Char × α)) (sink : σ) :
    putEach (entries.map fun entry => (entry.1, f entry.2)) sink =
      ((putEach entries sink).1.map fun refused => (refused.1, f refused.2),
        (putEach entries sink).2) := by
  induction entries generalizing sink with
  | nil => rfl
  | cons entry entries ih =>
    simp only [List.map_cons, putEach]
    split
    · rfl
    · exact ih _

/-- Where lines are refused is where one of them is. -/
theorem exists_mem_of_putEach_eq_some {α : Type} {entries : List (List Char × α)} {sink left : σ}
    {f : Fault} {mark : α} (h : putEach entries sink = (some (f, mark), left)) :
    ∃ line, (line, mark) ∈ entries := by
  induction entries generalizing sink with
  | nil => simp [putEach] at h
  | cons entry entries ih =>
    rw [putEach] at h
    split at h
    next g next hput =>
      obtain ⟨-, rfl⟩ := Prod.mk.inj (Option.some.inj (Prod.mk.inj h).1)
      exact ⟨entry.1, List.mem_cons_self⟩
    next next hput =>
      obtain ⟨line, hline⟩ := ih h
      exact ⟨line, List.mem_cons_of_mem entry hline⟩

/-- Hands the lines of a transcript to a sink. If the sink refuses one then the run ends there. -/
def Transcript.play (transcript : Transcript) (sink : σ) : Ending σ :=
  match putEach transcript.lines sink with
  | (some (f, moment), sink) =>
    { result := .error (.write moment.name f), inputs := moment.inputs, sink, log := moment.log }
  | (none, sink) =>
    { result := transcript.result, inputs := transcript.inputs, sink, log := transcript.log }

end Sinks

/-- Where the declaration of an input stands when `source` is left of the input. -/
def Input.moment (settings : Settings) (input : Input) (source : Source) : Moment :=
  { name := input.name
    inputs := [{ input with source }]
    log := [.embedding input.name (Identifier.ofName settings.lead input.name)] }

/-- The transcript of the declaration of one input. -/
def Input.transcript (settings : Settings) (input : Input) : Transcript :=
  let identifier := Identifier.ofName settings.lead input.name
  let reading := input.source.reading settings.stripComments
  let last := input.moment settings reading.left
  let opened := (Declaration.header settings.pointerType identifier,
      input.moment settings input.source) ::
    reading.fragments.map fun entry => (entry.1, input.moment settings entry.2)
  { lines := match reading.result with
      | .error _ => opened
      | .ok () => opened ++ [(Declaration.closing, last)]
    result := match reading.result with
      | .error f => .error (.read input.name f)
      | .ok () => .ok ()
    inputs := last.inputs
    log := match reading.result with
      | .error _ => last.log
      | .ok () => last.log ++ [.embedded identifier reading.kept.length] }

/-- A moment of a run that began `inputs` and reported `log` before. -/
def Moment.behind (inputs : List Input) (log : List LogEvent) (moment : Moment) : Moment :=
  { moment with inputs := inputs ++ moment.inputs, log := log ++ moment.log }

/-- A transcript that goes on, with `later`, where `first` succeeds. -/
def Transcript.followedBy (first later : Transcript) : Transcript :=
  match first.result with
  | .error _ => first
  | .ok () =>
    { lines := first.lines ++ later.lines.map fun entry =>
        (entry.1, entry.2.behind first.inputs first.log)
      result := later.result
      inputs := first.inputs ++ later.inputs
      log := first.log ++ later.log }

/-- The transcript of a run that has `written` declarations behind it. -/
def transcriptFrom (settings : Settings) (written : Nat) : List Input → Transcript
  | [] => { lines := [], result := .ok (), inputs := [], log := [.finished written] }
  | input :: rest =>
    (input.transcript settings).followedBy (transcriptFrom settings (written + 1) rest)

/-- The transcript of a run. -/
def transcript (settings : Settings) (inputs : List Input) : Transcript :=
  transcriptFrom settings 0 inputs

/-! ## Runs are transcripts -/

section Runs

variable {σ : Type} [LineSink σ]

/-- What embedding reads is what the next line contributes, in front of what is read behind it. -/
theorem Source.reading_eq (stripComments : Bool) (source : Source) :
    source.reading stripComments =
      match source.readLine with
      | (.error f, left) => { kept := [], result := .error f, left }
      | (.ok none, left) => { kept := [], result := .ok (), left }
      | (.ok (some line), left) =>
        match Line.contribution stripComments line with
        | none => left.reading stripComments
        | some text =>
          { left.reading stripComments with
            kept := (text, left) :: (left.reading stripComments).kept } := by
  rw [Source.reading]
  split <;> rename_i h <;> simp only [h]

/-- Embedding goes on behind a line with what the line left. -/
theorem embedLines_eq_step (settings : Settings) (name : List Char) (fragments : Nat)
    (source : Source) (sink : σ) :
    embedLines settings name fragments source sink =
      match source.readLine with
      | (.error f, left) => (.error (.read name f), left, sink)
      | (.ok none, left) => (.ok fragments, left, sink)
      | (.ok (some line), left) =>
        match embedLine settings name fragments line sink with
        | (.error e, sink) => (.error e, left, sink)
        | (.ok fragments, sink) => embedLines settings name fragments left sink := by
  rw [embedLines]
  split
  next f left h => rw [h]
  next left h => rw [h]
  next line left h =>
    rcases hline : embedLine settings name fragments line sink with ⟨e | fragments, sink⟩ <;>
      simp only [h, hline]

/-- The fragments of a source are handed over as they are read. -/
theorem embedLines_eq_putEach (settings : Settings) (name : List Char) (fragments : Nat)
    (source : Source) (sink : σ) :
    embedLines settings name fragments source sink =
      match putEach (source.reading settings.stripComments).fragments sink with
      | (some (f, left), sink) => (.error (.write name f), left, sink)
      | (none, sink) =>
        (match (source.reading settings.stripComments).result with
          | .error f => .error (.read name f)
          | .ok () => .ok (fragments + (source.reading settings.stripComments).kept.length),
        (source.reading settings.stripComments).left, sink) := by
  -- by induction on what the source still has to give: a line that was read leaves less
  induction hn : source.size using Nat.strongRecOn generalizing source fragments sink with
  | _ n ih =>
    rw [embedLines_eq_step, Source.reading_eq]
    rcases hread : source.readLine with ⟨f | _ | line, left⟩
    · rfl
    · rfl
    · have hsmaller : left.size < n := hn ▸ Source.size_lt_of_readLine hread
      simp only [embedLine]
      cases hline : Line.contribution settings.stripComments line with
      -- a line that contributes nothing is read, and nothing is handed over
      | none => exact ih _ hsmaller _ _ _ rfl
      | some text =>
        simp only [Source.Reading.fragments, List.map_cons, putEach]
        rcases hput : putLine (Declaration.fragmentLine text) sink with ⟨f | _, sink⟩
        · rfl
        · simp only
          rw [ih _ hsmaller _ _ _ rfl]
          simp only [Source.Reading.fragments, List.length_cons, Nat.add_assoc, Nat.add_comm 1]

/-- The run on one input is its transcript, played into the sink. -/
theorem embedInput_eq_play (settings : Settings) (input : Input) (sink : σ) :
    embedInput settings input sink = (input.transcript settings).play sink := by
  simp only [embedInput, embedDeclaration, Input.transcript, embedLines_eq_putEach]
  generalize input.source.reading settings.stripComments = reading
  rcases hheader : putLine (Declaration.header settings.pointerType
    (Identifier.ofName settings.lead input.name)) sink with ⟨f | _, opened⟩
  -- the sink refuses the header, and nothing has been read
  · cases reading.result <;> simp only [Transcript.play, List.cons_append, putEach, hheader] <;> rfl
  · rcases hbody : putEach reading.fragments opened with ⟨_ | ⟨f, left⟩, written⟩
    -- the sink takes all fragments: the end depends on how reading ended
    · cases reading.result with
      | error f =>
        simp only [Transcript.play, putEach, hheader, putEach_map, hbody, Option.map_none]
        rfl
      | ok =>
        rcases hclosing : putLine Declaration.closing written with ⟨f | _, closed⟩ <;>
          simp only [Transcript.play, List.cons_append, putEach, putEach_append, putEach_map,
            hheader, hbody, hclosing, Option.map_none, Nat.zero_add] <;> rfl
    -- the sink refuses a fragment, and nothing is read behind its line
    · cases reading.result <;>
        simp only [Transcript.play, List.cons_append, putEach, putEach_append, putEach_map,
          hheader, hbody, Option.map_some] <;> rfl

/-- Where a transcript succeeds, a run goes on with the next. -/
theorem play_followedBy (first later : Transcript) (sink : σ) :
    (first.followedBy later).play sink =
      match (first.play sink).result with
      | .error _ => first.play sink
      | .ok () =>
        { later.play (first.play sink).sink with
          inputs := (first.play sink).inputs ++ (later.play (first.play sink).sink).inputs
          log := (first.play sink).log ++ (later.play (first.play sink).sink).log } := by
  -- the later lines are only handed over if the first ones are taken and the first one succeeds
  unfold Transcript.followedBy
  cases hresult : first.result with
  | error e => rcases hput : putEach first.lines sink with ⟨_ | ⟨f, moment⟩, left⟩ <;>
      simp only [Transcript.play, hput, hresult]
  | ok =>
    rcases hput : putEach first.lines sink with ⟨_ | ⟨f, moment⟩, left⟩
    · simp only [Transcript.play, putEach_append, putEach_map, hput, hresult]
      rcases putEach later.lines left with ⟨_ | ⟨f, moment⟩, last⟩ <;> rfl
    · simp only [Transcript.play, putEach_append, hput]

/-- A run from some declaration on is its transcript, played into the sink. -/
theorem embedEach_eq_play (settings : Settings) (written : Nat) (inputs : List Input) (sink : σ) :
    embedEach (embedInput settings) written inputs sink =
      (transcriptFrom settings written inputs).play sink := by
  induction inputs generalizing written sink with
  | nil => rfl
  | cons input rest ih =>
    rw [embedEach, transcriptFrom, play_followedBy, ← embedInput_eq_play]
    cases (embedInput settings input sink).result <;> simp only [ih]

/-- A run is its transcript, played into the sink. -/
theorem embed_eq_play (settings : Settings) (inputs : List Input) (sink : σ) :
    embed settings inputs sink = (transcript settings inputs).play sink :=
  embedEach_eq_play settings 0 inputs sink

end Runs

/-! ## How transcripts begin and end -/

/-- The first line of a declaration is its header, whatever becomes of the declaration. -/
theorem exists_lines_transcript_eq_cons (settings : Settings) (input : Input) :
    ∃ rest, (input.transcript settings).lines =
      (Declaration.header settings.pointerType (Identifier.ofName settings.lead input.name),
        input.moment settings input.source) :: rest := by
  simp only [Input.transcript]
  cases (input.source.reading settings.stripComments).result with
  | error f => exact ⟨_, rfl⟩
  | ok => exact ⟨_, List.cons_append⟩

/-- Only reading can make a run fail whose sink takes every line, and the error names an input. -/
theorem result_transcriptFrom_eq_error {settings : Settings} {written : Nat} {inputs : List Input}
    {e : RunError} (h : (transcriptFrom settings written inputs).result = .error e) :
    ∃ input ∈ inputs, ∃ f, e = .read input.name f := by
  induction inputs generalizing written with
  | nil => cases h
  | cons input rest ih =>
    rw [transcriptFrom, Transcript.followedBy] at h
    split at h
    -- the first input fails as its source does
    next failure hfirst =>
      rw [hfirst] at h
      obtain rfl := Except.error.inj h
      unfold Input.transcript at hfirst
      cases hread : (input.source.reading settings.stripComments).result with
      | error f =>
        simp only [hread, Except.error.injEq] at hfirst
        exact ⟨input, List.mem_cons_self, f, hfirst.symm⟩
      | ok => simp [hread] at hfirst
    next =>
      obtain ⟨found, hfound, f, he⟩ := ih h
      exact ⟨found, List.mem_cons_of_mem _ hfound, f, he⟩

/-! ## Where lines lie -/

/-- Every line of the declaration of an input is handed over at a moment of that declaration. -/
theorem exists_moment_of_mem_transcript {settings : Settings} {input : Input}
    {entry : List Char × Moment} (h : entry ∈ (input.transcript settings).lines) :
    ∃ source, entry.2 = input.moment settings source := by
  -- the moments of a declaration differ in what is left of its source only
  unfold Input.transcript at h
  cases hresult : (input.source.reading settings.stripComments).result <;>
    simp only [hresult, List.mem_append, List.mem_cons, List.mem_map, List.not_mem_nil,
      or_false] at h
  · rcases h with rfl | ⟨kept, -, rfl⟩
    · exact ⟨_, rfl⟩
    · exact ⟨_, rfl⟩
  · rcases h with (rfl | ⟨kept, -, rfl⟩) | rfl
    · exact ⟨_, rfl⟩
    · exact ⟨_, rfl⟩
    · exact ⟨_, rfl⟩

/-- Every line of the declaration of an input is handed over under its name, and no other input is
begun by then. -/
theorem of_mem_transcript {settings : Settings} {input : Input} {entry : List Char × Moment}
    (h : entry ∈ (input.transcript settings).lines) :
    entry.2.name = input.name ∧ entry.2.inputs.length = 1 := by
  obtain ⟨source, hsource⟩ := exists_moment_of_mem_transcript h
  rw [hsource]
  exact ⟨rfl, rfl⟩

theorem lines_transcriptFrom_of_error {settings : Settings} {input : Input} {e : RunError}
    (h : (input.transcript settings).result = .error e) (written : Nat) (rest : List Input) :
    (transcriptFrom settings written (input :: rest)).lines =
      (input.transcript settings).lines := by
  simp only [transcriptFrom, Transcript.followedBy, h]

/-- If the first input succeeds then its lines stand in front of those of the others. -/
theorem lines_transcriptFrom_of_ok {settings : Settings} {input : Input}
    (h : (input.transcript settings).result = .ok ()) (written : Nat) (rest : List Input) :
    (transcriptFrom settings written (input :: rest)).lines =
      (input.transcript settings).lines ++
        (transcriptFrom settings (written + 1) rest).lines.map fun entry =>
          (entry.1, entry.2.behind (input.transcript settings).inputs
            (input.transcript settings).log) := by
  simp only [transcriptFrom, Transcript.followedBy, h]

theorem lines_transcriptFrom_singleton (settings : Settings) (written : Nat) (input : Input) :
    (transcriptFrom settings written [input]).lines = (input.transcript settings).lines := by
  cases h : (input.transcript settings).result with
  | error e => exact lines_transcriptFrom_of_error h written []
  | ok =>
    rw [lines_transcriptFrom_of_ok h]
    simp [transcriptFrom]

theorem length_inputs_transcript (settings : Settings) (input : Input) :
    (input.transcript settings).inputs.length = 1 := rfl

/-- The line `line` is handed over at `moment` in the declaration of the input number `i`: behind
all lines of the inputs in front of it, and not behind all lines of the inputs up to it. -/
def LiesIn (settings : Settings) (written : Nat) (inputs : List Input)
    (before : List (List Char × Moment)) (line : List Char) (moment : Moment) (i : Nat) : Prop :=
  ∃ input, inputs[i]? = some input ∧ moment.name = input.name ∧ moment.inputs.length = i + 1 ∧
    (transcriptFrom settings written (inputs.take i)).lines <+: before ∧
    before ++ [(line, moment)] <+: (transcriptFrom settings written (inputs.take (i + 1))).lines

/-- A line of the first input lies in its declaration. -/
theorem liesIn_zero {settings : Settings} {input : Input}
    {before after : List (List Char × Moment)} {line : List Char} {moment : Moment}
    (h : (input.transcript settings).lines = before ++ (line, moment) :: after) (written : Nat)
    (rest : List Input) : LiesIn settings written (input :: rest) before line moment 0 := by
  have hmem : (line, moment) ∈ (input.transcript settings).lines := by simp [h]
  refine ⟨input, rfl, (of_mem_transcript hmem).1, (of_mem_transcript hmem).2, ?_, ?_⟩
  · exact List.nil_prefix
  · rw [List.take_succ_cons, List.take_zero, lines_transcriptFrom_singleton, h]
    exact ⟨after, by simp⟩

/-- A line of a later input lies where it lies among the later inputs. -/
theorem liesIn_succ {settings : Settings} {written : Nat} {input : Input} {rest : List Input}
    (hok : (input.transcript settings).result = .ok ()) {before : List (List Char × Moment)}
    {line : List Char} {moment : Moment} {i : Nat}
    (h : LiesIn settings (written + 1) rest before line moment i) :
    let behind := fun entry : List Char × Moment =>
      (entry.1, entry.2.behind (input.transcript settings).inputs (input.transcript settings).log)
    LiesIn settings written (input :: rest)
      ((input.transcript settings).lines ++ before.map behind) line (behind (line, moment)).2
      (i + 1) := by
  intro behind
  obtain ⟨found, hfound, hname, hlength, hbefore, hupto⟩ := h
  refine ⟨found, by simpa using hfound, hname, ?_, ?_, ?_⟩
  · simp only [behind, Moment.behind, List.length_append, hlength, length_inputs_transcript]
    omega
  · rw [List.take_succ_cons, lines_transcriptFrom_of_ok hok]
    exact (List.prefix_append_right_inj _).mpr (hbefore.map behind)
  · rw [List.take_succ_cons, lines_transcriptFrom_of_ok hok, List.append_assoc]
    refine (List.prefix_append_right_inj _).mpr ?_
    simpa using hupto.map behind

/-- A line of a run lies in the declaration of the last input that is begun by then. -/
theorem exists_liesIn (settings : Settings) (written : Nat) (inputs : List Input)
    {before after : List (List Char × Moment)} {line : List Char} {moment : Moment}
    (h : (transcriptFrom settings written inputs).lines = before ++ (line, moment) :: after) :
    ∃ i, LiesIn settings written inputs before line moment i := by
  induction inputs generalizing written before after moment with
  | nil => simp [transcriptFrom] at h
  | cons input rest ih =>
    cases hresult : (input.transcript settings).result with
    -- if the first input fails then all lines are in its declaration
    | error e =>
      rw [lines_transcriptFrom_of_error hresult] at h
      exact ⟨0, liesIn_zero h written rest⟩
    | ok =>
      rw [lines_transcriptFrom_of_ok hresult] at h
      -- a line behind those of the first input is one of the run on the others
      have hlater : ∀ between, before = (input.transcript settings).lines ++ between →
          ((transcriptFrom settings (written + 1) rest).lines.map fun entry =>
            (entry.1, entry.2.behind (input.transcript settings).inputs
              (input.transcript settings).log)) = between ++ (line, moment) :: after →
          ∃ i, LiesIn settings written (input :: rest) before line moment i := by
        rintro between rfl hlines
        obtain ⟨before', tail, hrest, rfl, htail⟩ := List.map_eq_append_iff.mp hlines
        obtain ⟨entry, after', rfl, hentry, rfl⟩ := List.map_eq_cons_iff.mp htail
        obtain ⟨rfl, rfl⟩ := Prod.mk.inj hentry
        obtain ⟨i, hi⟩ := ih (written + 1) hrest
        exact ⟨i + 1, liesIn_succ hresult hi⟩
      rcases List.append_eq_append_iff.mp h with
        ⟨between, hbefore, hrest⟩ | ⟨between, hfirst, hrest⟩
      · exact hlater between hbefore hrest
      · cases between with
        | nil => exact hlater [] (by simpa using hfirst.symm) (by simpa using hrest.symm)
        | cons entry between =>
          obtain ⟨rfl, -⟩ := List.cons.inj hrest
          exact ⟨0, liesIn_zero hfirst written rest⟩

end TextEmbed
