import TextEmbed.Declaration
import TextEmbed.Failure
import TextEmbed.Line.Contribution
import TextEmbed.Log
import TextEmbed.Sink
import TextEmbed.Source

/-!
# Embedding

`embed` turns inputs into declarations, line by line: what a line of a source contributes is written
before the next line is read. The first error ends the run: no further input is begun. Everything
that was written until then stays in the sink, and a source stands where its last line ended.
-/

namespace TextEmbed

/-- A source and the name that its declaration is derived from. -/
structure Input where
  /-- The base name of the file. -/
  name : List Char
  /-- What is left to read. -/
  source : Source

/-- What a run leaves behind. -/
structure Ending (σ : Type) where
  /-- Whether it succeeded. -/
  result : Except RunError Unit
  /-- The inputs that were begun, in order, with what is left of their sources. -/
  inputs : List Input
  /-- The sink with what was written. -/
  sink : σ
  /-- The events of the run in order. -/
  log : List LogEvent

/-- Handles `items` in order, each with `step`, behind `written` earlier declarations. -/
def embedEach {α σ : Type} (step : α → σ → Ending σ) (written : Nat) (items : List α) (sink : σ) :
    Ending σ :=
  match items with
  | [] => { result := .ok (), inputs := [], sink, log := [.finished written] }
  | item :: rest =>
    let first := step item sink
    match first.result with
    | .error _ => first
    | .ok () =>
      let later := embedEach step (written + 1) rest first.sink
      { later with inputs := first.inputs ++ later.inputs, log := first.log ++ later.log }

/-- Items can be turned into what `step` handles beforehand. -/
theorem embedEach_map {α β σ : Type} (step : β → σ → Ending σ) (f : α → β) (written : Nat)
    (items : List α) (sink : σ) :
    embedEach step written (items.map f) sink =
      embedEach (fun item => step (f item)) written items sink := by
  induction items generalizing written sink with
  | nil => rfl
  | cons item rest ih => simp only [List.map_cons, embedEach, ih]

variable {σ : Type} [LineSink σ]

/-- Writes what a line contributes, behind `fragments` earlier fragments, which the result counts as
well. -/
def embedLine (settings : Settings) (name : List Char) (fragments : Nat) (line : List Char)
    (sink : σ) : Except RunError Nat × σ :=
  match Line.contribution settings.stripComments line with
  | none => (.ok fragments, sink)
  | some text =>
    match putLine (Declaration.fragmentLine text) sink with
    | (.error f, sink) => (.error (.write name f), sink)
    | (.ok (), sink) => (.ok (fragments + 1), sink)

/-- Writes the fragments of the lines that `source` still has. The result counts them, starting from
`fragments`. -/
def embedLines (settings : Settings) (name : List Char) (fragments : Nat) (source : Source)
    (sink : σ) : Except RunError Nat × Source × σ :=
  match _h : source.readLine with
  | (.error f, left) => (.error (.read name f), left, sink)
  | (.ok none, left) => (.ok fragments, left, sink)
  | (.ok (some line), left) =>
    match embedLine settings name fragments line sink with
    | (.error e, sink) => (.error e, left, sink)
    | (.ok fragments, sink) => embedLines settings name fragments left sink
termination_by source.size
decreasing_by exact Source.size_lt_of_readLine ‹_›

/-- Writes the declaration of one input, whose fragments `body` writes and counts. -/
def embedDeclaration (settings : Settings) (input : Input)
    (body : σ → Except RunError Nat × Source × σ) (sink : σ) : Ending σ :=
  let identifier := Identifier.ofName settings.lead input.name
  let begun := LogEvent.embedding input.name identifier
  match putLine (Declaration.header settings.pointerType identifier) sink with
  | (.error f, sink) =>
    { result := .error (.write input.name f), inputs := [input], sink, log := [begun] }
  | (.ok (), sink) =>
    match body sink with
    | (.error e, source, sink) =>
      { result := .error e, inputs := [{ input with source }], sink, log := [begun] }
    | (.ok fragments, source, sink) =>
      match putLine Declaration.closing sink with
      | (.error f, sink) =>
        { result := .error (.write input.name f), inputs := [{ input with source }], sink,
          log := [begun] }
      | (.ok (), sink) =>
        { result := .ok (), inputs := [{ input with source }], sink,
          log := [begun, .embedded identifier fragments] }

/-- Writes the declaration of one input. -/
def embedInput (settings : Settings) (input : Input) (sink : σ) : Ending σ :=
  embedDeclaration settings input (embedLines settings input.name 0 input.source) sink

/-- Writes one declaration per input, in order. -/
def embed (settings : Settings) (inputs : List Input) (sink : σ) : Ending σ :=
  embedEach (embedInput settings) 0 inputs sink

end TextEmbed
