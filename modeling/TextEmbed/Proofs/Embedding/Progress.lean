import TextEmbed.Proofs.Embedding.Transcript
import TextEmbed.Proofs.Source.Progress

/-!
# Embedding comes to an end

Embedding reads on only behind a line, and no line is empty. So it takes no more calls than its
source has bytes, and one that finds the end, or fails.

## Main definitions

* `embedLinesWithin`: embedding with a bound on the calls that it reads with.

## Main results

* `embedLinesWithin_eq_some`: a call for each byte is enough, and one more;
* `reading_progresses`: how much it takes to read a line, a source, and a declaration.
-/

namespace TextEmbed

/-- A line that is read is not empty. -/
theorem Source.length_unread_lt_of_readLine {source left : Source} {line : List Char}
    (h : source.readLine = (.ok (some line), left)) :
    left.unread.length < source.unread.length := by
  obtain ⟨segment, hsegment⟩ := source.exists_segment
  rw [h] at hsegment
  have hunread : source.unread = segment ++ left.unread := hsegment.unread
  obtain ⟨_, -, -, -, -, hne, -⟩ := hsegment
  have hpos : 0 < segment.length := List.length_pos_iff.mpr hne
  rw [hunread, List.length_append]
  omega

section

variable {σ : Type} [LineSink σ]

/-- Writes the fragments of the lines that `source` still has, reading with at most `calls` calls.
There is no result if these are not enough. -/
def embedLinesWithin (settings : Settings) (name : List Char) :
    Nat → Nat → Source → σ → Option (Except RunError Nat × Source × σ)
  | 0, _, _, _ => none
  | calls + 1, fragments, source, sink =>
    match source.readLine with
    | (.error f, left) => some (.error (.read name f), left, sink)
    | (.ok none, left) => some (.ok fragments, left, sink)
    | (.ok (some line), left) =>
      match embedLine settings name fragments line sink with
      | (.error e, sink) => some (.error e, left, sink)
      | (.ok fragments, sink) => embedLinesWithin settings name calls fragments left sink

/-- A call for each byte is enough for embedding, and one more. -/
theorem embedLinesWithin_eq_some (settings : Settings) (name : List Char) {calls : Nat}
    (fragments : Nat) {source : Source} (sink : σ) (h : source.unread.length < calls) :
    embedLinesWithin settings name calls fragments source sink =
      some (embedLines settings name fragments source sink) := by
  -- by induction on the calls: each line that is read takes a byte at least from what is left
  induction calls generalizing fragments source sink with
  | zero => exact absurd h (Nat.not_lt_zero _)
  | succ calls ih =>
    rw [embedLinesWithin, embedLines_eq_step]
    rcases hread : source.readLine with ⟨f | _ | line, left⟩
    · rfl
    · rfl
    · have hless := Source.length_unread_lt_of_readLine hread
      rcases hline : embedLine settings name fragments line sink with ⟨e | fragments, sink⟩
      · simp only [hline]
      · simp only [hline]
        exact ih fragments sink (by omega)

end

/-- Reading makes progress. A call ends within as many turns of its loop as the source has fills,
and one more. A call that doesn't return the end uses up a byte or a fault. So the end is among the
results of as many calls as there are bytes and faults, and one more, if one reads on behind faults.
And a declaration needs no more calls than its source has bytes, and one more, whatever the sink is
like. -/
theorem reading_progresses (source : Source) :
    Source.readLineWithin (source.length + 1) source = some source.readLine ∧
    (∃ usedBytes usedFaults, source.unread = usedBytes ++ source.readLine.2.unread ∧
      source.faults = usedFaults ++ source.readLine.2.faults ∧
      (source.readLine.1 = .ok none ∨ usedBytes ≠ [] ∨ usedFaults ≠ [])) ∧
    (∃ results, .ok none ∉ results ∧
      results.length ≤ source.unread.length + source.faults.length ∧
      (Source.readLines (results.length + 1) source).1 = results ++ [.ok none]) ∧
    ∀ (σ : Type) [LineSink σ] (settings : Settings) (name : List Char),
      ∃ body : σ → Except RunError Nat × Source × σ,
        (∀ sink, embedLinesWithin settings name (source.unread.length + 1) 0 source sink =
          some (body sink)) ∧
        ∀ sink, embedInput settings { name, source } sink =
          embedDeclaration settings { name, source } body sink := by
  refine ⟨source.readLineWithin_eq_some, source.exists_used_readLine,
    source.exists_results_until_end, ?_⟩
  intro σ _ settings name
  refine ⟨embedLines settings name 0 source, ?_, fun sink => rfl⟩
  intro sink
  exact embedLinesWithin_eq_some settings name 0 sink (Nat.lt_succ_self _)

end TextEmbed
