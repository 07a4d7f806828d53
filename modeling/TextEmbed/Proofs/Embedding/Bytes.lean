import TextEmbed.Proofs.Embedding.Transcript
import TextEmbed.Proofs.Sink.Bytes

/-!
# Bytes of runs

The lines of a run as bytes. A byte sink takes the bytes of the lines in order, as many as there is
room for, and a sink that takes every line holds all of them.

## Main definitions

* `bytesOf`: the bytes of some lines.

## Main results

* `ByteSink.putEach_eq_none` and `ByteSink.putEach_eq_some`: what a byte sink takes of some lines;
* `ByteSink.eq_extend_of_putEach_eq_none` and `ByteSink.exists_of_putEach_eq_some`: a sink holds
  some lines if it takes them, and not all of them if it doesn't, whatever it is like;
* `embed_eq_of_limit_eq_none`: runs into sinks without a limit.
-/

namespace TextEmbed

/-- The bytes of some lines. -/
def bytesOf {α : Type} (entries : List (List Char × α)) : List UInt8 :=
  entries.flatMap fun entry => ByteSink.lineBytes entry.1

@[simp]
theorem bytesOf_nil {α : Type} : bytesOf ([] : List (List Char × α)) = [] := rfl

@[simp]
theorem bytesOf_cons {α : Type} (line : List Char) (mark : α) (entries : List (List Char × α)) :
    bytesOf ((line, mark) :: entries) = ByteSink.lineBytes line ++ bytesOf entries := rfl

@[simp]
theorem bytesOf_append {α : Type} (first second : List (List Char × α)) :
    bytesOf (first ++ second) = bytesOf first ++ bytesOf second :=
  List.flatMap_append

/-- The bytes of some lines are those of the lines as one text. -/
theorem bytesOf_eq_encode {α : Type} (entries : List (List Char × α)) :
    bytesOf entries = Utf8.encode ((entries.map Prod.fst).flatMap (· ++ ['\n'])) := by
  induction entries with
  | nil => rfl
  | cons entry entries ih =>
    rw [bytesOf_cons, ih, List.map_cons, List.flatMap_cons, Utf8.encode_append, ByteSink.lineBytes]

theorem length_bytesOf_le {α : Type} {first second : List (List Char × α)}
    (h : first <+: second) : (bytesOf first).length ≤ (bytesOf second).length := by
  obtain ⟨rest, rfl⟩ := h
  simp

/-- A run that has inputs puts something out. -/
theorem bytesOf_transcript_ne_nil (settings : Settings) {inputs : List Input} (h : inputs ≠ []) :
    bytesOf (transcript settings inputs).lines ≠ [] := by
  obtain ⟨input, rest, rfl⟩ := List.exists_cons_of_ne_nil h
  obtain ⟨line, moment, later, hlines⟩ : ∃ line moment later,
      (transcript settings (input :: rest)).lines = (line, moment) :: later := by
    obtain ⟨later, hfirst⟩ := exists_lines_transcript_eq_cons settings input
    cases hresult : (input.transcript settings).result with
    | error e => exact ⟨_, _, later, by
        rw [transcript, lines_transcriptFrom_of_error hresult, hfirst]⟩
    | ok => exact ⟨_, _, _, by
        rw [transcript, lines_transcriptFrom_of_ok hresult, hfirst, List.cons_append]⟩
  have hlength := ByteSink.length_lineBytes line
  rw [hlines, bytesOf_cons]
  apply List.ne_nil_of_length_pos
  rw [List.length_append]
  omega

namespace ByteSink

/-- Lines that there is room for are all taken. -/
theorem putEach_eq_none {α : Type} {sink : ByteSink} (hstep : sink.step ≠ some 0)
    {entries : List (List Char × α)} (h : sink.Fits (bytesOf entries)) :
    putEach entries sink = (none, sink.extend (bytesOf entries)) := by
  induction entries generalizing sink with
  | nil => simp [putEach]
  | cons entry entries ih =>
    obtain ⟨line, mark⟩ := entry
    have hstep' : (sink.extend (lineBytes line)).step ≠ some 0 := hstep
    obtain ⟨hline, hentries⟩ := fits_append.mp h
    rw [bytesOf_cons, ← extend_extend, ← ih hstep' hentries, putEach, putLine_eq_ok hstep hline]

/-- Of lines that there is no room for the sink takes as many bytes as there is room for. The line
that is refused is the one with the first byte that isn't taken. -/
theorem putEach_eq_some {α : Type} {sink : ByteSink} (hstep : sink.step ≠ some 0) {room : Nat}
    (hroom : sink.room? = some room) {entries : List (List Char × α)}
    (h : room < (bytesOf entries).length) :
    ∃ before line mark after, entries = before ++ (line, mark) :: after ∧
      (bytesOf before).length ≤ room ∧
      room < (bytesOf before).length + (lineBytes line).length ∧
      putEach entries sink =
        (some (sink.fault, mark), sink.extend ((bytesOf entries).take room)) := by
  induction entries generalizing sink room with
  | nil => simp at h
  | cons entry entries ih =>
    obtain ⟨line, mark⟩ := entry
    -- the first line that there is no room for is refused, and nothing is handed over behind it
    by_cases hline : room < (lineBytes line).length
    · refine ⟨[], line, mark, entries, rfl, Nat.zero_le _, by simpa using hline, ?_⟩
      simp only [putEach, putLine_eq_error hstep hroom hline, bytesOf_cons,
        List.take_append_of_le_length (Nat.le_of_lt hline)]
    -- the first line is taken, and the others have the rest of the room
    · rw [Nat.not_lt] at hline
      have hfits : sink.Fits (lineBytes line) := fits_of_room? hroom hline
      have hstep' : (sink.extend (lineBytes line)).step ≠ some 0 := hstep
      have hleft := room?_extend_of_room? hroom (lineBytes line)
      rw [bytesOf_cons, List.length_append] at h
      obtain ⟨before, found, there, after, rfl, hle, hlt, hput⟩ := ih hstep' hleft (by omega)
      refine ⟨(line, mark) :: before, found, there, after, rfl, ?_, ?_, ?_⟩
      · rw [bytesOf_cons, List.length_append]
        omega
      · rw [bytesOf_cons, List.length_append]
        omega
      · simp only [putEach, putLine_eq_ok hstep hfits, hput, extend_extend, fault_extend]
        rw [bytesOf_cons, List.take_append, List.take_of_length_le hline]

/-- Whatever a sink is like, if it takes some lines then it holds them. -/
theorem eq_extend_of_putEach_eq_none {α : Type} {sink left : ByteSink}
    {entries : List (List Char × α)} (h : putEach entries sink = (none, left)) :
    left = sink.extend (bytesOf entries) := by
  induction entries generalizing sink with
  | nil => simpa [putEach] using h.symm
  | cons entry entries ih =>
    rw [putEach] at h
    split at h
    next f next hput => simp at h
    next next hput =>
      rw [ih h, eq_extend_of_putLine_eq_ok hput, extend_extend, bytesOf_cons]

/-- Whatever a sink is like, if it refuses one of some lines then it doesn't hold all of them. -/
theorem exists_of_putEach_eq_some {α : Type} {sink left : ByteSink} {entries : List (List Char × α)}
    {refused : Fault × α} (h : putEach entries sink = (some refused, left)) :
    ∃ taken rest, bytesOf entries = taken ++ rest ∧ rest ≠ [] ∧ left = sink.extend taken := by
  induction entries generalizing sink with
  | nil => simp [putEach] at h
  | cons entry entries ih =>
    rw [putEach] at h
    rw [bytesOf_cons]
    split at h
    next f next hput =>
      obtain ⟨taken, rest, hline, hrest, rfl⟩ := exists_of_putLine_eq_error hput
      obtain rfl := (Prod.mk.inj h).2
      exact ⟨taken, rest ++ bytesOf entries, by rw [hline, List.append_assoc],
        List.append_ne_nil_of_left_ne_nil hrest _, rfl⟩
    next next hput =>
      obtain ⟨taken, rest, hentries, hrest, rfl⟩ := ih h
      refine ⟨_, rest, by rw [hentries, List.append_assoc], hrest, ?_⟩
      rw [eq_extend_of_putLine_eq_ok hput, extend_extend]

end ByteSink

/-! ## Runs that nothing stops -/

/-- The ending of a run whose sink takes every line. -/
def Transcript.ending {σ : Type} (transcript : Transcript) (sink : σ) : Ending σ :=
  { result := transcript.result, inputs := transcript.inputs, sink, log := transcript.log }

/-- A transcript whose lines the sink has room for. -/
theorem Transcript.play_eq_ending {transcript : Transcript} {sink : ByteSink}
    (hstep : sink.step ≠ some 0) (h : sink.Fits (bytesOf transcript.lines)) :
    transcript.play sink = transcript.ending (sink.extend (bytesOf transcript.lines)) := by
  rw [play, ByteSink.putEach_eq_none hstep h, ending]

/-- A run whose sink has room for all lines. -/
theorem embed_eq_of_fits {settings : Settings} {inputs : List Input} {sink : ByteSink}
    (hstep : sink.step ≠ some 0) (h : sink.Fits (bytesOf (transcript settings inputs).lines)) :
    embed settings inputs sink =
      (transcript settings inputs).ending
        (sink.extend (bytesOf (transcript settings inputs).lines)) := by
  rw [embed_eq_play, Transcript.play_eq_ending hstep h]

/-- A run into a sink without a limit. -/
theorem embed_eq_of_limit_eq_none (settings : Settings) (inputs : List Input) {sink : ByteSink}
    (hlimit : sink.limit = none) (hstep : sink.step ≠ some 0) :
    embed settings inputs sink =
      (transcript settings inputs).ending
        (sink.extend (bytesOf (transcript settings inputs).lines)) :=
  embed_eq_of_fits hstep (ByteSink.fits_of_limit_eq_none hlimit _)

/-- What a run writes into a sink without a limit. -/
theorem toList_written_embed (settings : Settings) (inputs : List Input) :
    (embed settings inputs ({} : ByteSink)).sink.written.toList =
      bytesOf (transcript settings inputs).lines := by
  rw [embed_eq_of_limit_eq_none settings inputs rfl (by simp)]
  simp [Transcript.ending]

/-- How a run into a sink without a limit ends. -/
theorem result_embed_eq_transcript (settings : Settings) (inputs : List Input) :
    (embed settings inputs ({} : ByteSink)).result = (transcript settings inputs).result := by
  rw [embed_eq_of_limit_eq_none settings inputs rfl (by simp), Transcript.ending]

theorem size_written_embed (settings : Settings) (inputs : List Input) :
    (embed settings inputs ({} : ByteSink)).sink.written.size =
      (bytesOf (transcript settings inputs).lines).length := by
  rw [← toList_written_embed, Array.length_toList]

end TextEmbed
