import TextEmbed.Proofs.Embedding.Bytes
import TextEmbed.Proofs.Utf8.RoundTrip
import TextEmbed.Sink.Lines

/-!
# Runs into bounded sinks

A sink that stops taking output cuts a run at one point and changes nothing in front of it. The sink
holds as much of the output as it takes, the run fails in the declaration that the first missing
byte belongs to, and nothing is read behind the line of that byte.

## Main definitions

* `ByteSink.StopsAt`: byte sinks that take a number of bytes and no more;
* `Transcript.HandsOverByte`: the moment at which a byte of the output is handed over;
* `Ending.IsCut`: endings of runs that fail at a moment.

## Main results

* `LineLog.putEach_eq`: what a line sink takes of some lines;
* `embed_cut`: runs into bounded sinks, of bytes and of lines.
-/

namespace TextEmbed

namespace ByteSink

/-- A sink that takes `room` bytes in all, and some of them at a time, and then fails for good. A
write that fails because it was interrupted would be tried again without end. -/
structure StopsAt (room : Nat) (sink : ByteSink) : Prop where
  /-- The sink takes `room` bytes in all. -/
  limit : sink.limit = some room
  /-- A write takes some bytes as long as there is room. -/
  step : sink.step ≠ some 0
  /-- The failure is not one to try again. -/
  refusal : ∀ f ∈ sink.refusal, f.kind ≠ .interrupted
  /-- Nothing has been taken yet. -/
  written : sink.written = #[]

theorem StopsAt.room? {room : Nat} {sink : ByteSink} (h : sink.StopsAt room) :
    sink.room? = some room := by
  simp [ByteSink.room?, h.limit, h.written]

end ByteSink

namespace LineLog

/-- The sink behind some more lines. -/
def extend (lines : List (List Char)) (sink : LineLog) : LineLog :=
  { sink with lines := sink.lines ++ lines }

/-- Of some lines a line sink takes as many as it takes before it refuses one. -/
theorem putEach_eq {α : Type} {sink : LineLog} {room : Nat}
    (hroom : sink.lines.size + room = sink.refusesAt) (entries : List (List Char × α)) :
    putEach entries sink =
      (entries[room]?.map fun entry => (sink.refusal, entry.2),
        sink.extend ((entries.take room).map Prod.fst)) := by
  induction entries generalizing sink room with
  | nil => simp [putEach, extend]
  | cons entry entries ih =>
    obtain ⟨line, mark⟩ := entry
    cases room with
    | zero =>
      have hput : putLine line sink = (.error sink.refusal, sink) := if_pos hroom
      simp [putEach, hput, extend]
    | succ room =>
      have hput : putLine line sink = (.ok (), { sink with lines := sink.lines.push line }) :=
        if_neg (by omega)
      have hroom' : ({ sink with lines := sink.lines.push line } : LineLog).lines.size + room =
          sink.refusesAt := by
        simp
        omega
      simp only [putEach, hput]
      rw [ih hroom']
      simp [extend]

theorem putEach_eq_of_empty {α : Type} (count : Nat) (refusal : Fault)
    (entries : List (List Char × α)) :
    putEach entries ({ refusesAt := count, refusal } : LineLog) =
      (entries[count]?.map fun entry => (refusal, entry.2),
        extend ((entries.take count).map Prod.fst) { refusesAt := count, refusal }) :=
  putEach_eq (Nat.zero_add count) entries

end LineLog

/-! ## Cut runs -/

/-- The byte number `n` of the output is handed over at `moment`. -/
def Transcript.HandsOverByte (transcript : Transcript) (n : Nat) (moment : Moment) : Prop :=
  ∃ before line after, transcript.lines = before ++ (line, moment) :: after ∧
    (bytesOf before).length ≤ n ∧ n < (bytesOf (before ++ [(line, moment)])).length

/-- The run on `inputs` fails at `moment`, in the declaration of the input number `i`. Its sources
are left as they are left at that moment, and the inputs behind that one have not been begun. -/
def Ending.IsCut {σ : Type} (inputs : List Input) (i : Nat) (moment : Moment) (f : Fault)
    (ending : Ending σ) : Prop :=
  ∃ input, inputs[i]? = some input ∧ ending.result = .error (.write input.name f) ∧
    ending.inputs = moment.inputs ∧ moment.inputs.length = i + 1

/-- A run that is refused a line fails in the declaration that the line lies in. -/
theorem isCut_of_liesIn {σ : Type} {settings : Settings} {inputs : List Input}
    {before : List (List Char × Moment)} {line : List Char} {moment : Moment} {i : Nat}
    (h : LiesIn settings 0 inputs before line moment i) (f : Fault) (sink : σ) :
    ({ result := .error (.write moment.name f), inputs := moment.inputs, sink, log := moment.log } :
      Ending σ).IsCut inputs i moment f := by
  obtain ⟨input, hinput, hname, hlength, -⟩ := h
  exact ⟨input, hinput, by rw [hname], rfl, hlength⟩

/-- The output of a run is cut where a byte sink stops taking it. -/
theorem embed_of_lt_length {settings : Settings} {inputs : List Input} {room : Nat}
    {sink : ByteSink} (hsink : sink.StopsAt room)
    (h : room < (bytesOf (transcript settings inputs).lines).length) :
    (embed settings inputs sink).sink.written.toList =
        (bytesOf (transcript settings inputs).lines).take room ∧
      ∃ i moment, (embed settings inputs sink).IsCut inputs i moment sink.fault ∧
        (transcript settings inputs).HandsOverByte room moment ∧
        (bytesOf (transcript settings (inputs.take i)).lines).length ≤ room ∧
        room < (bytesOf (transcript settings (inputs.take (i + 1))).lines).length := by
  obtain ⟨before, line, moment, after, hlines, hle, hlt, hput⟩ :=
    ByteSink.putEach_eq_some hsink.step hsink.room? h
  -- the byte number `room` is one of the line that is refused, which lies in one declaration
  obtain ⟨i, hi⟩ := exists_liesIn settings 0 inputs hlines
  have hbyte : room < (bytesOf (before ++ [(line, moment)])).length := by
    simpa using hlt
  rw [embed_eq_play, Transcript.play, hput]
  refine ⟨by simp [hsink.written], i, moment, isCut_of_liesIn hi _ _,
    ⟨before, line, after, hlines, hle, hbyte⟩, ?_, ?_⟩
  · obtain ⟨-, -, -, -, hbefore, -⟩ := hi
    exact Nat.le_trans (length_bytesOf_le hbefore) hle
  · obtain ⟨-, -, -, -, -, hupto⟩ := hi
    exact Nat.lt_of_lt_of_le hbyte (length_bytesOf_le hupto)

/-- The lines of a run are cut where a line sink refuses one. -/
theorem embed_of_lt_length_lines {settings : Settings} {inputs : List Input} {count : Nat}
    (refusal : Fault) (h : count < (transcript settings inputs).lines.length) :
    let ending := embed settings inputs ({ refusesAt := count, refusal } : LineLog)
    ending.sink.lines.toList = ((transcript settings inputs).lines.take count).map Prod.fst ∧
      ∃ i line moment, ending.IsCut inputs i moment refusal ∧
        (transcript settings inputs).lines[count]? = some (line, moment) ∧
        (transcript settings (inputs.take i)).lines.length ≤ count ∧
        count < (transcript settings (inputs.take (i + 1))).lines.length := by
  intro ending
  -- the line number `count` is refused: the lines before it are the ones the sink holds
  rcases hentry : (transcript settings inputs).lines[count] with ⟨line, moment⟩
  have hlines : (transcript settings inputs).lines =
      (transcript settings inputs).lines.take count ++
        (line, moment) :: (transcript settings inputs).lines.drop (count + 1) := by
    rw [← hentry, ← List.drop_eq_getElem_cons h, List.take_append_drop]
  have hat : (transcript settings inputs).lines[count]? = some (line, moment) :=
    List.getElem?_eq_some_iff.mpr ⟨h, hentry⟩
  obtain ⟨i, hi⟩ := exists_liesIn settings 0 inputs hlines
  have hending : ending =
      { result := .error (.write moment.name refusal), inputs := moment.inputs, log := moment.log
        sink := LineLog.extend (((transcript settings inputs).lines.take count).map Prod.fst)
          { refusesAt := count, refusal } } := by
    simp only [ending, embed_eq_play, Transcript.play, LineLog.putEach_eq_of_empty, hat,
      Option.map_some]
  have hcut : ending.IsCut inputs i moment refusal := hending ▸ isCut_of_liesIn hi _ _
  obtain ⟨-, -, -, -, hbefore, hupto⟩ := hi
  refine ⟨by simp [hending, LineLog.extend], i, line, moment, hcut, hat, ?_, ?_⟩
  · have hle := hbefore.length_le
    rw [List.length_take] at hle
    exact Nat.le_trans hle (Nat.min_le_left _ _)
  · have hle := hupto.length_le
    rw [List.length_append, List.length_take, List.length_singleton] at hle
    rw [Nat.min_eq_left (Nat.le_of_lt h)] at hle
    exact hle

/-- A sink that stops taking output cuts a run at exactly one point and changes nothing in front of
it. If the output fits then nothing is different. Otherwise the sink is left with as much of the
output as it takes, the error names the file in whose declaration the first missing byte lies, and
everything is left as it is when the line of that byte is handed over to a sink without a limit. The
same holds of lines and a sink that refuses a line. -/
theorem embed_cut (settings : Settings) (inputs : List Input) {room : Nat} {sink : ByteSink}
    (hsink : sink.StopsAt room) (count : Nat) (refusal : Fault) :
    let whole := embed settings inputs ({} : ByteSink)
    let output := whole.sink.written.toList
    let lines := (transcript settings inputs).lines
    let cut := embed settings inputs sink
    let cutLines := embed settings inputs ({ refusesAt := count, refusal } : LineLog)
    whole = (transcript settings inputs).play {} ∧ output = bytesOf lines ∧
    (output.length ≤ room →
      cut.sink.written.toList = output ∧ cut.result = whole.result ∧ cut.inputs = whole.inputs) ∧
    (room < output.length →
      cut.sink.written.toList = output.take room ∧
      ∃ i moment, cut.IsCut inputs i moment (sink.refusal.getD .nothingTaken) ∧
        (transcript settings inputs).HandsOverByte room moment ∧
        (embed settings (inputs.take i) ({} : ByteSink)).sink.written.size ≤ room ∧
        room < (embed settings (inputs.take (i + 1)) ({} : ByteSink)).sink.written.size) ∧
    (lines.length ≤ count →
      cutLines.sink.lines.toList = lines.map Prod.fst ∧ cutLines.result = whole.result ∧
        cutLines.inputs = whole.inputs) ∧
    (count < lines.length →
      cutLines.sink.lines.toList = (lines.take count).map Prod.fst ∧
      ∃ i line moment, cutLines.IsCut inputs i moment refusal ∧
        lines[count]? = some (line, moment) ∧
        (transcript settings (inputs.take i)).lines.length ≤ count ∧
        count < (transcript settings (inputs.take (i + 1))).lines.length) := by
  intro whole output lines cut cutLines
  have hwhole : whole = (transcript settings inputs).ending (ByteSink.extend (bytesOf lines) {}) :=
    embed_eq_of_limit_eq_none settings inputs rfl (by simp)
  have houtput : output = bytesOf lines := toList_written_embed settings inputs
  refine ⟨embed_eq_play settings inputs _, houtput, ?_, ?_, ?_, ?_⟩
  -- the output fits, be it to the last byte
  · intro hle
    have hfits : sink.Fits (bytesOf lines) := by
      refine ByteSink.fits_of_room? hsink.room? ?_
      rwa [← houtput]
    have hcut : cut = (transcript settings inputs).ending (sink.extend (bytesOf lines)) :=
      embed_eq_of_fits hsink.step hfits
    rw [hcut, hwhole, houtput]
    exact ⟨by simp [Transcript.ending, hsink.written], rfl, rfl⟩
  -- the output is cut at the byte number `room`
  · intro hlt
    rw [houtput] at hlt ⊢
    simp only [size_written_embed]
    exact embed_of_lt_length hsink hlt
  -- the same for lines
  · intro hle
    have hcut : cutLines = (transcript settings inputs).ending
        (LineLog.extend (lines.map Prod.fst) { refusesAt := count, refusal }) := by
      simp only [cutLines, embed_eq_play, Transcript.play, LineLog.putEach_eq_of_empty]
      rw [List.getElem?_eq_none hle, List.take_of_length_le hle]
      rfl
    rw [hcut, hwhole]
    exact ⟨by simp [Transcript.ending, LineLog.extend], rfl, rfl⟩
  · exact embed_of_lt_length_lines refusal

/-- For example within the line of a fragment, behind a fill that was interrupted. -/
theorem embed_cut_within_fragment :
    let settings : Settings := { lead := [], pointerType := ['T'] }
    let inputs : List Input := [
      { name := ['a'], source := [.bytes [0x78], .fault (.reported .interrupted [])] },
      { name := ['b'], source := [] }]
    let full : Fault := .reported .storageFull []
    let sink : ByteSink := { limit := some 24, step := some 1, refusal := some full }
    sink.StopsAt 24 ∧
      (embed settings inputs sink).sink.written.toList =
        Utf8.encode "static const T a =\n    \"".toList ∧
      ∃ i moment, (embed settings inputs sink).IsCut inputs i moment full := by
  intro settings inputs full sink
  have hsink : sink.StopsAt 24 := ⟨rfl, by decide, by simp [sink, full, Fault.kind], rfl⟩
  obtain ⟨-, houtput, -, hcut, -⟩ := embed_cut settings inputs hsink 0 full
  have hline : Source.readLine [.bytes [0x78], .fault (.reported .interrupted [])] =
      (.ok (some ['x']), []) := by
    have hbytes : Source.readBytes [.bytes [0x78], .fault (.reported .interrupted [])] =
        (.ok [0x78], []) := rfl
    have hdecode : Utf8.decode [0x78] = .ok ['x'] := Utf8.decode_encode ['x']
    simp only [Source.readLine, hbytes, hdecode]
  have hend : Source.reading false [] = { kept := [], result := .ok (), left := [] } := by
    rw [Source.reading_eq]
    rfl
  have hreading : Source.reading false [.bytes [0x78], .fault (.reported .interrupted [])] =
      { kept := [(['x'], [])], result := .ok (), left := [] } := by
    rw [Source.reading_eq, hline]
    simp only [hend]
    rfl
  have hbytes : bytesOf (transcript settings inputs).lines = Utf8.encode
      "static const T a =\n    \"x\\n\"\n    ;\n\nstatic const T b =\n    ;\n\n".toList := by
    simp only [settings, inputs, transcript, transcriptFrom, Input.transcript, hreading, hend]
    rfl
  rw [houtput, hbytes] at hcut
  obtain ⟨hwritten, i, moment, hi, -⟩ := hcut (by decide)
  exact ⟨hsink, hwritten.trans (by decide), i, moment, hi⟩

end TextEmbed
