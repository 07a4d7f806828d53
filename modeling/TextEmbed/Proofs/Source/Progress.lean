import TextEmbed.Proofs.Source.Segments

/-!
# Reading makes progress

Reading a line is a loop over the fills of a buffer: bytes without a terminator and interrupted
fills make it go on. Each time it uses up a fill of the source, so it ends. A call that doesn't
return the end uses up a byte or a fault, whatever it returns, so calls come to the end of a source
if only the faults are passed over.

## Main definitions

* `Source.fill` and `Source.consume`: a buffer and how it is read from;
* `Source.turn`: one turn of the loop that reads a line;
* `Source.readLineWithin`: reading a line with a bound on the turns;
* `Source.faults`: the faults that a source still has to report.

## Main results

* `Source.turn_cases`: a turn ends the loop, or leaves a shorter source to it;
* `Source.readLineWithin_eq_some`: every call ends within as many turns as there are fills, and one;
* `Source.exists_used_readLine`: what a call uses up;
* `Source.exists_results_until_end`: how many calls it takes to come to the end.
-/

namespace TextEmbed

namespace Source

/-! ## Turns -/

/-- Fills the buffer, which gives the bytes that can be read next. None at all mean an end. A fault
is used up when it is reported, and so is an end that is seen once. -/
def fill : Source → Except Fault (List UInt8) × Source
  | [] => (.ok [], [])
  | .fault f :: rest => (.error f, rest)
  | .bytes [] :: rest => (.ok [], rest)
  | .bytes (b :: bs) :: rest => (.ok (b :: bs), .bytes (b :: bs) :: rest)

/-- Reads the first `count` bytes that the buffer was filled with. -/
def consume (count : Nat) : Source → Source
  | .bytes bytes :: rest => resume (bytes.drop count) rest
  | source => source

/-- What becomes of the loop that reads a line in one turn. -/
inductive Turn where
  /-- The line goes on behind the bytes `line`. -/
  | again (line : List UInt8) (left : Source)
  /-- The line has ended, or a fill has failed. -/
  | done (result : Except Fault (List UInt8)) (left : Source)

/-- The turn that has read a line up to its terminator. A line feed behind a carriage return belongs
to the line, even if it takes a fill to see it. -/
def endLine (line : List UInt8) (terminator : UInt8) (left : Source) : Turn :=
  if terminator = carriageReturn then
    match left.fill with
    | (.error f, left) => .done (.error f) left
    | (.ok ahead, left) =>
      if ahead.head? = some lineFeed then .done (.ok (line ++ [lineFeed])) (left.consume 1)
      else .done (.ok line) left
  else .done (.ok line) left

/-- One turn of the loop that reads a line, behind the bytes `line` of earlier turns. -/
def turn (line : List UInt8) (source : Source) : Turn :=
  match source.fill with
  | (.error f, left) =>
    if f.kind = .interrupted then .again line left else .done (.error f) left
  | (.ok [], left) => .done (.ok line) left
  | (.ok (b :: bs), left) =>
    let text := (b :: bs).takeWhile (!isTerminator ·)
    match (b :: bs).dropWhile (!isTerminator ·) with
    | [] => .again (line ++ (b :: bs)) (left.consume (b :: bs).length)
    | terminator :: _ =>
      endLine (line ++ (text ++ [terminator])) terminator (left.consume (text.length + 1))

/-- The loop that reads a line, with at most `turns` turns. There is no result if these are not
enough. -/
def readBytesWithin : Nat → List UInt8 → Source → Option (Except Fault (List UInt8) × Source)
  | 0, _, _ => none
  | turns + 1, line, source =>
    match turn line source with
    | .again line left => readBytesWithin turns line left
    | .done result left => some (result, left)

/-- Reads the next line with at most `turns` turns. -/
def readLineWithin (turns : Nat) (source : Source) :
    Option (Except Fault (Option (List Char)) × Source) :=
  (readBytesWithin turns [] source).map fun read => (lineOf read.1, read.2)

/-- Looking for a line feed takes one fill. -/
theorem endLine_carriageReturn (line : List UInt8) (left : Source) :
    endLine line carriageReturn left =
      .done ((takeLineFeed left).1.map fun found => line ++ if found then [lineFeed] else [])
        (takeLineFeed left).2 := by
  match left with
  | [] => simp [endLine, fill, takeLineFeed, Except.map]
  | .fault f :: rest => rfl
  | .bytes [] :: rest => simp [endLine, fill, takeLineFeed, Except.map]
  | .bytes (b :: bs) :: rest =>
    by_cases hb : b = lineFeed <;> simp [endLine, fill, consume, takeLineFeed, hb, Except.map]

/-- What is behind the first item that ends a row. -/
theorem drop_length_takeWhile {α : Type} {p : α → Bool} {items behind : List α} {item : α}
    (h : items.dropWhile p = item :: behind) :
    items.drop ((items.takeWhile p).length + 1) = behind := by
  have hsplit := List.takeWhile_append_dropWhile (p := p) (l := items)
  rw [h] at hsplit
  calc items.drop ((items.takeWhile p).length + 1)
      = (items.takeWhile p ++ item :: behind).drop ((items.takeWhile p).length + 1) := by
        rw [hsplit]
    _ = behind := by
        rw [List.drop_length_add_append]
        rfl

/-- A turn ends the loop with what there is to read, or leaves it a shorter source, in which the
rest is to be read. -/
theorem turn_cases (line : List UInt8) (source : Source) :
    (∃ more left, turn line source = .again (line ++ more) left ∧ left.length < source.length ∧
      readBytes source = ((readBytes left).1.map (more ++ ·), (readBytes left).2)) ∨
    turn line source = .done ((readBytes source).1.map (line ++ ·)) (readBytes source).2 := by
  match source with
  | [] => exact .inr (by simp [turn, fill, readBytes, Except.map])
  | .bytes [] :: rest => exact .inr (by simp [turn, fill, readBytes, Except.map])
  | .fault f :: rest =>
    by_cases hf : f.kind = .interrupted
    · refine .inl ⟨[], rest, by simp [turn, fill, hf], by simp, ?_⟩
      rw [readBytes, if_pos hf]
      cases hread : (readBytes rest).1 <;> simp [Except.map, ← hread]
    · exact .inr (by simp [turn, fill, readBytes, hf, Except.map])
  | .bytes (b :: bs) :: rest =>
    have hsplit := List.takeWhile_append_dropWhile (p := (!isTerminator ·)) (l := b :: bs)
    cases hdrop : (b :: bs).dropWhile (!isTerminator ·) with
    -- without a terminator all bytes are read, and the line goes on with the next fill
    | nil =>
      rw [hdrop, List.append_nil] at hsplit
      refine .inl ⟨b :: bs, rest, ?_, by simp, ?_⟩
      · simp only [turn, fill, hdrop, consume, List.drop_length]
        rfl
      · simp only [readBytes, hdrop, hsplit]
    -- behind a carriage return the look-ahead belongs to the same turn
    | cons terminator unread =>
      have hunread := drop_length_takeWhile hdrop
      refine .inr ?_
      simp only [turn, fill, hdrop, consume, hunread, readBytes]
      by_cases hcr : terminator = carriageReturn
      · rw [hcr, endLine_carriageReturn, if_pos rfl]
        cases (takeLineFeed (resume unread rest)).1 <;> simp [Except.map]
      · simp only [endLine, if_neg hcr, Except.map]

/-- As many turns as there are fills are enough for the loop, and one more. -/
theorem readBytesWithin_eq_some {source : Source} {turns : Nat} (h : source.length < turns)
    (line : List UInt8) :
    readBytesWithin turns line source =
      some ((readBytes source).1.map (line ++ ·), (readBytes source).2) := by
  -- by induction on the turns: each one that goes on leaves a shorter source to the others
  induction turns generalizing source line with
  | zero => exact absurd h (Nat.not_lt_zero _)
  | succ turns ih =>
    rcases turn_cases line source with ⟨more, left, hturn, hleft, hread⟩ | hturn
    · have hlater := ih (Nat.lt_of_lt_of_le hleft (Nat.le_of_lt_succ h)) (line ++ more)
      rw [readBytesWithin, hturn, hread]
      simp only [hlater]
      cases (readBytes left).1 <;> simp [Except.map]
    · rw [readBytesWithin, hturn]

/-- Every call ends, within as many turns as the source has fills, and one more. -/
theorem readLineWithin_eq_some (source : Source) :
    readLineWithin (source.length + 1) source = some source.readLine := by
  rw [readLineWithin, readBytesWithin_eq_some (Nat.lt_succ_self _), readLine_eq]
  cases (readBytes source).1 <;> rfl

/-! ## Calls -/

/-- The faults that a source still has to report. -/
def faults (source : Source) : List Fault :=
  source.filterMap fun
    | .fault f => some f
    | .bytes _ => none

end Source

namespace Event

/-- The faults among some events. -/
def faults (events : List Event) : List Fault :=
  events.filterMap fun
    | .fault f => some f
    | .byte _ | .ended => none

theorem faults_append (first second : List Event) :
    faults (first ++ second) = faults first ++ faults second :=
  List.filterMap_append

theorem faults_map_byte (data : List UInt8) : faults (data.map .byte) = [] := by
  induction data with
  | nil => rfl
  | cons b data ih => exact ih

theorem faults_ne_nil {events : List Event} {f : Fault} (h : .fault f ∈ events) :
    faults events ≠ [] :=
  List.ne_nil_of_mem (List.mem_filterMap.mpr ⟨.fault f, h, rfl⟩)

end Event

namespace Source

/-- The faults that a source still has to report are those of the events to come. -/
theorem faults_eq (source : Source) : source.faults = Event.faults source.events := by
  induction source with
  | nil => rfl
  | cons fill rest ih =>
    rw [events_cons, Event.faults_append, ← ih]
    match fill with
    | .bytes [] => rfl
    | .bytes (b :: bs) =>
      rw [Fill.events, Event.faults_map_byte]
      rfl
    | .fault f => rfl

/-- A call that doesn't return the end uses up a byte or a fault. -/
theorem exists_used_readLine (source : Source) :
    ∃ usedBytes usedFaults, source.unread = usedBytes ++ (readLine source).2.unread ∧
      source.faults = usedFaults ++ (readLine source).2.faults ∧
      ((readLine source).1 = .ok none ∨ usedBytes ≠ [] ∨ usedFaults ≠ []) := by
  obtain ⟨segment, hsegment⟩ := exists_segment source
  have hunread := hsegment.unread
  obtain ⟨used, hused, -, -, hresult⟩ := hsegment
  refine ⟨segment, Event.faults used, hunread, ?_, ?_⟩
  · rw [faults_eq, faults_eq, hused, Event.faults_append]
  · match hread : (readLine source).1 with
    | .ok none => exact .inl rfl
    | .ok (some line) =>
      rw [hread] at hresult
      exact .inr (.inl hresult.2.1)
    | .error f =>
      rw [hread] at hresult
      rcases hresult with ⟨e, -, hdecode, -⟩ | hlast
      -- no bytes at all would be a text
      · refine .inr (.inl ?_)
        rintro rfl
        rw [Utf8.decode_eq_ok_iff.mpr Utf8.encode_nil.symm] at hdecode
        cases hdecode
      · exact .inr (.inr (Event.faults_ne_nil (List.mem_of_getLast? hlast)))

/-- How much a source still has to give, apart from the ends that it shows in between. -/
def remaining (source : Source) : Nat :=
  source.unread.length + source.faults.length

theorem remaining_readLine_lt {source : Source} (h : (readLine source).1 ≠ .ok none) :
    (readLine source).2.remaining < source.remaining := by
  obtain ⟨usedBytes, usedFaults, hunread, hfaults, hused⟩ := exists_used_readLine source
  simp only [remaining, hunread, hfaults, List.length_append]
  rcases hused with hend | hbytes | hfaults
  · exact absurd hend h
  · have hpos : 0 < usedBytes.length := List.length_pos_iff.mpr hbytes
    omega
  · have hpos : 0 < usedFaults.length := List.length_pos_iff.mpr hfaults
    omega

/-- Whatever calls return, the end comes when they have used up all bytes and faults. -/
theorem exists_results_until_end (source : Source) :
    ∃ results, .ok none ∉ results ∧ results.length ≤ source.remaining ∧
      (readLines (results.length + 1) source).1 = results ++ [.ok none] := by
  -- by induction on what is left: another result than the end leaves less
  induction hn : source.remaining using Nat.strongRecOn generalizing source with
  | _ n ih =>
    by_cases hend : (readLine source).1 = .ok none
    · exact ⟨[], List.not_mem_nil, Nat.zero_le n, by rw [List.length_nil, readLines, hend]; rfl⟩
    · have hless : (readLine source).2.remaining < n := hn ▸ remaining_readLine_lt hend
      obtain ⟨results, hresults, hlength, hread⟩ := ih _ hless _ rfl
      refine ⟨(readLine source).1 :: results, ?_, Nat.lt_of_le_of_lt hlength hless, ?_⟩
      · rw [List.mem_cons, not_or]
        exact ⟨Ne.symm hend, hresults⟩
      · rw [List.length_cons, readLines, hread]
        rfl

/-- It takes that many calls if every byte is a line and no fault falls into a line. -/
example :
    let source : Source := [.bytes [0x0A], .fault (.reported .timedOut []), .bytes [0x0A]]
    source.remaining = 3 ∧
      (readLines 3 source).1 =
        [.ok (some ['\n']), .error (.reported .timedOut []), .ok (some ['\n'])] := by
  decide +kernel

end Source

end TextEmbed
