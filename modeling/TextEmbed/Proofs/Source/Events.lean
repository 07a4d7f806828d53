import TextEmbed.Source

/-!
# Events of sources

What a source brings, apart from how its bytes fall into fills: its bytes one by one, with the
faults and the passing ends between them. A line is read fill by fill, but it could as well be read
event by event, so nobody can tell how a source was filled.

## Main definitions

* `Source.events`: the events of a source, up to where it is at its end for good;
* `Source.eventAt`: the same as an endless sequence;
* `Event.readBytes`: reading a line event by event;
* `Source.readLines`: some calls of `Source.readLine`, one after the other.

## Main results

* `Source.readBytes_events`: reading fill by fill does what reading event by event does;
* `Source.readLines_congr_of_eventAt`: sources with the same events give the same lines, ends and
  faults, call by call, and have the same events left; a buffer of any size is a case of it.
-/

namespace TextEmbed

/-- What a source can bring next. -/
inductive Event where
  /-- A byte to read. -/
  | byte (b : UInt8)
  /-- The source is at its end, for this once. -/
  | ended
  /-- A fill fails. -/
  | fault (f : Fault)
  deriving DecidableEq, Repr

/-- The events of one fill. -/
def Fill.events : Fill → List Event
  | .bytes [] => [.ended]
  | .bytes (b :: bs) => (b :: bs).map .byte
  | .fault f => [.fault f]

namespace Event

open Source

/-- Takes a line feed if it comes next, and tells whether it did. -/
def takeLineFeed : List Event → Except Fault Bool × List Event
  | [] => (.ok false, [])
  | .fault f :: rest => (.error f, rest)
  | .ended :: rest => (.ok false, rest)
  | .byte b :: rest => if b = lineFeed then (.ok true, rest) else (.ok false, .byte b :: rest)

/-- Reads up to and including the next terminator, or to the end, one event at a time. -/
def readBytes : List Event → Except Fault (List UInt8) × List Event
  | [] => (.ok [], [])
  | .fault f :: rest => if f.kind = .interrupted then readBytes rest else (.error f, rest)
  | .ended :: rest => (.ok [], rest)
  | .byte b :: rest =>
    if b = lineFeed then (.ok [b], rest)
    else if b = carriageReturn then
      let ahead := takeLineFeed rest
      (ahead.1.map fun found => b :: (if found then [lineFeed] else []), ahead.2)
    else
      let later := readBytes rest
      (later.1.map (b :: ·), later.2)

/-- Bytes without a terminator are read on top of what follows them. -/
theorem readBytes_map_byte {text : List UInt8} (h : ∀ b ∈ text, isTerminator b = false)
    (rest : List Event) :
    readBytes (text.map .byte ++ rest) =
      ((readBytes rest).1.map (text ++ ·), (readBytes rest).2) := by
  induction text with
  | nil => cases hread : (readBytes rest).1 <;> simp [Except.map, ← hread]
  | cons b text ih =>
    obtain ⟨hb, htext⟩ := List.forall_mem_cons.mp h
    -- a byte that is no terminator is put in front of whatever is read behind it
    obtain ⟨hlf, hcr⟩ : b ≠ lineFeed ∧ b ≠ carriageReturn := by simpa [isTerminator] using hb
    simp only [List.map_cons, List.cons_append, readBytes, if_neg hlf, if_neg hcr, ih htext]
    cases (readBytes rest).1 <;> rfl

/-! ## Endless sequences -/

/-- Lists of events that are the same once the source is taken to be at its end behind each. -/
def Alike (first second : List Event) : Prop :=
  ∀ n, first.getD n .ended = second.getD n .ended

theorem Alike.symm {first second : List Event} (h : Alike first second) : Alike second first :=
  fun n => (h n).symm

theorem alike_cons_cons {a b : Event} {first second : List Event} :
    Alike (a :: first) (b :: second) ↔ a = b ∧ Alike first second := by
  refine ⟨fun h => ⟨by simpa using h 0, fun n => by simpa using h (n + 1)⟩, ?_⟩
  rintro ⟨rfl, h⟩ n
  cases n with
  | zero => rfl
  | succ n => simpa using h n

theorem alike_nil_cons {b : Event} {rest : List Event} :
    Alike [] (b :: rest) ↔ b = .ended ∧ Alike [] rest := by
  refine ⟨fun h => ⟨by simpa using (h 0).symm, fun n => by simpa using h (n + 1)⟩, ?_⟩
  rintro ⟨rfl, h⟩ n
  cases n with
  | zero => rfl
  | succ n => simpa using h n

/-- What reading event by event gives, and what it leaves up to ends without end. -/
def ReadAlike {α : Type} (first second : α × List Event) : Prop :=
  first.1 = second.1 ∧ Alike first.2 second.2

theorem takeLineFeed_alike {first second : List Event} (h : Alike first second) :
    ReadAlike (takeLineFeed first) (takeLineFeed second) := by
  match first, second with
  | [], [] => exact ⟨rfl, h⟩
  | [], b :: second =>
    obtain ⟨rfl, hrest⟩ := alike_nil_cons.mp h
    exact ⟨rfl, hrest⟩
  | a :: first, [] =>
    obtain ⟨rfl, hrest⟩ := alike_nil_cons.mp h.symm
    exact ⟨rfl, hrest.symm⟩
  | a :: first, b :: second =>
    obtain ⟨rfl, hrest⟩ := alike_cons_cons.mp h
    match a with
    | .fault f => exact ⟨rfl, hrest⟩
    | .ended => exact ⟨rfl, hrest⟩
    | .byte b =>
      simp only [takeLineFeed]
      split
      · exact ⟨rfl, hrest⟩
      · exact ⟨rfl, h⟩

/-- Ends behind the last event change nothing that is read. -/
theorem readBytes_alike {first second : List Event} (h : Alike first second) :
    ReadAlike (readBytes first) (readBytes second) := by
  induction first generalizing second with
  -- where one source is at its end for good the other has nothing but ends left
  | nil =>
    cases second with
    | nil => exact ⟨rfl, h⟩
    | cons b second =>
      obtain ⟨rfl, hrest⟩ := alike_nil_cons.mp h
      exact ⟨rfl, hrest⟩
  | cons a first ih =>
    cases second with
    | nil =>
      obtain ⟨rfl, hrest⟩ := alike_nil_cons.mp h.symm
      exact ⟨rfl, hrest.symm⟩
    | cons b second =>
      obtain ⟨rfl, hrest⟩ := alike_cons_cons.mp h
      match a with
      | .ended => exact ⟨rfl, hrest⟩
      -- an interrupted fill is tried again, any other fault ends the call
      | .fault f =>
        simp only [readBytes]
        split
        · exact ih hrest
        · exact ⟨rfl, hrest⟩
      | .byte b =>
        simp only [readBytes]
        split
        · exact ⟨rfl, hrest⟩
        · split
          -- behind a carriage return one event more is looked at
          · obtain ⟨hresult, hleft⟩ := takeLineFeed_alike hrest
            exact ⟨by rw [hresult], hleft⟩
          · obtain ⟨hresult, hleft⟩ := ih hrest
            exact ⟨by rw [hresult], hleft⟩

end Event

namespace Source

/-- The events of a source, in order, up to where it is at its end for good. -/
def events (source : Source) : List Event :=
  source.flatMap Fill.events

/-- The events of a source without end: behind the last one it is at its end for ever. -/
def eventAt (source : Source) (n : Nat) : Event :=
  source.events.getD n .ended

@[simp]
theorem events_nil : events [] = [] := rfl

@[simp]
theorem events_cons (fill : Fill) (rest : Source) :
    events (fill :: rest) = fill.events ++ events rest := rfl

@[simp]
theorem events_resume (unread : List UInt8) (rest : Source) :
    events (resume unread rest) = unread.map .byte ++ events rest := by
  cases unread <;> rfl

/-- Looking for a line feed fill by fill is looking for it event by event. -/
theorem takeLineFeed_events (source : Source) :
    Event.takeLineFeed source.events =
      ((takeLineFeed source).1, (takeLineFeed source).2.events) := by
  match source with
  | [] => rfl
  | .fault f :: rest => rfl
  | .bytes [] :: rest => rfl
  | .bytes (b :: bs) :: rest =>
    simp only [events_cons, Fill.events, List.map_cons, List.cons_append, takeLineFeed,
      Event.takeLineFeed]
    split <;> simp [Fill.events]

/-- Reading fill by fill is reading event by event. -/
theorem readBytes_events (source : Source) :
    Event.readBytes source.events = ((readBytes source).1, (readBytes source).2.events) := by
  induction source with
  | nil => rfl
  | cons fill rest ih =>
    match fill with
    | .fault f =>
      simp only [events_cons, Fill.events, List.singleton_append, readBytes, Event.readBytes]
      split
      · exact ih
      · rfl
    | .bytes [] => rfl
    | .bytes (b :: bs) =>
      -- the fill falls apart into the text before its first terminator and what is behind that
      have hsplit := List.takeWhile_append_dropWhile (p := (!isTerminator ·)) (l := b :: bs)
      have htext : ∀ c ∈ (b :: bs).takeWhile (!isTerminator ·), isTerminator c = false := by
        intro c hc
        simpa using List.all_eq_true.mp (List.all_takeWhile (p := (!isTerminator ·))) c hc
      rw [readBytes, events_cons, Fill.events]
      generalize (b :: bs).takeWhile (!isTerminator ·) = text at hsplit htext
      cases hdrop : (b :: bs).dropWhile (!isTerminator ·) with
      -- without a terminator in the fill the line goes on in the next
      | nil =>
        rw [hdrop, List.append_nil] at hsplit
        rw [← hsplit, Event.readBytes_map_byte htext, ih]
      | cons terminator unread =>
        have hterminator : isTerminator terminator = true := by
          simpa [hdrop] using List.head?_dropWhile_not (!isTerminator ·) (b :: bs)
        rw [hdrop] at hsplit
        rw [← hsplit, List.map_append, List.append_assoc, Event.readBytes_map_byte htext,
          List.map_cons, List.cons_append, Event.readBytes, ← events_resume]
        -- the look-ahead goes on in the fill, or in the next if this one has nothing left
        by_cases hcr : terminator = carriageReturn
        · simp only [hcr, if_true, if_neg (by decide : carriageReturn ≠ lineFeed),
            takeLineFeed_events]
          cases (takeLineFeed (resume unread rest)).1 <;> rfl
        · have hlf : terminator = lineFeed := by simpa [isTerminator, hcr] using hterminator
          simp only [if_pos hlf, if_neg hcr]
          rfl

/-- The line that read bytes make up. -/
def lineOf : Except Fault (List UInt8) → Except Fault (Option (List Char))
  | .error f => .error f
  | .ok [] => .ok none
  | .ok (b :: bs) =>
    match Utf8.decode (b :: bs) with
    | .ok text => .ok (some text)
    | .error e => .error (.illFormed e)

/-- A line is a matter of the bytes read. -/
theorem readLine_eq (source : Source) :
    readLine source = (lineOf (readBytes source).1, (readBytes source).2) := by
  unfold readLine
  split
  next f left h => rw [h, lineOf]
  next left h => rw [h, lineOf]
  next line left hne h =>
    rw [h]
    match line with
    | [] => exact absurd rfl hne
    | b :: bs =>
      cases hdecode : Utf8.decode (b :: bs) <;> simp only [lineOf, hdecode]

/-- Results of calls of `readLine` one after the other, and what they leave. -/
def readLines : Nat → Source → List (Except Fault (Option (List Char))) × Source
  | 0, source => ([], source)
  | calls + 1, source =>
    let later := readLines calls (readLine source).2
    ((readLine source).1 :: later.1, later.2)

/-- One call can't tell sources with the same events apart. -/
theorem readLine_alike {first second : Source} (h : Event.Alike first.events second.events) :
    (readLine first).1 = (readLine second).1 ∧
      Event.Alike (readLine first).2.events (readLine second).2.events := by
  obtain ⟨hresult, hleft⟩ := Event.readBytes_alike h
  rw [readBytes_events, readBytes_events] at hresult hleft
  rw [readLine_eq, readLine_eq]
  exact ⟨congrArg lineOf hresult, hleft⟩

/-- No number of calls can tell sources with the same events apart. -/
theorem readLines_alike {first second : Source} (h : Event.Alike first.events second.events)
    (calls : Nat) :
    (readLines calls first).1 = (readLines calls second).1 ∧
      Event.Alike (readLines calls first).2.events (readLines calls second).2.events := by
  -- a call leaves the sources alike, so the next one starts from sources that are alike again
  induction calls generalizing first second with
  | zero => exact ⟨rfl, h⟩
  | succ calls ih =>
    obtain ⟨hresult, hleft⟩ := readLine_alike h
    obtain ⟨hresults, hleft⟩ := ih hleft
    exact ⟨by simp only [readLines, hresult, hresults], hleft⟩

/-! ## Buffers -/

/-- Fills that are not empty bring their bytes and nothing else. -/
theorem events_map_bytes {fills : List (List UInt8)} (h : ∀ fill ∈ fills, fill ≠ []) :
    events (fills.map .bytes) = fills.flatten.map .byte := by
  induction fills with
  | nil => rfl
  | cons fill fills ih =>
    obtain ⟨hfill, hfills⟩ := List.forall_mem_cons.mp h
    rw [List.map_cons, events_cons, ih hfills, List.flatten_cons, List.map_append]
    match fill with
    | b :: bs => rfl

theorem ne_nil_of_mem_chunks {capacity : Nat} {data part : List UInt8}
    (h : part ∈ chunks capacity data) : part ≠ [] := by
  fun_induction chunks capacity data with
  | case1 => simp at h
  | case2 => simp at h
  | case3 more b rest ih =>
    rcases List.mem_cons.mp h with rfl | h
    · simp
    · exact ih h

/-- A buffer with room brings the bytes of the data one after the other. -/
theorem events_ofDataBy {capacity : Nat} (h : 0 < capacity) (data : List UInt8) :
    events (ofDataBy capacity data) = data.map .byte := by
  rw [ofDataBy, events_map_bytes fun _ => ne_nil_of_mem_chunks, flatten_chunks h]

@[simp]
theorem events_ofData (data : List UInt8) : events (ofData data) = data.map .byte := by
  simp [ofData]

/-- How bytes fall into fills can't be observed: sources with the same events give the same
results, call by call, and have the same events left after each. So the size of a buffer makes no
difference, as long as it has room. -/
theorem readLines_congr_of_eventAt (calls : Nat) :
    (∀ first second : Source, (∀ n, first.eventAt n = second.eventAt n) →
      (readLines calls first).1 = (readLines calls second).1 ∧
        ∀ n, (readLines calls first).2.eventAt n = (readLines calls second).2.eventAt n) ∧
      ∀ (capacity : Nat) (data : List UInt8), 0 < capacity →
        (readLines calls (ofDataBy capacity data)).1 = (readLines calls (ofData data)).1 ∧
          ∀ n, (readLines calls (ofDataBy capacity data)).2.eventAt n =
            (readLines calls (ofData data)).2.eventAt n := by
  refine ⟨?_, ?_⟩
  · intro first second h
    exact readLines_alike h calls
  -- a buffer of any size and one that holds everything bring the same bytes
  · intro capacity data h
    apply readLines_alike
    intro n
    rw [events_ofDataBy h, events_ofData]

/-- For example a line whose terminator is torn, in front of a fault, and a buffer of one byte. -/
theorem readLines_congr_of_eventAt_torn :
    let torn : Source := [.bytes [0x61, 0x0D], .bytes [0x0A], .fault (.reported .timedOut [])]
    let whole : Source := [.bytes [0x61, 0x0D, 0x0A], .fault (.reported .timedOut [])]
    ((∀ n, torn.eventAt n = whole.eventAt n) ∧
      (readLines 2 torn).1 = (readLines 2 whole).1 ∧
        ∀ n, (readLines 2 torn).2.eventAt n = (readLines 2 whole).2.eventAt n) ∧
      0 < 1 ∧ (readLines 2 (ofDataBy 1 [0x61, 0x0D, 0x0A])).1 =
        (readLines 2 (ofData [0x61, 0x0D, 0x0A])).1 := by
  intro torn whole
  have hevents : ∀ n, torn.eventAt n = whole.eventAt n := fun _ => rfl
  obtain ⟨hfills, hbuffers⟩ := readLines_congr_of_eventAt 2
  exact ⟨⟨hevents, hfills torn whole hevents⟩, by decide, (hbuffers 1 _ (by decide)).1⟩

end Source

end TextEmbed
