import TextEmbed.Proofs.Source.Events

/-!
# Interrupted fills

A fill that is interrupted is tried again, so nobody notices it, wherever it comes between other
events and however often. There is one exception: the fill that serves to look for a line feed
behind a carriage return isn't tried again. If it is interrupted then the call fails, and what it
has read of the line is lost with its terminator.

## Main definitions

* `Event.IsInterruption`: fills that were interrupted;
* `Event.Delayed`: the same events with interrupted fills in between, but none behind a carriage
  return.

## Main results

* `Event.readBytes_delayed`: reading a line can't tell delayed events from the others;
* `Event.readBytes_append_carriageReturn`: what is read of events up to a carriage return;
* `Source.readLines_delayed`: no number of calls can tell them apart;
* `Source.exists_call_interrupted`: an interruption behind a carriage return makes a call fail.
-/

namespace TextEmbed

namespace Event

open Source

/-- A fill that was interrupted. -/
def IsInterruption (event : Event) : Prop :=
  ∃ f, event = .fault f ∧ f.kind = .interrupted

/-- `second` are the events `first` with interrupted fills in between, but none right behind a
carriage return. Whether one is right in front of them is told by `behindReturn`. -/
inductive Delayed : Bool → List Event → List Event → Prop
  | nil (behindReturn : Bool) : Delayed behindReturn [] []
  | interruption {f : Fault} (hf : f.kind = .interrupted) {first second : List Event}
      (h : Delayed false first second) : Delayed false first (.fault f :: second)
  | event (behindReturn : Bool) (event : Event) {first second : List Event}
      (h : Delayed (event == .byte carriageReturn) first second) :
      Delayed behindReturn (event :: first) (event :: second)

theorem delayed_refl (behindReturn : Bool) (events : List Event) :
    Delayed behindReturn events events := by
  induction events generalizing behindReturn with
  | nil => exact .nil behindReturn
  | cons event events ih => exact .event behindReturn event (ih _)

/-- Interruptions that come in a row. -/
theorem delayed_interruptions {interruptions : List Event}
    (h : ∀ event ∈ interruptions, event.IsInterruption) (after : List Event) :
    Delayed false after (interruptions ++ after) := by
  induction interruptions with
  | nil => exact delayed_refl false after
  | cons event interruptions ih =>
    obtain ⟨⟨f, rfl, hf⟩, hinterruptions⟩ := List.forall_mem_cons.mp h
    exact .interruption hf (ih hinterruptions)

/-- Interruptions that come in a row, not right behind a carriage return. -/
theorem delayed_append {before interruptions : List Event} {behindReturn : Bool}
    (h : ∀ event ∈ interruptions, event.IsInterruption)
    (hlast : before.getLast? ≠ some (.byte carriageReturn))
    (hfront : before = [] → behindReturn = false) (after : List Event) :
    Delayed behindReturn (before ++ after) (before ++ (interruptions ++ after)) := by
  induction before generalizing behindReturn with
  | nil =>
    obtain rfl := hfront rfl
    exact delayed_interruptions h after
  | cons event before ih =>
    refine .event behindReturn event (ih ?_ ?_)
    · intro hbefore
      apply hlast
      rw [List.getLast?_cons, hbefore, Option.getD_some]
    -- in front of the interruptions there is `event`, and that is no carriage return
    · rintro rfl
      simpa using hlast

/-- Behind a carriage return nothing has come in between. -/
theorem takeLineFeed_delayed {first second : List Event} (h : Delayed true first second) :
    (takeLineFeed first).1 = (takeLineFeed second).1 ∧
      Delayed false (takeLineFeed first).2 (takeLineFeed second).2 := by
  cases h with
  | nil => exact ⟨rfl, .nil false⟩
  | event _ event h =>
    cases event with
    | fault f => exact ⟨rfl, h⟩
    | ended => exact ⟨rfl, h⟩
    | byte b =>
      simp only [takeLineFeed]
      split
      next hb =>
        subst hb
        exact ⟨rfl, h⟩
      next => exact ⟨rfl, .event false (.byte b) h⟩

/-- Reading a line can't tell delayed events from the others. -/
theorem readBytes_delayed {behindReturn : Bool} {first second : List Event}
    (h : Delayed behindReturn first second) :
    (readBytes first).1 = (readBytes second).1 ∧
      Delayed false (readBytes first).2 (readBytes second).2 := by
  induction h with
  | nil => exact ⟨rfl, .nil false⟩
  | interruption hf _ ih =>
    rw [readBytes, if_pos hf]
    exact ih
  | event _ event h ih =>
    cases event with
    | ended => exact ⟨rfl, h⟩
    | fault f =>
      simp only [readBytes]
      split
      · exact ih
      · exact ⟨rfl, h⟩
    | byte b =>
      simp only [readBytes]
      split
      next hlf =>
        subst hlf
        exact ⟨rfl, h⟩
      next =>
        split
        -- the look-ahead isn't delayed, and what it leaves may be
        next hcr =>
          subst hcr
          obtain ⟨hresult, hleft⟩ := takeLineFeed_delayed h
          exact ⟨by rw [hresult], hleft⟩
        next =>
          obtain ⟨hresult, hleft⟩ := ih
          exact ⟨by rw [hresult], hleft⟩

/-- In front of a carriage return, looking for a line feed stops whatever comes behind that. -/
theorem takeLineFeed_append_carriageReturn (before : List Event) :
    ∃ result left, left.length ≤ before.length ∧
      ∀ after, takeLineFeed (before ++ .byte carriageReturn :: after) =
        (result, left ++ .byte carriageReturn :: after) := by
  match before with
  | [] => exact ⟨.ok false, [], Nat.le_refl _, fun after => rfl⟩
  | .ended :: before => exact ⟨.ok false, before, Nat.le_succ _, fun after => rfl⟩
  | .fault f :: before => exact ⟨.error f, before, Nat.le_succ _, fun after => rfl⟩
  | .byte b :: before =>
    by_cases hb : b = lineFeed
    · simp only [List.cons_append, takeLineFeed, if_pos hb]
      exact ⟨.ok true, before, Nat.le_succ _, fun after => rfl⟩
    · simp only [List.cons_append, takeLineFeed, if_neg hb]
      exact ⟨.ok false, .byte b :: before, Nat.le_refl _, fun after => rfl⟩

/-- Only a fault makes the look-ahead fail. -/
theorem exists_of_takeLineFeed_eq_error {events : List Event} {f : Fault}
    (h : (takeLineFeed events).1 = .error f) : ∃ rest, events = .fault f :: rest := by
  match events with
  | [] => cases h
  | .ended :: rest => cases h
  | .fault g :: rest => exact ⟨rest, by rw [Except.error.inj h]⟩
  | .byte b :: rest =>
    rw [takeLineFeed] at h
    split at h <;> cases h

/-- A call on events up to a carriage return reads the line that this ends, or stops in front of it
whatever comes behind. -/
theorem readBytes_append_carriageReturn (before : List Event) :
    (∃ text, ∀ after, readBytes (before ++ .byte carriageReturn :: after) =
      ((takeLineFeed after).1.map fun found =>
        text ++ carriageReturn :: (if found then [lineFeed] else []), (takeLineFeed after).2)) ∨
      ∃ result left, left.length < before.length ∧
        ∀ after, readBytes (before ++ .byte carriageReturn :: after) =
          (result, left ++ .byte carriageReturn :: after) := by
  induction before with
  | nil => exact .inl ⟨[], fun after => rfl⟩
  | cons event before ih =>
    match event with
    | .ended => exact .inr ⟨.ok [], before, Nat.lt_succ_self _, fun after => rfl⟩
    | .fault f =>
      by_cases hf : f.kind = .interrupted
      -- an interrupted fill is used up in front of whatever the call reads
      · simp only [List.cons_append, readBytes, if_pos hf]
        rcases ih with hline | ⟨result, left, hleft, hread⟩
        · exact .inl hline
        · exact .inr ⟨result, left, Nat.lt_succ_of_lt hleft, hread⟩
      · simp only [List.cons_append, readBytes, if_neg hf]
        exact .inr ⟨.error f, before, Nat.lt_succ_self _, fun after => rfl⟩
    | .byte b =>
      by_cases hlf : b = lineFeed
      · simp only [List.cons_append, readBytes, if_pos hlf]
        exact .inr ⟨.ok [b], before, Nat.lt_succ_self _, fun after => rfl⟩
      by_cases hcr : b = carriageReturn
      -- the call ends at another carriage return, behind which it looks at the next event
      · simp only [List.cons_append, readBytes, if_neg hlf, if_pos hcr]
        obtain ⟨result, left, hleft, hahead⟩ := takeLineFeed_append_carriageReturn before
        simp only [hahead]
        exact .inr ⟨_, left, Nat.lt_succ_of_le hleft, fun after => rfl⟩
      · simp only [List.cons_append, readBytes, if_neg hlf, if_neg hcr]
        rcases ih with ⟨text, hread⟩ | ⟨result, left, hleft, hread⟩
        · refine .inl ⟨b :: text, fun after => ?_⟩
          rw [hread]
          cases (takeLineFeed after).1 <;> rfl
        · refine .inr ⟨result.map (b :: ·), left, Nat.lt_succ_of_lt hleft, fun after => ?_⟩
          rw [hread]

end Event

namespace Source

/-- No number of calls can tell delayed events from the others. -/
theorem readLines_delayed {first second : Source}
    (h : Event.Delayed false first.events second.events) (calls : Nat) :
    (readLines calls first).1 = (readLines calls second).1 := by
  induction calls generalizing first second with
  | zero => rfl
  | succ calls ih =>
    obtain ⟨hresult, hleft⟩ := Event.readBytes_delayed h
    rw [readBytes_events, readBytes_events] at hresult hleft
    have hrest : (readLines calls (readLine first).2).1 = (readLines calls (readLine second).2).1 :=
      ih (by rw [readLine_eq, readLine_eq]; exact hleft)
    have hline : (readLine first).1 = (readLine second).1 := by
      rw [readLine_eq, readLine_eq]
      exact congrArg lineOf hresult
    simp only [readLines, hline, hrest]

/-- A call that reads events behind which there are others. -/
theorem readLine_of_readBytes {source : Source} {result : Except Fault (List UInt8)}
    {left : List Event} (h : Event.readBytes source.events = (result, left)) :
    (readLine source).1 = lineOf result ∧ (readLine source).2.events = left := by
  rw [readBytes_events, Prod.mk.injEq] at h
  rw [readLine_eq, h.1]
  exact ⟨rfl, h.2⟩

/-- A line that was read to its end wasn't interrupted. -/
theorem lineOf_ne_interrupted (line : List UInt8) {f : Fault} (hf : f.kind = .interrupted) :
    lineOf (.ok line) ≠ .error f := by
  unfold lineOf
  split
  next heq => cases heq
  next => simp
  next =>
    split
    next => simp
    next e _ =>
      intro heq
      rw [← Except.error.inj heq] at hf
      cases hf

/-- If the fill behind a carriage return is interrupted then some call fails that would have read a
line. Calls in front of it return what they would have returned, and calls behind it start with what
comes after the interruption. -/
theorem exists_call_interrupted {source other : Source} {before after later : List Event}
    {f : Fault} (hf : f.kind = .interrupted)
    (hsource : source.events = before ++ .byte carriageReturn :: after)
    (hother : other.events = before ++ .byte carriageReturn :: .fault f :: later) :
    ∃ calls result, (readLines (calls + 1) source).1 = (readLines calls source).1 ++ [result] ∧
      (readLines (calls + 1) other).1 = (readLines calls source).1 ++ [.error f] ∧
      (readLines (calls + 1) other).2.events = later ∧
      ((∀ g rest, after ≠ .fault g :: rest) → result ≠ .error f) := by
  -- by induction on the events in front of the carriage return, of which each call uses up some
  induction hn : before.length using Nat.strongRecOn generalizing before source other with
  | _ n ih =>
    rcases Event.readBytes_append_carriageReturn before with
      ⟨text, hread⟩ | ⟨result, left, hshorter, hread⟩
    · obtain ⟨hline, -⟩ := readLine_of_readBytes (hsource ▸ hread after)
      obtain ⟨hfailed, hleft⟩ := readLine_of_readBytes (hother ▸ hread (.fault f :: later))
      refine ⟨0, _, rfl, congrArg ([·]) hfailed, hleft, ?_⟩
      intro hafter
      rw [hline]
      cases hahead : (Event.takeLineFeed after).1 with
      | ok found => exact lineOf_ne_interrupted _ hf
      | error g =>
        obtain ⟨rest, hrest⟩ := Event.exists_of_takeLineFeed_eq_error hahead
        exact absurd hrest (hafter g rest)
    · obtain ⟨hline, hrest⟩ := readLine_of_readBytes (hsource ▸ hread after)
      obtain ⟨hsame, hlater⟩ := readLine_of_readBytes (hother ▸ hread (.fault f :: later))
      obtain ⟨calls, found, hplain, hfailed, hleft, hne⟩ :=
        ih left.length (hn ▸ hshorter) hrest hlater rfl
      refine ⟨calls + 1, found, ?_, ?_, hleft, hne⟩
      · rw [readLines, hplain]
        rfl
      · rw [readLines, hfailed, hsame, ← hline]
        rfl

end Source

end TextEmbed
