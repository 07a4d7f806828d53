import TextEmbed.Proofs.Source.Events
import TextEmbed.Proofs.Text.Lines
import TextEmbed.Proofs.Utf8.RoundTrip

/-!
# Sources of texts

A source that delivers the bytes of a text without a fault gives the lines of the text, however the
bytes fall into fills: also where a fill ends in the middle of a character or of a terminator.

## Main definitions

* `Source.Delivers`: sources that bring a text in fills that are not empty.

## Main results

* `Event.readBytes_encode`: reading the bytes of a text reads those of its first line;
* `Source.readLine_of_ne_nil`: the next line of a source is the first line of what it has left.
-/

namespace TextEmbed

open Source

/-- A character that ends no line has no byte that ends a line. -/
theorem isTerminator_of_mem_utf8EncodeChar {c : Char} (hc : Text.isLineEnd c = false) :
    ∀ b ∈ String.utf8EncodeChar c, isTerminator b = false := by
  intro b hb
  by_contra hend
  have hterminator : b = lineFeed ∨ b = carriageReturn := by
    rwa [Bool.not_eq_false, isTerminator, Bool.or_eq_true, beq_iff_eq, beq_iff_eq] at hend
  have hc' : c = '\n' ∨ c = '\r' := by
    rcases hterminator with rfl | rfl
    · exact .inl (Utf8.eq_of_mem_utf8EncodeChar hb (by decide) rfl)
    · exact .inr (Utf8.eq_of_mem_utf8EncodeChar hb (by decide) rfl)
  rcases hc' with rfl | rfl <;> exact absurd hc (by decide)

namespace Event

/-- There is no line feed in front of a text that doesn't start with one. -/
theorem takeLineFeed_encode {text : List Char} (h : text.head? ≠ some '\n') :
    takeLineFeed ((Utf8.encode text).map .byte) = (.ok false, (Utf8.encode text).map .byte) := by
  cases text with
  | nil => rfl
  | cons c rest =>
    -- no byte of the first character is a line feed, so the one in front is none
    have hc : c ≠ '\n' := by simpa using h
    rw [Utf8.encode_cons]
    cases hbytes : String.utf8EncodeChar c with
    | nil => exact absurd hbytes String.utf8EncodeChar_ne_nil
    | cons b bytes =>
      have hb : b ≠ lineFeed := by
        rintro rfl
        have hmem : lineFeed ∈ String.utf8EncodeChar c := by simp [hbytes]
        exact hc (Utf8.eq_of_mem_utf8EncodeChar hmem (by decide) rfl)
      rw [List.cons_append, List.map_cons, takeLineFeed, if_neg hb]

/-- Reading the bytes of a text reads those of its first line. -/
theorem readBytes_encode (text : List Char) :
    readBytes ((Utf8.encode text).map .byte) =
      (.ok (Utf8.encode (Text.splitLine text).1),
        (Utf8.encode (Text.splitLine text).2).map .byte) := by
  fun_induction Text.splitLine text with
  | case1 => rfl
  | case2 rest => rfl
  | case3 rest => rfl
  -- a lone carriage return: the look-ahead finds something else and leaves it
  | case4 rest hrest =>
    have hhead : rest.head? ≠ some '\n' := by
      intro hhead
      obtain ⟨later, hlater⟩ := List.head?_eq_some_iff.mp hhead
      exact hrest later hlater
    have hbytes : (Utf8.encode ('\r' :: rest)).map Event.byte =
        .byte carriageReturn :: (Utf8.encode rest).map .byte := rfl
    rw [hbytes, readBytes, if_neg (by decide), if_pos rfl, takeLineFeed_encode hhead]
    rfl
  -- any other character: none of its bytes ends the line, however many they are
  | case5 c rest hlf _ hcr ih =>
    have hc : Text.isLineEnd c = false := by
      simp only [Text.isLineEnd, Bool.or_eq_false_iff, beq_eq_false_iff_ne]
      exact ⟨hlf, hcr⟩
    rw [Utf8.encode_cons, List.map_append,
      readBytes_map_byte (isTerminator_of_mem_utf8EncodeChar hc), ih]
    rfl

end Event

namespace Source

/-- The source brings the bytes of `text` and nothing else, in fills that are not empty. -/
def Delivers (source : Source) (text : List Char) : Prop :=
  ∃ fills : List (List UInt8), source = fills.map .bytes ∧ (∀ fill ∈ fills, fill ≠ []) ∧
    fills.flatten = Utf8.encode text

/-- A source that delivers a text brings its bytes one after the other. -/
theorem Delivers.events {source : Source} {text : List Char} (h : source.Delivers text) :
    source.events = (Utf8.encode text).map .byte := by
  obtain ⟨fills, rfl, hfills, hbytes⟩ := h
  rw [events_map_bytes hfills, hbytes]

/-- A call reads the first line of the text that a source has left. -/
theorem readLine_of_events {source : Source} {text : List Char}
    (h : source.events = (Utf8.encode text).map .byte) :
    (readLine source).1 = lineOf (.ok (Utf8.encode (Text.splitLine text).1)) ∧
      (readLine source).2.events = (Utf8.encode (Text.splitLine text).2).map .byte := by
  have hread := readBytes_events source
  rw [h, Event.readBytes_encode, Prod.mk.injEq] at hread
  rw [readLine_eq, ← hread.1]
  exact ⟨rfl, hread.2.symm⟩

theorem readLine_of_eq_nil {source : Source} (h : source.events = (Utf8.encode []).map .byte) :
    (readLine source).1 = .ok none :=
  (readLine_of_events h).1

/-- The next line of a source is the first line of the text that it has left. -/
theorem readLine_of_ne_nil {source : Source} {text : List Char} (hne : text ≠ [])
    (h : source.events = (Utf8.encode text).map .byte) :
    (readLine source).1 = .ok (some (Text.splitLine text).1) := by
  rw [(readLine_of_events h).1]
  -- a line that is not empty has bytes, so it isn't taken for the end
  have hline : Utf8.encode (Text.splitLine text).1 ≠ [] :=
    mt Utf8.encode_eq_nil_iff.mp (Text.splitLine_ne_nil hne)
  have hdecode := Utf8.decode_encode (Text.splitLine text).1
  cases hbytes : Utf8.encode (Text.splitLine text).1 with
  | nil => exact absurd hbytes hline
  | cons b bytes =>
    rw [hbytes] at hdecode
    simp only [lineOf, hdecode]

end Source

end TextEmbed
