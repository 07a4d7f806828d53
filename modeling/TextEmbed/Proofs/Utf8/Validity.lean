import Mathlib.Data.List.Basic
import TextEmbed.Proofs.Utf8.RoundTrip

/-!
# Which byte strings are texts

A byte string is the encoding of a text exactly if it decodes, and then to that text. Where it
doesn't decode, the first error stands behind the longest start that is a text. Both can be told
part by part: a byte below `80` belongs to no longer sequence, so what is behind it can neither
complete nor spoil what is in front.

## Main definitions

* `IsValid`: byte strings that encode a text;
* `Piece.bytes`: the bytes of a piece.

## Main results

* `utf8EncodeChar_foldl`: a complete sequence is the encoding of the scalar value in its bits;
* `decode_eq_ok_iff`: decoding succeeds on the encodings of texts only;
* `isGreatest_index`: where the first error stands;
* `decode_append`: decoding goes on behind an ASCII byte as at the start;
* `length_ne_none`: no sequence is incomplete in front of an ASCII byte.
-/

namespace TextEmbed.Utf8

/-- The byte string is a text. -/
def IsValid (bytes : List UInt8) : Prop :=
  ∃ text, bytes = encode text

/-- The bytes of a piece. -/
def Piece.bytes : Piece → List UInt8
  | scalar c => String.utf8EncodeChar c
  | invalid bytes | incomplete bytes => bytes

/-! ## First bytes -/

theorem eq_ofNat_of_toNat_eq {b : UInt8} {n : Nat} (h : b.toNat = n) : b = .ofNat n := by
  rw [← h, UInt8.ofNat_toNat]

/-- A byte that announces something is in one of four ranges, by the length of the sequence. -/
theorem lead?_eq_some {b : UInt8} {lead : Lead} (h : lead? b = some lead) :
    (b.toNat < 0x80 ∧ lead = { more := 0, payload := b.toNat }) ∨
    (0xC2 ≤ b.toNat ∧ b.toNat < 0xE0 ∧ lead = { more := 1, payload := b.toNat - 0xC0 }) ∨
    (∃ n < 16, b.toNat = n + 0xE0 ∧
      lead = { more := 2, payload := n, low := if n = 0 then 0xA0 else 0x80,
               high := if n = 13 then 0x9F else 0xBF }) ∨
    (∃ n < 5, b.toNat = n + 0xF0 ∧
      lead = { more := 3, payload := n, low := if n = 0 then 0x90 else 0x80,
               high := if n = 4 then 0x8F else 0xBF }) := by
  by_cases hone : b.toNat < 0x80
  · rw [lead?_one hone, Option.some_inj] at h
    exact .inl ⟨hone, h.symm⟩
  by_cases hlow : b.toNat < 0xC2
  · simp [lead?, UInt8.lt_iff_toNat_lt, hone, hlow] at h
  by_cases htwo : b.toNat < 0xE0
  · rw [lead?_two (by omega) htwo, Option.some_inj] at h
    exact .inr (.inl ⟨by omega, htwo, h.symm⟩)
  by_cases hthree : b.toNat < 0xF0
  · have hb : b.toNat = b.toNat - 0xE0 + 0xE0 := by omega
    rw [eq_ofNat_of_toNat_eq hb, lead?_three (by omega), Option.some_inj] at h
    exact .inr (.inr (.inl ⟨b.toNat - 0xE0, by omega, hb, h.symm⟩))
  by_cases hfour : b.toNat < 0xF5
  · have hb : b.toNat = b.toNat - 0xF0 + 0xF0 := by omega
    rw [eq_ofNat_of_toNat_eq hb, lead?_four (by omega), Option.some_inj] at h
    exact .inr (.inr (.inr ⟨b.toNat - 0xF0, by omega, hb, h.symm⟩))
  · have hE0 : b ≠ 0xE0 := by rintro rfl; simp at hthree
    have hED : b ≠ 0xED := by rintro rfl; simp at hthree
    have hF0 : b ≠ 0xF0 := by rintro rfl; simp at hfour
    have hF4 : b ≠ 0xF4 := by rintro rfl; simp at hfour
    have hlast : ¬ b.toNat < 0xF4 := by omega
    simp [lead?, UInt8.lt_iff_toNat_lt, hone, hlow, htwo, hthree, hE0, hED, hF0, hF4, hlast] at h

/-! ## Continuations -/

/-- What continues a sequence stands in front of what follows the first byte. -/
theorem continuation_isPrefix (more : Nat) (low high : UInt8) (bytes : List UInt8) :
    continuation more low high bytes <+: bytes := by
  induction bytes generalizing more low high with
  | nil => simp [continuation]
  | cons b rest ih =>
    cases more with
    | zero => simp
    | succ more =>
      rw [continuation]
      split
      · exact List.cons_prefix_cons.mpr ⟨rfl, ih _ _ _⟩
      · exact List.nil_prefix

/-- A continuation starts with a byte between the bounds, and goes on with bytes from `80` to
`BF`. -/
theorem continuation_eq_cons {more : Nat} {low high b : UInt8} {bytes later : List UInt8}
    (h : continuation (more + 1) low high bytes = b :: later) :
    low.toNat ≤ b.toNat ∧ b.toNat ≤ high.toNat ∧
      ∃ rest, later = continuation more 0x80 0xBF rest := by
  cases bytes with
  | nil => simp [continuation] at h
  | cons first rest =>
    rw [continuation] at h
    split at h
    next hbounds =>
      obtain ⟨rfl, rfl⟩ := List.cons.inj h
      exact ⟨UInt8.le_iff_toNat_le.mp hbounds.1, UInt8.le_iff_toNat_le.mp hbounds.2, rest, rfl⟩
    next => simp at h

/-! ## Characters -/

/-- A number that is no surrogate and not above `10FFFF` is the value of a character. -/
theorem toNat_val_ofNat {n : Nat} (h : n < 0xD800 ∨ (0xDFFF < n ∧ n < 0x110000)) :
    (Char.ofNat n).val.toNat = n := by
  have hvalid : n.isValidChar := h
  rw [Char.ofNat, dif_pos hvalid]
  rfl

/-- Sequences of two bytes. -/
theorem utf8EncodeChar_two {b x : UInt8} (hlow : 0xC2 ≤ b.toNat) (hhigh : b.toNat < 0xE0)
    (hx : 0x80 ≤ x.toNat ∧ x.toNat ≤ 0xBF) :
    String.utf8EncodeChar (.ofNat ((b.toNat - 0xC0) * 64 + (x.toNat - 0x80))) = [b, x] := by
  generalize hv : (b.toNat - 0xC0) * 64 + (x.toNat - 0x80) = v
  have hval := toNat_val_ofNat (.inl (by omega : v < 0xD800))
  rw [String.utf8EncodeChar, hval]
  simp only [if_neg (by omega : ¬ v ≤ 127), if_pos (by omega : v ≤ 2047)]
  rw [← eq_ofNat_of_toNat_eq (b := b) (by omega), ← eq_ofNat_of_toNat_eq (b := x) (by omega)]

/-- Sequences of three bytes. The bounds of the second byte keep the value from being small or a
surrogate. -/
theorem utf8EncodeChar_three {n : Nat} {b x y : UInt8} (hn : n < 16) (hb : b.toNat = n + 0xE0)
    (hlow : (if n = 0 then 0xA0 else 0x80) ≤ x.toNat)
    (hhigh : x.toNat ≤ if n = 13 then 0x9F else 0xBF) (hy : 0x80 ≤ y.toNat ∧ y.toNat ≤ 0xBF) :
    String.utf8EncodeChar (.ofNat ((n * 64 + (x.toNat - 0x80)) * 64 + (y.toNat - 0x80))) =
      [b, x, y] := by
  have hoverlong : (n = 0 → 0xA0 ≤ x.toNat) ∧ 0x80 ≤ x.toNat := by split at hlow <;> omega
  have hsurrogate : (n = 13 → x.toNat ≤ 0x9F) ∧ x.toNat ≤ 0xBF := by split at hhigh <;> omega
  generalize hv : (n * 64 + (x.toNat - 0x80)) * 64 + (y.toNat - 0x80) = v
  have hval := toNat_val_ofNat (by omega : v < 0xD800 ∨ 0xDFFF < v ∧ v < 0x110000)
  rw [String.utf8EncodeChar, hval]
  simp only [if_neg (by omega : ¬ v ≤ 127), if_neg (by omega : ¬ v ≤ 2047),
    if_pos (by omega : v ≤ 65535)]
  rw [← eq_ofNat_of_toNat_eq (b := b) (by omega), ← eq_ofNat_of_toNat_eq (b := x) (by omega),
    ← eq_ofNat_of_toNat_eq (b := y) (by omega)]

/-- Sequences of four bytes. The bounds of the second byte keep the value from being small or above
`10FFFF`. -/
theorem utf8EncodeChar_four {n : Nat} {b x y z : UInt8} (hn : n < 5) (hb : b.toNat = n + 0xF0)
    (hlow : (if n = 0 then 0x90 else 0x80) ≤ x.toNat)
    (hhigh : x.toNat ≤ if n = 4 then 0x8F else 0xBF) (hy : 0x80 ≤ y.toNat ∧ y.toNat ≤ 0xBF)
    (hz : 0x80 ≤ z.toNat ∧ z.toNat ≤ 0xBF) :
    String.utf8EncodeChar (.ofNat
        (((n * 64 + (x.toNat - 0x80)) * 64 + (y.toNat - 0x80)) * 64 + (z.toNat - 0x80))) =
      [b, x, y, z] := by
  have hoverlong : (n = 0 → 0x90 ≤ x.toNat) ∧ 0x80 ≤ x.toNat := by split at hlow <;> omega
  have hlarge : (n = 4 → x.toNat ≤ 0x8F) ∧ x.toNat ≤ 0xBF := by split at hhigh <;> omega
  generalize hv : ((n * 64 + (x.toNat - 0x80)) * 64 + (y.toNat - 0x80)) * 64 + (z.toNat - 0x80) = v
  have hval := toNat_val_ofNat (by omega : v < 0xD800 ∨ 0xDFFF < v ∧ v < 0x110000)
  rw [String.utf8EncodeChar, hval]
  simp only [if_neg (by omega : ¬ v ≤ 127), if_neg (by omega : ¬ v ≤ 2047),
    if_neg (by omega : ¬ v ≤ 65535)]
  rw [← eq_ofNat_of_toNat_eq (b := b) (by omega), ← eq_ofNat_of_toNat_eq (b := x) (by omega),
    ← eq_ofNat_of_toNat_eq (b := y) (by omega), ← eq_ofNat_of_toNat_eq (b := z) (by omega)]

/-- A first byte with all the bytes that it announces encodes the scalar value of their bits. -/
theorem utf8EncodeChar_foldl {b : UInt8} {lead : Lead} {bytes : List UInt8}
    (hlead : lead? b = some lead)
    (hlength : (continuation lead.more lead.low lead.high bytes).length = lead.more) :
    String.utf8EncodeChar (.ofNat ((continuation lead.more lead.low lead.high bytes).foldl
        (fun value c => value * 64 + (c.toNat - 0x80)) lead.payload)) =
      b :: continuation lead.more lead.low lead.high bytes := by
  rcases lead?_eq_some hlead with
    ⟨hb, rfl⟩ | ⟨hlow, hhigh, rfl⟩ | ⟨n, hn, hb, rfl⟩ | ⟨n, hn, hb, rfl⟩
  · have hval := toNat_val_ofNat (.inl (by omega : b.toNat < 0xD800))
    rw [continuation_zero, List.foldl_nil, String.utf8EncodeChar, hval]
    simp only [if_pos (by omega : b.toNat ≤ 127), UInt8.ofNat_toNat]
  · obtain ⟨x, hx⟩ := List.length_eq_one_iff.mp hlength
    obtain ⟨hxlow, hxhigh, -⟩ := continuation_eq_cons hx
    rw [hx]
    exact utf8EncodeChar_two hlow hhigh ⟨hxlow, hxhigh⟩
  · obtain ⟨x, y, hxy⟩ := List.length_eq_two.mp hlength
    obtain ⟨hxlow, hxhigh, rest, hrest⟩ := continuation_eq_cons hxy
    obtain ⟨hylow, hyhigh, -⟩ := continuation_eq_cons hrest.symm
    rw [apply_ite UInt8.toNat] at hxlow hxhigh
    rw [hxy]
    exact utf8EncodeChar_three hn hb hxlow hxhigh ⟨hylow, hyhigh⟩
  · obtain ⟨x, y, z, hxyz⟩ := List.length_eq_three.mp hlength
    obtain ⟨hxlow, hxhigh, rest, hrest⟩ := continuation_eq_cons hxyz
    obtain ⟨hylow, hyhigh, later, hlater⟩ := continuation_eq_cons hrest.symm
    obtain ⟨hzlow, hzhigh, -⟩ := continuation_eq_cons hlater.symm
    rw [apply_ite UInt8.toNat] at hxlow hxhigh
    rw [hxyz]
    exact utf8EncodeChar_four hn hb hxlow hxhigh ⟨hylow, hyhigh⟩ ⟨hzlow, hzhigh⟩

/-! ## Pieces -/

/-- The first piece is made of the bytes in front. -/
theorem bytes_front (b : UInt8) (rest : List UInt8) :
    (front b rest).1.bytes = b :: rest.take (front b rest).2 := by
  unfold front
  cases hlead : lead? b with
  | none => simp [Piece.bytes]
  | some lead =>
    have htake : rest.take (continuation lead.more lead.low lead.high rest).length =
        continuation lead.more lead.low lead.high rest :=
      (List.prefix_iff_eq_take.mp (continuation_isPrefix _ _ _ rest)).symm
    simp only [htake]
    split
    next hlength => exact utf8EncodeChar_foldl hlead hlength
    next => split <;> rfl

/-- Taking a byte string apart loses nothing. -/
theorem flatMap_bytes_pieces (bytes : List UInt8) : (pieces bytes).flatMap Piece.bytes = bytes := by
  fun_induction pieces bytes with
  | case1 => rfl
  | case2 b rest ih =>
    rw [List.flatMap_cons, bytes_front, ih, List.cons_append, List.take_append_drop]

/-! ## Texts and first errors -/

/-- Pieces that spell a text are its characters. -/
theorem eq_map_scalar_of_ofPieces {index : Nat} {parts : List Piece} {text : List Char}
    (h : ofPieces index parts = .ok text) : parts = text.map .scalar := by
  induction parts generalizing index text with
  | nil =>
    obtain rfl : [] = text := by simpa [ofPieces] using h
    rfl
  | cons part parts ih =>
    cases part with
    | scalar c =>
      rw [ofPieces] at h
      cases hrest : ofPieces (index + c.utf8Size) parts with
      | error e => simp [hrest, Except.map] at h
      | ok rest =>
        obtain rfl : c :: rest = text := by simpa [hrest, Except.map] using h
        rw [ih hrest, List.map_cons]
    | invalid bytes => simp [ofPieces] at h
    | incomplete bytes => simp [ofPieces] at h

/-- Where pieces spell no text, a first piece is no character, and the error is about it. -/
theorem exists_of_ofPieces_eq_error {index : Nat} {parts : List Piece} {e : IllFormed}
    (h : ofPieces index parts = .error e) :
    ∃ text part later, parts = text.map .scalar ++ part :: later ∧ (∀ c, part ≠ .scalar c) ∧
      e.index = index + (encode text).length ∧
      (e.length = none → ∃ broken, part = .incomplete broken) := by
  induction parts generalizing index e with
  | nil => simp [ofPieces] at h
  | cons part parts ih =>
    cases part with
    | scalar c =>
      rw [ofPieces] at h
      cases hrest : ofPieces (index + c.utf8Size) parts with
      | error e' =>
        obtain rfl : e' = e := by simpa [hrest, Except.map] using h
        obtain ⟨text, bad, later, rfl, hbad, hindex, hlength⟩ := ih hrest
        refine ⟨c :: text, bad, later, rfl, hbad, ?_, hlength⟩
        rw [hindex, encode_cons, List.length_append, String.length_utf8EncodeChar]
        omega
      | ok rest => simp [hrest, Except.map] at h
    | invalid bytes =>
      obtain rfl := Except.error.inj h
      exact ⟨[], .invalid bytes, parts, rfl, by simp, by simp, by simp⟩
    | incomplete bytes =>
      obtain rfl := Except.error.inj h
      exact ⟨[], .incomplete bytes, parts, rfl, by simp, by simp, fun _ => ⟨bytes, rfl⟩⟩

/-- A byte string decodes to a text exactly if it encodes the text. -/
theorem decode_eq_ok_iff {bytes : List UInt8} {text : List Char} :
    decode bytes = .ok text ↔ bytes = encode text := by
  constructor
  · intro h
    rw [← flatMap_bytes_pieces bytes, eq_map_scalar_of_ofPieces h, List.flatMap_map]
    rfl
  · rintro rfl
    exact decode_encode text

theorem isValid_iff {bytes : List UInt8} : IsValid bytes ↔ ∃ text, decode bytes = .ok text := by
  simp only [IsValid, decode_eq_ok_iff]

instance (bytes : List UInt8) : Decidable (IsValid bytes) :=
  decidable_of_iff ((decode bytes).isOk = true) <| by
    rw [isValid_iff]
    cases decode bytes <;> simp [Except.isOk, Except.toBool]

theorem bytes_ne_nil {bytes : List UInt8} : ∀ part ∈ pieces bytes, part.bytes ≠ [] := by
  fun_induction pieces bytes with
  | case1 => simp
  | case2 b rest ih =>
    refine List.forall_mem_cons.mpr ⟨?_, ih⟩
    rw [bytes_front]
    exact List.cons_ne_nil _ _

/-- Characters in front of a byte string are among those in front of its first error. -/
theorem isPrefix_of_map_scalar_append {first second : List Char} {rest later : List Piece}
    {part : Piece} (hpart : ∀ c, part ≠ .scalar c)
    (h : first.map .scalar ++ rest = second.map .scalar ++ part :: later) : first <+: second := by
  induction first generalizing second with
  | nil => exact List.nil_prefix
  | cons c first ih =>
    cases second with
    | nil => exact absurd (List.cons.inj h).1.symm (hpart c)
    | cons d second =>
      obtain ⟨hchar, hrest⟩ := List.cons.inj h
      obtain rfl := Piece.scalar.inj hchar
      exact List.cons_prefix_cons.mpr ⟨rfl, ih hrest⟩

/-- The first error stands behind the longest start of the byte string that is a text. -/
theorem isGreatest_index {bytes : List UInt8} {e : IllFormed} (h : decode bytes = .error e) :
    IsGreatest {n | n ≤ bytes.length ∧ IsValid (bytes.take n)} e.index ∧
      e.index < bytes.length := by
  obtain ⟨text, part, later, hpieces, hpart, hindex, -⟩ := exists_of_ofPieces_eq_error h
  rw [Nat.zero_add] at hindex
  have hbytes : bytes = encode text ++ (part.bytes ++ later.flatMap Piece.bytes) := by
    rw [← flatMap_bytes_pieces bytes, hpieces, List.flatMap_append, List.flatMap_cons,
      List.flatMap_map]
    rfl
  have hmem : part ∈ pieces bytes := by
    rw [hpieces]
    simp
  have hpos : 0 < part.bytes.length := List.length_pos_iff.mpr (bytes_ne_nil part hmem)
  have hlt : e.index < bytes.length := by
    rw [hindex, hbytes, List.length_append, List.length_append]
    omega
  refine ⟨⟨⟨Nat.le_of_lt hlt, text, by rw [hindex, hbytes, List.take_left]⟩, ?_⟩, hlt⟩
  rintro n ⟨hle, other, hother⟩
  -- the characters of a longer start would go on past the piece that is none
  have hsplit : other.map Piece.scalar ++ pieces (bytes.drop n) =
      text.map .scalar ++ part :: later := by
    rw [← hpieces, ← pieces_encode_append, ← hother, List.take_append_drop]
  obtain ⟨between, rfl⟩ := isPrefix_of_map_scalar_append hpart hsplit
  have hn : n = (encode other).length := by
    rw [← hother, List.length_take, Nat.min_eq_left hle]
  rw [hindex, hn, encode_append, List.length_append]
  exact Nat.le_add_right _ _

/-! ## ASCII bytes

A byte below `80` continues no sequence, so a byte string falls apart behind it. -/

theorem le_low_of_lead? {b : UInt8} {lead : Lead} (h : lead? b = some lead) :
    0x80 ≤ lead.low.toNat := by
  rcases lead?_eq_some h with ⟨-, rfl⟩ | ⟨-, -, rfl⟩ | ⟨n, -, -, rfl⟩ | ⟨n, -, -, rfl⟩
  · exact Nat.le_refl 0x80
  · exact Nat.le_refl 0x80
  · show 0x80 ≤ (if n = 0 then (0xA0 : UInt8) else 0x80).toNat
    split <;> decide
  · show 0x80 ≤ (if n = 0 then (0x90 : UInt8) else 0x80).toNat
    split <;> decide

/-- A sequence ends in front of an ASCII byte as it ends at the end. -/
theorem continuation_append_cons {b low : UInt8} (hb : b.toNat < 0x80) (hlow : 0x80 ≤ low.toNat)
    (more : Nat) (high : UInt8) (bytes rest : List UInt8) :
    continuation more low high (bytes ++ b :: rest) = continuation more low high bytes := by
  induction bytes generalizing more low high with
  | nil =>
    cases more with
    | zero => simp
    | succ more =>
      have hout : ¬ (low ≤ b ∧ b ≤ high) := by
        rw [UInt8.le_iff_toNat_le]
        omega
      simp only [List.nil_append, continuation, if_neg hout]
  | cons a bytes ih =>
    cases more with
    | zero => simp
    | succ more =>
      rw [List.cons_append, continuation, continuation, ih (by decide)]

/-- In front of an ASCII byte a first piece doesn't depend on what is behind that byte. It isn't
broken off by the end, and leaves the byte alone. -/
theorem front_append_cons {b : UInt8} (hb : b.toNat < 0x80) (a : UInt8) (bytes rest : List UInt8) :
    front a (bytes ++ b :: rest) = front a (bytes ++ [b]) ∧
      (front a (bytes ++ [b])).2 ≤ bytes.length ∧
      ∀ broken, (front a (bytes ++ [b])).1 ≠ .incomplete broken := by
  unfold front
  cases hlead : lead? a with
  | none => simp
  | some lead =>
    have htaken : ∀ rest, continuation lead.more lead.low lead.high (bytes ++ b :: rest) =
        continuation lead.more lead.low lead.high bytes :=
      continuation_append_cons hb (le_low_of_lead? hlead) lead.more lead.high bytes
    have hle : (continuation lead.more lead.low lead.high bytes).length ≤ bytes.length :=
      (continuation_isPrefix _ _ _ bytes).length_le
    have hshort : ∀ rest, (continuation lead.more lead.low lead.high bytes).length ≠
        (bytes ++ b :: rest).length := by
      intro rest
      rw [List.length_append, List.length_cons]
      omega
    simp only [htaken, if_neg (hshort _)]
    refine ⟨trivial, hle, ?_⟩
    intro broken
    split <;> simp

/-- A byte string falls apart behind an ASCII byte, and none of the pieces up to there is broken off
by an end. -/
theorem pieces_append_cons {b : UInt8} (hb : b.toNat < 0x80) (bytes rest : List UInt8) :
    pieces (bytes ++ b :: rest) = pieces (bytes ++ [b]) ++ pieces rest ∧
      ∀ part ∈ pieces (bytes ++ [b]), ∀ broken, part ≠ .incomplete broken := by
  induction hn : bytes.length using Nat.strongRecOn generalizing bytes with
  | _ n ih =>
    cases bytes with
    | nil =>
      have hfront : ∀ rest, front b rest = (.scalar (.ofNat b.toNat), 0) := by
        intro rest
        simp [front, lead?_one hb]
      simp [pieces, hfront]
    | cons a bytes =>
      obtain ⟨hfront, hle, hbroken⟩ := front_append_cons hb a bytes rest
      obtain ⟨hpieces, hlater⟩ := ih (bytes.drop (front a (bytes ++ [b])).2).length
        (by simp at hn ⊢; omega) (bytes.drop (front a (bytes ++ [b])).2) rfl
      rw [List.cons_append, List.cons_append, pieces, pieces, hfront,
        List.drop_append_of_le_length hle, List.drop_append_of_le_length hle, hpieces,
        List.cons_append]
      exact ⟨rfl, List.forall_mem_cons.mpr ⟨hbroken, hlater⟩⟩

/-! ## Decoding part by part -/

/-- Pieces spell what their first part spells, in front of what their second part spells there. -/
theorem ofPieces_append (index : Nat) (first second : List Piece) :
    ofPieces index (first ++ second) =
      match ofPieces index first with
      | .error e => .error e
      | .ok text => (ofPieces (index + (encode text).length) second).map (text ++ ·) := by
  induction first generalizing index with
  | nil =>
    simp only [List.nil_append, ofPieces, encode_nil, List.length_nil, Nat.add_zero]
    cases ofPieces index second <;> rfl
  | cons part first ih =>
    cases part with
    | scalar c =>
      rw [List.cons_append, ofPieces, ofPieces, ih]
      cases ofPieces (index + c.utf8Size) first with
      | error e => rfl
      | ok text =>
        have hindex : index + c.utf8Size + (encode text).length =
            index + (encode (c :: text)).length := by
          rw [encode_cons, List.length_append, String.length_utf8EncodeChar, Nat.add_assoc]
        simp only [Except.map, hindex]
        cases ofPieces (index + (encode (c :: text)).length) second <;> rfl
    | invalid bytes => rfl
    | incomplete bytes => rfl

/-- Where the pieces start makes a difference to the index of their first error only. -/
theorem ofPieces_add (index offset : Nat) (parts : List Piece) :
    ofPieces (index + offset) parts =
      (ofPieces index parts).mapError fun e => { e with index := e.index + offset } := by
  induction parts generalizing index with
  | nil => rfl
  | cons part parts ih =>
    cases part with
    | scalar c =>
      rw [ofPieces, ofPieces, Nat.add_right_comm, ih]
      cases ofPieces (index + c.utf8Size) parts <;> rfl
    | invalid bytes => rfl
    | incomplete bytes => rfl

/-- Decoding goes on behind an ASCII byte as at the start. -/
theorem decode_append {b : UInt8} (hb : b.toNat < 0x80) (bytes rest : List UInt8) :
    decode (bytes ++ b :: rest) =
      match decode (bytes ++ [b]) with
      | .error e => .error e
      | .ok text =>
        match decode rest with
        | .error e => .error { e with index := e.index + (bytes ++ [b]).length }
        | .ok later => .ok (text ++ later) := by
  rw [decode, (pieces_append_cons hb bytes rest).1, ofPieces_append]
  cases hfirst : decode (bytes ++ [b]) with
  | error e =>
    rw [decode] at hfirst
    simp only [hfirst]
  | ok text =>
    have hlength : (encode text).length = (bytes ++ [b]).length := by
      rw [← decode_eq_ok_iff.mp hfirst]
    rw [decode] at hfirst
    simp only [hfirst, ofPieces_add, hlength]
    rw [decode]
    cases ofPieces 0 (pieces rest) <;> rfl

/-- What ends with an ASCII byte doesn't end in the middle of a sequence. -/
theorem length_ne_none {b : UInt8} (hb : b.toNat < 0x80) {bytes : List UInt8} {e : IllFormed}
    (h : decode (bytes ++ [b]) = .error e) : e.length ≠ none := by
  intro hlength
  obtain ⟨text, part, later, hpieces, -, -, hbroken⟩ := exists_of_ofPieces_eq_error h
  obtain ⟨broken, rfl⟩ := hbroken hlength
  refine (pieces_append_cons hb bytes []).2 (.incomplete broken) ?_ broken rfl
  rw [hpieces]
  simp

end TextEmbed.Utf8
