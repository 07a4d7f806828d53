import Mathlib.Tactic.IntervalCases
import TextEmbed.Utf8

/-!
# Reading back encoded texts

The bytes of a text read as that text, so a text is determined by its bytes. The bytes below `80`
stand for themselves: none of them is part of a longer sequence.

## Main results

* `front_utf8EncodeChar`: the first piece of an encoded character is that character, whatever
  follows;
* `decode_encode` and `encode_injective`: decoding inverts encoding;
* `eq_of_mem_utf8EncodeChar`: an ASCII byte occurs in the encoding of its own character only.
-/

namespace TextEmbed.Utf8

theorem toNat_ofNat {n : Nat} (h : n < 256) : (UInt8.ofNat n).toNat = n := by
  simp [Nat.mod_eq_of_lt h]

/-- Scalar values end at `10FFFF` and leave out the surrogates. -/
theorem toNat_scalar (c : Char) : c.toNat < 0x110000 ∧ ¬ (0xD800 ≤ c.toNat ∧ c.toNat < 0xE000) := by
  have hvalid := c.valid
  have hval : c.val.toNat = c.toNat := rfl
  simp only [UInt32.isValidChar, Nat.isValidChar] at hvalid
  omega

/-! ## First bytes -/

/-- A byte below `80` is a sequence of its own. -/
theorem lead?_one {b : UInt8} (h : b.toNat < 0x80) :
    lead? b = some { more := 0, payload := b.toNat } := by
  simp [lead?, UInt8.lt_iff_toNat_lt, h]

/-- The first bytes of sequences of two. -/
theorem lead?_two {b : UInt8} (h : 0xC2 ≤ b.toNat) (h' : b.toNat < 0xE0) :
    lead? b = some { more := 1, payload := b.toNat - 0xC0 } := by
  have ascii : ¬ b < 0x80 := by simpa [UInt8.lt_iff_toNat_lt] using (by omega : 0x80 ≤ b.toNat)
  have low : ¬ b < 0xC2 := by simpa [UInt8.lt_iff_toNat_lt] using h
  have high : b < 0xE0 := by simpa [UInt8.lt_iff_toNat_lt] using h'
  rw [lead?, if_neg ascii, if_neg low, if_pos high]

/-- The first bytes of sequences of three, with the bounds that keep overlong forms and surrogates
out. -/
theorem lead?_three {n : Nat} (h : n < 16) :
    lead? (.ofNat (n + 0xE0)) =
      some { more := 2, payload := n, low := if n = 0 then 0xA0 else 0x80,
             high := if n = 13 then 0x9F else 0xBF } := by
  interval_cases n <;> rfl

/-- The first bytes of sequences of four, with the bounds that keep overlong forms and values above
`10FFFF` out. -/
theorem lead?_four {n : Nat} (h : n < 5) :
    lead? (.ofNat (n + 0xF0)) =
      some { more := 3, payload := n, low := if n = 0 then 0x90 else 0x80,
             high := if n = 4 then 0x8F else 0xBF } := by
  interval_cases n <;> rfl

/-! ## Continuations -/

@[simp]
theorem continuation_zero (low high : UInt8) (bytes : List UInt8) :
    continuation 0 low high bytes = [] := by
  cases bytes <;> rfl

/-- Six bits in a byte between the bounds continue a sequence. -/
theorem continuation_second {more n : Nat} {low high : UInt8} (hlow : low.toNat ≤ n % 64 + 0x80)
    (hhigh : n % 64 + 0x80 ≤ high.toNat) (rest : List UInt8) :
    continuation (more + 1) low high (.ofNat (n % 64 + 0x80) :: rest) =
      .ofNat (n % 64 + 0x80) :: continuation more 0x80 0xBF rest := by
  have hbyte : (UInt8.ofNat (n % 64 + 0x80)).toNat = n % 64 + 0x80 := toNat_ofNat (by omega)
  have hlow : low ≤ .ofNat (n % 64 + 0x80) := by rwa [UInt8.le_iff_toNat_le, hbyte]
  have hhigh : .ofNat (n % 64 + 0x80) ≤ high := by rwa [UInt8.le_iff_toNat_le, hbyte]
  simp only [continuation, hlow, hhigh, and_self, if_true]

/-- Behind the second byte six bits always continue a sequence. -/
theorem continuation_later {more n : Nat} (rest : List UInt8) :
    continuation (more + 1) 0x80 0xBF (.ofNat (n % 64 + 0x80) :: rest) =
      .ofNat (n % 64 + 0x80) :: continuation more 0x80 0xBF rest := by
  refine continuation_second ?_ ?_ rest
  · show 0x80 ≤ _
    omega
  · show _ ≤ 0xBF
    omega

/-! ## Characters -/

/-- A first byte with all the bytes that it announces is the scalar value of their bits. -/
private theorem front_eq_scalar {b : UInt8} {bs rest : List UInt8} {lead : Lead} {c : Char}
    (hlead : lead? b = some lead)
    (htaken : continuation lead.more lead.low lead.high (bs ++ rest) = bs)
    (hlength : bs.length = lead.more)
    (hvalue : bs.foldl (fun value c => value * 64 + (c.toNat - 0x80)) lead.payload = c.toNat) :
    front b (bs ++ rest) = (.scalar c, bs.length) := by
  simp only [front, hlead, htaken, hlength, if_true, hvalue, Char.ofNat_toNat]

/-- An encoded character is the first piece of whatever it stands in front of. -/
theorem front_utf8EncodeChar (c : Char) (rest : List UInt8) :
    ∃ b bs, String.utf8EncodeChar c = b :: bs ∧ front b (bs ++ rest) = (.scalar c, bs.length) := by
  have hscalar := toNat_scalar c
  have hval : c.val.toNat = c.toNat := rfl
  fun_cases String.utf8EncodeChar c with
  | case1 v hone =>
    refine ⟨_, [], rfl, ?_⟩
    have hbyte : (UInt8.ofNat v).toNat = c.toNat := toNat_ofNat (by omega)
    exact front_eq_scalar (lead?_one (by omega)) (by simp) rfl hbyte
  | case2 v hone htwo =>
    refine ⟨_, _, rfl, ?_⟩
    have hbyte : (UInt8.ofNat (v / 64 % 0x20 + 0xc0)).toNat = v / 64 + 0xC0 := by
      rw [toNat_ofNat (by omega)]
      omega
    apply front_eq_scalar (lead?_two (by omega) (by omega))
    · exact (continuation_later rest).trans (by rw [continuation_zero])
    · rfl
    · simp only [List.foldl_cons, List.foldl_nil]
      rw [hbyte, toNat_ofNat (by omega)]
      omega
  | case3 v hone htwo hthree =>
    refine ⟨_, _, rfl, ?_⟩
    apply front_eq_scalar (lead?_three (by omega))
    · simp only [List.cons_append, List.nil_append]
      -- the bounds of the second byte hold as the value is neither small nor a surrogate
      rw [continuation_second, continuation_later, continuation_zero]
      · split <;> simp
        omega
      · split <;> simp <;> omega
    · rfl
    · simp only [List.foldl_cons, List.foldl_nil]
      rw [toNat_ofNat (by omega), toNat_ofNat (by omega)]
      omega
  | case4 v hone htwo hthree =>
    refine ⟨_, _, rfl, ?_⟩
    -- scalar values end at `10FFFF`, so three bits of the first byte are never exceeded
    rw [show v / 262144 % 0x08 = v / 262144 by omega]
    apply front_eq_scalar (lead?_four (by omega))
    · simp only [List.cons_append, List.nil_append]
      -- the bounds of the second byte hold as the value is neither small nor above `10FFFF`
      rw [continuation_second, continuation_later, continuation_later, continuation_zero]
      · split <;> simp
        omega
      · split <;> simp <;> omega
    · rfl
    · simp only [List.foldl_cons, List.foldl_nil]
      rw [toNat_ofNat (by omega), toNat_ofNat (by omega), toNat_ofNat (by omega)]
      omega

/-- An ASCII byte occurs in the encoding of its own character only. -/
theorem toNat_eq_of_mem_utf8EncodeChar {b : UInt8} {c : Char} (h : b ∈ String.utf8EncodeChar c)
    (hascii : b.toNat < 0x80) : c.toNat = b.toNat := by
  have hval : c.val.toNat = c.toNat := rfl
  -- every byte of a longer sequence has its highest bit set
  have hlarge : ∀ {n : Nat}, 0x80 ≤ n → n < 256 → b ≠ .ofNat n := by
    rintro n hlow hhigh rfl
    rw [toNat_ofNat hhigh] at hascii
    omega
  revert h
  fun_cases String.utf8EncodeChar c with
  | case1 v hone =>
    intro h
    obtain rfl := List.mem_singleton.mp h
    rw [toNat_ofNat (by omega)]
    exact hval.symm
  | case2 v hone htwo =>
    simp only [List.mem_cons, List.not_mem_nil, or_false]
    rintro (h | h) <;> exact absurd h (hlarge (by omega) (by omega))
  | case3 v hone htwo hthree =>
    simp only [List.mem_cons, List.not_mem_nil, or_false]
    rintro (h | h | h) <;> exact absurd h (hlarge (by omega) (by omega))
  | case4 v hone htwo hthree =>
    simp only [List.mem_cons, List.not_mem_nil, or_false]
    rintro (h | h | h | h) <;> exact absurd h (hlarge (by omega) (by omega))

/-- The byte of an ASCII character is a byte of no other character. -/
theorem eq_of_mem_utf8EncodeChar {b : UInt8} {c ascii : Char} (h : b ∈ String.utf8EncodeChar c)
    (hascii : ascii.toNat < 0x80) (hb : b.toNat = ascii.toNat) : c = ascii := by
  have hc : c.toNat = b.toNat := toNat_eq_of_mem_utf8EncodeChar h (by omega)
  exact Char.toNat_inj.mp (hc.trans hb)

/-! ## Texts -/

/-- The characters of an encoded text are the first pieces of whatever it stands in front of. -/
theorem pieces_encode_append (text : List Char) (rest : List UInt8) :
    pieces (encode text ++ rest) = text.map .scalar ++ pieces rest := by
  induction text with
  | nil => rfl
  | cons c text ih =>
    -- the first piece is the first character, whatever text comes behind it
    obtain ⟨b, bs, hchar, hfront⟩ := front_utf8EncodeChar c (encode text ++ rest)
    rw [encode_cons, List.append_assoc, hchar, List.cons_append, pieces, hfront, List.drop_left, ih,
      List.map_cons, List.cons_append]

/-- The pieces of an encoded text are its characters. -/
theorem pieces_encode (text : List Char) : pieces (encode text) = text.map .scalar := by
  have hpieces := pieces_encode_append text []
  rwa [List.append_nil, pieces, List.append_nil] at hpieces

/-- Characters spell the text that they make up. -/
theorem ofPieces_map_scalar (index : Nat) (text : List Char) :
    ofPieces index (text.map .scalar) = .ok text := by
  induction text generalizing index with
  | nil => rfl
  | cons c text ih => simp [ofPieces, ih, Except.map]

/-- Decoding inverts encoding. -/
@[simp]
theorem decode_encode (text : List Char) : decode (encode text) = .ok text := by
  rw [decode, pieces_encode, ofPieces_map_scalar]

/-- Texts with the same bytes are the same. -/
theorem encode_injective : Function.Injective encode := by
  intro first second h
  have hdecode := congrArg decode h
  simpa using hdecode

/-- The bytes of texts in a row are those of the texts. -/
theorem encode_flatten (texts : List (List Char)) :
    encode texts.flatten = (texts.map encode).flatten := by
  induction texts with
  | nil => rfl
  | cons text texts ih =>
    rw [List.flatten_cons, encode_append, ih, List.map_cons, List.flatten_cons]

@[simp]
theorem encode_eq_nil_iff {text : List Char} : encode text = [] ↔ text = [] :=
  encode_injective.eq_iff (b := [])

end TextEmbed.Utf8
