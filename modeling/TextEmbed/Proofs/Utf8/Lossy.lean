import TextEmbed.Proofs.Utf8.Validity

/-!
# What is shown of ill-formed bytes

`lossy` shows every byte string as a text. It shows a text as it is. Of other byte strings it shows
the characters that are there, and one replacement character for each piece that is none. So what it
shows has no character that the bytes don't have, other than the replacement character.

## Main results

* `lossy_encode`: texts are shown as they are;
* `lossy_eq_nil_iff`: something is shown of everything;
* `mem_lossy`: where the characters come from that are shown;
* `lossy_eq_iff`: what is shown without a replacement character is what there is.
-/

namespace TextEmbed.Utf8

/-- The character that is shown for pieces that are no characters. -/
def replacement : Char := '\uFFFD'

@[simp]
theorem lossy_encode (text : List Char) : lossy (encode text) = text := by
  rw [lossy, pieces_encode, List.map_map]
  exact List.map_id text

theorem pieces_eq_nil_iff {bytes : List UInt8} : pieces bytes = [] ↔ bytes = [] := by
  cases bytes with
  | nil => simp [pieces]
  | cons b rest => simp [pieces]

theorem lossy_eq_nil_iff {bytes : List UInt8} : lossy bytes = [] ↔ bytes = [] := by
  rw [lossy, List.map_eq_nil_iff, pieces_eq_nil_iff]

/-- A piece is shown by its bytes or by the replacement character. -/
theorem Piece.shown_cases (piece : Piece) :
    piece.bytes = String.utf8EncodeChar piece.shown ∨ piece.shown = replacement := by
  cases piece with
  | scalar c => exact .inl rfl
  | invalid bytes => exact .inr rfl
  | incomplete bytes => exact .inr rfl

/-- A character that is shown is among the bytes, or is the replacement character. -/
theorem mem_lossy {bytes : List UInt8} {c : Char} (h : c ∈ lossy bytes) :
    (∀ b ∈ String.utf8EncodeChar c, b ∈ bytes) ∨ c = replacement := by
  obtain ⟨piece, hpiece, rfl⟩ := List.mem_map.mp h
  refine piece.shown_cases.imp_left fun hbytes b hb => ?_
  rw [← flatMap_bytes_pieces bytes]
  exact List.mem_flatMap.mpr ⟨piece, hpiece, hbytes ▸ hb⟩

/-- Where no replacement character is shown, the bytes are those of what is shown. -/
theorem encode_lossy {bytes : List UInt8} (h : replacement ∉ lossy bytes) :
    encode (lossy bytes) = bytes := by
  -- a piece that is no character would show the replacement character
  have hpieces : ∀ piece ∈ pieces bytes, String.utf8EncodeChar piece.shown = piece.bytes := by
    intro piece hpiece
    rcases piece.shown_cases with hbytes | hshown
    · exact hbytes.symm
    · exact absurd (hshown ▸ List.mem_map_of_mem hpiece) h
  calc encode (lossy bytes)
      = (pieces bytes).flatMap fun piece => String.utf8EncodeChar piece.shown := by
        rw [encode, lossy, List.flatMap_map]
    _ = (pieces bytes).flatMap Piece.bytes := List.flatMap_congr hpieces
    _ = bytes := flatMap_bytes_pieces bytes

/-- A text without replacement characters is shown of its own bytes only. -/
theorem lossy_eq_iff {bytes : List UInt8} {text : List Char} (h : replacement ∉ text) :
    lossy bytes = text ↔ bytes = encode text := by
  constructor
  · rintro rfl
    exact (encode_lossy h).symm
  · rintro rfl
    exact lossy_encode text

end TextEmbed.Utf8
