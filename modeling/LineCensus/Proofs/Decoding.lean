import LineCensus.Text.Utf8
import LineCensus.Text.Units
import Mathlib

/-!
What decoding keeps of a byte sequence. Well-formed UTF-8 and texts of characters are two forms of the
same thing, but for a mark of the encoding in front, which is not part of the text; of all other bytes
each one becomes a unit of its own. Well-formed is said by the bits of a character and the range of
its code, not by the table of first bytes that the decoder goes by.
-/

namespace LineCensus.Text

set_option autoImplicit false

/-! ### Well-formed bytes -/

/-- Bytes in the form of one character, the code that their bits make, and the least code that needs as
many bytes. -/
inductive HasForm : List Nat → Nat → Nat → Prop where
  | one {a : Nat} (first : a < 0x80) : HasForm [a] a 0
  | two {a b : Nat} (first : a < 0x20) (second : b < 0x40) :
      HasForm [0xc0 + a, 0x80 + b] (a * 0x40 + b) 0x80
  | three {a b c : Nat} (first : a < 0x10) (second : b < 0x40) (third : c < 0x40) :
      HasForm [0xe0 + a, 0x80 + b, 0x80 + c] ((a * 0x40 + b) * 0x40 + c) 0x800
  | four {a b c d : Nat} (first : a < 0x8) (second : b < 0x40) (third : c < 0x40)
      (fourth : d < 0x40) :
      HasForm [0xf0 + a, 0x80 + b, 0x80 + c, 0x80 + d] (((a * 0x40 + b) * 0x40 + c) * 0x40 + d)
        0x10000

/-- Whether bytes spell a code: not in a longer form than needed, and no surrogate or number that is
too large. -/
structure Spells (bytes : List Nat) (code : Nat) : Prop where
  shortest : ∃ least, HasForm bytes code least ∧ least ≤ code
  proper : ¬(0xd800 ≤ code ∧ code ≤ 0xdfff)
  bounded : code ≤ 0x10ffff

/-- Bytes that spell one code after another, up to their end. -/
inductive WellFormed : List Nat → Prop where
  | nil : WellFormed []
  | cons {first rest : List Nat} {code : Nat} (spelled : Spells first code)
      (behind : WellFormed rest) : WellFormed (first ++ rest)

theorem scalar_of_char (c : Char) :
    ¬(0xd800 ≤ c.toNat ∧ c.toNat ≤ 0xdfff) ∧ c.toNat ≤ 0x10ffff := by
  have valid := c.valid
  simp only [UInt32.isValidChar, Nat.isValidChar] at valid
  change ¬(0xd800 ≤ c.val.toNat ∧ c.val.toNat ≤ 0xdfff) ∧ c.val.toNat ≤ 0x10ffff
  omega

theorem to_nat_of_scalar {code : Nat} (proper : ¬(0xd800 ≤ code ∧ code ≤ 0xdfff))
    (bounded : code ≤ 0x10ffff) : (Char.ofNat code).toNat = code := by
  have valid : code.isValidChar := by
    simp only [Nat.isValidChar]
    omega
  simp [Char.ofNat, valid, Char.toNat, Char.ofNatAux]

theorem encode_char_eq (c : Char) :
    encodeChar c =
      if c.toNat < 0x80 then [c.toNat]
      else if c.toNat < 0x800 then [0xc0 + c.toNat / 0x40, 0x80 + c.toNat % 0x40]
      else if c.toNat < 0x10000 then
        [0xe0 + c.toNat / 0x1000, 0x80 + c.toNat / 0x40 % 0x40, 0x80 + c.toNat % 0x40]
      else [0xf0 + c.toNat / 0x40000, 0x80 + c.toNat / 0x1000 % 0x40,
        0x80 + c.toNat / 0x40 % 0x40, 0x80 + c.toNat % 0x40] := by
  simp [encodeChar, Nat.shiftRight_eq_div_pow]

theorem spells_encode_char (c : Char) : Spells (encodeChar c) c.toNat := by
  obtain ⟨proper, bounded⟩ := scalar_of_char c
  refine ⟨?_, proper, bounded⟩
  rw [encode_char_eq]
  generalize c.toNat = code at proper bounded
  split
  · exact ⟨0, .one ‹_›, by omega⟩
  split
  · have form := HasForm.two (a := code / 0x40) (b := code % 0x40) (by omega) (by omega)
    rw [show code / 0x40 * 0x40 + code % 0x40 = code by omega] at form
    exact ⟨_, form, by omega⟩
  split
  · have form := HasForm.three (a := code / 0x1000) (b := code / 0x40 % 0x40) (c := code % 0x40)
      (by omega) (by omega) (by omega)
    rw [show (code / 0x1000 * 0x40 + code / 0x40 % 0x40) * 0x40 + code % 0x40 = code by omega] at form
    exact ⟨_, form, by omega⟩
  · have form := HasForm.four (a := code / 0x40000) (b := code / 0x1000 % 0x40)
      (c := code / 0x40 % 0x40) (d := code % 0x40) (by omega) (by omega) (by omega) (by omega)
    rw [show ((code / 0x40000 * 0x40 + code / 0x1000 % 0x40) * 0x40 + code / 0x40 % 0x40) * 0x40 +
      code % 0x40 = code by omega] at form
    exact ⟨_, form, by omega⟩

/-- There is one way to spell a character. -/
theorem encode_char_of_spells {bytes : List Nat} {code : Nat} (spelled : Spells bytes code) :
    encodeChar (Char.ofNat code) = bytes := by
  obtain ⟨least, form, shortest⟩ := spelled.shortest
  have bounded := spelled.bounded
  rw [encode_char_eq, to_nat_of_scalar spelled.proper bounded]
  cases form with
  | one first => rw [if_pos first]
  | two first second =>
      rw [if_neg (by omega), if_pos (by omega)]
      simp only [List.cons.injEq, and_true]
      omega
  | three first second third =>
      rw [if_neg (by omega), if_neg (by omega), if_pos (by omega)]
      simp only [List.cons.injEq, and_true]
      omega
  | four first second third fourth =>
      rw [if_neg (by omega), if_neg (by omega), if_neg (by omega)]
      simp only [List.cons.injEq, and_true]
      omega

/-- Bytes are well-formed if characters are encoded in them. -/
theorem well_formed_iff (bytes : List Nat) :
    WellFormed bytes ↔ ∃ chars : List Char, chars.flatMap encodeChar = bytes := by
  constructor
  · intro formed
    induction formed with
    | nil => exact ⟨[], rfl⟩
    | @cons first rest code spelled behind ih =>
        obtain ⟨chars, encoded⟩ := ih
        refine ⟨Char.ofNat code :: chars, ?_⟩
        rw [List.flatMap_cons, encode_char_of_spells spelled, encoded]
  · rintro ⟨chars, rfl⟩
    induction chars with
    | nil => exact .nil
    | cons c chars ih => exact .cons (spells_encode_char c) ih

/-! ### First bytes -/

theorem opening_of_two {a : Nat} (least : 2 ≤ a) (bound : a < 0x20) :
    Opening.ofByte (0xc0 + a) = some ⟨a, 1, 0x80, 0xbf⟩ := by
  rw [Opening.ofByte, if_pos (by omega), Nat.add_sub_cancel_left]

/-- The bounds for the second byte leave out the codes that are too small and the surrogates. -/
theorem opening_of_three {a : Nat} (bound : a < 0x10) :
    ∃ low high, Opening.ofByte (0xe0 + a) = some ⟨a, 2, low, high⟩ ∧
      ∀ b, low ≤ b ∧ b ≤ high ↔ 0x80 ≤ b ∧ b ≤ 0xbf ∧ 0x20 ≤ a * 0x40 + (b - 0x80) ∧
        ¬(0x360 ≤ a * 0x40 + (b - 0x80) ∧ a * 0x40 + (b - 0x80) ≤ 0x37f) := by
  simp only [Opening.ofByte, beq_iff_eq]
  rw [if_neg (by omega)]
  by_cases least : a = 0
  · subst least
    exact ⟨_, _, rfl, by omega⟩
  by_cases surrogates : a = 0xd
  · subst surrogates
    exact ⟨_, _, rfl, by omega⟩
  rw [if_neg (by omega), if_neg (by omega), if_pos (by omega), Nat.add_sub_cancel_left]
  exact ⟨_, _, rfl, by omega⟩

/-- The bounds for the second byte leave out the codes that are too small or too large. -/
theorem opening_of_four {a : Nat} (bound : a < 5) :
    ∃ low high, Opening.ofByte (0xf0 + a) = some ⟨a, 3, low, high⟩ ∧
      ∀ b, low ≤ b ∧ b ≤ high ↔ 0x80 ≤ b ∧ b ≤ 0xbf ∧ 0x10 ≤ a * 0x40 + (b - 0x80) ∧
        a * 0x40 + (b - 0x80) ≤ 0x10f := by
  simp only [Opening.ofByte, beq_iff_eq]
  rw [if_neg (by omega), if_neg (by omega), if_neg (by omega), if_neg (by omega)]
  by_cases least : a = 0
  · subst least
    exact ⟨_, _, rfl, by omega⟩
  by_cases greatest : a = 4
  · subst greatest
    exact ⟨_, _, rfl, by omega⟩
  rw [if_neg (by omega), if_pos (by omega), Nat.add_sub_cancel_left]
  exact ⟨_, _, rfl, by omega⟩

theorem opening_of_none {byte : Nat} (outside : byte < 0xc2 ∨ 0xf5 ≤ byte) :
    Opening.ofByte byte = none := by
  simp only [Opening.ofByte, beq_iff_eq]
  repeat rw [if_neg (by omega)]

theorem piece_from_within {low high byte : Nat} (within : low ≤ byte ∧ byte ≤ high)
    (bits size more : Nat) (rest : List Nat) :
    pieceFrom bits size low high (more + 1) (byte :: rest) =
      pieceFrom (bits * 0x40 + (byte - 0x80)) (size + 1) 0x80 0xbf more rest := by
  rw [pieceFrom, if_pos within]

theorem within_of_piece_from {bits size low high more count : Nat} {bytes : List Nat} {c : Char}
    (read : pieceFrom bits size low high (more + 1) bytes = .character c count) :
    ∃ byte rest, bytes = byte :: rest ∧ (low ≤ byte ∧ byte ≤ high) ∧
      pieceFrom (bits * 0x40 + (byte - 0x80)) (size + 1) 0x80 0xbf more rest =
        .character c count := by
  cases bytes with
  | nil => cases read
  | cons byte rest =>
      by_cases within : low ≤ byte ∧ byte ≤ high
      · rw [piece_from_within within] at read
        exact ⟨byte, rest, rfl, within, read⟩
      · rw [pieceFrom, if_neg within] at read
        cases read

/-! ### Pieces -/

/-- A decoder reads a character where its code is spelled. -/
theorem piece_at_of_spells {byte code : Nat} {tail : List Nat} (spelled : Spells (byte :: tail) code)
    (behind : List Nat) :
    pieceAt byte (tail ++ behind) = .character (Char.ofNat code) (tail.length + 1) := by
  obtain ⟨least, form, shortest⟩ := spelled.shortest
  have proper := spelled.proper
  have bounded := spelled.bounded
  have inside {b : Nat} (bound : b < 0x40) : 0x80 ≤ 0x80 + b ∧ 0x80 + b ≤ 0xbf := by omega
  cases form with
  | one first =>
      rw [pieceAt, if_pos first]
      rfl
  | two first second =>
      rw [pieceAt, if_neg (by omega), opening_of_two (by omega) first]
      simp only [List.cons_append, List.nil_append]
      rw [piece_from_within (inside second), Nat.add_sub_cancel_left]
      rfl
  | @three a b c first second third =>
      obtain ⟨low, high, opens, within⟩ := opening_of_three first
      have bounds := (within (0x80 + b)).mpr (by omega)
      rw [pieceAt, if_neg (by omega), opens]
      simp only [List.cons_append, List.nil_append]
      rw [piece_from_within bounds, piece_from_within (inside third), Nat.add_sub_cancel_left,
        Nat.add_sub_cancel_left]
      rfl
  | @four a b c d first second third fourth =>
      obtain ⟨low, high, opens, within⟩ := opening_of_four (a := a) (by omega)
      have bounds := (within (0x80 + b)).mpr (by omega)
      rw [pieceAt, if_neg (by omega), opens]
      simp only [List.cons_append, List.nil_append]
      rw [piece_from_within bounds, piece_from_within (inside third),
        piece_from_within (inside fourth), Nat.add_sub_cancel_left, Nat.add_sub_cancel_left,
        Nat.add_sub_cancel_left]
      rfl

/-- Whether the code of a character is spelled by a byte and some of those behind it, as many as are
counted together. -/
def BeginsWith (byte : Nat) (rest : List Nat) (c : Char) (count : Nat) : Prop :=
  ∃ tail behind code, rest = tail ++ behind ∧ Spells (byte :: tail) code ∧ c = Char.ofNat code ∧
    count = tail.length + 1

section

variable {a count : Nat} {rest : List Nat} {c : Char}

theorem begins_with_two (least : 2 ≤ a) (bound : a < 0x20)
    (read : pieceFrom a 1 0x80 0xbf 1 rest = .character c count) :
    BeginsWith (0xc0 + a) rest c count := by
  obtain ⟨second, behind, rfl, inside, last⟩ := within_of_piece_from read
  obtain ⟨b, rfl⟩ : ∃ b, second = 0x80 + b := ⟨second - 0x80, by omega⟩
  rw [Nat.add_sub_cancel_left, pieceFrom, Piece.character.injEq] at last
  refine ⟨[0x80 + b], behind, _, rfl, ?_, last.1.symm, last.2.symm⟩
  exact ⟨⟨_, .two bound (by omega), by omega⟩, by omega, by omega⟩

theorem begins_with_three {low high : Nat} (bound : a < 0x10)
    (within : ∀ b, low ≤ b ∧ b ≤ high ↔ 0x80 ≤ b ∧ b ≤ 0xbf ∧ 0x20 ≤ a * 0x40 + (b - 0x80) ∧
      ¬(0x360 ≤ a * 0x40 + (b - 0x80) ∧ a * 0x40 + (b - 0x80) ≤ 0x37f))
    (read : pieceFrom a 1 low high 2 rest = .character c count) :
    BeginsWith (0xe0 + a) rest c count := by
  obtain ⟨second, rest, rfl, inside, next⟩ := within_of_piece_from read
  obtain ⟨third, behind, rfl, further, last⟩ := within_of_piece_from next
  rw [within] at inside
  obtain ⟨b, rfl⟩ : ∃ b, second = 0x80 + b := ⟨second - 0x80, by omega⟩
  obtain ⟨d, rfl⟩ : ∃ d, third = 0x80 + d := ⟨third - 0x80, by omega⟩
  rw [Nat.add_sub_cancel_left] at inside last
  rw [Nat.add_sub_cancel_left, pieceFrom, Piece.character.injEq] at last
  refine ⟨[0x80 + b, 0x80 + d], behind, _, rfl, ?_, last.1.symm, last.2.symm⟩
  exact ⟨⟨_, .three bound (by omega) (by omega), by omega⟩, by omega, by omega⟩

theorem begins_with_four {low high : Nat} (bound : a < 0x8)
    (within : ∀ b, low ≤ b ∧ b ≤ high ↔ 0x80 ≤ b ∧ b ≤ 0xbf ∧ 0x10 ≤ a * 0x40 + (b - 0x80) ∧
      a * 0x40 + (b - 0x80) ≤ 0x10f)
    (read : pieceFrom a 1 low high 3 rest = .character c count) :
    BeginsWith (0xf0 + a) rest c count := by
  obtain ⟨second, rest, rfl, inside, next⟩ := within_of_piece_from read
  obtain ⟨third, rest, rfl, further, more⟩ := within_of_piece_from next
  obtain ⟨fourth, behind, rfl, furthest, last⟩ := within_of_piece_from more
  rw [within] at inside
  obtain ⟨b, rfl⟩ : ∃ b, second = 0x80 + b := ⟨second - 0x80, by omega⟩
  obtain ⟨d, rfl⟩ : ∃ d, third = 0x80 + d := ⟨third - 0x80, by omega⟩
  obtain ⟨e, rfl⟩ : ∃ e, fourth = 0x80 + e := ⟨fourth - 0x80, by omega⟩
  rw [Nat.add_sub_cancel_left] at inside last
  rw [Nat.add_sub_cancel_left, Nat.add_sub_cancel_left, pieceFrom, Piece.character.injEq] at last
  refine ⟨[0x80 + b, 0x80 + d, 0x80 + e], behind, _, rfl, ?_, last.1.symm, last.2.symm⟩
  exact ⟨⟨_, .four bound (by omega) (by omega) (by omega), by omega⟩, by omega, by omega⟩

end

/-- Where a decoder reads a character, its code is spelled. -/
theorem begins_with_of_piece_at {byte count : Nat} {rest : List Nat} {c : Char}
    (read : pieceAt byte rest = .character c count) : BeginsWith byte rest c count := by
  rw [pieceAt] at read
  by_cases single : byte < 0x80
  · rw [if_pos single, Piece.character.injEq] at read
    refine ⟨[], rest, byte, rfl, ?_, read.1.symm, read.2.symm⟩
    exact ⟨⟨0, .one single, by omega⟩, by omega, by omega⟩
  rw [if_neg single] at read
  by_cases outside : byte < 0xc2 ∨ 0xf5 ≤ byte
  · rw [opening_of_none outside] at read
    cases read
  by_cases isTwo : byte < 0xe0
  · obtain ⟨a, rfl⟩ : ∃ a, byte = 0xc0 + a := ⟨byte - 0xc0, by omega⟩
    rw [opening_of_two (by omega) (by omega)] at read
    exact begins_with_two (by omega) (by omega) read
  by_cases isThree : byte < 0xf0
  · obtain ⟨a, rfl⟩ : ∃ a, byte = 0xe0 + a := ⟨byte - 0xe0, by omega⟩
    obtain ⟨low, high, opens, within⟩ := opening_of_three (a := a) (by omega)
    rw [opens] at read
    exact begins_with_three (by omega) within read
  · obtain ⟨a, rfl⟩ : ∃ a, byte = 0xf0 + a := ⟨byte - 0xf0, by omega⟩
    obtain ⟨low, high, opens, within⟩ := opening_of_four (a := a) (by omega)
    rw [opens] at read
    exact begins_with_four (by omega) within read

theorem pieces_after_eq (done : List Piece) (bytes : List Nat) :
    piecesAfter done bytes = done.reverse ++ pieces bytes := by
  rw [pieces]
  induction length : bytes.length using Nat.strongRecOn generalizing bytes done with
  | ind size ih =>
      cases bytes with
      | nil => simp [piecesAfter]
      | cons byte rest =>
          have shorter : (rest.drop ((pieceAt byte rest).size - 1)).length < size := by
            rw [← length, List.length_drop, List.length_cons]
            omega
          simp only [piecesAfter]
          rw [ih _ shorter _ _ rfl, ih _ shorter [pieceAt byte rest] _ rfl]
          simp

theorem pieces_cons (byte : Nat) (rest : List Nat) :
    pieces (byte :: rest) =
      pieceAt byte rest :: pieces (rest.drop ((pieceAt byte rest).size - 1)) := by
  rw [pieces, piecesAfter]
  simp only [pieces_after_eq, List.reverse_singleton, List.singleton_append]

theorem pieces_encode_char (c : Char) (behind : List Nat) :
    pieces (encodeChar c ++ behind) = .character c (encodeChar c).length :: pieces behind := by
  have spelled := spells_encode_char c
  cases bytes : encodeChar c with
  | nil =>
      rw [bytes] at spelled
      obtain ⟨least, form, _⟩ := spelled.shortest
      cases form
  | cons byte tail =>
      rw [bytes] at spelled
      have read := piece_at_of_spells spelled behind
      rw [Char.ofNat_toNat] at read
      rw [List.cons_append, pieces_cons, read]
      simp [Piece.size]

theorem encode_char_append_inj {c d : Char} {left right : List Nat}
    (same : encodeChar c ++ left = encodeChar d ++ right) : c = d := by
  have read := congrArg pieces same
  rw [pieces_encode_char, pieces_encode_char, List.cons.injEq, Piece.character.injEq] at read
  exact read.1.1

/-- All pieces are characters exactly where these are encoded, one behind the other. -/
theorem decoded_iff (bytes : List Nat) (chars : List Char) :
    (pieces bytes).mapM Piece.char? = some chars ↔ chars.flatMap encodeChar = bytes := by
  constructor
  · -- The induction is on the number of bytes, for the pieces are of different sizes.
    induction length : bytes.length using Nat.strongRecOn generalizing bytes chars with
    | ind size ih =>
        intro decoded
        cases bytes with
        | nil =>
            rw [pieces, piecesAfter] at decoded
            cases decoded
            rfl
        | cons byte rest =>
            rw [pieces_cons] at decoded
            cases read : pieceAt byte rest with
            | broken count => simp [read, Piece.char?] at decoded
            | character c count =>
                obtain ⟨tail, behind, code, rfl, spelled, rfl, rfl⟩ := begins_with_of_piece_at read
                simp only [read, Piece.size, Nat.add_sub_cancel, List.drop_left, List.mapM_cons,
                  Piece.char?, Option.bind_eq_bind, Option.bind_some] at decoded
                obtain ⟨others, further, last⟩ := Option.bind_eq_some_iff.mp decoded
                cases last
                have shorter : behind.length < size := by
                  rw [← length, List.length_cons, List.length_append]
                  omega
                rw [List.flatMap_cons, encode_char_of_spells spelled,
                  ih _ shorter behind others rfl further, List.cons_append]
  · rintro rfl
    induction chars with
    | nil => simp [pieces, piecesAfter]
    | cons c chars ih =>
        rw [List.flatMap_cons, pieces_encode_char, List.mapM_cons, ih]
        rfl

theorem decode_strict_iff (bytes : List Nat) (text : String) :
    decodeStrict bytes = some text ↔
      ∃ chars : List Char, chars.flatMap encodeChar = bytes ∧ String.ofList (dropMark chars) = text := by
  rw [decodeStrict, Option.map_eq_some_iff]
  simp only [decoded_iff]

theorem decode_strict_eq_none_iff (bytes : List Nat) :
    decodeStrict bytes = none ↔ ¬WellFormed bytes := by
  rw [Option.eq_none_iff_forall_ne_some, well_formed_iff]
  constructor
  · rintro refused ⟨chars, encoded⟩
    exact refused _ ((decode_strict_iff _ _).mpr ⟨chars, encoded, rfl⟩)
  · rintro malformed text decoded
    obtain ⟨chars, encoded, _⟩ := (decode_strict_iff _ _).mp decoded
    exact malformed ⟨chars, encoded⟩

/-! ### Encoded texts -/

def bytesOf (text : String) : List Nat := text.toUTF8.data.toList.map UInt8.toNat

theorem encode_char_eq_utf8 (c : Char) :
    encodeChar c = (String.utf8EncodeChar c).map UInt8.toNat := by
  obtain ⟨_, bounded⟩ := scalar_of_char c
  have code : c.val.toNat = c.toNat := rfl
  simp only [encode_char_eq, String.utf8EncodeChar, code, ← Nat.lt_succ_iff, Nat.succ_eq_add_one]
  generalize c.toNat = code at bounded
  -- The numbers are small enough for bytes in each of the four forms.
  split
  · simp
    omega
  split
  · simp
    omega
  split
  · simp
    omega
  · simp
    omega

theorem bytes_of_eq_encode (text : String) : bytesOf text = encode text := by
  have chars : text.toUTF8.data.toList = text.toList.flatMap String.utf8EncodeChar := by
    rw [String.toUTF8_eq_toByteArray, ← String.utf8Encode_toList, List.utf8Encode,
      List.data_toByteArray]
  rw [bytesOf, chars, List.map_flatMap, encode]
  exact List.flatMap_congr fun c _ => (encode_char_eq_utf8 c).symm

/-- Bytes without the mark of the encoding, if it stands in front of them. -/
def withoutMark : List Nat → List Nat
  | 0xef :: 0xbb :: 0xbf :: rest => rest
  | bytes => bytes

theorem without_mark_flat_map (chars : List Char) :
    withoutMark (chars.flatMap encodeChar) = (dropMark chars).flatMap encodeChar := by
  have mark : encodeChar byteOrderMark = [0xef, 0xbb, 0xbf] := by decide
  cases chars with
  | nil => rfl
  | cons c rest =>
      by_cases marked : c = byteOrderMark
      · subst marked
        rw [List.flatMap_cons, mark]
        rfl
      · have kept : dropMark (c :: rest) = c :: rest := by simp [dropMark, marked]
        rw [kept, withoutMark]
        intro behind same
        apply marked
        apply encode_char_append_inj
        rw [mark, ← List.flatMap_cons, same]
        rfl

/-! ### Texts of bytes -/

theorem bytes_bounded (bytes : List UInt8) : ∀ byte ∈ bytes.map UInt8.toNat, byte < 0x100 := by
  intro byte member
  obtain ⟨small, _, rfl⟩ := List.mem_map.mp member
  exact small.toNat_lt

theorem units_decode_bytewise (bytes : List Nat) (bounded : ∀ byte ∈ bytes, byte < 0x100) :
    units (decodeBytewise bytes) = bytes := by
  rw [units, decodeBytewise, String.toList_ofList]
  induction bytes with
  | nil => rfl
  | cons byte rest ih =>
      have small := bounded byte (by simp)
      have code : (Char.ofNat byte).toNat = byte := to_nat_of_scalar (by omega) (by omega)
      rw [List.map_cons, List.flatMap_cons, unitsOf, code, if_pos (by omega),
        ih fun other member => bounded other (List.mem_cons_of_mem byte member)]
      rfl

/-- Well-formed bytes become the text that they encode, less a mark in front; of all other bytes each
becomes one unit of the text; and a text that does not begin with the mark comes back from its bytes. -/
theorem decoding_loses_nothing (bytes : List UInt8) (text : String) :
    (WellFormed (bytes.map UInt8.toNat) →
      (decode (bytes.map UInt8.toNat)).2 = .utf8 ∧
      bytesOf (decode (bytes.map UInt8.toNat)).1 = withoutMark (bytes.map UInt8.toNat)) ∧
    (¬WellFormed (bytes.map UInt8.toNat) →
      (decode (bytes.map UInt8.toNat)).2 = .latin1 ∧
      units (decode (bytes.map UInt8.toNat)).1 = bytes.map UInt8.toNat) ∧
    (text.toList.head? ≠ some byteOrderMark → decode (bytesOf text) = (text, .utf8)) := by
  refine ⟨?formed, ?malformed, ?encoded⟩
  case formed =>
    intro formed
    obtain ⟨chars, encoded⟩ := (well_formed_iff _).mp formed
    have decoded := (decode_strict_iff _ _).mpr ⟨chars, encoded, rfl⟩
    rw [decode, decoded]
    refine ⟨rfl, ?_⟩
    rw [bytes_of_eq_encode, encode, String.toList_ofList, ← encoded, without_mark_flat_map]
  case malformed =>
    intro malformed
    have refused : decodeStrict (bytes.map UInt8.toNat) = none := by
      rw [Option.eq_none_iff_forall_ne_some]
      intro decodedText decoded
      obtain ⟨chars, encoded, _⟩ := (decode_strict_iff _ _).mp decoded
      exact malformed ((well_formed_iff _).mpr ⟨chars, encoded⟩)
    rw [decode, refused]
    exact ⟨rfl, units_decode_bytewise _ (bytes_bounded bytes)⟩
  case encoded =>
    intro unmarked
    have kept : dropMark text.toList = text.toList := by
      cases chars : text.toList with
      | nil => rfl
      | cons c rest =>
          rw [chars, List.head?_cons, ne_eq, Option.some.injEq] at unmarked
          simp [dropMark, unmarked]
    have decoded := (decode_strict_iff (bytesOf text) _).mpr
      ⟨text.toList, (bytes_of_eq_encode text).symm, rfl⟩
    rw [kept, String.ofList_toList] at decoded
    rw [decode, decoded]

/-- A letter of two bytes behind the mark, and the first byte of a longer character at the end. -/
theorem marked_and_cut_off_bytes_decode :
    WellFormed [0xef, 0xbb, 0xbf, 0xc3, 0xa8] ∧ ¬WellFormed [0x63, 0xe8] ∧
    "è".toList.head? ≠ some byteOrderMark ∧
    bytesOf (decode [0xef, 0xbb, 0xbf, 0xc3, 0xa8]).1 = [0xc3, 0xa8] ∧
    (decode [0x63, 0xe8]).2 = .latin1 ∧ units (decode [0x63, 0xe8]).1 = [0x63, 0xe8] ∧
    decode (bytesOf "è") = ("è", .utf8) := by
  have formed : WellFormed [0xef, 0xbb, 0xbf, 0xc3, 0xa8] :=
    (well_formed_iff _).mpr ⟨[byteOrderMark, 'è'], by decide⟩
  have malformed : ¬WellFormed [0x63, 0xe8] := by
    intro formed
    obtain ⟨chars, encoded⟩ := (well_formed_iff _).mp formed
    have decoded := (decode_strict_iff _ _).mpr ⟨chars, encoded, rfl⟩
    have refused : decodeStrict [0x63, 0xe8] = none := by cbv
    rw [refused] at decoded
    cases decoded
  have unmarked : "è".toList.head? ≠ some byteOrderMark := by decide
  have first := decoding_loses_nothing [0xef, 0xbb, 0xbf, 0xc3, 0xa8] "è"
  have second := decoding_loses_nothing [0x63, 0xe8] "è"
  exact ⟨formed, malformed, unmarked, (first.1 formed).2, (second.2.1 malformed).1,
    (second.2.1 malformed).2, first.2.2 unmarked⟩

end LineCensus.Text
