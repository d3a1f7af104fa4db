/-!
Bytes as text. Most text is encoded in UTF-8; what cannot be so may still be read with one character
for each byte, or with a mark in the place of each part that makes no sense.
-/

namespace LineCensus.Text

/-- What begins a byte sequence: a character in full, or a part that is no character. -/
inductive Piece where
  | character (c : Char) (size : Nat)
  /-- A number of bytes that begin no character, at least one. -/
  | broken (size : Nat)
  deriving DecidableEq, Repr

/-- How a first byte opens a character: the bits that it contributes, how many more bytes there
are, and within which bounds the next of them has to lie. -/
structure Opening where
  bits : Nat
  more : Nat
  low : Nat
  high : Nat

/-- How a byte opens a character of more than one byte. The bounds exclude characters that have a
shorter form, surrogates, and codes that are too large. -/
def Opening.ofByte (byte : Nat) : Option Opening :=
  if 0xc2 ≤ byte ∧ byte ≤ 0xdf then some ⟨byte - 0xc0, 1, 0x80, 0xbf⟩
  else if byte == 0xe0 then some ⟨0, 2, 0xa0, 0xbf⟩
  else if byte == 0xed then some ⟨0xd, 2, 0x80, 0x9f⟩
  else if 0xe1 ≤ byte ∧ byte ≤ 0xef then some ⟨byte - 0xe0, 2, 0x80, 0xbf⟩
  else if byte == 0xf0 then some ⟨0, 3, 0x90, 0xbf⟩
  else if 0xf1 ≤ byte ∧ byte ≤ 0xf3 then some ⟨byte - 0xf0, 3, 0x80, 0xbf⟩
  else if byte == 0xf4 then some ⟨4, 3, 0x80, 0x8f⟩
  else none

/-- Go on with a character of which `size` bytes with the given bits have been read and `more` are
still to come. A byte out of bounds leaves the bytes read so far broken. -/
def pieceFrom (bits size low high : Nat) : Nat → List Nat → Piece
  | 0, _ => .character (Char.ofNat bits) size
  | _ + 1, [] => .broken size
  | more + 1, byte :: rest =>
    if low ≤ byte ∧ byte ≤ high then
      pieceFrom (bits * 64 + (byte - 0x80)) (size + 1) 0x80 0xbf more rest
    else .broken size

def pieceAt (byte : Nat) (rest : List Nat) : Piece :=
  if byte < 0x80 then .character (Char.ofNat byte) 1
  else match Opening.ofByte byte with
    | none => .broken 1
    | some opening => pieceFrom opening.bits 1 opening.low opening.high opening.more rest

def Piece.size : Piece → Nat
  | character _ size => size
  | broken size => size

/-- The pieces of a byte sequence behind others, which are given in reverse. -/
def piecesAfter (done : List Piece) : List Nat → List Piece
  | [] => done.reverse
  | byte :: rest =>
    let piece := pieceAt byte rest
    piecesAfter (piece :: done) (rest.drop (piece.size - 1))
termination_by bytes => bytes.length
decreasing_by simp only [List.length_drop, List.length_cons]; omega

def pieces (bytes : List Nat) : List Piece := piecesAfter [] bytes

def Piece.char? : Piece → Option Char
  | character c _ => some c
  | broken _ => none

def byteOrderMark : Char := '\ufeff'

/-- What stands for bytes that are no character. -/
def replacement : Char := '\ufffd'

def dropMark : List Char → List Char
  | [] => []
  | c :: rest => if c == byteOrderMark then rest else c :: rest

/-- The text that bytes encode, if all of them do. The mark of the encoding is not part of it. -/
def decodeStrict (bytes : List Nat) : Option String :=
  ((pieces bytes).mapM Piece.char?).map fun chars => String.ofList (dropMark chars)

/-- The text that bytes encode, with a replacement for each piece that is broken. -/
def decodeLossy (bytes : List Nat) : String :=
  String.ofList ((pieces bytes).map fun piece => piece.char?.getD replacement)

/-- The bytes as characters with the same numbers. -/
def decodeBytewise (bytes : List Nat) : String := String.ofList (bytes.map Char.ofNat)

inductive Encoding where
  | utf8
  | latin1
  deriving DecidableEq, Repr

def Encoding.name : Encoding → String
  | utf8 => "utf-8"
  | latin1 => "latin1"

/-- The text that bytes hold: in UTF-8 if that is possible, byte by byte otherwise. -/
def decode (bytes : List Nat) : String × Encoding :=
  match decodeStrict bytes with
  | some text => (text, .utf8)
  | none => (decodeBytewise bytes, .latin1)

def encodeChar (c : Char) : List Nat :=
  let code := c.toNat
  let tail (shift : Nat) : Nat := 0x80 + (code >>> (6 * shift)) % 64
  if code < 0x80 then [code]
  else if code < 0x800 then [0xc0 + code / 64, tail 0]
  else if code < 0x10000 then [0xe0 + (code >>> 12), tail 1, tail 0]
  else [0xf0 + (code >>> 18), tail 2, tail 1, tail 0]

def encode (text : String) : List Nat := text.toList.flatMap encodeChar

end LineCensus.Text
