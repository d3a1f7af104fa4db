import LineCensus.Text.CollationTable

/-!
The order in which readers expect names: first by letters, digits and signs, then by accents, and
last by case, small letters before capital ones. The table has the Latin and Greek letters and some of
the Cyrillic ones; it stands for the order of all characters, of which it is a part.
-/

namespace LineCensus.Text

/-- What a character contributes to each of the three comparisons; nothing where it is zero. -/
structure Weight where
  letter : Nat
  accent : Nat
  case : Nat
  deriving DecidableEq, Repr

/-- How far apart the ranks of letters are, so that characters without weights of their own fit in
between. -/
def rankWidth : Nat := 2097152

def Weight.ofEntry (entry : Nat) : Weight :=
  ⟨entry / 4096 * rankWidth, entry / 16 % 256, entry % 16⟩

/-- Whether a character is a sign or a picture rather than a letter. -/
def isSign (c : Char) : Bool :=
  ('\u2100' ≤ c && c ≤ '\u2bff') || (0x1f000 ≤ c.toNat && c.toNat ≤ 0x1fbff)

/-- The characters that sort behind all other letters. -/
def isIdeograph (c : Char) : Bool :=
  ('\u3400' ≤ c && c ≤ '\u9fff') || 0x20000 ≤ c.toNat

def isUnmarked (c : Char) : Bool :=
  c == '\ufeff' || ('\ufe00' ≤ c && c ≤ '\ufe0f') || ('\u2060' ≤ c && c ≤ '\u206f')

/-- The weight of a character that is not in the table: signs stand behind the signs, letters behind
the letters, in the order of their codes. -/
def Weight.beyondTable (c : Char) : List Weight :=
  let rank :=
    if isSign c then CollationTable.lastSign
    else if isIdeograph c then CollationTable.lastLetter + 1
    else CollationTable.lastLetter
  if isUnmarked c then [] else [⟨rank * rankWidth + c.toNat, 1, 1⟩]

/-- The weights of a character, looked for among the entries from index `low` up to `high`. -/
def weightsIn (entries : Array (Nat × List Nat)) (c : Char) (low high : Nat) : List Weight :=
  if low < high then
    let middle := (low + high) / 2
    let (code, weights) := entries.getD middle (0, [])
    if c.toNat < code then weightsIn entries c low middle
    else if code < c.toNat then weightsIn entries c (middle + 1) high
    else weights.map Weight.ofEntry
  else Weight.beyondTable c
termination_by high - low

def weightsOf (text : String) : List Weight :=
  text.toList.flatMap fun c =>
    weightsIn CollationTable.weights c 0 CollationTable.weights.size

/-- What the weights of a text contribute to one comparison. -/
def level (part : Weight → Nat) (weights : List Weight) : List Nat :=
  (weights.map part).filter (· != 0)

/-- How two texts compare. What the table does not have is put in order by code; and accents of one letter
make a difference by their order, also where readers would see none. -/
def collate (a b : String) : Ordering :=
  let first := weightsOf a
  let second := weightsOf b
  (compare (level (·.letter) first) (level (·.letter) second)).then <|
    (compare (level (·.accent) first) (level (·.accent) second)).then <|
      compare (level (·.case) first) (level (·.case) second)

end LineCensus.Text
