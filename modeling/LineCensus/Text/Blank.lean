/-!
White space in text: which characters count as blank, and text without the blanks around it.
-/

namespace LineCensus.Text

/-- The characters that leave no mark on a line, line breaks included. -/
def isBlank (c : Char) : Bool :=
  ('\t' ≤ c && c ≤ '\r') || c == ' ' || c == '\u00a0' || c == '\u1680' ||
  ('\u2000' ≤ c && c ≤ '\u200a') || c == '\u2028' || c == '\u2029' || c == '\u202f' ||
  c == '\u205f' || c == '\u3000' || c == '\ufeff'

def trimLeft (chars : List Char) : List Char := chars.dropWhile isBlank

def trimRight (chars : List Char) : List Char := (trimLeft chars.reverse).reverse

def trimChars (chars : List Char) : List Char := trimRight (trimLeft chars)

def trim (text : String) : String := String.ofList (trimChars text.toList)

def isBlankLine (line : String) : Bool := (trim line).isEmpty

/-- Removing blanks from the front leaves nothing exactly when all characters are blank. -/
theorem trim_left_eq_nil_iff (chars : List Char) :
    trimLeft chars = [] ↔ ∀ c ∈ chars, isBlank c = true := by
  induction chars with
  | nil => simp [trimLeft]
  | cons c rest ih =>
    cases blank : isBlank c with
    | false => simp [trimLeft, blank]
    | true =>
      rw [trimLeft, List.dropWhile_cons_of_pos blank, ← trimLeft, ih, List.forall_mem_cons]
      exact (and_iff_right blank).symm

theorem trim_chars_eq_nil_iff (chars : List Char) :
    trimChars chars = [] ↔ ∀ c ∈ chars, isBlank c = true := by
  rw [trimChars, trimRight, List.reverse_eq_nil_iff, trim_left_eq_nil_iff]
  constructor
  · intro blank
    rw [← trim_left_eq_nil_iff]
    apply Classical.byContradiction
    intro kept
    have visible := List.head_dropWhile_not isBlank kept
    have shown := blank _ (List.mem_reverse.mpr (List.head_mem kept))
    exact Bool.noConfusion (visible.symm.trans shown)
  · intro blank c member
    exact blank c ((List.dropWhile_sublist isBlank).subset (List.mem_reverse.mp member))

/-- A line is blank when every character on it is. -/
theorem is_blank_line_iff (line : String) :
    isBlankLine line = true ↔ ∀ c ∈ line.toList, isBlank c = true := by
  rw [isBlankLine, String.isEmpty_iff, trim, String.ofList_eq_empty_iff, trim_chars_eq_nil_iff]

end LineCensus.Text
