/-!
Looking for one text inside another.
-/

namespace LineCensus.Text

def containsChars (part : List Char) : List Char → Bool
  | [] => part.isEmpty
  | c :: rest => part.isPrefixOf (c :: rest) || containsChars part rest

def contains (text part : String) : Bool := containsChars part.toList text.toList

theorem contains_chars_iff (part chars : List Char) :
    containsChars part chars = true ↔ part <:+: chars := by
  induction chars with
  | nil => simp [containsChars]
  | cons c rest ih => simp [containsChars, ih, List.infix_cons_iff]

end LineCensus.Text
