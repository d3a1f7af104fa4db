import LineCensus.Text.Blank
import Mathlib

/-!
Text without the blanks around it. It begins and ends with a character that is no blank, or is empty. What
has been trimmed is this text with blanks in front of it and behind it, and however many there are of them
makes no difference.
-/

namespace LineCensus.Text

set_option autoImplicit false

def AllBlank (chars : List Char) : Prop := ∀ c ∈ chars, isBlank c = true

theorem all_blank_nil : AllBlank [] := List.forall_mem_nil _

theorem trim_left_of_visible {chars : List Char}
    (first : ∀ c, chars.head? = some c → isBlank c = false) : trimLeft chars = chars := by
  cases chars with
  | nil => rfl
  | cons c rest => simp [trimLeft, first c rfl]

theorem trim_left_append {before : List Char} (blank : AllBlank before) (chars : List Char) :
    trimLeft (before ++ chars) = trimLeft chars :=
  List.dropWhile_append_of_pos blank

theorem trim_left_parts (chars : List Char) :
    ∃ before, AllBlank before ∧ chars = before ++ trimLeft chars :=
  ⟨chars.takeWhile isBlank, fun _ => List.mem_takeWhile_imp, List.takeWhile_append_dropWhile.symm⟩

theorem trim_left_head (chars : List Char) (c : Char) (first : (trimLeft chars).head? = some c) :
    isBlank c = false := by
  have stopped := List.head?_dropWhile_not isBlank chars
  rw [trimLeft] at first
  rw [first] at stopped
  exact stopped

theorem trim_right_parts (chars : List Char) :
    ∃ after, AllBlank after ∧ chars = trimRight chars ++ after := by
  obtain ⟨before, blank, parts⟩ := trim_left_parts chars.reverse
  refine ⟨before.reverse, fun c member => blank c (List.mem_reverse.mp member), ?_⟩
  rw [trimRight, ← List.reverse_append, ← parts, List.reverse_reverse]

theorem trim_right_of_visible {chars : List Char}
    (last : ∀ c, chars.getLast? = some c → isBlank c = false) : trimRight chars = chars := by
  have behind : trimLeft chars.reverse = chars.reverse := by
    apply trim_left_of_visible
    intro c atEnd
    rw [List.head?_reverse] at atEnd
    exact last c atEnd
  rw [trimRight, behind, List.reverse_reverse]

theorem trim_right_append_blank {front behind : List Char} (blank : trimRight behind = []) :
    trimRight (front ++ behind) = trimRight front := by
  rw [trimRight, List.reverse_eq_nil_iff, trimLeft] at blank
  rw [trimRight, List.reverse_append, trimLeft, List.dropWhile_append, blank, List.isEmpty_nil, if_pos rfl]
  rfl

theorem trim_right_append_visible {front behind : List Char} (visible : trimRight behind ≠ []) :
    trimRight (front ++ behind) = front ++ trimRight behind := by
  rw [trimRight, ne_eq, List.reverse_eq_nil_iff, trimLeft] at visible
  rw [trimRight, List.reverse_append, trimLeft, List.dropWhile_append,
    if_neg (fun empty => visible (List.isEmpty_iff.mp empty)), List.reverse_append, List.reverse_reverse]
  rfl

theorem trim_chars_of_visible {chars : List Char}
    (first : ∀ c, chars.head? = some c → isBlank c = false)
    (last : ∀ c, chars.getLast? = some c → isBlank c = false) : trimChars chars = chars := by
  rw [trimChars, trim_left_of_visible first, trim_right_of_visible last]

theorem trim_chars_concat_blank (chars : List Char) {c : Char} (blank : isBlank c = true) :
    trimChars (chars ++ [c]) = trimChars chars := by
  have nothing : trimRight [c] = [] := by
    rw [trimRight, List.reverse_singleton, trimLeft, List.dropWhile_cons_of_pos blank]
    rfl
  rw [trimChars, trimChars, trimLeft, List.dropWhile_append]
  split
  case isTrue empty =>
    rw [List.isEmpty_iff] at empty
    rw [trimLeft, empty, List.dropWhile_cons_of_pos blank, List.dropWhile_nil]
  case isFalse => exact trim_right_append_blank nothing

theorem trim_chars_between {before after : List Char} (blankBefore : AllBlank before)
    (blankAfter : AllBlank after) (chars : List Char) :
    trimChars (before ++ (chars ++ after)) = trimChars chars := by
  rw [trimChars, trim_left_append blankBefore]
  change trimChars (chars ++ after) = trimChars chars
  induction after using List.reverseRecOn with
  | nil => rw [List.append_nil]
  | append_singleton front last ih =>
      have blankFront : AllBlank front := fun c member => blankAfter c (List.mem_append_left _ member)
      rw [← List.append_assoc, trim_chars_concat_blank _ (blankAfter last (by simp)), ih blankFront]

theorem trim_chars_parts (chars : List Char) :
    ∃ before after, AllBlank before ∧ AllBlank after ∧
      chars = before ++ (trimChars chars ++ after) := by
  obtain ⟨before, blankBefore, front⟩ := trim_left_parts chars
  obtain ⟨after, blankAfter, behind⟩ := trim_right_parts (trimLeft chars)
  refine ⟨before, after, blankBefore, blankAfter, ?_⟩
  rw [trimChars, ← behind]
  exact front

theorem trim_chars_last (chars : List Char) (c : Char) (last : (trimChars chars).getLast? = some c) :
    isBlank c = false := by
  rw [trimChars, trimRight, List.getLast?_reverse] at last
  exact trim_left_head _ c last

theorem trim_chars_head (chars : List Char) (c : Char) (first : (trimChars chars).head? = some c) :
    isBlank c = false := by
  obtain ⟨after, -, parts⟩ := trim_right_parts (trimLeft chars)
  apply trim_left_head chars c
  rw [parts, List.head?_append, ← trimChars, first, Option.some_or]

/-- A text stays as it is exactly if no blanks are around it. -/
theorem trim_chars_eq_iff (chars : List Char) : trimChars chars = chars ↔
    (∀ c, chars.head? = some c → isBlank c = false) ∧
      ∀ c, chars.getLast? = some c → isBlank c = false := by
  constructor
  · intro trimmed
    rw [← trimmed]
    exact ⟨trim_chars_head chars, trim_chars_last chars⟩
  · rintro ⟨first, last⟩
    exact trim_chars_of_visible first last

theorem trim_eq_iff (text : String) : trim text = text ↔ trimChars text.toList = text.toList := by
  rw [trim]
  constructor
  · intro same
    rw [← String.toList_ofList (l := trimChars text.toList), same]
  · intro same
    rw [same, String.ofList_toList]

theorem trim_chars_twice (chars : List Char) : trimChars (trimChars chars) = trimChars chars :=
  trim_chars_of_visible (trim_chars_head chars) (trim_chars_last chars)

theorem trim_chars_inside (chars : List Char) : trimChars chars <:+: chars := by
  obtain ⟨before, after, -, -, parts⟩ := trim_chars_parts chars
  refine ⟨before, after, ?_⟩
  rw [List.append_assoc]
  exact parts.symm

/-- Characters that are exchanged for others, but no blank for a visible one, can be trimmed before or
after that. -/
theorem trim_chars_map {exchange : Char → Char} (keeps : ∀ c, isBlank (exchange c) = isBlank c)
    (chars : List Char) : trimChars (chars.map exchange) = (trimChars chars).map exchange := by
  have left (chars : List Char) : trimLeft (chars.map exchange) = (trimLeft chars).map exchange := by
    have same : isBlank ∘ exchange = isBlank := funext keeps
    rw [trimLeft, List.dropWhile_map, same]
    rfl
  rw [trimChars, trimRight, left, ← List.map_reverse, left, ← List.map_reverse]
  rfl

theorem eq_nil_of_blank_before {before chars : List Char} (blank : AllBlank before)
    (first : ∀ c, (before ++ chars).head? = some c → isBlank c = false) : before = [] := by
  cases before with
  | nil => rfl
  | cons c before =>
      have visible := first c rfl
      exact Bool.noConfusion (visible.symm.trans (blank c List.mem_cons_self))

theorem eq_nil_of_blank_behind {chars after : List Char} (blank : AllBlank after)
    (last : ∀ c, (chars ++ after).getLast? = some c → isBlank c = false) : after = [] := by
  cases after using List.reverseRecOn with
  | nil => rfl
  | append_singleton after c =>
      have visible := last c (by rw [← List.append_assoc, List.getLast?_concat])
      exact Bool.noConfusion (visible.symm.trans (blank c (by simp)))

end LineCensus.Text
