import LineCensus.Text.Lines
import LineCensus.Text.Units
import Mathlib

/-!
The two accounts of the lines of a text, and how they agree. One cuts the text at its breaks; the
other lists the positions at which lines begin. Both are read off the same pieces: each line with
the break that ends it, which put one behind the other are the text again.
-/

namespace LineCensus.Text

set_option autoImplicit false

/-- A line with the break that ends it. Only the last line of a text has none. -/
structure EndedLine where
  line : List Char
  ending : List Char

def EndedLine.chars (piece : EndedLine) : List Char := piece.line ++ piece.ending

/-- The pieces of some characters; `line` holds those of the first one that have been passed, the
last one first. -/
def terminatedFrom (breaks : LineBreaks) (line : List Char) : List Char → List EndedLine
  | [] => [⟨line.reverse, []⟩]
  | '\r' :: '\n' :: rest => ⟨line.reverse, ['\r', '\n']⟩ :: terminatedFrom breaks [] rest
  | c :: rest =>
    if breaks.contains c then ⟨line.reverse, [c]⟩ :: terminatedFrom breaks [] rest
    else terminatedFrom breaks (c :: line) rest

def terminated (breaks : LineBreaks) (chars : List Char) : List EndedLine :=
  terminatedFrom breaks [] chars

def before (breaks : LineBreaks) (chars : List Char) (number : Nat) : List Char :=
  ((terminated breaks chars).take number).flatMap EndedLine.chars

variable (breaks : LineBreaks)

/-! ### Cutting -/

theorem map_line_terminated_from (line chars : List Char) :
    (terminatedFrom breaks line chars).map EndedLine.line = piecesFrom breaks line chars := by
  fun_induction terminatedFrom breaks line chars with
  | case1 line => rfl
  | case2 line rest ih =>
      rw [piecesFrom, List.map_cons, ih]
  | case3 line c rest single isBreak ih =>
      rw [piecesFrom, if_pos isBreak, List.map_cons, ih]
      exact single
  | case4 line c rest single noBreak ih =>
      rw [piecesFrom, if_neg noBreak, ih]
      exact single

/-- The pieces put one behind the other are the text. -/
theorem flat_map_terminated_from (line chars : List Char) :
    (terminatedFrom breaks line chars).flatMap EndedLine.chars = line.reverse ++ chars := by
  fun_induction terminatedFrom breaks line chars with
  | case1 line => simp [EndedLine.chars]
  | case2 line rest ih => simp [EndedLine.chars, ih]
  | case3 line c rest single isBreak ih => simp [EndedLine.chars, ih]
  | case4 line c rest single noBreak ih => simp [ih]

theorem flat_map_terminated (chars : List Char) :
    (terminated breaks chars).flatMap EndedLine.chars = chars := by
  rw [terminated, flat_map_terminated_from]
  rfl

theorem ending_breaks (line chars : List Char) :
    ∀ piece ∈ terminatedFrom breaks line chars, ∀ c ∈ piece.ending, breaks.contains c = true := by
  fun_induction terminatedFrom breaks line chars with
  | case1 line => simp
  | case2 line rest ih =>
      intro piece member
      rcases List.mem_cons.mp member with rfl | inRest
      · simp [LineBreaks.contains]
      · exact ih piece inRest
  | case3 line c rest single isBreak ih =>
      intro piece member
      rcases List.mem_cons.mp member with rfl | inRest
      · simpa using isBreak
      · exact ih piece inRest
  | case4 line c rest single noBreak ih => exact ih

theorem line_free (line chars : List Char)
    (passed : ∀ c ∈ line, breaks.contains c = false) :
    ∀ piece ∈ terminatedFrom breaks line chars, ∀ c ∈ piece.line, breaks.contains c = false := by
  fun_induction terminatedFrom breaks line chars with
  | case1 line => simpa using passed
  | case2 line rest ih => exact List.forall_mem_cons.mpr ⟨by simpa using passed, ih (by simp)⟩
  | case3 line c rest single isBreak ih =>
      exact List.forall_mem_cons.mpr ⟨by simpa using passed, ih (by simp)⟩
  | case4 line c rest single noBreak ih =>
      exact ih (List.forall_mem_cons.mpr ⟨Bool.eq_false_iff.mpr noBreak, passed⟩)

theorem terminated_from_ne_nil (line chars : List Char) : terminatedFrom breaks line chars ≠ [] := by
  fun_induction terminatedFrom breaks line chars with
  | case1 => simp
  | case2 => simp
  | case3 => simp
  | case4 line c rest single noBreak ih => exact ih

/-- The last piece is the one that no break ends. -/
theorem ending_eq_nil_iff (line chars : List Char) (number : Nat) (piece : EndedLine)
    (there : (terminatedFrom breaks line chars)[number]? = some piece) :
    piece.ending = [] ↔ (terminatedFrom breaks line chars).length = number + 1 := by
  fun_induction terminatedFrom breaks line chars generalizing number with
  | case1 line =>
      cases number with
      | zero =>
          cases there
          simp
      | succ number => simp at there
  | case2 line rest ih =>
      cases number with
      | zero =>
          cases there
          have more := terminated_from_ne_nil breaks [] rest
          simpa using more
      | succ number =>
          rw [ih number there]
          simp
  | case3 line c rest single isBreak ih =>
      cases number with
      | zero =>
          cases there
          have more := terminated_from_ne_nil breaks [] rest
          simpa using more
      | succ number =>
          rw [ih number there]
          simp
  | case4 line c rest single noBreak ih => exact ih number there

/-- A line of the text is a piece of it without its ending. -/
theorem piece_of_line (text line : String) (number : Nat)
    (there : (splitLines breaks text)[number]? = some line) :
    ∃ ending, (terminated breaks text.toList)[number]? = some ⟨line.toList, ending⟩ := by
  rw [splitLines, List.getElem?_map, Option.map_eq_some_iff] at there
  obtain ⟨chars, kept, rfl⟩ := there
  have cut : (piecesFrom breaks [] text.toList)[number]? = some chars := by
    rw [dropEmptyLast] at kept
    split at kept
    · rw [List.getElem?_dropLast] at kept
      split at kept
      · exact kept
      · cases kept
    · exact kept
  rw [← map_line_terminated_from, List.getElem?_map, Option.map_eq_some_iff] at cut
  obtain ⟨piece, found, rfl⟩ := cut
  exact ⟨piece.ending, by rw [String.toList_ofList]; exact found⟩

/-! ### Where lines begin -/

/-- Where pieces begin of which the first one begins at `position`. -/
def startsFrom (position : Nat) : List EndedLine → List Nat
  | [] => []
  | piece :: rest => position :: startsFrom (position + piece.chars.length) rest

theorem starts_from_terminated (position : Nat) (line chars : List Char) :
    startsFrom position (terminatedFrom breaks line chars) =
      position :: breakEndsFrom breaks (position + line.length) chars := by
  fun_induction terminatedFrom breaks line chars generalizing position with
  | case1 line => rfl
  | case2 line rest ih =>
      rw [startsFrom, ih, breakEndsFrom]
      simp [EndedLine.chars, Nat.add_assoc]
  | case3 line c rest single isBreak ih =>
      rw [startsFrom, ih, breakEndsFrom, if_pos isBreak]
      · simp [EndedLine.chars, Nat.add_assoc]
      · exact single
  | case4 line c rest single noBreak ih =>
      rw [ih, breakEndsFrom, if_neg noBreak]
      · simp [Nat.add_assoc]
      · exact single

theorem line_starts_eq (chars : List Char) :
    lineStarts breaks chars = startsFrom 0 (terminated breaks chars) := by
  rw [terminated, starts_from_terminated]
  rfl

theorem starts_from_get (position : Nat) (pieces : List EndedLine) (number : Nat) :
    (startsFrom position pieces)[number]? =
      if number < pieces.length then
        some (position + ((pieces.take number).flatMap EndedLine.chars).length)
      else none := by
  induction pieces generalizing position number with
  | nil => simp [startsFrom]
  | cons piece rest ih =>
      cases number with
      | zero => simp [startsFrom]
      | succ number =>
          rw [startsFrom, List.getElem?_cons_succ, ih]
          simp [Nat.add_assoc]

theorem length_starts_from (position : Nat) (pieces : List EndedLine) :
    (startsFrom position pieces).length = pieces.length := by
  induction pieces generalizing position with
  | nil => rfl
  | cons piece rest ih => rw [startsFrom, List.length_cons, ih, List.length_cons]

theorem line_starts_get (chars : List Char) (number : Nat) :
    (lineStarts breaks chars)[number]? =
      if number < (terminated breaks chars).length then some (before breaks chars number).length
      else none := by
  rw [line_starts_eq, starts_from_get, Nat.zero_add]
  rfl

theorem break_ends_lt (position : Nat) (chars : List Char) :
    ∀ stop ∈ breakEndsFrom breaks position chars, position < stop := by
  fun_induction breakEndsFrom breaks position chars with
  | case1 => simp
  | case2 position rest ih =>
      intro stop member
      rcases List.mem_cons.mp member with rfl | inRest
      · omega
      · have later := ih stop inRest
        omega
  | case3 position c rest single isBreak ih =>
      intro stop member
      rcases List.mem_cons.mp member with rfl | inRest
      · omega
      · have later := ih stop inRest
        omega
  | case4 position c rest single noBreak ih =>
      intro stop member
      have later := ih stop member
      omega

theorem break_ends_increasing (position : Nat) (chars : List Char) :
    (breakEndsFrom breaks position chars).Pairwise (· < ·) := by
  fun_induction breakEndsFrom breaks position chars with
  | case1 => exact List.Pairwise.nil
  | case2 position rest ih => exact List.pairwise_cons.mpr ⟨break_ends_lt breaks _ rest, ih⟩
  | case3 position c rest single isBreak ih =>
      exact List.pairwise_cons.mpr ⟨break_ends_lt breaks _ rest, ih⟩
  | case4 position c rest single noBreak ih => exact ih

theorem line_starts_increasing (chars : List Char) :
    (lineStarts breaks chars).Pairwise (· < ·) :=
  List.pairwise_cons.mpr ⟨break_ends_lt breaks 0 chars, break_ends_increasing breaks 0 chars⟩

/-! ### The line of a position -/

theorem lt_length_filter_le_iff (starts : List Nat) (increasing : starts.Pairwise (· < ·))
    (position number : Nat) :
    number < (starts.filter (· ≤ position)).length ↔
      ∃ start, starts[number]? = some start ∧ start ≤ position := by
  induction starts generalizing number with
  | nil => simp
  | cons first rest ih =>
      obtain ⟨firstLeast, restIncreasing⟩ := List.pairwise_cons.mp increasing
      by_cases reached : first ≤ position
      · rw [List.filter_cons_of_pos (by simpa using reached)]
        cases number with
        | zero => simpa using reached
        | succ number =>
            rw [List.length_cons, Nat.add_lt_add_iff_right, ih restIncreasing,
              List.getElem?_cons_succ]
      · have none : ∀ start ∈ first :: rest, ¬ start ≤ position := by
          intro start member
          rcases List.mem_cons.mp member with rfl | inRest
          · exact reached
          · have later := firstLeast start inRest
            omega
        have empty : (first :: rest).filter (· ≤ position) = [] := by
          rw [List.filter_eq_nil_iff]
          simpa using none
        rw [empty]
        constructor
        · intro below
          simp at below
        · rintro ⟨start, there, le⟩
          exact absurd le (none start (List.mem_of_getElem? there))

/-- A position lies on a line with a number or on a later one when that line begins at or before
it. -/
theorem le_line_of_starts_iff {starts : List Nat} (increasing : starts.Pairwise (· < ·))
    (fromStart : 0 ∈ starts) (position number : Nat) :
    number ≤ lineOf starts position ↔ ∃ start, starts[number]? = some start ∧ start ≤ position := by
  have someLine : 0 < (starts.filter (· ≤ position)).length :=
    List.length_pos_of_mem (List.mem_filter.mpr ⟨fromStart, by simp⟩)
  rw [← lt_length_filter_le_iff starts increasing, lineOf]
  omega

theorem le_line_of_iff (chars : List Char) (position number : Nat) :
    number ≤ lineOf (lineStarts breaks chars) position ↔
      ∃ start, (lineStarts breaks chars)[number]? = some start ∧ start ≤ position :=
  le_line_of_starts_iff (line_starts_increasing breaks chars) List.mem_cons_self position number

theorem line_of_le_iff (chars : List Char) (position number : Nat) :
    lineOf (lineStarts breaks chars) position ≤ number ↔
      ∀ start, (lineStarts breaks chars)[number + 1]? = some start → position < start := by
  rw [← Nat.not_lt, ← Nat.succ_le_iff, le_line_of_iff]
  constructor
  · intro none start there
    exact Nat.lt_of_not_le fun le => none ⟨start, there, le⟩
  · rintro later ⟨start, there, le⟩
    exact absurd le (Nat.not_le_of_lt (later start there))

/-! ### What lies between lines -/

/-- Some text that neither begins nor ends with a break; but the end of the whole text may come as it
does. -/
structure Spans (breaks : LineBreaks) (chars : List Char) (start stop : Nat) : Prop where
  start_lt : start < stop
  stop_le : stop ≤ chars.length
  start_visible : ∀ c, chars[start]? = some c → breaks.contains c = false
  stop_visible : stop = chars.length ∨ ∀ c, chars[stop - 1]? = some c → breaks.contains c = false

section Lines

variable (chars : List Char) (number : Nat) (piece : EndedLine)
  (there : (terminated breaks chars)[number]? = some piece)

include there

theorem before_succ : before breaks chars (number + 1) = before breaks chars number ++ piece.chars := by
  rw [before, List.take_add_one, there, List.flatMap_append]
  simp [before]

theorem length_before_succ :
    (before breaks chars (number + 1)).length =
      (before breaks chars number).length + piece.line.length + piece.ending.length := by
  rw [before_succ breaks chars number piece there, List.length_append, EndedLine.chars,
    List.length_append, Nat.add_assoc]

theorem text_of_piece :
    ∃ after, chars = before breaks chars number ++ (piece.chars ++ after) := by
  refine ⟨((terminated breaks chars).drop (number + 1)).flatMap EndedLine.chars, ?_⟩
  rw [← List.append_assoc, ← before_succ breaks chars number piece there, before,
    ← List.flatMap_append, List.take_append_drop, flat_map_terminated]

theorem length_before_succ_le : (before breaks chars (number + 1)).length ≤ chars.length := by
  obtain ⟨after, text⟩ := text_of_piece breaks chars number piece there
  rw [← List.append_assoc, ← before_succ breaks chars number piece there] at text
  have lengths := congrArg List.length text
  rw [List.length_append] at lengths
  omega

/-- Between the end of a line and the start of the next one there are breaks only. -/
theorem break_behind_line (position : Nat)
    (fromEnd : (before breaks chars number).length + piece.line.length ≤ position)
    (toNext : position < (before breaks chars (number + 1)).length) :
    ∃ c, chars[position]? = some c ∧ breaks.contains c = true := by
  obtain ⟨after, text⟩ := text_of_piece breaks chars number piece there
  rw [length_before_succ breaks chars number piece there] at toNext
  have inEnding : position - ((before breaks chars number).length + piece.line.length) <
      piece.ending.length := by omega
  have found : chars[position]? =
      piece.ending[position - ((before breaks chars number).length + piece.line.length)]? := by
    calc
      chars[position]? = (before breaks chars number ++ (piece.chars ++ after))[position]? :=
        congrArg (·[position]?) text
      _ = piece.ending[position - ((before breaks chars number).length + piece.line.length)]? := by
        rw [List.getElem?_append_right (by omega), EndedLine.chars, List.append_assoc,
          List.getElem?_append_right (by omega), List.getElem?_append_left (by omega),
          Nat.sub_sub]
  refine ⟨_, found.trans (List.getElem?_eq_getElem inEnding), ?_⟩
  exact ending_breaks breaks [] chars piece (List.mem_of_getElem? there) _ (List.getElem_mem _)

theorem break_before_next (more : number + 1 < (terminated breaks chars).length) :
    ∃ c, chars[(before breaks chars (number + 1)).length - 1]? = some c ∧
      breaks.contains c = true := by
  have ended : piece.ending ≠ [] := by
    intro nothing
    have isLast := (ending_eq_nil_iff breaks [] chars number piece there).mp nothing
    rw [terminated, isLast] at more
    exact Nat.lt_irrefl _ more
  have long := List.length_pos_iff.mpr ended
  have next := length_before_succ breaks chars number piece there
  apply break_behind_line breaks chars number piece there <;> omega

theorem last_line_end (isLast : (terminated breaks chars).length = number + 1) :
    (before breaks chars number).length + piece.line.length = chars.length := by
  have noEnding := (ending_eq_nil_iff breaks [] chars number piece there).mpr isLast
  have next := length_before_succ breaks chars number piece there
  rw [noEnding, List.length_nil, Nat.add_zero, before, ← isLast, List.take_length,
    flat_map_terminated] at next
  exact next.symm

end Lines

theorem line_start_le {chars : List Char} {start : Nat}
    (member : start ∈ lineStarts breaks chars) : start ≤ chars.length := by
  obtain ⟨number, there⟩ := List.mem_iff_getElem?.mp member
  rw [line_starts_get, Option.ite_none_right_eq_some] at there
  obtain ⟨isPiece, same⟩ := there
  obtain ⟨after, cut⟩ := text_of_piece breaks chars number _ (List.getElem?_eq_getElem isPiece)
  have size := congrArg List.length cut
  rw [List.length_append, Option.some.inj same] at size
  omega

/-- The lines on which a range of text begins and ends, and those in between, are those that it
shares characters with, as far as they have any. -/
theorem between_lines_iff (chars : List Char) (start stop number : Nat)
    (spans : Spans breaks chars start stop) (piece : EndedLine)
    (there : (terminated breaks chars)[number]? = some piece) (visible : piece.line ≠ []) :
    lineOf (lineStarts breaks chars) start ≤ number ∧
        number ≤ lineOf (lineStarts breaks chars) stop ↔
      (before breaks chars number).length < stop ∧
        start < (before breaks chars number).length + piece.line.length := by
  have isPiece : number < (terminated breaks chars).length :=
    (List.getElem?_eq_some_iff.mp there).1
  have next := length_before_succ breaks chars number piece there
  have inText := length_before_succ_le breaks chars number piece there
  have long := List.length_pos_iff.mpr visible
  have nonempty := spans.start_lt
  rw [line_of_le_iff, le_line_of_iff]
  simp only [line_starts_get, if_pos isPiece]
  constructor
  · rintro ⟨endsLater, first, same, beginsBefore⟩
    cases same
    constructor
    · -- A range that reached only the start of the line would end with the break in front of it.
      apply Nat.lt_of_le_of_ne beginsBefore
      intro atStart
      cases number with
      | zero =>
          have empty : (before breaks chars 0).length = 0 := rfl
          omega
      | succ earlier =>
          obtain ⟨c, found, isBreak⟩ := break_before_next breaks chars earlier _
            (List.getElem?_eq_getElem (Nat.lt_of_succ_lt isPiece)) isPiece
          rw [atStart] at found
          rcases spans.stop_visible with atEnd | noBreak
          · omega
          · exact Bool.noConfusion (isBreak.symm.trans (noBreak c found))
    · -- A range that began behind the line would begin with the break that ends it.
      apply Nat.lt_of_not_le
      intro behind
      by_cases more : number + 1 < (terminated breaks chars).length
      · obtain ⟨c, found, isBreak⟩ :=
          break_behind_line breaks chars number piece there start behind (endsLater _ (if_pos more))
        exact Bool.noConfusion (isBreak.symm.trans (spans.start_visible c found))
      · have ended := last_line_end breaks chars number piece there (by omega)
        have stopsInText := spans.stop_le
        omega
  · rintro ⟨beginsBefore, endsLater⟩
    refine ⟨?_, _, rfl, Nat.le_of_lt beginsBefore⟩
    intro begun isNext
    split at isNext
    · cases isNext
      omega
    · cases isNext

/-! ### Lines by their units -/

theorem width_pos (c : Char) : 0 < width c := by
  rw [width]
  split <;> omega

theorem length_units_of (c : Char) : (unitsOf c).length = width c := by
  rw [unitsOf, width]
  split <;> rfl

theorem width_of_eq_sum (chars : List Char) : widthOf chars = (chars.map width).sum := by
  rw [List.sum_eq_foldl_nat, List.foldl_map]
  rfl

theorem width_of_append (first second : List Char) :
    widthOf (first ++ second) = widthOf first + widthOf second := by
  simp only [width_of_eq_sum, List.map_append, List.sum_append]

theorem length_le_width_of (chars : List Char) : chars.length ≤ widthOf chars := by
  rw [width_of_eq_sum]
  induction chars with
  | nil => exact Nat.le_refl 0
  | cons c rest ih =>
      have wide := width_pos c
      rw [List.length_cons, List.map_cons, List.sum_cons]
      omega

theorem length_units_eq (chars : List Char) : (chars.flatMap unitsOf).length = widthOf chars := by
  rw [List.length_flatMap, width_of_eq_sum]
  simp only [length_units_of]

def unitOffset (chars : List Char) (position : Nat) : Nat := widthOf (chars.take position)

theorem unit_offset_lt (chars : List Char) (first second : Nat) (less : first < second)
    (inText : second ≤ chars.length) : unitOffset chars first < unitOffset chars second := by
  have split : chars.take second = chars.take first ++ (chars.drop first).take (second - first) := by
    rw [← List.take_add, Nat.add_sub_cancel' (Nat.le_of_lt less)]
  have wide := length_le_width_of ((chars.drop first).take (second - first))
  rw [List.length_take, List.length_drop] at wide
  rw [unitOffset, unitOffset, split, width_of_append]
  omega

theorem unit_offset_lt_iff (chars : List Char) (first second : Nat)
    (firstInText : first ≤ chars.length) (secondInText : second ≤ chars.length) :
    unitOffset chars first < unitOffset chars second ↔ first < second := by
  constructor
  · intro less
    apply Nat.lt_of_not_le
    intro le
    rcases Nat.eq_or_lt_of_le le with same | greater
    · rw [same] at less
      exact Nat.lt_irrefl _ less
    · exact Nat.lt_asymm less (unit_offset_lt chars second first greater firstInText)
  · intro less
    exact unit_offset_lt chars first second less secondInText

def lineOffset (text : String) (number : Nat) : Nat :=
  widthOf (before breaks text.toList number)

section Units

variable (text line : String) (number : Nat)
  (there : (splitLines breaks text)[number]? = some line)

include there

theorem text_of_line :
    ∃ after, text.toList = before breaks text.toList number ++ (line.toList ++ after) := by
  obtain ⟨ending, found⟩ := piece_of_line breaks text line number there
  obtain ⟨after, cut⟩ := text_of_piece breaks text.toList number _ found
  exact ⟨ending ++ after, by rw [← List.append_assoc line.toList]; exact cut⟩

theorem line_offset_eq :
    lineOffset breaks text number =
      unitOffset text.toList (before breaks text.toList number).length := by
  obtain ⟨after, cut⟩ := text_of_line breaks text line number there
  have front : text.toList.take (before breaks text.toList number).length =
      before breaks text.toList number :=
    (List.prefix_iff_eq_take.mp ⟨line.toList ++ after, cut.symm⟩).symm
  rw [lineOffset, unitOffset, front]

theorem line_end_eq :
    lineOffset breaks text number + length line =
      unitOffset text.toList ((before breaks text.toList number).length + line.toList.length) := by
  obtain ⟨after, cut⟩ := text_of_line breaks text line number there
  have front : text.toList.take ((before breaks text.toList number).length + line.toList.length) =
      before breaks text.toList number ++ line.toList := by
    rw [← List.length_append]
    refine (List.prefix_iff_eq_take.mp ⟨after, ?_⟩).symm
    rw [List.append_assoc]
    exact cut.symm
  rw [lineOffset, unitOffset, front, width_of_append, length]

/-- A line that is not empty lies on the lines of a range of text exactly when it shares a unit with
that range. -/
theorem between_lines_iff_shares_unit (start stop : Nat) (visible : line.toList ≠ [])
    (spans : Spans breaks text.toList start stop) :
    lineOf (lineStarts breaks text.toList) start ≤ number ∧
        number ≤ lineOf (lineStarts breaks text.toList) stop ↔
      ∃ unit, (lineOffset breaks text number ≤ unit ∧
          unit < lineOffset breaks text number + length line) ∧
        unitOffset text.toList start ≤ unit ∧ unit < unitOffset text.toList stop := by
  obtain ⟨ending, found⟩ := piece_of_line breaks text line number there
  obtain ⟨after, cut⟩ := text_of_line breaks text line number there
  have inText : (before breaks text.toList number).length + line.toList.length ≤
      text.toList.length := by
    have lengths := congrArg List.length cut
    simp only [List.length_append] at lengths
    omega
  have long := List.length_pos_iff.mpr visible
  have nonempty := spans.start_lt
  have stopsInText := spans.stop_le
  have stopBehind := unit_offset_lt_iff text.toList (before breaks text.toList number).length stop
    (by omega) stopsInText
  have startBefore := unit_offset_lt_iff text.toList start
    ((before breaks text.toList number).length + line.toList.length) (by omega) inText
  have lineWide := unit_offset_lt text.toList (before breaks text.toList number).length
    ((before breaks text.toList number).length + line.toList.length) (by omega) inText
  have rangeWide := unit_offset_lt text.toList start stop nonempty stopsInText
  rw [between_lines_iff breaks text.toList start stop number spans _ found visible,
    line_end_eq breaks text line number there, line_offset_eq breaks text line number there,
    ← stopBehind, ← startBefore]
  constructor
  · rintro ⟨beginsBefore, endsLater⟩
    exact ⟨max (unitOffset text.toList (before breaks text.toList number).length)
      (unitOffset text.toList start), by omega, by omega⟩
  · rintro ⟨unit, ⟨fromLine, inLine⟩, fromRange, inRange⟩
    exact ⟨by omega, by omega⟩

end Units

end LineCensus.Text
