import LineCensus.Proofs.Lines
import Mathlib

/-!
The lines of a script and the positions at which they begin, counted in units. A scan over the units finds
a start behind every break, and each line stands in the text from its start to the next break. There is one
start more than there are lines if nothing stands behind the last break, and only the end of the text lies
behind all lines then.
-/

namespace LineCensus.Text

set_option autoImplicit false

def isBreakUnit (unit : Nat) : Bool :=
  unit == 0x0a || unit == 0x0d || unit == 0x2028 || unit == 0x2029

/-- The ends of the breaks in some units of which the first one stands at `position`. -/
def unitBreakEnds (position : Nat) : List Nat → List Nat
  | [] => []
  | 0x0d :: 0x0a :: rest => (position + 2) :: unitBreakEnds (position + 2) rest
  | unit :: rest =>
    if isBreakUnit unit then (position + 1) :: unitBreakEnds (position + 1) rest
    else unitBreakEnds (position + 1) rest

def unitStarts (codes : List Nat) : List Nat := 0 :: unitBreakEnds 0 codes

/-- Whether a break ends with the unit at a position. CR does not end one in front of LF. -/
def EndsBreak (codes : List Nat) (position : Nat) : Prop :=
  ∃ unit, codes[position]? = some unit ∧ isBreakUnit unit = true ∧
    ¬(unit = 0x0d ∧ codes[position + 1]? = some 0x0a)

def endsClosed (codes : List Nat) : Bool := codes.getLast?.all isBreakUnit

/-! ### Ends of breaks -/

/-- The break that CR LF is ends behind the LF. -/
theorem unit_break_ends_cons (position unit : Nat) (rest : List Nat) :
    unitBreakEnds position (unit :: rest) =
      (if isBreakUnit unit = true ∧ ¬(unit = 0x0d ∧ rest.head? = some 0x0a) then [position + 1] else [])
        ++ unitBreakEnds (position + 1) rest := by
  have lineFeed (position : Nat) (rest : List Nat) :
      unitBreakEnds position (0x0a :: rest) = (position + 1) :: unitBreakEnds (position + 1) rest := by
    rw [unitBreakEnds]
    · rfl
    · intro behind impossible
      cases impossible
  by_cases divided : unit = 0x0d ∧ rest.head? = some 0x0a
  · obtain ⟨rfl, feeds⟩ := divided
    obtain ⟨behind, rfl⟩ := List.head?_eq_some_iff.mp feeds
    rw [unitBreakEnds, lineFeed, if_neg (by simp)]
    rfl
  · rw [unitBreakEnds]
    · by_cases isBreak : isBreakUnit unit = true
      · rw [if_pos isBreak, if_pos ⟨isBreak, divided⟩]
        rfl
      · rw [if_neg isBreak, if_neg fun both => isBreak both.1]
        rfl
    · rintro behind rfl rfl
      exact divided ⟨rfl, rfl⟩

theorem unit_break_ends_free (position : Nat) {free : List Nat} (rest : List Nat)
    (noBreak : ∀ unit ∈ free, isBreakUnit unit = false) :
    unitBreakEnds position (free ++ rest) = unitBreakEnds (position + free.length) rest := by
  induction free generalizing position with
  | nil => rfl
  | cons unit free ih =>
      obtain ⟨here, later⟩ := List.forall_mem_cons.mp noBreak
      rw [List.cons_append, unit_break_ends_cons, if_neg (by simp [here]), List.nil_append,
        ih _ later, List.length_cons, Nat.add_assoc, Nat.add_comm 1]

theorem mem_unit_break_ends_iff (position stop : Nat) (codes : List Nat) :
    stop ∈ unitBreakEnds position codes ↔
      ∃ number, stop = position + number + 1 ∧ EndsBreak codes number := by
  induction codes generalizing position with
  | nil => simp [unitBreakEnds, EndsBreak]
  | cons unit rest ih =>
      have first : EndsBreak (unit :: rest) 0 ↔
          isBreakUnit unit = true ∧ ¬(unit = 0x0d ∧ rest.head? = some 0x0a) := by
        simp [EndsBreak, List.head?_eq_getElem?]
      have later (number : Nat) : EndsBreak (unit :: rest) (number + 1) ↔ EndsBreak rest number := by
        simp [EndsBreak]
      rw [unit_break_ends_cons, List.mem_append, ih, List.mem_ite_nil_right, List.mem_singleton, ← first]
      constructor
      · rintro (⟨ends, rfl⟩ | ⟨number, rfl, ends⟩)
        · exact ⟨0, rfl, ends⟩
        · exact ⟨number + 1, by omega, (later number).mpr ends⟩
      · rintro ⟨number, rfl, ends⟩
        cases number with
        | zero => exact .inl ⟨ends, rfl⟩
        | succ number => exact .inr ⟨number, by omega, (later number).mp ends⟩

theorem unit_break_ends_increasing (position : Nat) (codes : List Nat) :
    (unitBreakEnds position codes).Pairwise (· < ·) := by
  induction codes generalizing position with
  | nil => exact .nil
  | cons unit rest ih =>
      rw [unit_break_ends_cons, List.pairwise_append]
      refine ⟨?_, ih _, ?_⟩
      · split
        · exact List.pairwise_singleton _ _
        · exact .nil
      · intro first atFirst stop later
        obtain ⟨number, rfl, -⟩ := (mem_unit_break_ends_iff _ _ _).mp later
        rw [List.mem_ite_nil_right, List.mem_singleton] at atFirst
        omega

section Starts

variable (codes : List Nat)

theorem mem_unit_starts_iff (position : Nat) :
    position ∈ unitStarts codes ↔
      position = 0 ∨ ∃ number, position = number + 1 ∧ EndsBreak codes number := by
  rw [unitStarts, List.mem_cons, mem_unit_break_ends_iff]
  simp only [Nat.zero_add]

theorem unit_starts_increasing : (unitStarts codes).Pairwise (· < ·) := by
  refine List.pairwise_cons.mpr ⟨?_, unit_break_ends_increasing 0 codes⟩
  intro stop member
  obtain ⟨number, rfl, -⟩ := (mem_unit_break_ends_iff _ _ _).mp member
  omega

theorem unit_start_le {start : Nat} (member : start ∈ unitStarts codes) : start ≤ codes.length := by
  rcases (mem_unit_starts_iff codes start).mp member with rfl | ⟨number, rfl, unit, there, -⟩
  · exact Nat.zero_le _
  · exact (List.getElem?_eq_some_iff.mp there).1

/-- The last line begins at the end of the text if nothing stands behind the last break. -/
theorem last_unit_start_iff :
    (unitStarts codes).getLast? = some codes.length ↔ endsClosed codes = true := by
  have isMember : codes.length ∈ unitStarts codes ↔ endsClosed codes = true := by
    rw [mem_unit_starts_iff]
    cases codes using List.reverseRecOn with
    | nil => simp [endsClosed]
    | append_singleton front last => simp [endsClosed, EndsBreak]
  rw [← isMember]
  constructor
  · exact List.mem_of_getLast?
  · intro there
    obtain ⟨front, behind, split⟩ := List.append_of_mem there
    have ordered := unit_starts_increasing codes
    rw [split, List.pairwise_append] at ordered
    have none : behind = [] := by
      apply List.eq_nil_iff_forall_not_mem.mpr
      intro start member
      have later := List.rel_of_pairwise_cons ordered.2.1 member
      have inText := unit_start_le codes (split ▸ List.mem_append_right front (.tail _ member))
      omega
    rw [split, none, List.getLast?_concat]

end Starts

/-! ### Characters and units -/

theorem break_unit_iff (c : Char) :
    isBreakUnit c.toNat = true ↔ LineBreaks.script.contains c = true := by
  have number (d : Char) : c = d ↔ c.toNat = d.toNat := Char.toNat_inj.symm
  simp [isBreakUnit, LineBreaks.contains, number, or_assoc]

/-- A character is a unit of its own, or it breaks no lines and neither do its two units. -/
theorem units_of_cases (c : Char) :
    unitsOf c = [c.toNat] ∨
      LineBreaks.script.contains c = false ∧
        ∃ high low, unitsOf c = [high, low] ∧ isBreakUnit high = false ∧ isBreakUnit low = false := by
  have beyond {unit : Nat} (high : 0x2029 < unit) : isBreakUnit unit = false := by
    simp only [isBreakUnit, Bool.or_eq_false_iff, beq_eq_false_iff_ne, ne_eq]
    omega
  rw [unitsOf]
  split
  case isTrue => exact .inl rfl
  case isFalse large =>
    refine .inr ⟨?_, _, _, rfl, beyond (by omega), beyond (by omega)⟩
    rw [Bool.eq_false_iff, ne_eq, ← break_unit_iff, beyond (by omega)]
    exact Bool.false_ne_true

theorem units_free {chars : List Char} (free : ∀ c ∈ chars, LineBreaks.script.contains c = false) :
    ∀ unit ∈ chars.flatMap unitsOf, isBreakUnit unit = false := by
  intro unit member
  obtain ⟨c, inChars, isUnit⟩ := List.mem_flatMap.mp member
  rcases units_of_cases c with single | ⟨-, high, low, both, highFree, lowFree⟩
  · rw [single, List.mem_singleton] at isUnit
    rw [isUnit, Bool.eq_false_iff, ne_eq, break_unit_iff, free c inChars]
    exact Bool.false_ne_true
  · rw [both, List.mem_cons, List.mem_singleton] at isUnit
    rcases isUnit with rfl | rfl
    · exact highFree
    · exact lowFree

theorem head_units (chars : List Char) :
    (chars.flatMap unitsOf).head? = some 0x0a ↔ chars.head? = some '\n' := by
  cases chars with
  | nil => simp
  | cons c rest =>
      have number : c = '\n' ↔ c.toNat = 0x0a := Char.toNat_inj.symm
      rcases units_of_cases c with single | ⟨noBreak, high, low, both, highFree, -⟩
      · simp [single, number]
      · have notHigh : high ≠ 0x0a := by
          rintro rfl
          cases highFree
        have notFeed : c ≠ '\n' := by
          rintro rfl
          cases noBreak
        simp [both, notHigh, notFeed]

theorem unit_offset_of_front (front rest : List Char) :
    unitOffset (front ++ rest) front.length = widthOf front := by
  rw [unitOffset, List.take_left']
  rfl

theorem width_of_concat (front : List Char) (c : Char) :
    widthOf (front ++ [c]) = widthOf front + (unitsOf c).length := by
  rw [width_of_append, ← length_units_eq [c], List.flatMap_singleton]

/-- A scan over units finds the breaks that a scan over characters finds. -/
theorem unit_break_ends_eq (front rest : List Char) :
    unitBreakEnds (widthOf front) (rest.flatMap unitsOf) =
      (breakEndsFrom .script front.length rest).map (unitOffset (front ++ rest)) := by
  generalize size : front.length = position
  -- The characters that one step takes are passed to the front.
  fun_induction breakEndsFrom .script position rest generalizing front with
  | case1 => rfl
  | case2 position rest ih =>
      have later := ih (front ++ ['\r', '\n']) (by simp [size])
      have here := unit_offset_of_front (front ++ ['\r', '\n']) rest
      rw [List.length_append, size] at here
      rw [width_of_append, List.append_assoc] at later here
      exact congrArg₂ List.cons here.symm later
  | case3 position c rest single isBreak ih =>
      have later := ih (front ++ [c]) (by simp [size])
      have here := unit_offset_of_front (front ++ [c]) rest
      rw [List.length_append, size] at here
      rw [width_of_concat, List.append_assoc, List.singleton_append] at later here
      rcases units_of_cases c with alone | ⟨noBreak, -⟩
      · have ends : isBreakUnit c.toNat = true ∧
            ¬(c.toNat = 0x0d ∧ (rest.flatMap unitsOf).head? = some 0x0a) := by
          refine ⟨(break_unit_iff c).mpr isBreak, ?_⟩
          rintro ⟨isReturn, feeds⟩
          obtain ⟨behind, rfl⟩ := List.head?_eq_some_iff.mp ((head_units rest).mp feeds)
          exact single behind (Char.toNat_inj.mp isReturn) rfl
        rw [alone] at later here
        rw [List.flatMap_cons, alone, List.singleton_append, unit_break_ends_cons, if_pos ends]
        exact congrArg₂ List.cons here.symm later
      · exact Bool.noConfusion (noBreak.symm.trans isBreak)
  | case4 position c rest single noBreak ih =>
      have later := ih (front ++ [c]) (by simp [size])
      rw [width_of_concat, List.append_assoc, List.singleton_append] at later
      have free := units_free (List.forall_mem_singleton.mpr (Bool.eq_false_iff.mpr noBreak))
      rw [List.flatMap_singleton] at free
      rw [List.flatMap_cons, unit_break_ends_free _ _ free, later]

theorem unit_starts_eq (text : String) :
    unitStarts (units text) = (lineStarts .script text.toList).map (unitOffset text.toList) := by
  have found := unit_break_ends_eq [] text.toList
  rw [unitStarts, lineStarts, List.map_cons]
  exact congrArg (0 :: ·) found

/-! ### Lines at their starts -/

section Pieces

variable (text : String) (number : Nat)

theorem before_offset (inText : number < (terminated .script text.toList).length) :
    unitOffset text.toList (before .script text.toList number).length =
      lineOffset .script text number := by
  obtain ⟨after, cut⟩ := text_of_piece .script text.toList number _ (List.getElem?_eq_getElem inText)
  have offset := unit_offset_of_front (before .script text.toList number)
    ((terminated .script text.toList)[number].chars ++ after)
  rwa [← cut] at offset

theorem unit_starts_get :
    (unitStarts (units text))[number]? =
      if number < (terminated .script text.toList).length then some (lineOffset .script text number)
      else none := by
  rw [unit_starts_eq, List.getElem?_map, line_starts_get]
  split
  case isTrue inText => rw [Option.map_some, before_offset text number inText]
  case isFalse => rfl

theorem length_unit_starts :
    (unitStarts (units text)).length = (terminated .script text.toList).length := by
  rw [unit_starts_eq, List.length_map, line_starts_eq, length_starts_from]

variable (piece : EndedLine) (there : (terminated .script text.toList)[number]? = some piece)

include there

theorem text_of_last_piece (isLast : (terminated .script text.toList).length = number + 1) :
    text.toList = before .script text.toList number ++ piece.line := by
  have noEnding := (ending_eq_nil_iff .script [] text.toList number piece there).mpr isLast
  have next := before_succ .script text.toList number piece there
  rwa [before, ← isLast, List.take_length, flat_map_terminated, EndedLine.chars, noEnding,
    List.append_nil] at next

/-- From the start of a line to the next break stands that line. -/
theorem units_from_start :
    ((units text).drop (lineOffset .script text number)).takeWhile (fun unit => !isBreakUnit unit) =
      piece.line.flatMap unitsOf := by
  obtain ⟨after, cut⟩ := text_of_piece .script text.toList number piece there
  have free := units_free (line_free .script [] text.toList (by simp) piece (List.mem_of_getElem? there))
  have behind : (units text).drop (lineOffset .script text number) =
      piece.line.flatMap unitsOf ++ (piece.ending ++ after).flatMap unitsOf := by
    have whole := congrArg (List.flatMap unitsOf) cut
    rw [EndedLine.chars, List.append_assoc, List.flatMap_append, List.flatMap_append] at whole
    rw [units, whole, lineOffset, ← length_units_eq, List.drop_left]
  have stops : ((piece.ending ++ after).flatMap unitsOf).takeWhile (fun unit => !isBreakUnit unit) =
      [] := by
    cases ending : piece.ending with
    | nil =>
        have isLast := (ending_eq_nil_iff .script [] text.toList number piece there).mp ending
        have last := text_of_last_piece text number piece there isLast
        rw [EndedLine.chars, ending, List.append_nil] at cut
        have none : after = [] := by
          have same := List.append_cancel_left (cut.symm.trans last)
          exact List.self_eq_append_right.mp same.symm
        rw [none]
        rfl
    | cons c more =>
        have isBreak := ending_breaks .script [] text.toList piece (List.mem_of_getElem? there) c
          (by rw [ending]; exact List.mem_cons_self)
        rcases units_of_cases c with single | ⟨noBreak, -⟩
        · have breaksLine := (break_unit_iff c).mpr isBreak
          rw [List.cons_append, List.flatMap_cons, single, List.singleton_append]
          exact List.takeWhile_cons_of_neg (by simp [breaksLine])
        · exact Bool.noConfusion (noBreak.symm.trans isBreak)
  rw [behind, List.takeWhile_append_of_pos (by simpa using free), stops, List.append_nil]

end Pieces

section Lines

variable (text : String)

/-- The last line has its start, but no text, if nothing stands behind the last break. -/
theorem last_line_empty_iff (number : Nat) (piece : EndedLine)
    (there : (terminated .script text.toList)[number]? = some piece)
    (isLast : (terminated .script text.toList).length = number + 1) :
    piece.line = [] ↔ endsClosed (units text) = true := by
  have last : (unitStarts (units text)).getLast? = some (lineOffset .script text number) := by
    rw [List.getLast?_eq_getElem?, length_unit_starts, isLast, Nat.add_sub_cancel, unit_starts_get,
      if_pos (by omega)]
  have size : (units text).length = lineOffset .script text number + widthOf piece.line := by
    have cut := text_of_last_piece text number piece there isLast
    rw [units, length_units_eq, lineOffset, ← width_of_append, ← cut]
  rw [← last_unit_start_iff, last, Option.some.injEq, size]
  have wide := length_le_width_of piece.line
  constructor
  · intro empty
    rw [empty]
    rfl
  · intro same
    exact List.eq_nil_of_length_eq_zero (by omega)

theorem length_split_script_lines :
    (unitStarts (units text)).length =
      (splitLines .script text).length + if endsClosed (units text) then 1 else 0 := by
  obtain ⟨front, piece, split⟩ :=
    (List.eq_nil_or_concat' _).resolve_left (terminated_from_ne_nil .script [] text.toList)
  have isLast : (terminated .script text.toList).length = front.length + 1 := by
    rw [terminated, split, List.length_append, List.length_singleton]
  have there : (terminated .script text.toList)[front.length]? = some piece := by
    rw [terminated, split, List.getElem?_concat_length]
  have empty := last_line_empty_iff text front.length piece there isLast
  rw [length_unit_starts, isLast, splitLines, List.length_map, ← map_line_terminated_from, split,
    List.map_append, List.map_singleton, dropEmptyLast, List.getLast?_concat]
  by_cases closed : endsClosed (units text) = true
  · rw [if_pos (by simpa using empty.mpr closed), if_pos closed, List.dropLast_concat, List.length_map]
  · rw [if_neg (by simpa using mt empty.mp closed), if_neg closed, List.length_append, List.length_map]
    rfl

end Lines

/-! ### Positions -/

/-- Only the end of a text can lie behind all lines, and it does if nothing stands behind the last
break. -/
theorem lines_le_line_of_iff (text : String) (position : Nat) (inText : position ≤ (units text).length) :
    (splitLines .script text).length ≤ lineOf (unitStarts (units text)) position ↔
      position = (units text).length ∧ endsClosed (units text) = true := by
  have count := length_split_script_lines text
  rw [le_line_of_starts_iff (unit_starts_increasing _) List.mem_cons_self]
  by_cases closed : endsClosed (units text) = true
  · have beforeLast : (splitLines .script text).length = (unitStarts (units text)).length - 1 := by
      rw [if_pos closed] at count
      omega
    rw [beforeLast, ← List.getLast?_eq_getElem?, (last_unit_start_iff _).mpr closed]
    constructor
    · rintro ⟨start, same, le⟩
      cases same
      exact ⟨Nat.le_antisymm inText le, closed⟩
    · rintro ⟨rfl, -⟩
      exact ⟨_, rfl, Nat.le_refl _⟩
  · rw [if_neg closed, Nat.add_zero] at count
    rw [← count, List.getElem?_eq_none (Nat.le_refl _)]
    simp [closed]

/-- It makes no difference for its line whether a position is counted in characters or in units. -/
theorem line_of_unit_offset (text : String) (position : Nat) (inText : position ≤ text.toList.length) :
    lineOf (unitStarts (units text)) (unitOffset text.toList position) =
      lineOf (lineStarts .script text.toList) position := by
  rw [lineOf, lineOf, unit_starts_eq, List.filter_map, List.length_map]
  congr 2
  apply List.filter_congr
  intro start member
  have order := unit_offset_lt_iff text.toList position start inText (line_start_le _ member)
  rw [Function.comp_apply, decide_eq_decide]
  omega

/-- The lines of a script are told by the positions at which they begin. -/
theorem script_lines_stand_at_starts (text : String) :
    let codes := units text
    let starts := unitStarts codes
    let lines := splitLines .script text
    (starts.Pairwise (· < ·) ∧ ∀ position,
      position ∈ starts ↔ position = 0 ∨ ∃ number, position = number + 1 ∧ EndsBreak codes number) ∧
    (∀ (number : Nat) (line : String), lines[number]? = some line →
      ∃ start, starts[number]? = some start ∧
        units line = (codes.drop start).takeWhile fun unit => !isBreakUnit unit) ∧
    starts.length = lines.length + (if endsClosed codes then 1 else 0) ∧
    (∀ position ≤ codes.length,
      (lines.length ≤ lineOf starts position ↔ position = codes.length ∧ endsClosed codes = true)) ∧
    ∀ position ≤ text.toList.length,
      lineOf (lineStarts .script text.toList) position =
        lineOf starts (unitOffset text.toList position) := by
  intro codes starts lines
  refine ⟨⟨unit_starts_increasing codes, mem_unit_starts_iff codes⟩, ?_, length_split_script_lines text,
    lines_le_line_of_iff text, fun position inText => (line_of_unit_offset text position inText).symm⟩
  intro number line there
  obtain ⟨ending, found⟩ := piece_of_line .script text line number there
  refine ⟨lineOffset .script text number, ?_, ?_⟩
  · rw [unit_starts_get, if_pos (List.getElem?_eq_some_iff.mp found).1]
  · exact (units_from_start text number _ found).symm

/-- CR LF, a lone CR and a separator as breaks, the last one at the end and behind a character of two
units. -/
theorem mixed_lines_stand_at_starts :
    let text := "a\r\n\r😀\u2028"
    (splitLines .script text)[2]? = some "😀" ∧
    (∃ start, (unitStarts (units text))[2]? = some start ∧
      units "😀" = ((units text).drop start).takeWhile fun unit => !isBreakUnit unit) ∧
    7 ≤ (units text).length ∧
    ((splitLines .script text).length ≤ lineOf (unitStarts (units text)) 7 ↔
      7 = (units text).length ∧ endsClosed (units text) = true) ∧
    5 ≤ text.toList.length ∧
    lineOf (lineStarts .script text.toList) 5 =
      lineOf (unitStarts (units text)) (unitOffset text.toList 5) := by
  intro text
  obtain ⟨-, lines, -, behind, counted⟩ := script_lines_stand_at_starts text
  have third : (splitLines .script text)[2]? = some "😀" := by decide +kernel
  have size : 7 ≤ (units text).length := by decide +kernel
  have count : 5 ≤ text.toList.length := by decide +kernel
  exact ⟨third, lines 2 "😀" third, size, behind 7 size, count, counted 5 count⟩

end LineCensus.Text
