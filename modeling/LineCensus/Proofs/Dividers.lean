import LineCensus.Markdown
import LineCensus.Proofs.Trimming

/-!
Dividers between the head of a table and its rows. A divider can be told by cutting it at its bars: once
the bars at its ends are gone, there are two cells or more, and each is a rule with blanks around it. A
pattern of what follows what tells the same lines, since no rule and no blank can be taken for a bar.
-/

namespace LineCensus.Markdown

set_option autoImplicit false

open Text
open scoped Computability

/-! ### Rules -/

/-- Hyphens, with or without a colon at either end. -/
def IsRule (text : List Char) : Prop :=
  ∃ left count right, (left = [] ∨ left = [':']) ∧ (right = [] ∨ right = [':']) ∧
    text = left ++ (List.replicate (count + 1) '-' ++ right)

/-- Whether a cell is a rule once the blanks around it are gone. -/
def IsRuleCell (cell : List Char) : Prop := IsRule (trimChars cell)

theorem bar_not_blank : isBlank '|' = false := by decide

theorem hyphen_not_blank : isBlank '-' = false := by decide

theorem colon_not_blank : isBlank ':' = false := by decide

namespace IsRule

variable {text : List Char}

theorem marks (rule : IsRule text) : ∀ c ∈ text, c = ':' ∨ c = '-' := by
  obtain ⟨left, count, right, atLeft, atRight, rfl⟩ := rule
  have colons (part : List Char) (ends : part = [] ∨ part = [':']) : ∀ c ∈ part, c = ':' := by
    rcases ends with rfl | rfl <;> simp
  intro c member
  rw [List.mem_append, List.mem_append, List.mem_replicate] at member
  rcases member with inLeft | hyphen | inRight
  · exact .inl (colons left atLeft c inLeft)
  · exact .inr hyphen.2
  · exact .inl (colons right atRight c inRight)

theorem ne_nil (rule : IsRule text) : text ≠ [] := by
  obtain ⟨left, count, right, -, -, rfl⟩ := rule
  simp

theorem visible (rule : IsRule text) : ∀ c ∈ text, isBlank c = false := by
  intro c member
  rcases rule.marks c member with rfl | rfl
  · exact colon_not_blank
  · exact hyphen_not_blank

theorem trimmed (rule : IsRule text) : trimChars text = text := by
  apply trim_chars_of_visible
  · exact fun c first => rule.visible c (List.mem_of_mem_head? first)
  · exact fun c last => rule.visible c (List.mem_of_mem_getLast? last)

end IsRule

theorem rule_cell_iff (cell : List Char) :
    IsRuleCell cell ↔ ∃ before rule after, AllBlank before ∧ IsRule rule ∧ AllBlank after ∧
      cell = before ++ (rule ++ after) := by
  constructor
  · intro isCell
    obtain ⟨before, after, blankBefore, blankAfter, parts⟩ := trim_chars_parts cell
    exact ⟨before, _, after, blankBefore, isCell, blankAfter, parts⟩
  · rintro ⟨before, rule, after, blankBefore, isRule, blankAfter, rfl⟩
    rw [IsRuleCell, trim_chars_between blankBefore blankAfter, isRule.trimmed]
    exact isRule

theorem rule_cell_between {before rule after : List Char} (blankBefore : AllBlank before)
    (isRule : IsRule rule) (blankAfter : AllBlank after) : IsRuleCell (before ++ (rule ++ after)) :=
  (rule_cell_iff _).mpr ⟨before, rule, after, blankBefore, isRule, blankAfter, rfl⟩

theorem IsRuleCell.no_bar {cell : List Char} (isCell : IsRuleCell cell) : '|' ∉ cell := by
  obtain ⟨before, rule, after, blankBefore, isRule, blankAfter, rfl⟩ := (rule_cell_iff cell).mp isCell
  intro member
  rcases List.mem_append.mp member with inBefore | later
  · exact Bool.noConfusion (bar_not_blank.symm.trans (blankBefore _ inBefore))
  · rcases List.mem_append.mp later with inRule | inAfter
    · rcases isRule.marks _ inRule with same | same <;> cases same
    · exact Bool.noConfusion (bar_not_blank.symm.trans (blankAfter _ inAfter))

theorem IsRuleCell.ne_nil {cell : List Char} (isCell : IsRuleCell cell) : cell ≠ [] := by
  rintro rfl
  exact IsRule.ne_nil isCell rfl

/-! ### Rows -/

def withoutFirst (mark : Char) (chars : List Char) : List Char :=
  if chars.head? = some mark then chars.tail else chars

def withoutLast (mark : Char) (chars : List Char) : List Char :=
  if chars.getLast? = some mark then chars.dropLast else chars

/-- Whether a text, cut at its bars, consists of two rules or more. A bar may stand at either end. -/
def SplitsIntoRules (chars : List Char) : Prop :=
  let cells := (withoutLast '|' (withoutFirst '|' chars)).splitOn '|'
  2 ≤ cells.length ∧ ∀ cell ∈ cells, IsRuleCell cell

/-- Whether a text is two cells or more with bars between them. A bar may stand at either end. -/
def IsRow (chars : List Char) : Prop :=
  ∃ front cells behind, (front = [] ∨ front = ['|']) ∧ (behind = [] ∨ behind = ['|']) ∧
    2 ≤ cells.length ∧ (∀ cell ∈ cells, IsRuleCell cell) ∧
    chars = front ++ (['|'].intercalate cells ++ behind)

section Ends

variable {mark : Char} {chars : List Char}

theorem without_first_parts (mark : Char) (chars : List Char) :
    ∃ front, (front = [] ∨ front = [mark]) ∧ chars = front ++ withoutFirst mark chars := by
  unfold withoutFirst
  split
  case isTrue marked =>
    obtain ⟨rest, rfl⟩ := List.head?_eq_some_iff.mp marked
    exact ⟨[mark], .inr rfl, rfl⟩
  case isFalse => exact ⟨[], .inl rfl, rfl⟩

theorem without_last_parts (mark : Char) (chars : List Char) :
    ∃ behind, (behind = [] ∨ behind = [mark]) ∧ chars = withoutLast mark chars ++ behind := by
  unfold withoutLast
  split
  case isTrue marked =>
    obtain ⟨rest, rfl⟩ := List.getLast?_eq_some_iff.mp marked
    exact ⟨[mark], .inr rfl, by rw [List.dropLast_concat]⟩
  case isFalse => exact ⟨[], .inl rfl, (List.append_nil chars).symm⟩

theorem without_first_append {front : List Char} (atFront : front = [] ∨ front = [mark])
    (other : chars.head? ≠ some mark) : withoutFirst mark (front ++ chars) = chars := by
  rcases atFront with rfl | rfl
  · rw [List.nil_append, withoutFirst, if_neg other]
  · simp [withoutFirst]

theorem without_last_append {behind : List Char} (atEnd : behind = [] ∨ behind = [mark])
    (other : chars.getLast? ≠ some mark) : withoutLast mark (chars ++ behind) = chars := by
  rcases atEnd with rfl | rfl
  · rw [List.append_nil, withoutLast, if_neg other]
  · simp [withoutLast]

end Ends

theorem intercalate_eq (first : List Char) (rest : List (List Char)) :
    ['|'].intercalate (first :: rest) = first ++ rest.flatMap ('|' :: ·) := by
  induction rest generalizing first with
  | nil => simp
  | cons second rest ih =>
      rw [List.intercalate_cons_cons, ih second, List.flatMap_cons, List.append_assoc]
      rfl

theorem intercalate_last {cells : List (List Char)} (isCell : ∀ cell ∈ cells, IsRuleCell cell) :
    (['|'].intercalate cells).getLast? ≠ some '|' := by
  induction cells with
  | nil => simp
  | cons first rest ih =>
      cases rest with
      | nil =>
          intro last
          rw [List.intercalate_singleton] at last
          exact (isCell first (by simp)).no_bar (List.mem_of_mem_getLast? last)
      | cons second rest =>
          have later := ih fun cell member => isCell cell (List.mem_cons_of_mem _ member)
          have filled : ['|'].intercalate (second :: rest) ≠ [] := by
            rw [intercalate_eq]
            exact List.append_ne_nil_of_left_ne_nil (isCell second (by simp)).ne_nil _
          rw [List.intercalate_cons_cons, List.getLast?_append_of_ne_nil _ filled]
          exact later

theorem splits_into_rules_iff (chars : List Char) : SplitsIntoRules chars ↔ IsRow chars := by
  constructor
  · rintro ⟨enough, isCell⟩
    obtain ⟨front, atFront, parts⟩ := without_first_parts '|' chars
    obtain ⟨behind, atEnd, inner⟩ := without_last_parts '|' (withoutFirst '|' chars)
    refine ⟨front, _, behind, atFront, atEnd, enough, isCell, ?_⟩
    rw [List.intercalate_splitOn, ← inner]
    exact parts
  · rintro ⟨front, cells, behind, atFront, atEnd, enough, isCell, rfl⟩
    have last := intercalate_last isCell
    have first : (['|'].intercalate cells ++ behind).head? ≠ some '|' := by
      cases cells with
      | nil => simp at enough
      | cons first rest =>
          have isFirst := isCell first (by simp)
          rw [intercalate_eq, List.append_assoc, List.head?_append_of_ne_nil _ isFirst.ne_nil]
          intro bar
          exact isFirst.no_bar (List.mem_of_mem_head? bar)
    rw [SplitsIntoRules, without_first_append atFront first, without_last_append atEnd last,
      List.splitOn_intercalate _ (fun cell member => (isCell cell member).no_bar)]
    · exact ⟨enough, isCell⟩
    · rintro rfl
      simp at enough

/-! ### Reading rows -/

/-- What may stand behind a cell: the end, or the bar in front of another one. -/
def EndsCell (rest : List Char) : Prop := ∀ c, rest.head? = some c → c = '|'

theorem skip_colon_eq (chars : List Char) : skipColon chars = withoutFirst ':' chars := by
  unfold skipColon withoutFirst
  split
  · rfl
  · rename_i other
    rw [if_neg]
    intro colon
    obtain ⟨rest, same⟩ := List.head?_eq_some_iff.mp colon
    exact other rest same

theorem hyphen_parts (chars : List Char) :
    ∃ count, chars = List.replicate count '-' ++ chars.dropWhile (· == '-') := by
  have hyphens : chars.takeWhile (· == '-') =
      List.replicate (chars.takeWhile (· == '-')).length '-' := by
    apply List.eq_replicate_of_mem
    intro c member
    have isHyphen := List.mem_takeWhile_imp member
    exact beq_iff_eq.mp isHyphen
  refine ⟨(chars.takeWhile (· == '-')).length, ?_⟩
  rw [← hyphens, List.takeWhile_append_dropWhile]

theorem drop_hyphens (count : Nat) {rest : List Char} (other : rest.head? ≠ some '-') :
    (List.replicate count '-' ++ rest).dropWhile (· == '-') = rest := by
  rw [List.dropWhile_append_of_pos fun c member => beq_iff_eq.mpr (List.eq_of_mem_replicate member)]
  cases rest with
  | nil => rfl
  | cons c rest =>
      have notHyphen : c ≠ '-' := by simpa using other
      exact List.dropWhile_cons_of_neg (by simpa using notHyphen)

theorem after_cell_parts {chars rest : List Char} (found : afterCell chars = some rest) :
    ∃ rule after, IsRule rule ∧ AllBlank after ∧ chars = rule ++ (after ++ rest) := by
  obtain ⟨left, atLeft, leftParts⟩ := without_first_parts ':' chars
  simp only [afterCell, skip_colon_eq] at found
  split at found
  · rename_i hyphen
    obtain ⟨more, first⟩ := List.head?_eq_some_iff.mp (beq_iff_eq.mp hyphen)
    rw [first] at leftParts found
    rw [List.dropWhile_cons_of_pos (by simp), Option.some.injEq] at found
    obtain ⟨count, hyphens⟩ := hyphen_parts more
    obtain ⟨right, atRight, rightParts⟩ := without_first_parts ':' (more.dropWhile (· == '-'))
    obtain ⟨after, blank, afterParts⟩ :=
      trim_left_parts (withoutFirst ':' (more.dropWhile (· == '-')))
    rw [found] at afterParts
    refine ⟨left ++ (List.replicate (count + 1) '-' ++ right), after,
      ⟨left, count, right, atLeft, atRight, rfl⟩, blank, ?_⟩
    rw [leftParts, hyphens, rightParts, afterParts, List.replicate_succ]
    simp
  · cases found

theorem behind_rule {after rest : List Char} {c : Char} (blank : AllBlank after) (ends : EndsCell rest)
    (visible : isBlank c = false) (other : c ≠ '|') : (after ++ rest).head? ≠ some c := by
  intro first
  cases after with
  | nil => exact other (ends c first)
  | cons head after =>
      cases first
      exact Bool.noConfusion (visible.symm.trans (blank c List.mem_cons_self))

theorem after_cell_append {rule after rest : List Char} (isRule : IsRule rule) (blank : AllBlank after)
    (ends : EndsCell rest) : afterCell (rule ++ (after ++ rest)) = some rest := by
  have noColon := behind_rule blank ends colon_not_blank (by decide)
  have noHyphen := behind_rule blank ends hyphen_not_blank (by decide)
  have restVisible : trimLeft rest = rest := by
    apply trim_left_of_visible
    intro c first
    rw [ends c first]
    exact bar_not_blank
  obtain ⟨left, count, right, atLeft, atRight, rfl⟩ := isRule
  have rightEnds : (right ++ (after ++ rest)).head? ≠ some '-' := by
    rcases atRight with rfl | rfl
    · exact noHyphen
    · simp
  have hyphenFirst :
      (List.replicate (count + 1) '-' ++ (right ++ (after ++ rest))).head? = some '-' := by
    simp [List.replicate_succ]
  have skipped : skipColon (left ++ (List.replicate (count + 1) '-' ++ (right ++ (after ++ rest)))) =
      List.replicate (count + 1) '-' ++ (right ++ (after ++ rest)) := by
    rw [skip_colon_eq]
    apply without_first_append atLeft
    rw [hyphenFirst]
    decide
  have parts : left ++ (List.replicate (count + 1) '-' ++ right) ++ (after ++ rest) =
      left ++ (List.replicate (count + 1) '-' ++ (right ++ (after ++ rest))) := by simp
  rw [parts, afterCell, skipped, if_pos (beq_iff_eq.mpr hyphenFirst), drop_hyphens _ rightEnds,
    skip_colon_eq, without_first_append atRight noColon, trim_left_append blank, restVisible]

theorem ends_divider_parts {bound : Nat} {enough : Bool} {chars : List Char}
    (accepted : endsDivider bound enough chars = true) :
    ∃ cells behind after, (behind = [] ∨ behind = ['|']) ∧ AllBlank after ∧
      (∀ cell ∈ cells, IsRuleCell cell) ∧ (enough = false → cells ≠ []) ∧
      chars = cells.flatMap ('|' :: ·) ++ (behind ++ after) := by
  induction bound generalizing enough chars with
  | zero => cases accepted
  | succ bound ih =>
      unfold endsDivider at accepted
      split at accepted
      · refine ⟨[], [], [], .inl rfl, all_blank_nil, by simp, ?_, rfl⟩
        intro short
        exact Bool.noConfusion (short.symm.trans accepted)
      · rename_i rest
        obtain ⟨before, blankBefore, beforeParts⟩ := trim_left_parts rest
        rw [Bool.or_eq_true] at accepted
        rcases accepted with last | next
        · -- Nothing but blanks behind the bar: it is the one at the end.
          rw [Bool.and_eq_true, List.isEmpty_iff] at last
          rw [last.2, List.append_nil] at beforeParts
          refine ⟨[], ['|'], before, .inr rfl, blankBefore, by simp, ?_, by rw [beforeParts]; rfl⟩
          intro short
          exact Bool.noConfusion (short.symm.trans last.1)
        · split at next
          · rename_i tail found
            obtain ⟨rule, after, isRule, blankAfter, ruleParts⟩ := after_cell_parts found
            obtain ⟨cells, behind, others, atEnd, blankOthers, isCell, -, tailParts⟩ := ih next
            have first := rule_cell_between blankBefore isRule blankAfter
            refine ⟨(before ++ (rule ++ after)) :: cells, behind, others, atEnd, blankOthers,
              List.forall_mem_cons.mpr ⟨first, isCell⟩, fun _ => List.cons_ne_nil _ _, ?_⟩
            rw [beforeParts, ruleParts, tailParts]
            simp
          · cases next
      · cases accepted

theorem ends_cell_flat_map (cells : List (List Char)) {behind : List Char}
    (atEnd : behind = [] ∨ behind = ['|']) : EndsCell (cells.flatMap ('|' :: ·) ++ behind) := by
  intro c first
  cases cells with
  | nil =>
      rcases atEnd with rfl | rfl
      · cases first
      · cases first
        rfl
  | cons cell cells =>
      cases first
      rfl

theorem ends_divider_append {bound : Nat} {enough : Bool} {cells : List (List Char)}
    {behind : List Char} (atEnd : behind = [] ∨ behind = ['|'])
    (isCell : ∀ cell ∈ cells, IsRuleCell cell) (filled : enough = false → cells ≠ [])
    (large : (cells.flatMap ('|' :: ·) ++ behind).length < bound) :
    endsDivider bound enough (cells.flatMap ('|' :: ·) ++ behind) = true := by
  induction bound generalizing enough cells with
  | zero => cases large
  | succ bound ih =>
      cases cells with
      | nil =>
          have isEnough : enough = true := by
            cases enough with
            | true => rfl
            | false => exact absurd rfl (filled rfl)
          rcases atEnd with rfl | rfl <;> simp [endsDivider, isEnough, trimLeft]
      | cons cell cells =>
          obtain ⟨before, rule, after, blankBefore, isRule, blankAfter, rfl⟩ :=
            (rule_cell_iff cell).mp (isCell _ List.mem_cons_self)
          have ends := ends_cell_flat_map cells atEnd
          have visible : trimLeft (rule ++ (after ++ (cells.flatMap ('|' :: ·) ++ behind))) =
              rule ++ (after ++ (cells.flatMap ('|' :: ·) ++ behind)) := by
            apply trim_left_of_visible
            intro c first
            rw [List.head?_append_of_ne_nil _ isRule.ne_nil] at first
            exact isRule.visible c (List.mem_of_mem_head? first)
          have later : endsDivider bound true (cells.flatMap ('|' :: ·) ++ behind) = true := by
            apply ih
            · exact fun other member => isCell other (List.mem_cons_of_mem _ member)
            · intro more
              cases more
            · simp only [List.flatMap_cons, List.length_append, List.length_cons] at large ⊢
              omega
          have parts : ((before ++ (rule ++ after)) :: cells).flatMap ('|' :: ·) ++ behind =
              '|' :: (before ++ (rule ++ (after ++ (cells.flatMap ('|' :: ·) ++ behind)))) := by simp
          rw [parts, endsDivider]
          simp only [trim_left_append blankBefore, visible, after_cell_append isRule blankAfter ends,
            later, Bool.or_true]

def firstCell (chars : List Char) : List Char :=
  match chars with
  | '|' :: rest => trimLeft rest
  | _ => chars

theorem is_divider_eq (line : String) :
    isDivider line = match afterCell (firstCell (trimChars line.toList)) with
      | some rest => endsDivider (rest.length + 1) false rest
      | none => false :=
  rfl

theorem first_cell_parts (chars : List Char) :
    ∃ front before, (front = [] ∨ front = ['|']) ∧ AllBlank before ∧
      chars = front ++ (before ++ firstCell chars) := by
  unfold firstCell
  split
  · rename_i rest
    obtain ⟨before, blank, parts⟩ := trim_left_parts rest
    exact ⟨['|'], before, .inr rfl, blank, by rw [← parts]; rfl⟩
  · exact ⟨[], [], .inl rfl, all_blank_nil, rfl⟩

theorem first_cell_of_rule {front before rule rest : List Char} (bar : front = [] ∨ front = ['|'])
    (blank : AllBlank before) (isRule : IsRule rule)
    (first : ∀ c, (front ++ (before ++ (rule ++ rest))).head? = some c → isBlank c = false) :
    firstCell (front ++ (before ++ (rule ++ rest))) = rule ++ rest := by
  have head : (rule ++ rest).head? = rule.head? := List.head?_append_of_ne_nil _ isRule.ne_nil
  rcases bar with rfl | rfl
  · obtain rfl := eq_nil_of_blank_before blank first
    rw [List.nil_append, List.nil_append]
    unfold firstCell
    split
    · rename_i bars same
      rw [same, List.head?_cons] at head
      rcases isRule.marks _ (List.mem_of_mem_head? head.symm) with colon | hyphen
      · cases colon
      · cases hyphen
    · rfl
  · change trimLeft (before ++ (rule ++ rest)) = rule ++ rest
    rw [trim_left_append blank]
    apply trim_left_of_visible
    intro c atFront
    exact isRule.visible c (List.mem_of_mem_head? (head.symm.trans atFront))

theorem is_divider_iff (line : String) :
    isDivider line = true ↔ IsRow (trimChars line.toList) := by
  have last := trim_chars_last line.toList
  have first := trim_chars_head line.toList
  rw [is_divider_eq]
  generalize trimChars line.toList = chars at first last
  constructor
  · intro accepted
    split at accepted
    · rename_i rest found
      obtain ⟨front, before, atFront, blankBefore, frontParts⟩ := first_cell_parts chars
      obtain ⟨rule, after, isRule, blankAfter, ruleParts⟩ := after_cell_parts found
      obtain ⟨cells, behind, others, atEnd, blankOthers, isCell, filled, restParts⟩ :=
        ends_divider_parts accepted
      rw [ruleParts, restParts] at frontParts
      have parts : chars = front ++ (before ++ (rule ++ after) ++ cells.flatMap ('|' :: ·) ++ behind) ++
          others := by
        rw [frontParts]
        simp
      rw [parts] at last
      obtain rfl := eq_nil_of_blank_behind blankOthers last
      have firstIsCell := rule_cell_between blankBefore isRule blankAfter
      refine ⟨front, (before ++ (rule ++ after)) :: cells, behind, atFront, atEnd, ?_,
        List.forall_mem_cons.mpr ⟨firstIsCell, isCell⟩, ?_⟩
      · have more := List.length_pos_iff.mpr (filled rfl)
        rw [List.length_cons]
        omega
      · rw [intercalate_eq, parts, List.append_nil]
    · cases accepted
  · rintro ⟨front, cells, behind, atFront, atEnd, enough, isCell, rfl⟩
    cases cells with
    | nil => simp at enough
    | cons cell cells =>
        have filled : cells ≠ [] := by
          rintro rfl
          simp at enough
        obtain ⟨before, rule, after, blankBefore, isRule, blankAfter, rfl⟩ :=
          (rule_cell_iff cell).mp (isCell _ List.mem_cons_self)
        have parts : front ++ (['|'].intercalate ((before ++ (rule ++ after)) :: cells) ++ behind) =
            front ++ (before ++ (rule ++ (after ++ (cells.flatMap ('|' :: ·) ++ behind)))) := by
          rw [intercalate_eq]
          simp
        rw [parts] at first ⊢
        rw [first_cell_of_rule atFront blankBefore isRule first,
          after_cell_append isRule blankAfter (ends_cell_flat_map cells atEnd)]
        apply ends_divider_append atEnd
        · exact fun other member => isCell other (List.mem_cons_of_mem _ member)
        · exact fun _ => filled
        · exact Nat.lt_succ_self _

/-! ### The pattern -/

section Pattern

variable {text : List Char}

def sign (c : Char) : Language Char := {[c]}

def blanks : Language Char := {text | AllBlank text}

def maybe (pattern : Language Char) : Language Char := 1 + pattern

def atLeastOnce (pattern : Language Char) : Language Char := pattern * pattern∗

def rulePattern : Language Char := maybe (sign ':') * atLeastOnce (sign '-') * maybe (sign ':')

def cellPattern : Language Char := blanks * rulePattern * blanks

def dividerPattern : Language Char :=
  blanks * maybe (sign '|') * cellPattern * atLeastOnce (sign '|' * cellPattern) * maybe (sign '|') *
    blanks

theorem mem_sign_iff (c : Char) : text ∈ sign c ↔ text = [c] := Iff.rfl

theorem mem_maybe_sign_iff (c : Char) : text ∈ maybe (sign c) ↔ text = [] ∨ text = [c] := by
  rw [maybe, Language.mem_add, Language.mem_one, mem_sign_iff]

theorem mem_hyphens_iff :
    text ∈ atLeastOnce (sign '-') ↔ ∃ count, text = List.replicate (count + 1) '-' := by
  rw [atLeastOnce, Language.mem_mul]
  constructor
  · rintro ⟨first, rfl, rest, more, rfl⟩
    obtain ⟨parts, rfl, isHyphen⟩ := Language.mem_kstar.mp more
    refine ⟨parts.length, ?_⟩
    rw [List.eq_replicate_of_mem isHyphen]
    simp [List.replicate_succ]
  · rintro ⟨count, rfl⟩
    refine ⟨['-'], rfl, List.replicate count '-', Language.mem_kstar.mpr ?_, rfl⟩
    refine ⟨List.replicate count ['-'], by simp, ?_⟩
    exact fun part member => List.eq_of_mem_replicate member

theorem mem_rule_pattern_iff : text ∈ rulePattern ↔ IsRule text := by
  rw [rulePattern, Language.mem_mul]
  constructor
  · rintro ⟨_, leftAndHyphens, right, atRight, rfl⟩
    obtain ⟨left, atLeft, hyphens, isHyphens, rfl⟩ := Language.mem_mul.mp leftAndHyphens
    obtain ⟨count, rfl⟩ := mem_hyphens_iff.mp isHyphens
    exact ⟨left, count, right, (mem_maybe_sign_iff _).mp atLeft, (mem_maybe_sign_iff _).mp atRight,
      List.append_assoc _ _ _⟩
  · rintro ⟨left, count, right, atLeft, atRight, rfl⟩
    refine ⟨_, Language.append_mem_mul ((mem_maybe_sign_iff _).mpr atLeft)
      (mem_hyphens_iff.mpr ⟨count, rfl⟩), right, (mem_maybe_sign_iff _).mpr atRight, ?_⟩
    rw [List.append_assoc]

theorem mem_cell_pattern_iff : text ∈ cellPattern ↔ IsRuleCell text := by
  rw [cellPattern, Language.mem_mul, rule_cell_iff]
  constructor
  · rintro ⟨_, beforeAndRule, after, blankAfter, rfl⟩
    obtain ⟨before, blankBefore, rule, isRule, rfl⟩ := Language.mem_mul.mp beforeAndRule
    exact ⟨before, rule, after, blankBefore, mem_rule_pattern_iff.mp isRule, blankAfter,
      List.append_assoc _ _ _⟩
  · rintro ⟨before, rule, after, blankBefore, isRule, blankAfter, rfl⟩
    refine ⟨_, Language.append_mem_mul blankBefore (mem_rule_pattern_iff.mpr isRule), after,
      blankAfter, ?_⟩
    rw [List.append_assoc]

theorem mem_barred_iff :
    text ∈ sign '|' * cellPattern ↔ ∃ cell, IsRuleCell cell ∧ text = '|' :: cell := by
  rw [Language.mem_mul]
  constructor
  · rintro ⟨_, rfl, cell, isCell, rfl⟩
    exact ⟨cell, mem_cell_pattern_iff.mp isCell, rfl⟩
  · rintro ⟨cell, isCell, rfl⟩
    exact ⟨['|'], rfl, cell, mem_cell_pattern_iff.mpr isCell, rfl⟩

theorem mem_barred_cells_iff :
    text ∈ atLeastOnce (sign '|' * cellPattern) ↔
      ∃ cells, cells ≠ [] ∧ (∀ cell ∈ cells, IsRuleCell cell) ∧ text = cells.flatMap ('|' :: ·) := by
  rw [atLeastOnce, Language.mem_mul]
  constructor
  · rintro ⟨first, isFirst, rest, more, rfl⟩
    obtain ⟨cell, isCell, rfl⟩ := mem_barred_iff.mp isFirst
    obtain ⟨parts, rfl, isBarred⟩ := Language.mem_kstar.mp more
    -- What stands behind the bar of each part is its cell.
    have cells : ∀ part ∈ parts, IsRuleCell part.tail ∧ '|' :: part.tail = part := by
      intro part member
      obtain ⟨other, isOther, rfl⟩ := mem_barred_iff.mp (isBarred part member)
      exact ⟨isOther, rfl⟩
    refine ⟨cell :: parts.map List.tail, List.cons_ne_nil _ _,
      List.forall_mem_cons.mpr ⟨isCell, ?_⟩, ?_⟩
    · rw [List.forall_mem_map]
      exact fun part member => (cells part member).1
    · rw [List.flatMap_cons, List.flatMap_map,
        List.flatMap_congr fun part member => (cells part member).2, List.flatMap_id']
  · rintro ⟨cells, filled, isCell, rfl⟩
    cases cells with
    | nil => exact absurd rfl filled
    | cons cell cells =>
        refine ⟨'|' :: cell, mem_barred_iff.mpr ⟨cell, isCell _ List.mem_cons_self, rfl⟩,
          cells.flatMap ('|' :: ·), Language.mem_kstar.mpr ⟨cells.map ('|' :: ·), ?_, ?_⟩, rfl⟩
        · rw [List.flatMap_def]
        · intro part member
          obtain ⟨other, inCells, rfl⟩ := List.mem_map.mp member
          exact mem_barred_iff.mpr ⟨other, isCell _ (List.mem_cons_of_mem _ inCells), rfl⟩

theorem mem_divider_pattern_iff :
    text ∈ dividerPattern ↔ ∃ before front cell cells behind after, AllBlank before ∧ AllBlank after ∧
      (front = [] ∨ front = ['|']) ∧ (behind = [] ∨ behind = ['|']) ∧ cells ≠ [] ∧
      (∀ other ∈ cell :: cells, IsRuleCell other) ∧
      text = before ++ (front ++ (cell ++ cells.flatMap ('|' :: ·) ++ behind) ++ after) := by
  rw [dividerPattern, Language.mem_mul]
  constructor
  · rintro ⟨_, row, after, blankAfter, rfl⟩
    obtain ⟨_, bars, behind, atEnd, rfl⟩ := Language.mem_mul.mp row
    obtain ⟨_, start, _, more, rfl⟩ := Language.mem_mul.mp bars
    obtain ⟨_, opening, cell, isCell, rfl⟩ := Language.mem_mul.mp start
    obtain ⟨before, blankBefore, front, atFront, rfl⟩ := Language.mem_mul.mp opening
    obtain ⟨cells, filled, areCells, rfl⟩ := mem_barred_cells_iff.mp more
    exact ⟨before, front, cell, cells, behind, after, blankBefore, blankAfter,
      (mem_maybe_sign_iff _).mp atFront, (mem_maybe_sign_iff _).mp atEnd, filled,
      List.forall_mem_cons.mpr ⟨mem_cell_pattern_iff.mp isCell, areCells⟩, by simp⟩
  · rintro ⟨before, front, cell, cells, behind, after, blankBefore, blankAfter, atFront, atEnd, filled,
      isCell, rfl⟩
    have opening := Language.append_mem_mul (l := blanks) blankBefore
      ((mem_maybe_sign_iff '|').mpr atFront)
    have start := Language.append_mem_mul opening
      (mem_cell_pattern_iff.mpr (isCell cell List.mem_cons_self))
    have bars := Language.append_mem_mul start (mem_barred_cells_iff.mpr
      ⟨cells, filled, fun other member => isCell other (List.mem_cons_of_mem _ member), rfl⟩)
    have row := Language.append_mem_mul bars ((mem_maybe_sign_iff '|').mpr atEnd)
    exact ⟨_, row, after, blankAfter, by simp⟩

end Pattern

theorem matches_iff_is_row (chars : List Char) :
    trimChars chars ∈ dividerPattern ↔ IsRow (trimChars chars) := by
  have last := trim_chars_last chars
  have first := trim_chars_head chars
  generalize trimChars chars = text at first last
  rw [mem_divider_pattern_iff]
  constructor
  · rintro ⟨before, front, cell, cells, behind, after, blankBefore, blankAfter, atFront, atEnd, filled,
      isCell, rfl⟩
    obtain rfl := eq_nil_of_blank_before blankBefore first
    rw [List.nil_append] at last ⊢
    obtain rfl := eq_nil_of_blank_behind blankAfter last
    have more := List.length_pos_iff.mpr filled
    refine ⟨front, cell :: cells, behind, atFront, atEnd, ?_, isCell, ?_⟩
    · rw [List.length_cons]
      omega
    · rw [intercalate_eq, List.append_nil]
  · rintro ⟨front, cells, behind, atFront, atEnd, enough, isCell, rfl⟩
    cases cells with
    | nil => simp at enough
    | cons cell cells =>
        refine ⟨[], front, cell, cells, behind, [], all_blank_nil, all_blank_nil, atFront, atEnd, ?_,
          isCell, ?_⟩
        · rintro rfl
          simp at enough
        · rw [intercalate_eq]
          simp

/-- A line is a divider if and only if, without the blanks around it, it splits into two rules or more; and
so it is with the pattern. -/
theorem dividers_split_into_rules (line : String) :
    (isDivider line = true ↔ SplitsIntoRules (trimChars line.toList)) ∧
      (trimChars line.toList ∈ dividerPattern ↔ SplitsIntoRules (trimChars line.toList)) := by
  rw [splits_into_rules_iff, is_divider_iff, matches_iff_is_row]
  exact ⟨Iff.rfl, Iff.rfl⟩

example : isDivider " :-- | --:|" = true ∧ isDivider "|---|" = false := by decide +kernel

end LineCensus.Markdown
