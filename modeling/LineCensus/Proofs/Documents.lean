import LineCensus.Markdown
import LineCensus.Proofs.Sections
import LineCensus.Proofs.Trimming
import Mathlib

/-!
What is found in a document, told without reading it line by line. A line is inspected if it is no fence
and an even number of fences stand before it; so an odd one among the fences opens a block and an even one
closes it. All else that is counted is counted on the inspected lines, and what stands between the fences
of a block makes no difference.
-/

namespace LineCensus.Markdown

set_option autoImplicit false

open Text

/-! ### Inspected lines -/

def isInspected (lines : List String) (number : Nat) (line : String) : Bool :=
  !isFence line && (lines.take number).countP isFence % 2 == 0

def inspected (lines : List String) : List (String × Nat) :=
  lines.zipIdx.filter fun (line, number) => isInspected lines number line

/-- Whether a line is a heading of a level, counted from one: blanks, as many hashes, another blank, and
anything. -/
def IsHeading (level : Nat) (line : String) : Prop :=
  ∃ blanks gap rest, line.toList = blanks ++ (List.replicate level '#' ++ gap :: rest) ∧
    (∀ c ∈ blanks, isBlank c = true) ∧ isBlank gap = true

/-- A line is inspected when the flag that each fence turns over is down. -/
theorem open_lines_eq (before rest : List String) :
    openLines (before.countP isFence % 2 == 1) rest =
      ((rest.zipIdx before.length).filter fun (line, number) =>
          isInspected (before ++ rest) number line).map
        fun (line, number) => (line, (before ++ rest)[number + 1]?) := by
  induction rest generalizing before with
  | nil => rfl
  | cons line rest ih =>
      have front : (before ++ line :: rest).take before.length = before := List.take_left
      have next : (before ++ line :: rest)[before.length + 1]? = rest.head? := by
        rw [List.getElem?_append_right (by omega), Nat.add_sub_cancel_left, List.getElem?_cons_succ,
          List.head?_eq_getElem?]
      have later := ih (before ++ [line])
      rw [List.append_assoc, List.singleton_append, List.length_append, List.length_singleton,
        List.countP_append, List.countP_singleton] at later
      rw [openLines, List.zipIdx_cons, List.filter_cons]
      cases isF : isFence line with
      | true =>
          have turned : (!(before.countP isFence % 2 == 1)) =
              ((before.countP isFence + 1) % 2 == 1) := by
            rw [Bool.eq_iff_iff]
            simp
            omega
          simpa [isInspected, isF, turned] using later
      | false =>
          rcases Nat.mod_two_eq_zero_or_one (before.countP isFence) with even | odd
          · simpa [isInspected, isF, even, front, next] using later
          · simpa [isInspected, isF, odd, front] using later

theorem open_lines_eq_inspected (lines : List String) :
    openLines false lines =
      (inspected lines).map fun (line, number) => (line, lines[number + 1]?) :=
  open_lines_eq [] lines

theorem count_blocks_eq (fenced : Bool) (lines : List String) :
    countBlocks fenced lines = (lines.countP isFence + if fenced then 0 else 1) / 2 := by
  induction lines generalizing fenced with
  | nil => cases fenced <;> rfl
  | cons line rest ih =>
      rw [countBlocks, List.countP_cons]
      cases isF : isFence line <;> cases fenced <;> simp [ih]
      omega

/-! ### Headings -/

theorem hash_not_blank : isBlank '#' = false := by decide

theorem take_hashes (count : Nat) (gap : Char) (rest : List Char) (blank : isBlank gap = true) :
    (List.replicate count '#' ++ gap :: rest).takeWhile (· == '#') = List.replicate count '#' := by
  have other : (gap == '#') = false := by
    rw [beq_eq_false_iff_ne]
    rintro rfl
    exact Bool.noConfusion (blank.symm.trans hash_not_blank)
  rw [List.takeWhile_append_of_pos fun c member => beq_iff_eq.mpr (List.eq_of_mem_replicate member),
    List.takeWhile_cons_of_neg (by simp [other]), List.append_nil]

theorem hashes_eq_replicate (chars : List Char) :
    chars.takeWhile (· == '#') = List.replicate (chars.takeWhile (· == '#')).length '#' := by
  refine List.eq_replicate_iff.mpr ⟨rfl, fun c member => ?_⟩
  have isHash := List.mem_takeWhile_imp member
  exact beq_iff_eq.mp isHash

/-- A heading has as many hashes as its level, with a blank next. -/
theorem heading_level_eq_some_iff_followed (line : String) (level : Fin Stats.headingLevels) :
    headingLevel? line = some level ↔
      ((trimLeft line.toList).takeWhile (· == '#')).length = level + 1 ∧
        ∃ gap, ((trimLeft line.toList).drop (level + 1)).head? = some gap ∧ isBlank gap = true := by
  have isFollowed (next : Option Char) :
      (next.map isBlank).getD false = true ↔ ∃ gap, next = some gap ∧ isBlank gap = true := by
    cases next <;> simp
  have bound := level.isLt
  rw [headingLevel?]
  split
  · split
    · rename_i followed
      rw [isFollowed] at followed
      rw [Option.some.injEq, Fin.ext_iff]
      constructor
      · intro (same : ((trimLeft line.toList).takeWhile (· == '#')).length - 1 = level)
        have size : ((trimLeft line.toList).takeWhile (· == '#')).length = level + 1 := by omega
        rw [size] at followed
        exact ⟨size, followed⟩
      · rintro ⟨size, -⟩
        exact Nat.sub_eq_of_eq_add size
    · rename_i notFollowed
      rw [isFollowed] at notFollowed
      constructor
      · intro found
        cases found
      · rintro ⟨size, followed⟩
        rw [← size] at followed
        exact absurd followed notFollowed
  · rename_i outOfRange
    constructor
    · intro found
      cases found
    · rintro ⟨size, -⟩
      exact absurd ⟨by omega, by omega⟩ outOfRange

theorem heading_level_eq_some_iff_hashes (line : String) (level : Fin Stats.headingLevels) :
    headingLevel? line = some level ↔
      ∃ gap rest, trimLeft line.toList = List.replicate (level + 1) '#' ++ gap :: rest ∧
        isBlank gap = true := by
  rw [heading_level_eq_some_iff_followed]
  constructor
  · rintro ⟨size, gap, next, blank⟩
    obtain ⟨rest, behind⟩ := List.head?_eq_some_iff.mp next
    refine ⟨gap, rest, ?_, blank⟩
    rw [← behind, ← size, ← hashes_eq_replicate]
    exact (List.prefix_iff_eq_append.mp (List.takeWhile_prefix _)).symm
  · rintro ⟨gap, rest, chars, blank⟩
    rw [chars, take_hashes _ gap rest blank, List.length_replicate,
      List.drop_left' (List.length_replicate ..)]
    exact ⟨rfl, gap, rfl, blank⟩

theorem heading_level_eq_some_iff (line : String) (level : Fin Stats.headingLevels) :
    headingLevel? line = some level ↔ IsHeading (level + 1) line := by
  rw [heading_level_eq_some_iff_hashes]
  constructor
  · rintro ⟨gap, rest, chars, blank⟩
    refine ⟨line.toList.takeWhile isBlank, gap, rest, ?_, fun c => List.mem_takeWhile_imp, blank⟩
    rw [← chars]
    exact List.takeWhile_append_dropWhile.symm
  · rintro ⟨blanks, gap, rest, chars, blank, gapBlank⟩
    refine ⟨gap, rest, ?_, gapBlank⟩
    rw [chars, trimLeft, List.dropWhile_append_of_pos blank]
    exact trim_left_of_visible (by simp [List.replicate_succ, hash_not_blank])

instance (level : Fin Stats.headingLevels) (line : String) : Decidable (IsHeading (level + 1) line) :=
  decidable_of_iff _ (heading_level_eq_some_iff line level)

/-! ### What is found in a document -/

/-- Whether details say how many there are of all that is counted in a document. -/
structure Describes (found : Stats.MarkdownDetails Nat) (lines : List String) : Prop where
  /-- Half of the fences, or one more than the other half, open a block. -/
  codeBlocks : found.codeBlocks = (lines.countP isFence + 1) / 2
  headingsByLevel : ∀ level : Fin Stats.headingLevels, found.headingsByLevel[level] =
    (inspected lines).countP fun (line, _) => IsHeading (level + 1) line
  headings : found.headings = found.headingsByLevel.toList.sum
  images : found.images = ((inspected lines).map fun (line, _) => countImages line).sum
  links : found.links = ((inspected lines).map fun (line, _) => countLinks line).sum
  tables : found.tables = (inspected lines).countP fun (line, number) =>
    line.toList.contains '|' && lines[number + 1]?.any isDivider

theorem details_describe (lines : List String) : Describes (details lines) lines where
  codeBlocks := count_blocks_eq false lines
  headingsByLevel := by
    intro level
    have counted : (details lines).headingsByLevel[level] =
        ((openLines false lines).filterMap fun entry => headingLevel? entry.1).count level := by
      simp [details]
    rw [counted, List.count_filterMap, open_lines_eq_inspected, List.countP_map]
    apply List.countP_congr
    rintro ⟨line, number⟩ -
    simp [heading_level_eq_some_iff]
  headings := headings_of_details lines
  images := by
    change Stats.sum ((openLines false lines).map fun entry => countImages entry.1) = _
    rw [open_lines_eq_inspected, Stats.DirStats.sum_eq_list_sum, List.map_map]
    rfl
  links := by
    change Stats.sum ((openLines false lines).map fun entry => countLinks entry.1) = _
    rw [open_lines_eq_inspected, Stats.DirStats.sum_eq_list_sum, List.map_map]
    rfl
  tables := by
    change (openLines false lines).countP (fun entry => opensTable entry.1 entry.2) = _
    rw [open_lines_eq_inspected, List.countP_map]
    apply List.countP_congr
    rintro ⟨line, number⟩ -
    cases next : lines[number + 1]? <;> simp [opensTable, next]

/-! ### What makes no difference -/

/-- Whether documents differ only in lines that are neither fences nor inspected, and have no more fences
for it. -/
structure DifferInBlocks (lines others : List String) : Prop where
  length : others.length = lines.length
  shown : ∀ number line, lines[number]? = some line →
    isFence line = true ∨ isInspected lines number line = true → others[number]? = some line
  fenced : ∀ number line other, lines[number]? = some line → others[number]? = some other →
    isFence line = false → isInspected lines number line = false → isFence other = false

theorem map_filter_zip_idx_congr {α β : Type} {first second : List α} {p q : α × Nat → Bool}
    {f g : α × Nat → β} (start : Nat) (aligned : first.length = second.length)
    (same : ∀ number a b, first[number]? = some a → second[number]? = some b →
      p (a, start + number) = q (b, start + number) ∧
        (p (a, start + number) = true → f (a, start + number) = g (b, start + number))) :
    ((first.zipIdx start).filter p).map f = ((second.zipIdx start).filter q).map g := by
  induction first generalizing second start with
  | nil =>
      obtain rfl := List.length_eq_zero_iff.mp aligned.symm
      rfl
  | cons a first ih =>
      cases second with
      | nil => cases aligned
      | cons b second =>
          obtain ⟨kept, mapped⟩ := same 0 a b rfl rfl
          have later := ih (start + 1) (Nat.succ.inj aligned) fun number a b ofFirst ofSecond => by
            rw [Nat.add_assoc, Nat.add_comm 1]
            exact same (number + 1) a b ofFirst ofSecond
          rw [Nat.add_zero] at kept mapped
          rw [List.zipIdx_cons, List.zipIdx_cons, List.filter_cons, List.filter_cons, ← kept]
          cases isKept : p (a, start) with
          | true => simp [later, mapped isKept]
          | false => simpa using later

section Blocks

variable {lines others : List String} (differ : DifferInBlocks lines others)

include differ

/-- Wherever one of the documents has a line the other one has, and both are fences or neither is. -/
theorem fence_iff (number : Nat) : others[number]?.map isFence = lines[number]?.map isFence := by
  cases here : lines[number]? with
  | none =>
      rw [List.getElem?_eq_none_iff, ← differ.length] at here
      rw [List.getElem?_eq_none_iff.mpr here]
  | some line =>
      by_cases visible : isFence line = true ∨ isInspected lines number line = true
      · rw [differ.shown number line here visible]
      · obtain ⟨noFence, hidden⟩ := not_or.mp visible
        have inside : number < others.length := by
          rw [differ.length]
          exact (List.getElem?_eq_some_iff.mp here).1
        have there := List.getElem?_eq_getElem inside
        have neither := differ.fenced number line _ here there (Bool.eq_false_iff.mpr noFence)
          (Bool.eq_false_iff.mpr hidden)
        rw [there, Option.map_some, Option.map_some, neither, Bool.eq_false_iff.mpr noFence]

theorem fences_eq : others.map isFence = lines.map isFence := by
  apply List.ext_getElem?
  intro number
  rw [List.getElem?_map, List.getElem?_map, fence_iff differ number]

theorem fences_before_eq (number : Nat) :
    (others.take number).countP isFence = (lines.take number).countP isFence := by
  have counted (document : List String) :
      (document.take number).countP isFence = ((document.map isFence).take number).countP id := by
    rw [← List.map_take, List.countP_map]
    rfl
  rw [counted, counted, fences_eq differ]

/-- Behind an inspected line stands a fence or another inspected line, if any. -/
theorem next_eq (number : Nat) (line : String) (here : lines[number]? = some line)
    (visible : isInspected lines number line = true) : others[number + 1]? = lines[number + 1]? := by
  cases there : lines[number + 1]? with
  | none =>
      rw [List.getElem?_eq_none_iff] at there ⊢
      rw [differ.length]
      exact there
  | some next =>
      apply differ.shown _ _ there
      cases isF : isFence next with
      | true => exact .inl rfl
      | false =>
          right
          rw [isInspected, Bool.and_eq_true, Bool.not_eq_true'] at visible
          rw [isInspected, List.take_add_one, here, List.countP_append]
          simp [isF, visible.1, beq_iff_eq.mp visible.2]

theorem open_lines_same : openLines false others = openLines false lines := by
  rw [open_lines_eq_inspected, open_lines_eq_inspected]
  apply map_filter_zip_idx_congr 0 differ.length
  intro number other line ofOthers ofLines
  have sameFence := fence_iff differ number
  rw [ofOthers, ofLines, Option.map_some, Option.map_some, Option.some.injEq] at sameFence
  have sameInspected : isInspected others number other = isInspected lines number line := by
    rw [isInspected, isInspected, sameFence, fences_before_eq differ]
  rw [Nat.zero_add]
  refine ⟨sameInspected, fun kept => ?_⟩
  have visible : isInspected lines number line = true := sameInspected.symm.trans kept
  have sameLine := differ.shown number line ofLines (.inr visible)
  rw [ofOthers, Option.some.injEq] at sameLine
  change (other, others[number + 1]?) = (line, lines[number + 1]?)
  rw [sameLine, next_eq differ number line ofLines visible]

theorem details_same : details others = details lines := by
  have sameBlocks : countBlocks false others = countBlocks false lines := by
    have sameFences := fences_before_eq differ lines.length
    rw [List.take_length, ← differ.length, List.take_length] at sameFences
    rw [count_blocks_eq, count_blocks_eq, sameFences]
  rw [details, details, open_lines_same differ, sameBlocks]

end Blocks

/-- The details of a document say what its inspected lines hold and how many blocks its fences open; they
are the same for all documents that differ from it only between the fences of blocks. -/
theorem details_tell_inspected_lines (lines : List String) :
    Describes (details lines) lines ∧
      ∀ others, DifferInBlocks lines others → details others = details lines :=
  ⟨details_describe lines, fun _ => details_same⟩

/-- A document with a table, a block, and another block that is never closed. -/
def manual : List String :=
  ["# Usage", "\x60\x60\x60sh", "# not [a](b) heading", "\x60\x60\x60", "|a|b|", "|-|-|", " \x60\x60\x60", "## open"]

def rewrittenManual : List String :=
  ["# Usage", "\x60\x60\x60sh", "![c](d)", "\x60\x60\x60", "|a|b|", "|-|-|", " \x60\x60\x60", ""]

/-- Lines 2 and 7 stand in blocks. -/
theorem manual_rewritten : DifferInBlocks manual rewrittenManual where
  length := rfl
  shown := by
    intro number line here visible
    have hidden : ¬(isFence "# not [a](b) heading" = true ∨
        isInspected manual 2 "# not [a](b) heading" = true) := by decide +kernel
    have hiddenToo : ¬(isFence "## open" = true ∨ isInspected manual 7 "## open" = true) := by
      decide +kernel
    have inside : number < 8 := (List.getElem?_eq_some_iff.mp here).1
    interval_cases number <;> cases here
    case «2» => exact absurd visible hidden
    case «7» => exact absurd visible hiddenToo
    all_goals rfl
  fenced := by
    intro number line other here there noFence _
    have inside : number < 8 := (List.getElem?_eq_some_iff.mp here).1
    interval_cases number <;> cases here <;> cases there
    case «2» => decide +kernel
    case «7» => decide +kernel
    all_goals exact noFence

theorem manual_details_stay :
    Describes (details manual) manual ∧ DifferInBlocks manual rewrittenManual ∧
      details rewrittenManual = ⟨#v[1, 0, 0, 0, 0, 0], 1, 0, 0, 2, 1⟩ := by
  obtain ⟨described, stay⟩ := details_tell_inspected_lines manual
  refine ⟨described, manual_rewritten, ?_⟩
  rw [stay rewrittenManual manual_rewritten]
  decide +kernel

end LineCensus.Markdown
