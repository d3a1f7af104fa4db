import LineCensus.Proofs.Counting
import LineCensus.Proofs.Regions
import Mathlib

/-!
Comment regions as intervals of lines. A region begins on the first line that holds an opening marker,
ends on the first line from there on that holds the closing marker of the pair, and the next one is
looked for behind it. Nothing else is left to choose, so the regions of a file are told by the places of
its markers alone; and its comment lines are the lines of the regions and, outside of them, the lines that
begin with a line marker. Blanks around a line do not count, and blank lines never do.
-/

namespace LineCensus.Language

set_option autoImplicit false

/-- A region by its first and its last line, counted from zero. -/
structure Region where
  first : Nat
  last : Nat
  deriving DecidableEq, Repr

def Region.takes (region : Region) (number : Nat) : Bool :=
  decide (region.first ≤ number) && decide (number ≤ region.last)

namespace CommentSyntax

variable (markers : CommentSyntax) (lines : List String)

/-! ### Intervals -/

/-- Whether the line with a number, without the blanks around it, holds a marker. -/
def Holds (number : Nat) (marker : String) : Prop :=
  ∃ line, lines[number]? = some line ∧ Text.contains (Text.trim line) marker = true

/-- Whether the line with a number is not blank and, without the blanks around it, holds some opening
marker. -/
def CanOpen (number : Nat) : Prop :=
  ∃ line, lines[number]? = some line ∧ Text.isBlankLine line = false ∧
    ∃ pair ∈ markers.regions, Text.contains (Text.trim line) pair.opener = true

/-- Whether a pair is the first one, in their order, of which a text holds the opening marker. -/
def IsFirstPair (text : String) (pair : MarkerPair) : Prop :=
  ∃ earlier later, markers.regions = earlier ++ pair :: later ∧
    Text.contains text pair.opener = true ∧
    ∀ other ∈ earlier, Text.contains text other.opener = false

/-- Whether a region that begins on the line `first` ends on the line `last`: the first one from there
on, that line itself included, which holds the closing marker, or the last line of all if none does. -/
def EndsOn (first : Nat) (closer : String) (last : Nat) : Prop :=
  IsLeast {number | first ≤ number ∧ Holds lines number closer} last ∨
    (∀ number, first ≤ number → ¬Holds lines number closer) ∧ last + 1 = lines.length

/-- Whether a region is the first one that begins on the line `start` or behind it. -/
structure IsNext (start : Nat) (region : Region) : Prop where
  first : IsLeast {number | start ≤ number ∧ markers.CanOpen lines number} region.first
  last : ∃ line pair, lines[region.first]? = some line ∧
    markers.IsFirstPair (Text.trim line) pair ∧ EndsOn lines region.first pair.closer region.last

/-- Whether these are the regions from the line `start` on, each the first one behind the one before
it, and no line behind the last of them can open another. -/
def AreRegions (start : Nat) : List Region → Prop
  | [] => ∀ number, start ≤ number → ¬markers.CanOpen lines number
  | region :: rest => markers.IsNext lines start region ∧ AreRegions (region.last + 1) rest

def isCommentAmong (regions : List Region) (number : Nat) (line : String) : Bool :=
  !Text.isBlankLine line &&
    (regions.any (·.takes number) || markers.lineMarkers.any (startsWith (Text.trim line)))

/-! ### There is one way to lay out the regions -/

theorem opening_eq_some_iff (text : String) (pair : MarkerPair) :
    markers.opening text = some pair ↔ markers.IsFirstPair text pair := by
  rw [opening, List.find?_eq_some_iff_append]
  constructor
  · rintro ⟨holds, earlier, later, split, none⟩
    exact ⟨earlier, later, split, holds, fun other member => by simpa using none other member⟩
  · rintro ⟨earlier, later, split, holds, none⟩
    exact ⟨holds, earlier, later, split, fun other member => by simpa using none other member⟩

theorem opening_is_some_iff (text : String) :
    (markers.opening text).isSome = true ↔
      ∃ pair ∈ markers.regions, Text.contains text pair.opener = true := by
  rw [opening, List.find?_isSome]

variable {markers lines} {start first last : Nat} {closer : String} {region : Region}

theorem CanOpen.opening {number : Nat} (opens : markers.CanOpen lines number) :
    ∃ line pair, lines[number]? = some line ∧ Text.isBlankLine line = false ∧
      markers.opening (Text.trim line) = some pair := by
  obtain ⟨line, there, visible, holds⟩ := opens
  rw [← opening_is_some_iff, Option.isSome_iff_exists] at holds
  obtain ⟨pair, found⟩ := holds
  exact ⟨line, pair, there, visible, found⟩

theorem CanOpen.inside {number : Nat} (opens : markers.CanOpen lines number) :
    number < lines.length := by
  obtain ⟨line, there, -⟩ := opens
  exact (List.getElem?_eq_some_iff.mp there).1

theorem EndsOn.bounds (ends : EndsOn lines first closer last) (inside : first < lines.length) :
    first ≤ last ∧ last < lines.length := by
  rcases ends with ⟨⟨le, line, there, -⟩, -⟩ | ⟨-, isEnd⟩
  · exact ⟨le, (List.getElem?_eq_some_iff.mp there).1⟩
  · omega

theorem EndsOn.unique {other : Nat} (ends : EndsOn lines first closer last)
    (otherEnds : EndsOn lines first closer other) : last = other := by
  rcases ends with least | ⟨none, isEnd⟩ <;> rcases otherEnds with otherLeast | ⟨otherNone, otherEnd⟩
  · exact least.unique otherLeast
  · exact absurd least.1.2 (otherNone last least.1.1)
  · exact absurd otherLeast.1.2 (none other otherLeast.1.1)
  · omega

theorem exists_end (lines : List String) (closer : String) (inside : first < lines.length) :
    ∃ last, EndsOn lines first closer last := by
  by_cases closed : ∃ number, first ≤ number ∧ Holds lines number closer
  · classical
    exact ⟨Nat.find closed, .inl ⟨Nat.find_spec closed, fun _ holds => Nat.find_min' closed holds⟩⟩
  · refine ⟨lines.length - 1, .inr ⟨fun number le holds => closed ⟨number, le, holds⟩, ?_⟩⟩
    omega

theorem IsNext.bounds (next : markers.IsNext lines start region) :
    start ≤ region.first ∧ region.first ≤ region.last ∧ region.last < lines.length := by
  obtain ⟨line, pair, there, -, ends⟩ := next.last
  exact ⟨next.first.1.1, ends.bounds (List.getElem?_eq_some_iff.mp there).1⟩

theorem IsNext.unique {other : Region} (next : markers.IsNext lines start region)
    (otherNext : markers.IsNext lines start other) : region = other := by
  have sameFirst : region.first = other.first := next.first.unique otherNext.first
  obtain ⟨line, pair, there, isFirst, ends⟩ := next.last
  obtain ⟨otherLine, otherPair, otherThere, otherIsFirst, otherEnds⟩ := otherNext.last
  rw [← sameFirst] at otherThere otherEnds
  have sameLine : line = otherLine := Option.some.inj (there.symm.trans otherThere)
  rw [← opening_eq_some_iff] at isFirst otherIsFirst
  rw [← sameLine, isFirst, Option.some.injEq] at otherIsFirst
  rw [← otherIsFirst] at otherEnds
  have sameLast : region.last = other.last := ends.unique otherEnds
  cases region
  cases other
  simp_all

theorem exists_next {number : Nat} (le : start ≤ number) (opens : markers.CanOpen lines number) :
    ∃ region, markers.IsNext lines start region := by
  classical
  have some_opens : ∃ number, start ≤ number ∧ markers.CanOpen lines number := ⟨number, le, opens⟩
  obtain ⟨-, here⟩ := Nat.find_spec some_opens
  obtain ⟨line, pair, there, -, found⟩ := here.opening
  obtain ⟨last, ends⟩ := exists_end lines pair.closer here.inside
  exact ⟨⟨Nat.find some_opens, last⟩,
    { first := ⟨Nat.find_spec some_opens, fun _ other => Nat.find_min' some_opens other⟩
      last := ⟨line, pair, there, (markers.opening_eq_some_iff _ _).mp found, ends⟩ }⟩

/-- Each region leaves fewer lines behind it, so laying them out comes to an end. -/
theorem exists_regions (markers : CommentSyntax) (lines : List String) (start : Nat) :
    ∃ regions, markers.AreRegions lines start regions := by
  induction left : lines.length - start using Nat.strong_induction_on generalizing start with
  | _ left ih =>
      by_cases more : ∃ number, start ≤ number ∧ markers.CanOpen lines number
      · obtain ⟨number, le, opens⟩ := more
        obtain ⟨region, next⟩ := exists_next le opens
        obtain ⟨fromStart, ordered, inside⟩ := next.bounds
        obtain ⟨rest, areRest⟩ :=
          ih (lines.length - (region.last + 1)) (by omega) (region.last + 1) rfl
        exact ⟨region :: rest, next, areRest⟩
      · exact ⟨[], fun number le opens => more ⟨number, le, opens⟩⟩

theorem AreRegions.unique {regions others : List Region}
    (are : markers.AreRegions lines start regions) (othersAre : markers.AreRegions lines start others) :
    regions = others := by
  induction regions generalizing start others with
  | nil =>
      cases others with
      | nil => rfl
      | cons other rest => exact absurd othersAre.1.first.1.2 (are _ othersAre.1.first.1.1)
  | cons region rest ih =>
      cases others with
      | nil => exact absurd are.1.first.1.2 (othersAre _ are.1.first.1.1)
      | cons other otherRest =>
          obtain rfl := are.1.unique othersAre.1
          rw [ih are.2 othersAre.2]

theorem AreRegions.bounds {regions : List Region} (are : markers.AreRegions lines start regions) :
    ∀ region ∈ regions,
      start ≤ region.first ∧ region.first ≤ region.last ∧ region.last < lines.length := by
  induction regions generalizing start with
  | nil => simp
  | cons next rest ih =>
      intro region member
      have here := are.1.bounds
      rcases List.mem_cons.mp member with rfl | inRest
      · exact here
      · have later := ih are.2 region inRest
        exact ⟨by omega, later.2⟩

theorem AreRegions.apart {regions : List Region} (are : markers.AreRegions lines start regions) :
    regions.Pairwise fun region later => region.last < later.first := by
  induction regions generalizing start with
  | nil => exact List.Pairwise.nil
  | cons next rest ih =>
      exact List.pairwise_cons.mpr ⟨fun later inRest => (are.2.bounds later inRest).1, ih are.2⟩

/-! ### The scan in front of a line -/

variable (markers lines)

/-- What has to close the region that is open in front of the line with a number, if one is. -/
def closerBefore (number : Nat) : Option String := markers.closerAfter none (lines.take number)

theorem closer_before_succ {number : Nat} {line : String} (there : lines[number]? = some line) :
    markers.closerBefore lines (number + 1) =
      markers.closerBehind (markers.closerBefore lines number) line := by
  rw [closerBefore, closerAfter, List.take_add_one, there, List.foldl_append]
  rfl

theorem marks_get (number : Nat) :
    (markers.marks none lines)[number]? =
      lines[number]?.map (markers.isMarked (markers.closerBefore lines number)) := by
  cases there : lines[number]? with
  | none =>
      rw [Option.map_none, List.getElem?_eq_none_iff, length_marks]
      exact List.getElem?_eq_none_iff.mp there
  | some line =>
      obtain ⟨inside, here⟩ := List.getElem?_eq_some_iff.mp there
      have cut : lines.take number ++ line :: lines.drop (number + 1) = lines := by
        rw [← here, ← List.drop_eq_getElem_cons inside, List.take_append_drop]
      have front : (markers.marks none (lines.take number)).length = number := by
        rw [length_marks, List.length_take, Nat.min_eq_left (Nat.le_of_lt inside)]
      calc
        (markers.marks none lines)[number]? =
            (markers.marks none (lines.take number ++ line :: lines.drop (number + 1)))[number]? := by
          rw [cut]
        _ = some (markers.isMarked (markers.closerBefore lines number) line) := by
          rw [marks_append, List.getElem?_append_right (by omega), front, Nat.sub_self, marks_cons]
          rfl

variable {markers lines}

theorem closer_behind_code {line : String}
    (opensNone : Text.isBlankLine line = false → markers.opening (Text.trim line) = none) :
    markers.closerBehind none line = none := by
  rw [closerBehind]
  cases blank : Text.isBlankLine line with
  | true => rfl
  | false => simp [classify, opensNone blank]

theorem is_marked_in_code {line : String}
    (opensNone : Text.isBlankLine line = false → markers.opening (Text.trim line) = none) :
    markers.isMarked none line =
      (!Text.isBlankLine line && markers.lineMarkers.any (startsWith (Text.trim line))) := by
  rw [isMarked]
  cases blank : Text.isBlankLine line with
  | true => rfl
  | false => simp [classify, opensNone blank]

theorem opens_none_of_not_can_open {number : Nat} {line : String} (there : lines[number]? = some line)
    (cannot : ¬markers.CanOpen lines number) (visible : Text.isBlankLine line = false) :
    markers.opening (Text.trim line) = none := by
  rw [← Option.not_isSome_iff_eq_none, opening_is_some_iff]
  exact fun holds => cannot ⟨line, there, visible, holds⟩

/-- The scan stays in code as long as no line can open a region. -/
theorem code_goes_on (inCode : markers.closerBefore lines start = none) (stop : Nat)
    (fromStart : start ≤ stop) (inside : stop ≤ lines.length)
    (noneOpens : ∀ number, start ≤ number → number < stop → ¬markers.CanOpen lines number) :
    markers.closerBefore lines stop = none := by
  induction stop, fromStart using Nat.le_induction with
  | base => exact inCode
  | succ stop fromStart ih =>
      have there : lines[stop]? = some lines[stop] := List.getElem?_eq_getElem inside
      rw [closer_before_succ markers lines there, ih (by omega)
        fun number le less => noneOpens number le (Nat.lt_succ_of_lt less)]
      exact closer_behind_code
        (opens_none_of_not_can_open there (noneOpens stop fromStart (Nat.lt_succ_self stop)))

section Opened

variable {line : String} {pair : MarkerPair} (inCode : markers.closerBefore lines first = none)
  (there : lines[first]? = some line) (visible : Text.isBlankLine line = false)
  (opens : markers.opening (Text.trim line) = some pair)

include inCode there visible opens

theorem closer_behind_opening :
    markers.closerBefore lines (first + 1) =
      if Text.contains (Text.trim line) pair.closer then none else some pair.closer := by
  rw [closer_before_succ markers lines there, inCode, closerBehind]
  simp [visible, classify, opens]

/-- A region stays open as long as no line holds the marker that closes it. -/
theorem region_goes_on (stop : Nat) (behind : first < stop) (inside : stop ≤ lines.length)
    (noneCloses : ∀ number, first ≤ number → number < stop → ¬Holds lines number pair.closer) :
    markers.closerBefore lines stop = some pair.closer := by
  induction stop, behind using Nat.le_induction with
  | base =>
      have open_ : ¬Text.contains (Text.trim line) pair.closer = true := fun holds =>
        noneCloses first (Nat.le_refl _) (Nat.lt_succ_self _) ⟨line, there, holds⟩
      rw [closer_behind_opening inCode there visible opens, if_neg open_]
  | succ stop behind ih =>
      have here : lines[stop]? = some lines[stop] := List.getElem?_eq_getElem inside
      have open_ : ¬Text.contains (Text.trim lines[stop]) pair.closer = true := fun holds =>
        noneCloses stop (by omega) (Nat.lt_succ_self _) ⟨_, here, holds⟩
      rw [closer_before_succ markers lines here, ih (by omega)
        fun number le less => noneCloses number le (Nat.lt_succ_of_lt less), closerBehind]
      simp [open_]

/-- Behind the first line that holds the marker which closes the region the scan is in code again. -/
theorem region_closes
    (least : IsLeast {number | first ≤ number ∧ Holds lines number pair.closer} last) :
    markers.closerBefore lines (last + 1) = none := by
  obtain ⟨⟨fromFirst, closing, here, holds⟩, before⟩ := least
  have noneCloses : ∀ number, first ≤ number → number < last → ¬Holds lines number pair.closer :=
    fun number le less holds => Nat.not_le_of_lt less (before ⟨le, holds⟩)
  rcases Nat.eq_or_lt_of_le fromFirst with rfl | behind
  · obtain rfl : line = closing := Option.some.inj (there.symm.trans here)
    rw [closer_behind_opening inCode there visible opens, if_pos holds]
  · have inside := (List.getElem?_eq_some_iff.mp here).1
    -- An empty marker would have closed the region on its first line.
    have filled : pair.closer ≠ "" := by
      intro empty
      refine noneCloses first (Nat.le_refl _) behind ⟨line, there, ?_⟩
      rw [empty, Text.contains, Text.contains_chars_iff]
      exact List.nil_infix
    have closingVisible := visible_of_contains filled holds
    rw [closer_before_succ markers lines here,
      region_goes_on inCode there visible opens last behind (by omega) noneCloses, closerBehind]
    simp [closingVisible, holds]

end Opened

/-! ### Comment lines -/

/-- Each line of a region is a comment unless it is blank, and behind the region there is code again or
nothing at all. -/
theorem IsNext.scanned (next : markers.IsNext lines start region)
    (inCode : markers.closerBefore lines start = none) :
    (∀ number line, lines[number]? = some line → region.takes number = true →
      markers.isMarked (markers.closerBefore lines number) line = !Text.isBlankLine line) ∧
    (markers.closerBefore lines (region.last + 1) = none ∨ region.last + 1 = lines.length) := by
  obtain ⟨fromStart, ordered, inside⟩ := next.bounds
  obtain ⟨line, pair, there, visible, opens⟩ := next.first.1.2.opening
  obtain ⟨other, otherPair, otherThere, isFirst, ends⟩ := next.last
  obtain rfl : line = other := Option.some.inj (there.symm.trans otherThere)
  rw [← opening_eq_some_iff, opens, Option.some.injEq] at isFirst
  subst isFirst
  have codeBefore : markers.closerBefore lines region.first = none :=
    code_goes_on inCode region.first fromStart (by omega) fun number le less opens =>
      Nat.not_le_of_lt less (next.first.2 ⟨le, opens⟩)
  have openUntil : ∀ number, region.first ≤ number → number < region.last →
      ¬Holds lines number pair.closer := by
    intro number le less holds
    rcases ends with least | ⟨none, -⟩
    · exact Nat.not_le_of_lt less (least.2 ⟨le, holds⟩)
    · exact none number le holds
  constructor
  · intro number text here taken
    rw [Region.takes, Bool.and_eq_true, decide_eq_true_eq, decide_eq_true_eq] at taken
    rcases Nat.eq_or_lt_of_le taken.1 with rfl | behind
    · obtain rfl : line = text := Option.some.inj (there.symm.trans here)
      rw [codeBefore, isMarked]
      simp [visible, classify, opens]
    · rw [region_goes_on codeBefore there visible opens number behind (by omega)
        fun other le less => openUntil other le (by omega), isMarked]
      cases Text.isBlankLine text <;> rfl
  · rcases ends with least | ⟨-, isEnd⟩
    · exact .inl (region_closes codeBefore there visible opens least)
    · exact .inr isEnd

theorem none_takes_before {regions : List Region} (are : markers.AreRegions lines start regions)
    {number : Nat} (before : number < start) : regions.any (·.takes number) = false := by
  rw [List.any_eq_false]
  intro region member taken
  have later := are.bounds region member
  rw [Region.takes, Bool.and_eq_true, decide_eq_true_eq, decide_eq_true_eq] at taken
  omega

/-- Where the scan is in code, it goes on to find the comment lines that the regions tell. -/
theorem AreRegions.marked {regions : List Region} (are : markers.AreRegions lines start regions)
    (inCode : markers.closerBefore lines start = none) (number : Nat) (line : String)
    (there : lines[number]? = some line) (fromStart : start ≤ number) :
    markers.isMarked (markers.closerBefore lines number) line =
      markers.isCommentAmong regions number line := by
  have inside := (List.getElem?_eq_some_iff.mp there).1
  induction regions generalizing start with
  | nil =>
      rw [code_goes_on inCode number fromStart (Nat.le_of_lt inside) fun other le _ => are other le,
        is_marked_in_code (opens_none_of_not_can_open there (are number fromStart))]
      rfl
  | cons region rest ih =>
      obtain ⟨next, areRest⟩ := are
      have order := next.bounds
      obtain ⟨marked, behind⟩ := next.scanned inCode
      rw [isCommentAmong, List.any_cons]
      by_cases early : number < region.first
      · have cannot : ∀ other, start ≤ other → other ≤ number → ¬markers.CanOpen lines other :=
          fun other le upTo opens => by
            have later := next.first.2 ⟨le, opens⟩
            omega
        have outside : region.takes number = false := by
          simp [Region.takes, Nat.not_le_of_lt early]
        rw [code_goes_on inCode number fromStart (Nat.le_of_lt inside) fun other le less =>
            cannot other le (Nat.le_of_lt less),
          is_marked_in_code
            (opens_none_of_not_can_open there (cannot number fromStart (Nat.le_refl _))),
          outside, none_takes_before areRest (by omega)]
        rfl
      · by_cases late : region.last < number
        · have outside : region.takes number = false := by
            simp [Region.takes, Nat.not_le_of_lt late]
          rw [outside, Bool.false_or]
          rcases behind with codeBehind | isEnd
          · exact ih areRest codeBehind late
          · omega
        · have taken : region.takes number = true := by
            simp [Region.takes, Nat.le_of_not_lt early, Nat.le_of_not_lt late]
          rw [marked number line there taken, taken]
          simp

/-- Members with one of two further properties, counted by whether they have the first of them. -/
theorem count_and_or {α : Type} (members : List α) (visible taken marked : α → Bool) :
    members.countP (fun member => visible member && (taken member || marked member)) =
      members.countP (fun member => visible member && taken member) +
        members.countP (fun member => visible member && !taken member && marked member) := by
  induction members with
  | nil => rfl
  | cons member rest ih =>
      simp only [List.countP_cons, ih]
      cases visible member <;> cases taken member <;> cases marked member <;> simp <;> omega

theorem count_lines_eq (regions : List Region) (are : markers.AreRegions lines 0 regions) :
    markers.countLines lines =
      lines.zipIdx.countP fun (line, number) => markers.isCommentAmong regions number line := by
  rw [countLines, count_marks lines _ (length_marks markers none lines)]
  apply List.countP_congr
  rintro ⟨line, number⟩ listed
  have there := List.mk_mem_zipIdx_iff_getElem?.mp listed
  have marked := are.marked rfl number line there (Nat.zero_le number)
  change ((markers.marks none lines)[number]? == some true) = true ↔ _
  rw [marks_get, there, Option.map_some, marked, beq_iff_eq, Option.some.injEq]

/-- A file has its regions in just one way, and they lie apart. The comment lines are the lines of the
regions that are not blank, and outside of them those that begin with a line marker. -/
theorem regions_tell_comment_lines (markers : CommentSyntax) (lines : List String) :
    ∃ regions,
      (∀ others, markers.AreRegions lines 0 others ↔ others = regions) ∧
      (regions.Pairwise fun region later => region.last < later.first) ∧
      (∀ region ∈ regions, region.first ≤ region.last ∧ region.last < lines.length) ∧
      markers.countLines lines =
        lines.zipIdx.countP (fun (line, number) =>
          !Text.isBlankLine line && regions.any (·.takes number)) +
        lines.zipIdx.countP (fun (line, number) =>
          !Text.isBlankLine line && !regions.any (·.takes number) &&
            markers.lineMarkers.any (startsWith (Text.trim line))) := by
  obtain ⟨regions, are⟩ := exists_regions markers lines 0
  refine ⟨regions, ?_, are.apart, fun region member => (are.bounds region member).2, ?_⟩
  · intro others
    constructor
    · exact fun othersAre => othersAre.unique are
    · rintro rfl
      exact are
  · rw [count_lines_eq regions are]
    exact count_and_or lines.zipIdx _ _ _

end CommentSyntax

end LineCensus.Language
