import LineCensus.Language.CommentLines
import Mathlib

/-!
Where comment regions end. A region that is open ends on the first line that holds its closing marker,
and every line up to that one which is not blank is a comment. On the line that opens a region the
closing marker counts wherever it stands, before the opening one or inside it too; so it is not true
that a region ends at the first closing marker behind the place where it opened.
-/

namespace LineCensus.Language.CommentSyntax

set_option autoImplicit false

variable (markers : CommentSyntax)

/-! ### The scan line by line -/

def closerBehind (closer : Option String) (line : String) : Option String :=
  if Text.isBlankLine line then closer
  else match closer with
    | some marker => if Text.contains (Text.trim line) marker then none else some marker
    | none => (markers.classify (Text.trim line)).2

/-- What has to close the region that is open behind some lines, if one is. -/
def closerAfter (closer : Option String) (lines : List String) : Option String :=
  lines.foldl markers.closerBehind closer

def isMarked (closer : Option String) (line : String) : Bool :=
  if Text.isBlankLine line then false
  else match closer with
    | some _ => true
    | none => (markers.classify (Text.trim line)).1

theorem marks_cons (closer : Option String) (line : String) (rest : List String) :
    markers.marks closer (line :: rest) =
      markers.isMarked closer line :: markers.marks (markers.closerBehind closer line) rest := by
  rw [marks.eq_def]
  unfold isMarked closerBehind
  cases blank : Text.isBlankLine line with
  | true => exact if_pos blank
  | false =>
      have filled : (Text.trim line).isEmpty = false := blank
      cases closer <;> simp only [filled, Bool.false_eq_true, if_false]

theorem marks_append (closer : Option String) (before behind : List String) :
    markers.marks closer (before ++ behind) =
      markers.marks closer before ++ markers.marks (markers.closerAfter closer before) behind := by
  induction before generalizing closer with
  | nil => rfl
  | cons line rest ih =>
      rw [List.cons_append, marks_cons, marks_cons, ih, List.cons_append]
      rfl

/-! ### Open regions -/

theorem visible_of_contains {text marker : String} (filled : marker ≠ "")
    (holds : Text.contains (Text.trim text) marker = true) : Text.isBlankLine text = false := by
  apply Bool.eq_false_iff.mpr
  intro blank
  rw [Text.isBlankLine, String.isEmpty_iff] at blank
  rw [Text.contains, blank, Text.contains_chars_iff] at holds
  exact filled (String.toList_eq_nil_iff.mp (List.infix_nil.mp holds))

theorem marks_inside {closer : String} {inner : List String} (behind : List String)
    (noCloser : ∀ line ∈ inner, Text.contains (Text.trim line) closer = false) :
    markers.marks (some closer) (inner ++ behind) =
      inner.map (fun line => !Text.isBlankLine line) ++ markers.marks (some closer) behind := by
  induction inner with
  | nil => rfl
  | cons line rest ih =>
      have here := noCloser line List.mem_cons_self
      have later := ih fun other member => noCloser other (List.mem_cons_of_mem _ member)
      rw [List.cons_append, marks_cons, isMarked, closerBehind]
      cases blank : Text.isBlankLine line <;> simp [blank, here, later]

theorem marks_closing {closer closing : String} (filled : closer ≠ "") (behind : List String)
    (holds : Text.contains (Text.trim closing) closer = true) :
    markers.marks (some closer) (closing :: behind) = true :: markers.marks none behind := by
  have visible := visible_of_contains filled holds
  rw [marks_cons, isMarked, closerBehind]
  simp [visible, holds]

theorem marks_opening {pair : MarkerPair} {opening : String} (rest : List String)
    (visible : Text.isBlankLine opening = false)
    (opens : markers.opening (Text.trim opening) = some pair) :
    markers.marks none (opening :: rest) = true ::
      markers.marks (if Text.contains (Text.trim opening) pair.closer then none else some pair.closer)
        rest := by
  rw [marks_cons, isMarked, closerBehind]
  simp [visible, classify, opens]

/-! ### Regions and lines -/

/-- Whether, behind some lines, a region that a line opens takes up the lines that follow it: those up to
the first that holds a marker, or all of them if none does. Behind it the scan goes on in code. -/
structure RunsOn (before : List String) (opening : String) (rest : List String) (closer : String) :
    Prop where
  closed : ∀ inner closing behind, rest = inner ++ closing :: behind →
    (∀ line ∈ inner, Text.contains (Text.trim line) closer = false) →
    Text.contains (Text.trim closing) closer = true →
    markers.marks none (before ++ opening :: rest) = markers.marks none before ++
      (true :: inner.map (fun line => !Text.isBlankLine line) ++ true :: markers.marks none behind)
  endless : (∀ line ∈ rest, Text.contains (Text.trim line) closer = false) →
    markers.marks none (before ++ opening :: rest) = markers.marks none before ++
      (true :: rest.map fun line => !Text.isBlankLine line)

/-- Whether a region is closed on the line that opens it, by a marker behind the first opening one. -/
def ClosesBehind (pair : MarkerPair) (text : String) : Prop :=
  ∃ before inner behind,
    text.toList = before ++ pair.opener.toList ++ inner ++ pair.closer.toList ++ behind ∧
    ∀ earlier later, text.toList = earlier ++ pair.opener.toList ++ later →
      before.length ≤ earlier.length

/-- Whether every region which is not closed behind the marker that opens it runs on to later lines. -/
def KeepsRegionRule : Prop :=
  ∀ before opening rest pair, markers.closerAfter none before = none →
    Text.isBlankLine opening = false → markers.opening (Text.trim opening) = some pair →
    ¬ClosesBehind pair (Text.trim opening) → markers.RunsOn before opening rest pair.closer

theorem contains_of_closes_behind {pair : MarkerPair} {text : String} (closes : ClosesBehind pair text) :
    Text.contains text pair.closer = true := by
  obtain ⟨before, inner, behind, split, -⟩ := closes
  rw [Text.contains, Text.contains_chars_iff, split]
  exact ⟨before ++ pair.opener.toList ++ inner, behind, rfl⟩

theorem runs_on_of_open {before rest : List String} {opening closer : String} (filled : closer ≠ "")
    (opened : markers.marks none (before ++ opening :: rest) =
      markers.marks none before ++ true :: markers.marks (some closer) rest) :
    markers.RunsOn before opening rest closer where
  closed := by
    rintro inner closing behind rfl noCloser holds
    rw [opened, marks_inside markers _ noCloser, marks_closing markers filled behind holds]
    rfl
  endless := by
    intro noCloser
    have inside := marks_inside markers [] noCloser
    rw [List.append_nil] at inside
    rw [opened, inside]
    exact congrArg (fun later => _ ++ true :: later) (List.append_nil _)

/-- A region runs on to later lines if the closing marker stands nowhere on the line that opens it.
Wherever it stands there, behind the opening marker or not, that line is a region by itself. -/
theorem regions_end_on_lines_with_closers (before : List String) (opening : String)
    (rest : List String) (pair : MarkerPair) (inCode : markers.closerAfter none before = none)
    (visible : Text.isBlankLine opening = false)
    (opens : markers.opening (Text.trim opening) = some pair) :
    (Text.contains (Text.trim opening) pair.closer = false →
      ¬ClosesBehind pair (Text.trim opening) ∧ markers.RunsOn before opening rest pair.closer) ∧
    (Text.contains (Text.trim opening) pair.closer = true →
      markers.marks none (before ++ opening :: rest) =
        markers.marks none before ++ true :: markers.marks none rest) := by
  have opened : markers.marks none (before ++ opening :: rest) = markers.marks none before ++ true ::
      markers.marks (if Text.contains (Text.trim opening) pair.closer then none else some pair.closer)
        rest := by
    rw [marks_append, inCode, marks_opening markers rest visible opens]
  constructor
  · intro nowhere
    rw [nowhere] at opened
    refine ⟨fun closes => ?_, runs_on_of_open markers ?_ opened⟩
    · rw [contains_of_closes_behind closes] at nowhere
      cases nowhere
    · intro empty
      rw [empty, Text.contains, Bool.eq_false_iff, ne_eq, Text.contains_chars_iff] at nowhere
      exact nowhere List.nil_infix
  · intro holds
    rw [holds] at opened
    exact opened

def slashes : CommentSyntax := ⟨["//"], [⟨"/*", "*/"⟩]⟩

/-- A region over several lines, one of them blank, behind code; and one that begins and ends on a line. -/
theorem slashes_regions_end_on_lines_with_closers :
    slashes.closerAfter none ["int a;"] = none ∧ Text.isBlankLine "x /* open" = false ∧
    slashes.opening (Text.trim "x /* open") = some ⟨"/*", "*/"⟩ ∧
    Text.contains (Text.trim "x /* open") "*/" = false ∧
    slashes.marks none ("int a;" :: "x /* open" :: ["", "more", "end */ y", "z"]) =
      [false, true, false, true, true, false] ∧
    Text.isBlankLine " /* one */" = false ∧
    slashes.opening (Text.trim " /* one */") = some ⟨"/*", "*/"⟩ ∧
    Text.contains (Text.trim " /* one */") "*/" = true ∧
    slashes.marks none ("int a;" :: " /* one */" :: ["z"]) = [false, true, false] := by
  have inCode : slashes.closerAfter none ["int a;"] = none := by decide +kernel
  have openVisible : Text.isBlankLine "x /* open" = false := by decide +kernel
  have openOpens : slashes.opening (Text.trim "x /* open") = some ⟨"/*", "*/"⟩ := by decide +kernel
  have nowhere : Text.contains (Text.trim "x /* open") "*/" = false := by decide +kernel
  have oneVisible : Text.isBlankLine " /* one */" = false := by decide +kernel
  have oneOpens : slashes.opening (Text.trim " /* one */") = some ⟨"/*", "*/"⟩ := by decide +kernel
  have holds : Text.contains (Text.trim " /* one */") "*/" = true := by decide +kernel
  have runsOn := (slashes.regions_end_on_lines_with_closers ["int a;"] "x /* open"
    ["", "more", "end */ y", "z"] _ inCode openVisible openOpens).1 nowhere
  have alone := (slashes.regions_end_on_lines_with_closers ["int a;"] " /* one */" ["z"] _ inCode
    oneVisible oneOpens).2 holds
  have noCloser : ∀ line ∈ ["", "more"], Text.contains (Text.trim line) "*/" = false := by
    decide +kernel
  have closes : Text.contains (Text.trim "end */ y") "*/" = true := by decide +kernel
  refine ⟨inCode, openVisible, openOpens, nowhere, ?_, oneVisible, oneOpens, holds, ?_⟩
  · have region := runsOn.2.closed ["", "more"] "end */ y" ["z"] rfl noCloser closes
    rw [List.singleton_append] at region
    rw [region]
    decide +kernel
  · rw [List.singleton_append] at alone
    rw [alone]
    decide +kernel

/-- Where the end of the opening marker is the beginning of the closing one, that marker ends the region
although there is none behind the opening one. -/
theorem overlapping_markers_break_region_rule :
    (∀ marker ∈ slashes.lineMarkers, marker ≠ "") ∧
    (∀ pair ∈ slashes.regions, pair.opener ≠ "" ∧ pair.closer ≠ "") ∧
    slashes.countLines ["/*/", "still open", "*/"] = 1 ∧ ¬slashes.KeepsRegionRule := by
  have marked : slashes.marks none ["/*/", "still open", "*/"] = [true, false, false] := by decide +kernel
  refine ⟨by decide, by decide, by rw [countLines, marked]; rfl, ?_⟩
  intro keeps
  have notBehind : ¬ClosesBehind ⟨"/*", "*/"⟩ (Text.trim "/*/") := by
    rintro ⟨before, inner, behind, split, -⟩
    have trimmed : Text.trim "/*/" = "/*/" := by decide +kernel
    have lengths := congrArg List.length split
    rw [trimmed] at lengths
    simp at lengths
    omega
  have runsOn := keeps [] "/*/" ["still open", "*/"] ⟨"/*", "*/"⟩ rfl (by decide +kernel) (by decide +kernel) notBehind
  have region := runsOn.closed ["still open"] "*/" [] rfl (by decide +kernel) (by decide +kernel)
  rw [List.nil_append, marked] at region
  have expected : slashes.marks none [] ++ (true :: ["still open"].map
      (fun line => !Text.isBlankLine line) ++ true :: slashes.marks none []) = [true, true, true] := by
    decide +kernel
  rw [expected] at region
  exact absurd region (by decide)

end LineCensus.Language.CommentSyntax
