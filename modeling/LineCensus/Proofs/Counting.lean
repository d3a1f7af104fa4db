import LineCensus.Analysis
import LineCensus.Proofs.CommentLines

/-!
Every line of a file counts once. However a file is analyzed, the comment lines that are found are
lines of the file and not blank; so the figures fit together as they are, and code is what is
neither blank nor comment. For scripts nothing is assumed of what has been found out about them: not
which problems there are, nor where the comments stand, nor that anything could be read at all.
-/

namespace LineCensus

set_option autoImplicit false

open Stats (FileStats Details)

/-- Whether the figures of a file count each of its lines once. A line is a comment by its number
and its text, and `found` is how many comment lines the analysis has counted by itself. -/
structure Stats.FileStats.CountsLinesOnce (file : FileStats Nat) (lines : List String)
    (isComment : Nat → String → Bool) (found : Nat) : Prop where
  total : file.total = lines.length
  blank : file.blank = lines.countP Text.isBlankLine
  comment : file.comment = found
  found_lines : found = lines.zipIdx.countP fun (line, number) => isComment number line
  visible : ∀ line number, (line, number) ∈ lines.zipIdx → isComment number line = true →
    Text.isBlankLine line = false
  code : file.code = lines.zipIdx.countP fun (line, number) =>
    !Text.isBlankLine line && !isComment number line
  fits : found + lines.countP Text.isBlankLine ≤ lines.length

/-! ### Three kinds of lines -/

/-- Where no member has both of two properties, each has the one, the other or neither. -/
theorem count_three {α : Type} (members : List α) (first second : α → Bool)
    (apart : ∀ member ∈ members, second member = true → first member = false) :
    members.countP first + members.countP second +
      members.countP (fun member => !first member && !second member) = members.length := by
  induction members with
  | nil => rfl
  | cons member rest ih =>
      have tail := ih fun other inRest => apart other (List.mem_cons_of_mem member inRest)
      have head := apart member (by simp)
      simp only [List.countP_cons, List.length_cons]
      cases isFirst : first member <;> cases isSecond : second member <;> simp_all <;> omega

theorem count_zip_idx_fst (lines : List String) (p : String → Bool) :
    lines.zipIdx.countP (fun (line, _) => p line) = lines.countP p := by
  calc
    lines.zipIdx.countP (fun (line, _) => p line) = (lines.zipIdx.map Prod.fst).countP p := by
      rw [List.countP_map]
      rfl
    _ = lines.countP p := by rw [List.zipIdx_map_fst]

/-- Figures from comment lines that are not blank fit together. -/
theorem of_figures_counts_lines_once (path language : String) (lines : List String)
    (details : Option (Details Nat)) (isComment : Nat → String → Bool) (found : Nat)
    (foundLines : found = lines.zipIdx.countP fun (line, number) => isComment number line)
    (visible : ∀ line number, (line, number) ∈ lines.zipIdx → isComment number line = true →
      Text.isBlankLine line = false) :
    (FileStats.ofFigures path language lines.length (Language.countBlank lines) found
      details).CountsLinesOnce lines isComment found := by
  have kinds : lines.countP Text.isBlankLine + found +
      lines.zipIdx.countP (fun (line, number) =>
        !Text.isBlankLine line && !isComment number line) = lines.length := by
    have three := count_three lines.zipIdx (fun (line, _) => Text.isBlankLine line)
      (fun (line, number) => isComment number line) (fun (line, number) => visible line number)
    rw [count_zip_idx_fst, List.length_zipIdx, ← foundLines] at three
    exact three
  have blankFits : min (lines.countP Text.isBlankLine) lines.length =
      lines.countP Text.isBlankLine := by omega
  have commentFits : min found (lines.length - lines.countP Text.isBlankLine) = found := by omega
  have blankLines : Language.countBlank lines = lines.countP Text.isBlankLine := rfl
  exact {
    total := rfl
    blank := blankFits
    comment := by
      change min found (lines.length - min (Language.countBlank lines) lines.length) = found
      rw [blankLines, blankFits, commentFits]
    found_lines := foundLines
    visible := visible
    code := by
      change lines.length - min (Language.countBlank lines) lines.length -
        min found (lines.length - min (Language.countBlank lines) lines.length) = _
      rw [blankLines, blankFits, commentFits]
      omega
    fits := by omega }

/-! ### Comment markers -/

namespace Language.CommentSyntax

theorem length_marks (markers : CommentSyntax) (closer : Option String) (lines : List String) :
    (markers.marks closer lines).length = lines.length := by
  induction lines generalizing closer with
  | nil => rfl
  | cons line rest ih =>
      unfold marks
      cases closer <;> by_cases empty : (Text.trim line).isEmpty = true <;> simp [empty, ih]

theorem marks_visible (markers : CommentSyntax) (closer : Option String) (lines : List String)
    (number : Nat) (line : String) (there : lines[number]? = some line)
    (marked : (markers.marks closer lines)[number]? = some true) :
    Text.isBlankLine line = false := by
  induction lines generalizing closer number with
  | nil => simp at there
  | cons first rest ih =>
      unfold marks at marked
      by_cases empty : (Text.trim first).isEmpty = true
      · cases number with
        | zero => simp [empty] at marked
        | succ number =>
            exact ih closer number there (by simpa [empty] using marked)
      · cases number with
        | zero =>
            have same : first = line := by simpa using there
            rw [← same, Text.isBlankLine]
            simpa using empty
        | succ number =>
            cases closer with
            | none => exact ih _ number there (by simpa [empty] using marked)
            | some closer => exact ih _ number there (by simpa [empty] using marked)

theorem count_marks (lines : List String) (flags : List Bool)
    (aligned : flags.length = lines.length) :
    flags.countP id =
      lines.zipIdx.countP fun (_, number) => flags[number]? == some true := by
  have numbers : lines.zipIdx.map Prod.snd = List.range lines.length := by
    rw [List.zipIdx_map_snd, List.range_eq_range']
  have spelled : (List.range flags.length).map (fun number => flags[number]? == some true) =
      flags := by
    apply List.ext_getElem (by simp)
    intro number inRange inFlags
    simp [inFlags]
  calc
    flags.countP id =
        ((List.range flags.length).map fun number => flags[number]? == some true).countP id := by
      rw [spelled]
    _ = (lines.zipIdx.map Prod.snd).countP fun number => flags[number]? == some true := by
      rw [numbers, aligned, List.countP_map]
      rfl
    _ = lines.zipIdx.countP fun (_, number) => flags[number]? == some true := by
      rw [List.countP_map]
      rfl

theorem marks_count_lines_once (registry : Language.Registry) (path language : String)
    (lines : List String) :
    (Language.fileStats registry path language lines).CountsLinesOnce lines
      (fun number _ =>
        ((registry.commentSyntax language).marks none lines)[number]? == some true)
      ((registry.commentSyntax language).countLines lines) := by
  apply of_figures_counts_lines_once
  · rw [countLines]
    exact count_marks lines _ (length_marks _ none lines)
  · intro line number listed marked
    exact marks_visible _ none lines number line (List.mk_mem_zipIdx_iff_getElem?.mp listed)
      (beq_iff_eq.mp marked)

end Language.CommentSyntax

/-! ### Scripts -/

namespace Script

/-- The comments that lines are told by, unless there are none to go by or the text of the script has
not even been cut into tokens without problems. -/
def trustedComments (findings : Option Findings) : Option (List Comment) := do
  let findings ← findings
  if findings.problems.any (·.fault.isLexical) then none else findings.comments

def isCommentLine (source : Source) (lines : List String) (findings : Option Findings)
    (number : Nat) (line : String) : Bool :=
  match trustedComments findings with
  | some comments => (commentLineNumbers source lines comments).contains number
  | none => isSlashLine line

theorem slash_line_visible (line : String) (slashes : isSlashLine line = true) :
    Text.isBlankLine line = false := by
  rw [isSlashLine, List.isPrefixOf_iff_prefix] at slashes
  apply Bool.eq_false_iff.mpr
  intro blank
  rw [Text.isBlankLine, String.isEmpty_iff] at blank
  rw [blank] at slashes
  exact absurd (List.prefix_nil.mp slashes) (List.cons_ne_nil _ _)

theorem length_comment_line_numbers (source : Source) (lines : List String)
    (comments : List Comment) :
    (commentLineNumbers source lines comments).length =
      lines.zipIdx.countP fun entry =>
        (commentLineNumbers source lines comments).contains entry.2 := by
  simp only [commentLineNumbers]
  rw [List.length_map, ← List.countP_eq_length_filter]
  apply List.countP_congr
  intro entry listed
  obtain ⟨line, number⟩ := entry
  rw [List.contains_iff_mem, List.mem_map]
  constructor
  · intro counts
    exact ⟨(line, number), List.mem_filter.mpr ⟨listed, counts⟩, rfl⟩
  · rintro ⟨⟨other, _⟩, kept, rfl⟩
    obtain ⟨otherListed, counts⟩ := List.mem_filter.mp kept
    rw [List.mk_mem_zipIdx_iff_getElem?] at listed otherListed
    rw [listed] at otherListed
    rw [Option.some.inj otherListed]
    exact counts

theorem is_comment_line_visible (source : Source) (lines : List String)
    (findings : Option Findings) (line : String) (number : Nat)
    (listed : (line, number) ∈ lines.zipIdx)
    (isComment : isCommentLine source lines findings number line = true) :
    Text.isBlankLine line = false := by
  rw [isCommentLine] at isComment
  split at isComment
  · rw [List.contains_iff_mem, mem_comment_line_numbers] at isComment
    obtain ⟨other, there, visible, -⟩ := isComment
    rw [List.mk_mem_zipIdx_iff_getElem?.mp listed] at there
    rw [Option.some.inj there]
    exact visible
  · exact slash_line_visible line isComment

theorem count_comment_lines_eq (source : Source) (lines : List String)
    (findings : Option Findings) :
    countCommentLines source lines findings =
      lines.zipIdx.countP fun (line, number) => isCommentLine source lines findings number line := by
  have counted : countCommentLines source lines findings =
      match trustedComments findings with
      | some comments => (commentLineNumbers source lines comments).length
      | none => countSlashLines lines := rfl
  rw [counted]
  cases trusted : trustedComments findings with
  | none =>
      simp only [isCommentLine, trusted]
      exact (count_zip_idx_fst lines isSlashLine).symm
  | some comments =>
      simp only [isCommentLine, trusted]
      exact length_comment_line_numbers source lines comments

/-- Whatever has been found out about a script, each of its lines counts once. -/
theorem stats_of_counts_lines_once (path : String) (source : Source) (lines : List String)
    (findings : Option Findings) :
    (statsOf path source lines findings).CountsLinesOnce lines
      (isCommentLine source lines findings) (countCommentLines source lines findings) := by
  apply of_figures_counts_lines_once
  · exact count_comment_lines_eq source lines findings
  · exact is_comment_line_visible source lines findings

end Script

/-! ### All files -/

/-- Each way to analyze a text counts each of its lines once. For scripts this holds of anything that
may have been found out about them, and so of what really is. -/
theorem every_line_counts_once (registry : Language.Registry) (path text : String) :
    (∀ language,
      ((Method.markers language).analyze registry path text).CountsLinesOnce
        (Text.splitLines .text text)
        (fun number _ => ((registry.commentSyntax language).marks none
          (Text.splitLines .text text))[number]? == some true)
        ((registry.commentSyntax language).countLines (Text.splitLines .text text))) ∧
    (Method.markdown.analyze registry path text).CountsLinesOnce (Text.splitLines .text text)
      (fun _ _ => false) 0 ∧
    Method.script.analyze registry path text =
      Script.statsOf path (Script.Source.ofString text) (Text.splitLines .script text)
        (Script.examine path (Script.Source.ofString text)) ∧
    ∀ findings,
      (Script.statsOf path (Script.Source.ofString text) (Text.splitLines .script text)
        findings).CountsLinesOnce (Text.splitLines .script text)
        (Script.isCommentLine (Script.Source.ofString text) (Text.splitLines .script text) findings)
        (Script.countCommentLines (Script.Source.ofString text) (Text.splitLines .script text)
          findings) := by
  refine ⟨?_, ?_, rfl, ?_⟩
  · intro language
    exact Language.CommentSyntax.marks_count_lines_once registry path language _
  · apply of_figures_counts_lines_once
    · simp
    · intro line number listed isComment
      cases isComment
  · intro findings
    exact Script.stats_of_counts_lines_once path _ _ findings

end LineCensus
