import LineCensus.Proofs.Lines
import LineCensus.Script.Analysis
import Mathlib

/-!
Which comment documents a module. A comment that stands alone in front of the first statement belongs to
that statement unless a blank line stands between them. The line breaks in between are looked at one
character at a time, though: CR and LF count as a break each, so that a CR LF is taken for two breaks with
an empty line between them. A comment directly above the first statement is taken for the documentation of
the module wherever lines end with CR LF.
-/

namespace LineCensus.Script

set_option autoImplicit false

open Text (EndedLine terminated terminatedFrom)

/-! ### Blank lines -/

/-- Whether a line ends and holds nothing but spaces and tabs. -/
def IsBlankBetween (piece : EndedLine) : Prop :=
  piece.ending ≠ [] ∧ ∀ c ∈ piece.line, c = ' ' ∨ c = '\t'

/-- Whether two line breaks stand in a text with nothing but spaces and tabs between them, CR LF being one
break: behind the first line of it, which ends with a break, there is such a line. -/
def HoldsBlankLine (gap : List Char) : Prop :=
  ∃ number piece, (terminated .text gap)[number + 1]? = some piece ∧ IsBlankBetween piece

theorem blank_behind_cons_iff (first : EndedLine) (rest : List EndedLine) :
    (∃ number piece, (first :: rest)[number + 1]? = some piece ∧ IsBlankBetween piece) ↔
      (∃ piece, rest.head? = some piece ∧ IsBlankBetween piece) ∨
        ∃ number piece, rest[number + 1]? = some piece ∧ IsBlankBetween piece := by
  constructor
  · rintro ⟨number, piece, there, blank⟩
    rw [List.getElem?_cons_succ] at there
    cases number with
    | zero => exact .inl ⟨piece, List.head?_eq_getElem? ▸ there, blank⟩
    | succ number => exact .inr ⟨number, piece, there, blank⟩
  · rintro (⟨piece, there, blank⟩ | ⟨number, piece, there, blank⟩)
    · exact ⟨0, piece, List.head?_eq_getElem? ▸ there, blank⟩
    · exact ⟨number + 1, piece, there, blank⟩

def isSpaceOrTab (c : Char) : Bool := c == ' ' || c == '\t'

theorem return_feed_cons_iff {c : Char} {rest : List Char}
    (single : ∀ behind, c = '\r' → rest = '\n' :: behind → False) :
    ['\r', '\n'] <:+: c :: rest ↔ ['\r', '\n'] <:+: rest := by
  rw [List.infix_cons_iff]
  constructor
  · rintro (⟨behind, split⟩ | inRest)
    · obtain ⟨isReturn, feeds⟩ := List.cons.inj split
      exact absurd feeds.symm (single behind isReturn.symm)
    · exact inRest
  · exact .inr

/-- The search for a gap remembers whether a break has been met and only spaces and tabs since. It ends
at a line of spaces and tabs, as it should, and at any CR LF. -/
theorem has_blank_gap_from_iff (broken : Bool) (line chars : List Char) :
    hasBlankGap (broken && line.all isSpaceOrTab) chars = true ↔
      (broken = true ∧ ∃ piece, (terminatedFrom .text line chars).head? = some piece ∧
          IsBlankBetween piece) ∨
        (∃ number piece, (terminatedFrom .text line chars)[number + 1]? = some piece ∧
          IsBlankBetween piece) ∨
        ['\r', '\n'] <:+: chars := by
  fun_induction terminatedFrom .text line chars generalizing broken with
  | case1 line => simp [hasBlankGap, IsBlankBetween]
  | case2 line rest ih =>
      have found : hasBlankGap (broken && line.all isSpaceOrTab) ('\r' :: '\n' :: rest) = true := by
        simp [hasBlankGap]
      exact iff_of_true found (.inr (.inr ⟨[], rest, rfl⟩))
  | case3 line c rest single isBreak ih =>
      have breaks : (c == '\n' || c == '\r') = true := by
        simpa [Text.LineBreaks.contains] using isBreak
      have atBreak : hasBlankGap (broken && line.all isSpaceOrTab) (c :: rest) =
          ((broken && line.all isSpaceOrTab) || hasBlankGap true rest) := by
        rw [hasBlankGap, if_pos breaks]
      have later := ih true
      rw [List.all_nil, Bool.and_self] at later
      have here : (broken && line.all isSpaceOrTab) = true ↔ broken = true ∧
          ∃ piece, some (EndedLine.mk line.reverse [c]) = some piece ∧ IsBlankBetween piece := by
        simp [IsBlankBetween, isSpaceOrTab]
      rw [atBreak, Bool.or_eq_true, later, here, blank_behind_cons_iff,
        return_feed_cons_iff single, List.head?_cons]
      simp only [true_and, or_assoc]
  | case4 line c rest single noBreak ih =>
      have noBreaks : ¬(c == '\n' || c == '\r') = true := by
        simpa [Text.LineBreaks.contains] using noBreak
      have passed : hasBlankGap (broken && line.all isSpaceOrTab) (c :: rest) =
          hasBlankGap (broken && (c :: line).all isSpaceOrTab) rest := by
        rw [hasBlankGap, if_neg noBreaks, List.all_cons, Bool.and_comm (isSpaceOrTab c),
          ← Bool.and_assoc]
        rfl
      rw [passed, ih broken, return_feed_cons_iff single]

theorem has_blank_gap_iff (gap : List Char) :
    hasBlankGap false gap = true ↔ HoldsBlankLine gap ∨ ['\r', '\n'] <:+: gap := by
  simpa [HoldsBlankLine, terminated] using has_blank_gap_from_iff false [] gap

/-! ### Documentation -/

/-- Whether a comment stands alone in front of the first statement, which begins at `first`, and is
documentation that no tag says to be of the module. -/
structure StandsAlone (source : Source) (statements : List Node) (comment : Comment) (first : Nat) :
    Prop where
  only : source.leadingComments 0 = [comment]
  statement : statements.head?.map (·.textStart source) = some first
  documents : comment.isDocumentation source = true
  untagged : ∀ tag ∈ moduleTags,
    hasTag tag.toList (source.slice comment.start comment.stop).toList = false

def gapBehind (source : Source) (comment : Comment) (first : Nat) : List Char :=
  (source.slice comment.stop first).toList

theorem has_module_doc_eq {source : Source} {statements : List Node} {comment : Comment} {first : Nat}
    (alone : StandsAlone source statements comment first) :
    Node.hasModuleDoc source statements = hasBlankGap false (gapBehind source comment first) := by
  have noTag : (moduleTags.any fun tag =>
      hasTag tag.toList (source.slice comment.start comment.stop).toList) = false := by
    rw [List.any_eq_false]
    intro tag member
    rw [alone.untagged tag member]
    exact Bool.false_ne_true
  rw [Node.hasModuleDoc, alone.only, alone.statement, documentsModule, documentsModule,
    alone.documents]
  simp only [noTag]
  simp [gapBehind]

/-- A comment that stands alone documents the module exactly if there is a blank line between it and the
first statement, or a CR LF. -/
theorem module_doc_by_gap (source : Source) (statements : List Node) (comment : Comment) (first : Nat)
    (alone : StandsAlone source statements comment first) :
    Node.hasModuleDoc source statements = true ↔
      HoldsBlankLine (gapBehind source comment first) ∨
        ['\r', '\n'] <:+: gapBehind source comment first := by
  rw [has_module_doc_eq alone, has_blank_gap_iff]

def statementsOf (path text : String) : List Node :=
  (parsedAt path (Source.ofString text)).statements

set_option maxRecDepth 10000 in
theorem spaced_comment_documents_module :
    StandsAlone (Source.ofString "/** a */\n \t\nx") (statementsOf "a.ts" "/** a */\n \t\nx")
      ⟨.block, 0, 8⟩ 12 ∧
    Node.hasModuleDoc (Source.ofString "/** a */\n \t\nx")
      (statementsOf "a.ts" "/** a */\n \t\nx") = true := by
  have alone : StandsAlone (Source.ofString "/** a */\n \t\nx")
      (statementsOf "a.ts" "/** a */\n \t\nx") ⟨.block, 0, 8⟩ 12 :=
    { only := by cbv
      statement := by cbv
      documents := by cbv
      untagged := by decide +kernel }
  have gap : gapBehind (Source.ofString "/** a */\n \t\nx") ⟨.block, 0, 8⟩ 12 = ['\n', ' ', '\t', '\n'] := by
    decide +kernel
  refine ⟨alone, (module_doc_by_gap _ _ _ _ alone).mpr (.inl ?_)⟩
  rw [gap]
  exact ⟨0, ⟨[' ', '\t'], ['\n']⟩, rfl, by simp [IsBlankBetween]⟩

/-- Whether a comment that stands alone documents the module exactly where there is a blank line behind
it. -/
def KeepsBlankLineRule : Prop :=
  ∀ path text comment first,
    StandsAlone (Source.ofString text) (statementsOf path text) comment first →
      (Node.hasModuleDoc (Source.ofString text) (statementsOf path text) = true ↔
        HoldsBlankLine (gapBehind (Source.ofString text) comment first))

set_option maxRecDepth 10000 in
/-- A comment directly above a statement documents the module where its line ends with CR LF, and not where
it ends with LF. -/
theorem return_feed_breaks_blank_line_rule :
    Node.hasModuleDoc (Source.ofString "/** a */\nx") (statementsOf "a.ts" "/** a */\nx") = false ∧
    Node.hasModuleDoc (Source.ofString "/** a */\r\nx")
      (statementsOf "a.ts" "/** a */\r\nx") = true ∧
    ¬KeepsBlankLineRule := by
  have alone : StandsAlone (Source.ofString "/** a */\r\nx")
      (statementsOf "a.ts" "/** a */\r\nx") ⟨.block, 0, 8⟩ 10 :=
    { only := by cbv
      statement := by cbv
      documents := by cbv
      untagged := by decide +kernel }
  have gap : gapBehind (Source.ofString "/** a */\r\nx") ⟨.block, 0, 8⟩ 10 = ['\r', '\n'] := by
    decide +kernel
  have documented : Node.hasModuleDoc (Source.ofString "/** a */\r\nx")
      (statementsOf "a.ts" "/** a */\r\nx") = true := by
    rw [has_module_doc_eq alone, gap]
    rfl
  refine ⟨by cbv, documented, ?_⟩
  intro keeps
  obtain ⟨number, piece, there, ended, -⟩ := (keeps _ _ _ _ alone).mp documented
  rw [gap] at there
  cases number with
  | zero =>
      cases there
      exact ended rfl
  | succ number => cases there

end LineCensus.Script
