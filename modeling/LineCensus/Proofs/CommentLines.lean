import LineCensus.Proofs.Comments

/-!
The comment lines of a script are told by positions: where a comment begins and ends, and where lines
begin. They are the lines that are not blank and that share at least one unit of text with a comment
or with the shebang.
-/

namespace LineCensus.Script

set_option autoImplicit false

/-! ### Lines of ranges -/

theorem mem_lines_touched_iff (starts : List Nat) (start stop number : Nat) :
    number ∈ linesTouched starts start stop ↔
      Text.lineOf starts start ≤ number ∧ number ≤ Text.lineOf starts stop := by
  rw [linesTouched, List.mem_map]
  constructor
  · rintro ⟨offset, inRange, rfl⟩
    rw [List.mem_range] at inRange
    omega
  · rintro ⟨fromFirst, toLast⟩
    exact ⟨number - Text.lineOf starts start, List.mem_range.mpr (by omega), by omega⟩

/-- The lines with comments are those that are not blank and that some marked range touches. -/
theorem mem_comment_line_numbers (source : Source) (lines : List String) (comments : List Comment)
    (number : Nat) :
    number ∈ commentLineNumbers source lines comments ↔
      ∃ line, lines[number]? = some line ∧ Text.isBlankLine line = false ∧
        ∃ range ∈ markedRanges source comments,
          number ∈ linesTouched (Text.lineStarts .script source.chars.toList) range.1 range.2 := by
  simp only [commentLineNumbers, List.mem_map, List.mem_filter, Prod.exists,
    List.mk_mem_zipIdx_iff_getElem?, exists_eq_right, Bool.and_eq_true, List.contains_iff_mem,
    List.mem_flatMap, Bool.not_eq_true']
  constructor
  · rintro ⟨line, there, touched, visible⟩
    exact ⟨line, there, visible, touched⟩
  · rintro ⟨line, there, visible, touched⟩
    exact ⟨line, there, touched, visible⟩

theorem comment_line_numbers_increasing (source : Source) (lines : List String)
    (comments : List Comment) :
    (commentLineNumbers source lines comments).Pairwise (· < ·) := by
  have numbers : (lines.zipIdx.map Prod.snd).Pairwise (· < ·) := by
    rw [List.zipIdx_map_snd]
    exact List.pairwise_lt_range'
  exact numbers.sublist (List.filter_sublist.map Prod.snd)

/-- Whether a unit of a script belongs to the shebang or to a comment that stands in its tree. -/
def InComment (text : String) (dialect : Dialect) (tree : Node) (unit : Nat) : Prop :=
  unit < Text.unitOffset text.toList (Source.ofString text).shebangLength ∨
    ∃ comment : Comment, comment.StandsIn (Source.ofString text) dialect tree ∧
      Text.unitOffset text.toList comment.start ≤ unit ∧
        unit < Text.unitOffset text.toList comment.stop

/-- A line is touched by the shebang or a comment exactly when it shares a unit with one of them. -/
theorem touched_iff_shares_unit (text line : String) (number start stop : Nat)
    (there : (Text.splitLines .script text)[number]? = some line)
    (visible : Text.isBlankLine line = false)
    (spans : Text.Spans .script text.toList start stop) :
    number ∈ linesTouched (Text.lineStarts .script text.toList) start stop ↔
      ∃ unit, (Text.lineOffset .script text number ≤ unit ∧
          unit < Text.lineOffset .script text number + Text.length line) ∧
        Text.unitOffset text.toList start ≤ unit ∧ unit < Text.unitOffset text.toList stop := by
  have shown : line.toList ≠ [] := by
    intro empty
    have blank : Text.isBlankLine line = true := by
      rw [Text.is_blank_line_iff, empty]
      simp
    exact Bool.noConfusion (blank.symm.trans visible)
  rw [mem_lines_touched_iff]
  exact Text.between_lines_iff_shares_unit .script text line number there start stop shown spans

theorem mem_marked_ranges_iff (source : Source) (comments : List Comment) (range : Nat × Nat) :
    range ∈ markedRanges source comments ↔
      (source.shebangLength ≠ 0 ∧ range = (0, source.shebangLength)) ∨
        ∃ comment ∈ comments, (comment.start, comment.stop) = range := by
  rw [markedRanges, List.mem_append, List.mem_map]
  by_cases noShebang : source.shebangLength = 0 <;> simp [noShebang]

section Comments

variable (text : String) (dialect : Dialect) (tree : Node) (comments : List Comment)
  (listed : ∀ comment : Comment,
    comment ∈ comments ↔ comment.StandsIn (Source.ofString text) dialect tree)

include listed

theorem marked_ranges_span (range : Nat × Nat)
    (marked : range ∈ markedRanges (Source.ofString text) comments) :
    Text.Spans .script text.toList range.1 range.2 := by
  rcases (mem_marked_ranges_iff _ _ _).mp marked with ⟨someShebang, rfl⟩ | ⟨comment, member, rfl⟩
  · exact (Source.ofString text).shebang_spans someShebang
  · have found := ((listed comment).mp member).found
    exact ((Source.ofString text).comment_at_spans _ _ found).2

theorem in_comment_iff (unit : Nat) :
    InComment text dialect tree unit ↔
      ∃ range ∈ markedRanges (Source.ofString text) comments,
        Text.unitOffset text.toList range.1 ≤ unit ∧ unit < Text.unitOffset text.toList range.2 := by
  constructor
  · rintro (inShebang | ⟨comment, stands, inRange⟩)
    · refine ⟨(0, (Source.ofString text).shebangLength), ?_, Nat.zero_le _, inShebang⟩
      rw [mem_marked_ranges_iff]
      refine .inl ⟨?_, rfl⟩
      intro none
      rw [none] at inShebang
      exact absurd inShebang (Nat.not_lt_zero unit)
    · refine ⟨(comment.start, comment.stop), ?_, inRange⟩
      rw [mem_marked_ranges_iff]
      exact .inr ⟨comment, (listed comment).mpr stands, rfl⟩
  · rintro ⟨range, marked, inRange⟩
    rcases (mem_marked_ranges_iff _ _ _).mp marked with ⟨-, rfl⟩ | ⟨comment, member, rfl⟩
    · exact .inl inRange.2
    · exact .inr ⟨comment, (listed comment).mp member, inRange⟩

end Comments

/-- The comment lines of a script are exactly the lines that are not blank and hold a unit of a
comment or of the shebang, each once and in order. -/
theorem comment_lines_hold_comment_units (text : String) (dialect : Dialect) (tree : Node)
    (fits : (tree.places (Source.ofString text) dialect).isSome = true) :
    ∃ comments, tree.comments (Source.ofString text) dialect = some comments ∧
      (commentLineNumbers (Source.ofString text) (Text.splitLines .script text)
        comments).Pairwise (· < ·) ∧
      ∀ number,
        number ∈ commentLineNumbers (Source.ofString text) (Text.splitLines .script text)
            comments ↔
          ∃ line, (Text.splitLines .script text)[number]? = some line ∧
            Text.isBlankLine line = false ∧
            ∃ unit, (Text.lineOffset .script text number ≤ unit ∧
                unit < Text.lineOffset .script text number + Text.length line) ∧
              InComment text dialect tree unit := by
  obtain ⟨comments, found, listed⟩ := mem_comments_iff fits
  refine ⟨comments, found, comment_line_numbers_increasing _ _ _, ?_⟩
  intro number
  rw [mem_comment_line_numbers]
  constructor
  · rintro ⟨line, there, visible, range, marked, touched⟩
    have spans := marked_ranges_span text dialect tree comments listed range marked
    obtain ⟨unit, inLine, inRange⟩ :=
      (touched_iff_shares_unit text line number _ _ there visible spans).mp touched
    exact ⟨line, there, visible, unit, inLine,
      (in_comment_iff text dialect tree comments listed unit).mpr ⟨range, marked, inRange⟩⟩
  · rintro ⟨line, there, visible, unit, inLine, inComment⟩
    obtain ⟨range, marked, inRange⟩ :=
      (in_comment_iff text dialect tree comments listed unit).mp inComment
    have spans := marked_ranges_span text dialect tree comments listed range marked
    exact ⟨line, there, visible, range, marked,
      (touched_iff_shares_unit text line number _ _ there visible spans).mpr
        ⟨unit, inLine, inRange⟩⟩

def callText : String := "#!x\nf(/* a\n\n b */ 1) // c"

def callTree : Node :=
  .mk .part (.form .sourceFile .plain) 0 25
    [.mk .part (.list true) 0 20
      [.mk .part (.form .expressionStatement .plain) 0 20
        [.mk .expression (.form .call .plain) 0 20
          [.mk .expression (.identifier "f") 0 5 [],
            .mk .part (.list true) 6 19 [.mk .part (.token .numericLiteral) 6 19 []]]]],
      .mk .part (.token .endOfFile) 20 25 []]

def callDialect : Dialect := { markup := false, untyped := false }

set_option maxRecDepth 10000 in
theorem call_comments :
    callTree.comments (Source.ofString callText) callDialect =
      some [⟨.block, 6, 17⟩, ⟨.line, 21, 25⟩] := by
  cbv

theorem call_comment_lines_hold_comment_units :
    (callTree.places (Source.ofString callText) callDialect).isSome = true ∧
      ∀ number, number ∈ [0, 1, 3] ↔
        ∃ line, (Text.splitLines .script callText)[number]? = some line ∧
          Text.isBlankLine line = false ∧
          ∃ unit, (Text.lineOffset .script callText number ≤ unit ∧
              unit < Text.lineOffset .script callText number + Text.length line) ∧
            InComment callText callDialect callTree unit := by
  have fits : (callTree.places (Source.ofString callText) callDialect).isSome = true := by
    have known := congrArg Option.isSome call_comments
    rw [Node.comments, Option.isSome_map] at known
    exact known
  refine ⟨fits, ?_⟩
  obtain ⟨comments, found, -, numbers⟩ :=
    comment_lines_hold_comment_units callText callDialect callTree fits
  rw [call_comments, Option.some.injEq] at found
  have counted : commentLineNumbers (Source.ofString callText) (Text.splitLines .script callText)
      [⟨.block, 6, 17⟩, ⟨.line, 21, 25⟩] = [0, 1, 3] := by cbv
  rw [← found, counted] at numbers
  exact numbers

end LineCensus.Script
