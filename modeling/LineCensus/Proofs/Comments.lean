import LineCensus.Proofs.Lines
import LineCensus.Proofs.Places

/-!
The comments of a script. Whatever is found around a node begins and ends inside of lines, so that
nothing has to be assumed of comments to tell their lines; only one that is never closed goes on to
the end of the text as it is. A position has at most one comment, and so putting comments in order
loses none.
-/

namespace LineCensus.Script

set_option autoImplicit false

/-! ### Runs and words -/

namespace Source

variable (source : Source)

theorem char_of_get (position : Nat) (c : Char) (there : source.chars.toList[position]? = some c) :
    source.char position = c := by
  rw [char, Array.getD_eq_getD_getElem?, ← Array.getElem?_toList, there]
  rfl

theorem skip_while_le (inRun : Char → Bool) (position : Nat) (inText : position ≤ source.size) :
    source.skipWhile inRun position ≤ source.size := by
  fun_induction skipWhile source inRun position with
  | case1 position inside _ ih => exact ih inside
  | case2 => exact inText
  | case3 => exact inText

/-- Every character of a run is of its class. -/
theorem skip_while_run (inRun : Char → Bool) (position : Nat) :
    ∀ passed, position ≤ passed → passed < source.skipWhile inRun position →
      inRun (source.char passed) = true := by
  fun_induction skipWhile source inRun position with
  | case1 position inside first ih =>
      intro passed fromStart beforeEnd
      rcases Nat.eq_or_lt_of_le fromStart with rfl | later
      · exact first
      · exact ih passed later beforeEnd
  | case2 => omega
  | case3 => omega

theorem starts_at_pair (position : Nat) (first second : Char)
    (found : source.startsAt position [first, second] = true) :
    position + 2 ≤ source.size ∧ source.char position = first ∧
      source.char (position + 1) = second := by
  simp only [startsAt, List.zipIdx_cons, List.zipIdx_nil, List.all_cons, List.all_nil,
    Bool.and_true, Bool.and_eq_true, decide_eq_true_eq, beq_iff_eq, Nat.add_zero, Nat.zero_add]
    at found
  obtain ⟨⟨-, firstThere⟩, inText, secondThere⟩ := found
  exact ⟨inText, firstThere, secondThere⟩

theorem block_comment_end_spec (position stop : Nat)
    (found : source.blockCommentEnd position = some stop) :
    position + 2 ≤ stop ∧ stop ≤ source.size ∧ source.char (stop - 1) = '/' := by
  fun_induction blockCommentEnd source position with
  | case1 position inside closed =>
      cases found
      obtain ⟨fits, -, slash⟩ := source.starts_at_pair position _ _ closed
      exact ⟨Nat.le_refl _, fits, slash⟩
  | case2 position inside open_ ih =>
      obtain ⟨later, fits, slash⟩ := ih found
      exact ⟨by omega, fits, slash⟩
  | case3 => cases found

theorem contains_eq_is_line_break (c : Char) : Text.LineBreaks.script.contains c = isLineBreak c := by
  simp [Text.LineBreaks.contains, isLineBreak, Bool.or_assoc]

/-- What begins with two characters that break no line, and runs on to the end of that line at
most, lies inside of lines. -/
theorem spans_of_line_end (position : Nat) (first second : Char)
    (found : source.startsAt position [first, second] = true)
    (firstVisible : isLineBreak first = false) (secondVisible : isLineBreak second = false) :
    Text.Spans .script source.chars.toList position (source.lineEnd (position + 2)) := by
  obtain ⟨fits, firstThere, secondThere⟩ := source.starts_at_pair position _ _ found
  have later : position + 2 ≤ source.lineEnd (position + 2) := source.le_skip_while _ _
  exact {
    start_lt := by omega
    stop_le := source.skip_while_le _ _ fits
    start_visible := by
      intro c there
      rw [contains_eq_is_line_break, ← source.char_of_get _ _ there, firstThere]
      exact firstVisible
    stop_visible := by
      refine .inr fun c there => ?_
      rw [contains_eq_is_line_break, ← source.char_of_get _ _ there]
      rcases Nat.eq_or_lt_of_le later with same | longer
      · rw [← same]
        exact secondThere ▸ secondVisible
      · have inRun := source.skip_while_run (fun c => !isLineBreak c) (position + 2)
          (source.lineEnd (position + 2) - 1) (by omega)
          (Nat.sub_lt (by omega) Nat.one_pos)
        simpa using inRun }

/-! ### Comments lie inside of lines -/

theorem comment_at_spans (position : Nat) (comment : Comment)
    (found : source.commentAt position = some comment) :
    comment.start = position ∧
      Text.Spans .script source.chars.toList comment.start comment.stop := by
  rw [commentAt] at found
  split at found
  · rename_i slashes
    cases found
    exact ⟨rfl, source.spans_of_line_end position _ _ slashes (by decide) (by decide)⟩
  · split at found
    · rename_i opened
      cases found
      obtain ⟨fits, slash, -⟩ := source.starts_at_pair position _ _ opened
      refine ⟨rfl, ?_⟩
      have startVisible : ∀ c, source.chars.toList[position]? = some c →
          Text.LineBreaks.script.contains c = false := by
        intro c there
        rw [← source.char_of_get _ _ there, slash]
        decide
      cases closed : source.blockCommentEnd (position + 2) with
      | none =>
          exact {
            start_lt := by
              change position < source.size
              omega
            stop_le := Nat.le_refl _
            start_visible := startVisible
            stop_visible := .inl rfl }
      | some stop =>
          obtain ⟨later, inText, slash⟩ := source.block_comment_end_spec _ _ closed
          exact {
            start_lt := by
              change position < stop
              omega
            stop_le := inText
            start_visible := startVisible
            stop_visible := by
              refine .inr fun c there => ?_
              rw [← source.char_of_get _ _ there]
              change Text.LineBreaks.script.contains (source.char (stop - 1)) = false
              rw [slash]
              decide }
    · cases found

/-- Every comment is the one that begins at its start. -/
theorem comments_from_at (onOneLine collecting : Bool) (position : Nat) :
    ∀ comment ∈ source.commentsFrom onOneLine collecting position,
      source.commentAt comment.start = some comment := by
  fun_induction commentsFrom source onOneLine collecting position with
  | case1 => simp
  | case2 collecting position inside c isBreak moreLines ih => exact ih
  | case3 collecting position inside c noBreak isSpace ih => exact ih
  | case4 => simp
  | case5 position inside c noBreak noSpace found atPosition rest ih =>
      intro comment member
      rcases List.mem_cons.mp member with rfl | later
      · rw [(source.comment_at_spans _ _ atPosition).1]
        exact atPosition
      · simp only [rest] at later
        split at later
        · rename_i advances
          exact ih advances comment later
        · cases later
  | case6 collecting position inside c noBreak noSpace found atPosition rest notCollecting ih =>
      intro comment member
      simp only [rest] at member
      split at member
      · rename_i advances
        exact ih advances comment member
      · cases member
  | case7 => simp

theorem comments_at_place (place : Place) :
    ∀ comment ∈ place.comments source, source.commentAt comment.start = some comment := by
  cases place with
  | node start stop =>
      intro comment member
      rcases List.mem_append.mp member with leading | trailing
      · exact source.comments_from_at _ _ _ comment leading
      · exact source.comments_from_at _ _ _ comment trailing
  | markupText start stop =>
      intro comment member
      cases member

theorem shebang_spans (some_shebang : source.shebangLength ≠ 0) :
    Text.Spans .script source.chars.toList 0 source.shebangLength := by
  rw [shebangLength] at some_shebang ⊢
  split at some_shebang
  · rename_i found
    rw [if_pos found]
    exact source.spans_of_line_end 0 _ _ found (by decide) (by decide)
  · exact absurd rfl some_shebang

end Source

/-! ### Comments in order, each once -/

/-- One step of putting comments in order: one that begins where the next one does is left out. -/
def Comment.put (comment : Comment) (rest : List Comment) : List Comment :=
  match rest with
  | next :: _ => if next.start == comment.start then rest else comment :: rest
  | [] => [comment]

theorem Comment.mem_put_iff (comment : Comment) (rest : List Comment)
    (apart : ∀ other ∈ rest, other.start = comment.start → other = comment) (member : Comment) :
    member ∈ comment.put rest ↔ member = comment ∨ member ∈ rest := by
  cases rest with
  | nil => simp [put]
  | cons next others =>
      by_cases repeated : next.start = comment.start
      · have same := apart next List.mem_cons_self repeated
        rw [put, if_pos (by simpa using repeated), same]
        simp
      · rw [put, if_neg (by simpa using repeated), List.mem_cons]

/-- Comments put in order are the same comments, provided that no two of them begin at one
position. -/
theorem Comment.mem_arrange_iff (comments : List Comment)
    (apart : ∀ first ∈ comments, ∀ second ∈ comments, first.start = second.start → first = second)
    (comment : Comment) : comment ∈ Comment.arrange comments ↔ comment ∈ comments := by
  have keeps : ∀ ordered : List Comment, ordered ⊆ comments →
      (comment ∈ ordered.foldr put [] ↔ comment ∈ ordered) := by
    intro ordered listed
    induction ordered generalizing comment with
    | nil => rfl
    | cons head rest ih =>
        obtain ⟨headListed, restListed⟩ := List.cons_subset.mp listed
        rw [List.foldr_cons, mem_put_iff, ih comment restListed, List.mem_cons]
        intro other inRest same
        have otherListed := restListed ((ih other restListed).mp inRest)
        exact apart other otherListed head headListed same
  have sorted := List.mergeSort_perm comments fun a b => decide (a.start ≤ b.start)
  rw [← sorted.mem_iff]
  exact keeps _ sorted.subset

/-! ### Comments of a tree -/

/-- Whether a comment stands at a place that a walk over a tree comes by, and does not begin in text
between markup tags. -/
def Comment.StandsIn (comment : Comment) (source : Source) (dialect : Dialect) (tree : Node) :
    Prop :=
  (∃ place, tree.ComesBy source dialect place ∧ comment ∈ place.comments source) ∧
    ∀ start stop, tree.ComesBy source dialect (.markupText start stop) →
      ¬(start ≤ comment.start ∧ comment.start < stop)

theorem hides_iff (place : Place) (position : Nat) :
    place.hides position = true ↔
      ∃ start stop, place = .markupText start stop ∧ start ≤ position ∧ position < stop := by
  cases place <;> simp [Place.hides]

section

variable {source : Source} {dialect : Dialect} {tree : Node}

theorem Comment.StandsIn.found {comment : Comment}
    (stands : comment.StandsIn source dialect tree) :
    source.commentAt comment.start = some comment := by
  obtain ⟨⟨place, -, there⟩, -⟩ := stands
  exact source.comments_at_place place comment there

theorem none_hides_iff {places : List Place} (placed : tree.places source dialect = some places)
    (position : Nat) :
    (!places.any (·.hides position)) = true ↔
      ∀ start stop, tree.ComesBy source dialect (.markupText start stop) →
        ¬(start ≤ position ∧ position < stop) := by
  rw [Bool.not_eq_true', List.any_eq_false]
  constructor
  · intro visible start stop passed inside
    exact visible _ ((mem_places_iff source dialect tree places placed _).mpr passed)
      ((hides_iff _ _).mpr ⟨start, stop, rfl, inside⟩)
  · intro apart place listed hidden
    obtain ⟨start, stop, rfl, inside⟩ := (hides_iff _ _).mp hidden
    exact apart start stop ((mem_places_iff source dialect tree places placed _).mp listed) inside

/-- The comments of a tree that fits the text are those that stand in it. -/
theorem mem_comments_iff (fits : (tree.places source dialect).isSome = true) :
    ∃ comments, tree.comments source dialect = some comments ∧
      ∀ comment : Comment, comment ∈ comments ↔ comment.StandsIn source dialect tree := by
  obtain ⟨places, placed⟩ := Option.isSome_iff_exists.mp fits
  have kept (comment : Comment) :
      comment ∈ (places.flatMap (·.comments source)).filter
          (fun comment => !places.any (·.hides comment.start)) ↔
        comment.StandsIn source dialect tree := by
    rw [List.mem_filter, List.mem_flatMap, none_hides_iff placed]
    simp [Comment.StandsIn, mem_places_iff source dialect tree places placed]
  refine ⟨_, by rw [Node.comments, placed]; rfl, ?_⟩
  intro comment
  rw [Comment.mem_arrange_iff, kept]
  intro first firstListed second secondListed same
  have firstFound := ((kept first).mp firstListed).found
  have secondFound := ((kept second).mp secondListed).found
  rw [same, secondFound] at firstFound
  exact (Option.some.inj firstFound).symm

end

end LineCensus.Script
