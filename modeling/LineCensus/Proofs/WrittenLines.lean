import LineCensus.Proofs.Lines
import Mathlib

/-!
Reading lines and writing them. Lines are written one behind the other, each with a break of any kind
behind it, and the last one without if it holds something. Only a CR must not come to stand in front of
an LF that is meant for an empty line of its own, for the two would be read as one break. Reading a text
gives just the lines with which it can be written so.
-/

namespace LineCensus.Text

set_option autoImplicit false

def LineBreaks.endings : LineBreaks → List (List Char)
  | .text => [['\n'], ['\r'], ['\r', '\n']]
  | .script => [['\n'], ['\r'], ['\r', '\n'], ['\u2028'], ['\u2029']]

/-- Lines as they can be written. -/
inductive Written (breaks : LineBreaks) : List EndedLine → Prop
  | nothing : Written breaks []
  | unended (line : List Char) (filled : line ≠ [])
      (free : ∀ c ∈ line, breaks.contains c = false) : Written breaks [⟨line, []⟩]
  | ended (piece : EndedLine) (rest : List EndedLine)
      (free : ∀ c ∈ piece.line, breaks.contains c = false) (ends : piece.ending ∈ breaks.endings)
      (apart : piece.ending = ['\r'] → rest.head? ≠ some ⟨[], ['\n']⟩)
      (later : Written breaks rest) : Written breaks (piece :: rest)

variable {breaks : LineBreaks}

theorem mem_endings_iff (ending : List Char) :
    ending ∈ breaks.endings ↔
      ending = ['\r', '\n'] ∨ ∃ c, ending = [c] ∧ breaks.contains c = true := by
  cases breaks <;> simp only [LineBreaks.endings, LineBreaks.contains, List.mem_cons,
    List.not_mem_nil, or_false] <;> constructor
  · rintro (rfl | rfl | rfl) <;> simp
  · rintro (rfl | ⟨c, rfl, isBreak⟩)
    · simp
    · simpa using isBreak
  · rintro (rfl | rfl | rfl | rfl | rfl) <;> simp
  · rintro (rfl | ⟨c, rfl, isBreak⟩)
    · simp
    · simpa [or_assoc] using isBreak

theorem not_return_of_free {c : Char} (free : breaks.contains c = false) : c ≠ '\r' := by
  rintro rfl
  exact Bool.noConfusion ((show breaks.contains '\r' = true by rfl).symm.trans free)

/-! ### Reading what has been written -/

theorem drop_empty_last_cons (first : List Char) {pieces : List (List Char)} (more : pieces ≠ []) :
    dropEmptyLast (first :: pieces) = first :: dropEmptyLast pieces := by
  rw [dropEmptyLast, dropEmptyLast, List.getLast?_cons_of_ne_nil more,
    List.dropLast_cons_of_ne_nil more]
  split <;> rfl

theorem pieces_from_ne_nil (line chars : List Char) : piecesFrom breaks line chars ≠ [] := by
  rw [← map_line_terminated_from, ne_eq, List.map_eq_nil_iff]
  exact terminated_from_ne_nil breaks line chars

theorem pieces_from_free (line free rest : List Char)
    (noBreak : ∀ c ∈ free, breaks.contains c = false) :
    piecesFrom breaks line (free ++ rest) = piecesFrom breaks (free.reverse ++ line) rest := by
  induction free generalizing line with
  | nil => rfl
  | cons c free ih =>
      have here := noBreak c List.mem_cons_self
      have later := ih (c :: line) fun other member => noBreak other (List.mem_cons_of_mem _ member)
      rw [List.cons_append, piecesFrom, if_neg (by simp [here]), later, List.reverse_cons,
        List.append_assoc, List.singleton_append]
      exact fun _ isReturn => absurd isReturn (not_return_of_free here)

theorem pieces_from_ending (line ending rest : List Char) (ends : ending ∈ breaks.endings)
    (apart : ending = ['\r'] → rest.head? ≠ some '\n') :
    piecesFrom breaks line (ending ++ rest) = line.reverse :: piecesFrom breaks [] rest := by
  rcases (mem_endings_iff ending).mp ends with rfl | ⟨c, rfl, isBreak⟩
  · rfl
  · rw [List.singleton_append, piecesFrom, if_pos isBreak]
    rintro later rfl rfl
    exact apart rfl rfl

/-- Written lines begin with an LF only if that ends an empty line. -/
theorem Written.head_of_line_feed {pieces : List EndedLine} (written : Written breaks pieces)
    (feeds : (pieces.flatMap EndedLine.chars).head? = some '\n') :
    pieces.head? = some ⟨[], ['\n']⟩ := by
  have noFeed (line : List Char) (free : ∀ c ∈ line, breaks.contains c = false) (rest : List Char)
      (atHead : (line ++ rest).head? = some '\n') : line = [] := by
    cases line with
    | nil => rfl
    | cons c line =>
        obtain rfl : c = '\n' := Option.some.inj atHead
        have isBreak : breaks.contains '\n' = true := rfl
        exact Bool.noConfusion (isBreak.symm.trans (free _ List.mem_cons_self))
  cases written with
  | nothing => cases feeds
  | unended line filled free =>
      rw [List.flatMap_singleton, EndedLine.chars] at feeds
      exact absurd (noFeed line free [] feeds) filled
  | ended piece rest free ends apart later =>
      obtain ⟨line, ending⟩ := piece
      rw [List.flatMap_cons, EndedLine.chars, List.append_assoc] at feeds
      obtain rfl := noFeed line free _ feeds
      rcases (mem_endings_iff ending).mp ends with rfl | ⟨c, rfl, -⟩
      · cases feeds
      · obtain rfl : c = '\n' := Option.some.inj feeds
        rfl

theorem Written.read {pieces : List EndedLine} (written : Written breaks pieces) :
    dropEmptyLast (piecesFrom breaks [] (pieces.flatMap EndedLine.chars)) =
      pieces.map EndedLine.line := by
  induction written with
  | nothing => rfl
  | unended line filled free =>
      have whole := pieces_from_free [] line [] free
      rw [List.append_nil, List.append_nil] at whole
      rw [List.flatMap_singleton, EndedLine.chars, List.append_nil, whole, piecesFrom,
        List.reverse_reverse, dropEmptyLast]
      simp [filled]
  | ended piece rest free ends apart later ih =>
      have cut : piecesFrom breaks [] ((piece :: rest).flatMap EndedLine.chars) =
          piece.line :: piecesFrom breaks [] (rest.flatMap EndedLine.chars) := by
        rw [List.flatMap_cons, EndedLine.chars, List.append_assoc, pieces_from_free _ _ _ free,
          pieces_from_ending _ _ _ ends fun isReturn feeds =>
            apart isReturn (later.head_of_line_feed feeds), List.append_nil, List.reverse_reverse]
      rw [cut, drop_empty_last_cons _ (pieces_from_ne_nil _ _), ih, List.map_cons]

/-! ### Writing what has been read -/

/-- Whatever the text, it is written lines. The piece that is being passed is kept in reverse, in front of
what is still to come. -/
theorem exists_written (line chars : List Char) (passed : ∀ c ∈ line, breaks.contains c = false) :
    ∃ pieces, Written breaks pieces ∧ pieces.flatMap EndedLine.chars = line.reverse ++ chars := by
  fun_induction piecesFrom breaks line chars with
  | case1 line =>
      cases line with
      | nil => exact ⟨[], .nothing, rfl⟩
      | cons c before =>
          refine ⟨[⟨(c :: before).reverse, []⟩], .unended _ (by simp) ?_, by simp [EndedLine.chars]⟩
          exact fun other member => passed other (List.mem_reverse.mp member)
  | case2 line rest ih =>
      obtain ⟨pieces, written, text⟩ := ih (by simp)
      refine ⟨⟨line.reverse, ['\r', '\n']⟩ :: pieces, .ended _ _ ?_ ?_ (by simp) written, ?_⟩
      · exact fun other member => passed other (List.mem_reverse.mp member)
      · exact (mem_endings_iff _).mpr (.inl rfl)
      · rw [List.flatMap_cons, text]
        simp [EndedLine.chars]
  | case3 line c rest single isBreak ih =>
      obtain ⟨pieces, written, text⟩ := ih (by simp)
      refine ⟨⟨line.reverse, [c]⟩ :: pieces, .ended _ _ ?_ ?_ ?_ written, ?_⟩
      · exact fun other member => passed other (List.mem_reverse.mp member)
      · exact (mem_endings_iff _).mpr (.inr ⟨c, rfl, isBreak⟩)
      · intro isReturn feeds
        obtain ⟨later, rfl⟩ := List.head?_eq_some_iff.mp feeds
        exact single _ (List.singleton_inj.mp isReturn) text.symm
      · rw [List.flatMap_cons, text]
        simp [EndedLine.chars]
  | case4 line c rest single noBreak ih =>
      obtain ⟨pieces, written, text⟩ := ih <| by
        intro other member
        rcases List.mem_cons.mp member with rfl | earlier
        · exact Bool.eq_false_iff.mpr noBreak
        · exact passed other earlier
      exact ⟨pieces, written, by rw [text, List.reverse_cons, List.append_assoc]; rfl⟩

/-- Lines are those of a text exactly when the text can be written with them. -/
theorem reads_what_is_written (breaks : LineBreaks) (text : String) (lines : List String) :
    splitLines breaks text = lines ↔
      ∃ pieces, Written breaks pieces ∧
        text = String.ofList (pieces.flatMap EndedLine.chars) ∧
        lines = pieces.map fun piece => String.ofList piece.line := by
  have reads (pieces : List EndedLine) (written : Written breaks pieces) :
      splitLines breaks (String.ofList (pieces.flatMap EndedLine.chars)) =
        pieces.map fun piece => String.ofList piece.line := by
    rw [splitLines, String.toList_ofList, written.read, List.map_map]
    rfl
  constructor
  · rintro rfl
    obtain ⟨pieces, written, chars⟩ := @exists_written breaks [] text.toList (by simp)
    have same : text = String.ofList (pieces.flatMap EndedLine.chars) := by
      rw [chars, List.reverse_nil, List.nil_append, String.ofList_toList]
    refine ⟨pieces, written, same, ?_⟩
    rw [same]
    exact reads pieces written
  · rintro ⟨pieces, written, rfl, rfl⟩
    exact reads pieces written

/-- The CR behind CR LF ends an empty line, and the last LF is the end of a line that is not empty. -/
example : splitLines .script "a\r\n\rb\u2028c\n" = ["a", "", "b", "c"] := by decide +kernel

end LineCensus.Text
