import LineCensus.Proofs.Exactness
import LineCensus.Proofs.Nodes

/-!
Counts that add up without rounding. Whatever figures a file is made from, its counts are natural
numbers, and as long as there are less than 2^53 lines, the lines of the three kinds are all of them.
The counts of many files add up as exactly if their sum is below 2^53, in whatever order it is taken.
-/

namespace LineCensus.Stats

set_option autoImplicit false

open Numeric (Binary64)

/-! ### Sums -/

/-- Whether some counts are natural numbers with the given sum. -/
def AddUpTo (counts : List Binary64) (n : Nat) : Prop :=
  ∃ naturals : List Nat, counts = naturals.map Binary64.ofNat ∧ naturals.sum = n

variable {counts : List Binary64} {n : Nat}

theorem add_up_to_nil_iff (n : Nat) : AddUpTo [] n ↔ n = 0 := by
  constructor
  · intro added
    obtain ⟨naturals, none, rfl⟩ := added
    rw [List.map_eq_nil_iff.mp none.symm, List.sum_nil]
  · intro nothing
    exact ⟨[], rfl, nothing.symm⟩

theorem add_up_to_append_iff (front behind : List Binary64) (n : Nat) :
    AddUpTo (front ++ behind) n ↔ ∃ m k, AddUpTo front m ∧ AddUpTo behind k ∧ m + k = n := by
  constructor
  · intro added
    obtain ⟨naturals, split, rfl⟩ := added
    obtain ⟨before, after, rfl, rfl, rfl⟩ := List.append_eq_map_iff.mp split
    exact ⟨_, _, ⟨before, rfl, rfl⟩, ⟨after, rfl, rfl⟩, List.sum_append.symm⟩
  · intro parts
    obtain ⟨_, _, ⟨before, rfl, rfl⟩, ⟨after, rfl, rfl⟩, rfl⟩ := parts
    exact ⟨before ++ after, List.map_append.symm, List.sum_append⟩

theorem add_up_to_cons_iff (count : Binary64) (rest : List Binary64) (n : Nat) :
    AddUpTo (count :: rest) n ↔
      ∃ m k, count = Binary64.ofNat m ∧ AddUpTo rest k ∧ m + k = n := by
  constructor
  · intro added
    obtain ⟨naturals, split, rfl⟩ := added
    obtain ⟨first, after, rfl, rfl, rfl⟩ := List.map_eq_cons_iff.mp split.symm
    exact ⟨first, _, rfl, ⟨after, rfl, rfl⟩, List.sum_cons.symm⟩
  · intro parts
    obtain ⟨m, _, rfl, ⟨after, rfl, rfl⟩, rfl⟩ := parts
    exact ⟨m :: after, rfl, List.sum_cons⟩

theorem AddUpTo.of_perm {reordered : List Binary64} (added : AddUpTo counts n)
    (perm : counts.Perm reordered) : AddUpTo reordered n := by
  induction perm generalizing n with
  | nil => exact added
  | cons count _ ih =>
      obtain ⟨m, k, whole, rest, rfl⟩ := (add_up_to_cons_iff _ _ _).mp added
      exact (add_up_to_cons_iff _ _ _).mpr ⟨m, k, whole, ih rest, rfl⟩
  | swap first second rest =>
      obtain ⟨m, _, firstWhole, inner, rfl⟩ := (add_up_to_cons_iff _ _ _).mp added
      obtain ⟨k, l, secondWhole, behind, rfl⟩ := (add_up_to_cons_iff _ _ _).mp inner
      have others := (add_up_to_cons_iff _ _ _).mpr ⟨m, l, firstWhole, behind, rfl⟩
      exact (add_up_to_cons_iff _ _ _).mpr ⟨k, m + l, secondWhole, others, Nat.add_left_comm ..⟩
  | trans _ _ first second => exact second (first added)

/-- Some of the counts add up to no more than all of them. -/
theorem AddUpTo.of_subperm {fewer : List Binary64} (added : AddUpTo counts n)
    (among : fewer.Subperm counts) : ∃ m, AddUpTo fewer m ∧ m ≤ n := by
  obtain ⟨ordered, perm, kept⟩ := among
  obtain ⟨naturals, rfl, rfl⟩ := added
  obtain ⟨chosen, chosenKept, rfl⟩ := List.sublist_map_iff.mp kept
  have orderedAdd : AddUpTo (chosen.map Binary64.ofNat) chosen.sum := ⟨chosen, rfl, rfl⟩
  exact ⟨_, orderedAdd.of_perm perm, chosenKept.sum_le_sum fun _ _ => Nat.zero_le _⟩

theorem add_counts {first second : Nat} (small : first + second < 2 ^ 53) :
    Count.add (Binary64.ofNat first) (Binary64.ofNat second) = Binary64.ofNat (first + second) := by
  apply Binary64.add_of_nat <;> omega

/-- A sum below 2^53 is the sum of the natural numbers. -/
theorem sum_from_of_add_up (added : AddUpTo counts n) (first : Nat) (small : first + n < 2 ^ 53) :
    sumFrom (Binary64.ofNat first) counts = Binary64.ofNat (first + n) := by
  obtain ⟨naturals, rfl, rfl⟩ := added
  induction naturals generalizing first with
  | nil =>
      rw [List.sum_nil, Nat.add_zero]
      rfl
  | cons count rest ih =>
      rw [List.sum_cons] at small ⊢
      have next : first + count < 2 ^ 53 := by omega
      rw [List.map_cons, sumFrom, List.foldl_cons, add_counts next, ← Nat.add_assoc]
      exact ih (first + count) (by omega)

/-! ### Files -/

namespace FileStats

/-- Whether the statistics of a file have been made from figures. -/
def IsMade (file : FileStats Binary64) : Prop :=
  ∃ path language total blank comment details,
    file = ofFigures path language total blank comment details

end FileStats

theorem clean_number_is_natural (x : Binary64) : ∃ k, cleanNumber x = Binary64.ofNat k := by
  rw [cleanNumber]
  split
  case isTrue usable =>
    rw [Bool.and_eq_true] at usable
    have unsigned := Binary64.not_negative_of_positive usable.1 usable.2
    exact ⟨_, Binary64.of_int_of_nonneg (Binary64.floor_int_nonneg unsigned)⟩
  case isFalse => exact ⟨0, rfl⟩

theorem smaller_of_nat {limit : Nat} (small : limit < 2 ^ 53) (count : Nat) :
    Count.smaller (Binary64.ofNat count) (Binary64.ofNat limit) =
      Binary64.ofNat (min count limit) := by
  change (if Binary64.isLess (Binary64.ofNat limit) (Binary64.ofNat count) then _ else _) = _
  rw [Binary64.is_less_of_nat small]
  by_cases exceeds : limit < count
  · rw [if_pos (decide_eq_true exceeds), Nat.min_eq_right exceeds.le]
  · rw [if_neg, Nat.min_eq_left (Nat.not_lt.mp exceeds)]
    exact fun less => exceeds (of_decide_eq_true less)

namespace FileStats

/-- The counts of a file from natural numbers, of which those for blank and comment lines may be too large
to be kept exactly; the smaller of two counts is exact. -/
theorem of_figures_eq (path language : String) {total blank comment : Binary64}
    (details : Option (Details Binary64)) {lines blankFigure commentFigure : Nat}
    (small : lines < 2 ^ 53) (totalWhole : cleanNumber total = Binary64.ofNat lines)
    (blankWhole : cleanNumber blank = Binary64.ofNat blankFigure)
    (commentWhole : cleanNumber comment = Binary64.ofNat commentFigure) :
    let blankLines := min blankFigure lines
    let commentLines := min commentFigure (lines - blankLines)
    ofFigures path language total blank comment details =
      ⟨path, language, Binary64.ofNat lines, Binary64.ofNat (lines - blankLines - commentLines),
        Binary64.ofNat commentLines, Binary64.ofNat blankLines, details⟩ := by
  intro blankLines commentLines
  have blankFits : blankLines ≤ lines := Nat.min_le_right _ _
  have commentFits : commentLines ≤ lines - blankLines := Nat.min_le_right _ _
  have blankIs : Count.smaller (cleanNumber blank) (Binary64.ofNat lines) =
      Binary64.ofNat blankLines := by
    rw [blankWhole]
    exact smaller_of_nat small _
  have visibleIs : Count.sub (Binary64.ofNat lines) (Binary64.ofNat blankLines) =
      Binary64.ofNat (lines - blankLines) := Binary64.sub_of_nat small blankFits
  have commentIs : Count.smaller (cleanNumber comment) (Binary64.ofNat (lines - blankLines)) =
      Binary64.ofNat commentLines := by
    rw [commentWhole]
    exact smaller_of_nat (by omega) _
  have codeIs : Count.sub (Binary64.ofNat (lines - blankLines)) (Binary64.ofNat commentLines) =
      Binary64.ofNat (lines - blankLines - commentLines) :=
    Binary64.sub_of_nat (by omega) commentFits
  have cleaned : ∀ figure : Binary64, Count.clean figure = cleanNumber figure := fun _ => rfl
  simp only [ofFigures, cleaned, totalWhole, blankIs, visibleIs, commentIs, codeIs]

/-- The lines of the three kinds are all lines of a file, as natural numbers. -/
theorem of_figures_kinds {path language : String} {total blank comment : Binary64}
    {details : Option (Details Binary64)} {lines : Nat} (small : lines < 2 ^ 53) :
    let file := ofFigures path language total blank comment details
    file.total = Binary64.ofNat lines →
    ∃ codeLines commentLines blankLines, file.code = Binary64.ofNat codeLines ∧
      file.comment = Binary64.ofNat commentLines ∧ file.blank = Binary64.ofNat blankLines ∧
      codeLines + commentLines + blankLines = lines := by
  simp only
  intro whole
  have totalWhole : cleanNumber total = Binary64.ofNat lines := whole
  obtain ⟨blankFigure, blankWhole⟩ := clean_number_is_natural blank
  obtain ⟨commentFigure, commentWhole⟩ := clean_number_is_natural comment
  rw [of_figures_eq path language details small totalWhole blankWhole commentWhole]
  simp only
  exact ⟨_, _, _, rfl, rfl, rfl, by omega⟩

end FileStats

theorem kinds_add_up {files : List (FileStats Binary64)} {n : Nat}
    (made : ∀ file ∈ files, file.IsMade) (added : AddUpTo (files.map (·.total)) n)
    (small : n < 2 ^ 53) :
    ∃ code comment blank, AddUpTo (files.map (·.code)) code ∧
      AddUpTo (files.map (·.comment)) comment ∧ AddUpTo (files.map (·.blank)) blank ∧
      code + comment + blank = n := by
  induction files generalizing n with
  | nil =>
      rw [List.map_nil, add_up_to_nil_iff] at added
      rw [added]
      exact ⟨0, 0, 0, ⟨[], rfl, rfl⟩, ⟨[], rfl, rfl⟩, ⟨[], rfl, rfl⟩, rfl⟩
  | cons file rest ih =>
      obtain ⟨lines, others, whole, restAdded, rfl⟩ := (add_up_to_cons_iff _ _ _).mp added
      obtain ⟨_, _, _, _, _, _, rfl⟩ := made file List.mem_cons_self
      obtain ⟨code, comment, blank, codeIs, commentIs, blankIs, kinds⟩ :=
        FileStats.of_figures_kinds (by omega) whole
      obtain ⟨codes, comments, blanks, codesAdd, commentsAdd, blanksAdd, restKinds⟩ :=
        ih (fun other listed => made other (List.mem_cons_of_mem _ listed)) restAdded (by omega)
      refine ⟨code + codes, comment + comments, blank + blanks, ?_, ?_, ?_, by omega⟩
      · exact (add_up_to_cons_iff _ _ _).mpr ⟨code, codes, codeIs, codesAdd, rfl⟩
      · exact (add_up_to_cons_iff _ _ _).mpr ⟨comment, comments, commentIs, commentsAdd, rfl⟩
      · exact (add_up_to_cons_iff _ _ _).mpr ⟨blank, blanks, blankIs, blanksAdd, rfl⟩

/-! ### Directories -/

namespace DirStats

theorem sum_in_of_add_up {figure : FileStats Binary64 → Binary64}
    {directories : List (DirStats Binary64)}
    (below : ∀ dir ∈ directories, ∀ {m : Nat}, AddUpTo (dir.allFiles.map figure) m → m < 2 ^ 53 →
      dir.sumOf figure = Binary64.ofNat m)
    {own inner : Nat} (added : AddUpTo ((allFilesIn directories).map figure) inner)
    (small : own + inner < 2 ^ 53) :
    sumIn figure (Binary64.ofNat own) directories = Binary64.ofNat (own + inner) := by
  induction directories generalizing own inner with
  | nil =>
      rw [allFilesIn, List.map_nil, add_up_to_nil_iff] at added
      rw [sumIn, added, Nat.add_zero]
  | cons dir rest ih =>
      rw [allFilesIn, List.map_append, add_up_to_append_iff] at added
      obtain ⟨first, others, firstAdded, restAdded, rfl⟩ := added
      have firstSum : dir.sumOf figure = Binary64.ofNat first :=
        below dir List.mem_cons_self firstAdded (by omega)
      have next : own + first < 2 ^ 53 := by omega
      rw [sumIn, firstSum, add_counts next, ← Nat.add_assoc]
      exact ih (fun other listed => below other (List.mem_cons_of_mem _ listed)) restAdded (by omega)

/-- A figure whose counts add up to less than 2^53 is summed over a tree without rounding. -/
theorem sum_of_add_up {figure : FileStats Binary64 → Binary64} {dir : DirStats Binary64} {n : Nat}
    (added : AddUpTo (dir.allFiles.map figure) n) (small : n < 2 ^ 53) :
    dir.sumOf figure = Binary64.ofNat n := by
  induction dir using induction generalizing n with
  | node path files directories ih =>
      rw [allFiles, List.map_append, add_up_to_append_iff] at added
      obtain ⟨own, inner, ownAdded, innerAdded, rfl⟩ := added
      have ownSum : sum (files.map figure) = Binary64.ofNat own := by
        have sums := sum_from_of_add_up ownAdded 0 (by omega)
        rw [Nat.zero_add] at sums
        exact sums
      -- The running total starts from the node's own files.
      rw [sumOf, ownSum]
      exact sum_in_of_add_up ih innerAdded small

end DirStats

end LineCensus.Stats
