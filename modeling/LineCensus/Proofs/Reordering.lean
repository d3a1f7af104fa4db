import LineCensus.Proofs.Breakdown
import LineCensus.Proofs.SizeOrder

/-!
Sorting the files in a part of a tree. A change at a place leaves alone what is neither above the place
nor below it. Sorting is such a change, and it takes no file from its node; so the nodes above see the
same files in another order. Nothing that is worked out from files depends on that, save for the order of
those entries of a breakdown that are tied.
-/

namespace LineCensus.Stats

set_option autoImplicit false

namespace DirStats

/-! ### Changes at a place -/

section Changes

variable {α : Type} (change : DirStats α → DirStats α)

theorem at_append (front rest : List Nat) (dir : DirStats α) :
    dir.at? (front ++ rest) = (dir.at? front).bind fun inner => inner.at? rest := by
  induction front generalizing dir with
  | nil => rfl
  | cons index front ih =>
      rw [List.cons_append, at?, at?]
      cases dir.directories[index]? with
      | none => rfl
      | some inner => exact ih inner

theorem at_modify_at (place rest : List Nat) (dir : DirStats α) :
    (modifyAt change place dir).at? (place ++ rest) =
      (dir.at? place).bind fun inner => (change inner).at? rest := by
  induction place generalizing dir with
  | nil => rfl
  | cons index place ih =>
      cases dir with
      | mk path files directories =>
          rw [modifyAt, List.cons_append, at?, at?]
          simp only [DirStats.directories, List.getElem?_modify_eq]
          cases directories[index]? with
          | none => rfl
          | some inner => exact ih inner

theorem at_above_modify_at (address rest : List Nat) (dir : DirStats α) :
    (modifyAt change (address ++ rest) dir).at? address =
      (dir.at? address).map (modifyAt change rest) := by
  induction address generalizing dir with
  | nil => rfl
  | cons index address ih =>
      cases dir with
      | mk path files directories =>
          rw [List.cons_append, modifyAt, at?, at?]
          simp only [DirStats.directories, List.getElem?_modify_eq]
          cases directories[index]? with
          | none => rfl
          | some inner => exact ih inner

theorem at_beside_modify_at (place address : List Nat) (notBelow : ¬place <+: address)
    (notAbove : ¬address <+: place) (dir : DirStats α) :
    (modifyAt change place dir).at? address = dir.at? address := by
  induction place generalizing address dir with
  | nil => exact absurd List.nil_prefix notBelow
  | cons index place ih =>
      cases address with
      | nil => exact absurd List.nil_prefix notAbove
      | cons other address =>
          cases dir with
          | mk path files directories =>
              rw [modifyAt, at?, at?]
              by_cases same : index = other
              · subst same
                rw [List.cons_prefix_cons, not_and] at notBelow notAbove
                simp only [DirStats.directories, List.getElem?_modify_eq]
                cases directories[index]? with
                | none => rfl
                | some inner => exact ih address (notBelow rfl) (notAbove rfl) inner
              · simp only [DirStats.directories, List.getElem?_modify_ne _ _ same]

theorem modify_at_twice (second : DirStats α → DirStats α) (place : List Nat) (dir : DirStats α) :
    modifyAt second place (modifyAt change place dir) =
      modifyAt (fun inner => second (change inner)) place dir := by
  induction place generalizing dir with
  | nil => rfl
  | cons index place ih =>
      cases dir with
      | mk path files directories =>
          simp only [modifyAt, List.modify_modify_eq]
          congr 2
          funext inner
          exact ih inner

variable {change}

theorem all_files_in_modify_perm (keeps : ∀ dir, (change dir).allFiles.Perm dir.allFiles)
    (directories : List (DirStats α)) (index : Nat) :
    (allFilesIn (directories.modify index change)).Perm (allFilesIn directories) := by
  induction directories generalizing index with
  | nil => rw [List.modify_nil]
  | cons dir rest ih =>
      cases index with
      | zero =>
          rw [List.modify_zero_cons, allFilesIn, allFilesIn]
          exact (keeps dir).append_right _
      | succ index =>
          rw [List.modify_succ_cons, allFilesIn, allFilesIn]
          exact (ih index).append_left _

theorem all_files_modify_at_perm (keeps : ∀ dir, (change dir).allFiles.Perm dir.allFiles)
    (place : List Nat) (dir : DirStats α) :
    (modifyAt change place dir).allFiles.Perm dir.allFiles := by
  induction place generalizing dir with
  | nil => exact keeps dir
  | cons index place ih =>
      cases dir with
      | mk path files directories =>
          rw [modifyAt, allFiles, allFiles]
          exact (all_files_in_modify_perm ih directories index).append_left _

end Changes

end DirStats

/-! ### The same files in another order -/

section Figures

variable {files others : List (FileStats Nat)} (perm : files.Perm others)

include perm

theorem of_files_of_perm : Tally.ofFiles files = Tally.ofFiles others := (perm.map _).sum_eq

theorem mem_totals_of_perm (entry : String × Tally) (listed : entry ∈ totalsByLanguage files) :
    entry ∈ totalsByLanguage others := by
  have present : entry.1 ∈ (totalsByLanguage others).map Prod.fst := by
    rw [mem_totals_by_language, ← (perm.map _).mem_iff, ← mem_totals_by_language]
    exact List.mem_map_of_mem listed
  obtain ⟨other, alsoListed, sameLanguage⟩ := List.mem_map.mp present
  have sameFigures : other.2 = entry.2 := by
    rw [figures_of_language listed, figures_of_language alsoListed, sameLanguage]
    exact (of_files_of_perm (perm.filter _)).symm
  rwa [← Prod.ext sameLanguage sameFigures]

theorem totals_by_language_of_perm : (totalsByLanguage files).Perm (totalsByLanguage others) := by
  have once (files : List (FileStats Nat)) : (totalsByLanguage files).Nodup :=
    (totals_by_language_distinct files).of_map
  rw [List.perm_ext_iff_of_nodup (once files) (once others)]
  exact fun entry => ⟨mem_totals_of_perm perm entry, mem_totals_of_perm perm.symm entry⟩

end Figures

namespace DirStats

theorem sum_of_perm {counts others : List Nat} (perm : counts.Perm others) :
    Stats.sum counts = Stats.sum others := by
  rw [sum_eq_list_sum, sum_eq_list_sum, perm.sum_eq]

variable (compareNames : String → String → Ordering)

/-- Whether all that is worked out from the files of a node is the same for another one. -/
structure SameFigures (after before : DirStats Nat) : Prop where
  files : after.fileCount = before.fileCount
  lines : after.totalLines = before.totalLines
  code : after.codeLines = before.codeLines
  comments : after.commentLines = before.commentLines
  blank : after.blankLines = before.blankLines
  scripts : after.scriptSummary = before.scriptSummary
  documents : after.markdownSummary = before.markdownSummary
  languages : (after.languagesBy compareNames).Perm (before.languagesBy compareNames)
  /-- Entries that stand at one place are tied. -/
  tied : List.Forall₂ (fun a b => a.2.lines = b.2.lines ∧ compareNames a.1 b.1 = .eq)
    (after.languagesBy compareNames) (before.languagesBy compareNames)

theorem tally_of_perm {after before : DirStats Nat} (perm : after.allFiles.Perm before.allFiles) :
    after.tally = before.tally := by
  rw [tally_eq, tally_eq, of_files_of_perm perm]

theorem script_summary_of_perm {after before : DirStats Nat}
    (perm : after.allFiles.Perm before.allFiles) : after.scriptSummary = before.scriptSummary := by
  have scripts : (scriptDetails after.allFiles).Perm (scriptDetails before.allFiles) :=
    perm.filterMap _
  simp only [scriptSummary, scripts.length_eq, sum_of_perm (scripts.map _), scripts.countP_eq]

theorem markdown_summary_of_perm {after before : DirStats Nat}
    (perm : after.allFiles.Perm before.allFiles) :
    after.markdownSummary = before.markdownSummary := by
  have documents : (markdownDetails after.allFiles).Perm (markdownDetails before.allFiles) :=
    perm.filterMap _
  simp only [markdownSummary, documents.length_eq, sum_of_perm (documents.map _)]

theorem languages_of_perm {after before : DirStats Nat}
    (perm : after.allFiles.Perm before.allFiles) :
    (after.languagesBy compareNames).Perm (before.languagesBy compareNames) :=
  (languages_by_perm compareNames after).trans
    ((totals_by_language_of_perm perm).trans (languages_by_perm compareNames before).symm)

variable [Std.TransCmp compareNames]

theorem languages_tied_of_perm {after before : DirStats Nat}
    (perm : after.allFiles.Perm before.allFiles) :
    List.Forall₂ (fun a b => a.2.lines = b.2.lines ∧ compareNames a.1 b.1 = .eq)
      (after.languagesBy compareNames) (before.languagesBy compareNames) := by
  have sorted (dir : DirStats Nat) :
      (dir.languagesBy compareNames).Pairwise fun a b => precedes compareNames a b = true :=
    List.pairwise_mergeSort (precedes_trans compareNames) (precedes_total compareNames) _
  have tied := tied_of_perm (precedes_trans compareNames) (precedes_total compareNames)
    (languages_of_perm compareNames perm) (sorted after) (sorted before)
  apply tied.imp
  rintro a b ⟨forth, back⟩
  have swapped : compareNames b.1 a.1 = (compareNames a.1 b.1).swap := Std.OrientedCmp.eq_swap
  rw [precedes_iff] at forth back
  rw [swapped] at back
  rcases forth with more | ⟨same, before⟩
  · omega
  · refine ⟨same, ?_⟩
    cases compared : compareNames a.1 b.1 with
    | eq => rfl
    | lt => simp [compared, same] at back
    | gt => simp [compared] at before

theorem same_figures_of_perm {after before : DirStats Nat}
    (perm : after.allFiles.Perm before.allFiles) : SameFigures compareNames after before where
  files := congrArg LanguageTotals.files (tally_of_perm perm)
  lines := congrArg LanguageTotals.lines (tally_of_perm perm)
  code := congrArg LanguageTotals.code (tally_of_perm perm)
  comments := congrArg LanguageTotals.comments (tally_of_perm perm)
  blank := congrArg LanguageTotals.blank (tally_of_perm perm)
  scripts := script_summary_of_perm perm
  documents := markdown_summary_of_perm perm
  languages := languages_of_perm compareNames perm
  tied := languages_tied_of_perm compareNames perm

/-! ### Sorting -/

/-- Whether files are others put in the order of their size, those of one size left in their order. -/
structure SortedFrom (after before : List (FileStats Nat)) : Prop where
  perm : after.Perm before
  descends : after.Pairwise fun a b => b.total ≤ a.total
  same_size : ∀ size, after.filter (·.total == size) = before.filter (·.total == size)

/-- Whether a node differs from another one in the order of files alone, its own being sorted if it lies
in the part that is. -/
structure Reordered (inside : Prop) (after before : DirStats Nat) : Prop where
  path : after.path = before.path
  directories : after.directories.length = before.directories.length
  sorted : inside → SortedFrom after.files before.files
  kept : ¬inside → after.files = before.files
  figures : SameFigures compareNames after before

theorem by_size_sorted_from (files : List (FileStats Nat)) : SortedFrom (bySize files) files where
  perm := by_size_perm files
  descends := by_size_descends files
  same_size := by_size_same_size files

theorem at_sort_by_size (address : List Nat) (dir : DirStats Nat) :
    dir.sortBySize.at? address = (dir.at? address).map sortBySize := by
  induction address generalizing dir with
  | nil => rfl
  | cons index address ih =>
      rw [at?, at?, directories_sort_by_size, List.getElem?_map]
      cases dir.directories[index]? with
      | none => rfl
      | some inner => exact ih inner

theorem sort_by_size_twice (dir : DirStats Nat) : dir.sortBySize.sortBySize = dir.sortBySize := by
  induction dir using induction with
  | node path files directories ih =>
      rw [sortBySize, sortBySize, by_size_twice, sort_by_size_in_eq_map, sort_by_size_in_eq_map,
        List.map_map]
      congr 1
      exact List.map_congr_left ih

theorem sort_by_size_reorders (dir : DirStats Nat) :
    Reordered compareNames True dir.sortBySize dir where
  path := path_sort_by_size dir
  directories := by rw [directories_sort_by_size, List.length_map]
  sorted _ := by
    rw [files_sort_by_size]
    exact by_size_sorted_from dir.files
  kept outside := absurd trivial outside
  figures := same_figures_of_perm compareNames (all_files_sort_by_size_perm dir)

theorem modify_at_reorders {change : DirStats Nat → DirStats Nat}
    (keeps : ∀ dir, (change dir).allFiles.Perm dir.allFiles) (index : Nat) (place : List Nat)
    (dir : DirStats Nat) :
    Reordered compareNames False (modifyAt change (index :: place) dir) dir where
  path := by
    cases dir
    rfl
  directories := by
    cases dir
    exact List.length_modify _ _ _
  sorted := False.elim
  kept _ := by
    cases dir
    rfl
  figures := same_figures_of_perm compareNames (all_files_modify_at_perm keeps (index :: place) dir)

theorem reordered_same (dir : DirStats Nat) : Reordered compareNames False dir dir where
  path := rfl
  directories := rfl
  sorted := False.elim
  kept _ := rfl
  figures := same_figures_of_perm compareNames (.refl _)

theorem at_reordered (place address : List Nat) (tree : DirStats Nat) :
    Option.Rel (Reordered compareNames (place <+: address))
      ((modifyAt sortBySize place tree).at? address) (tree.at? address) := by
  -- Below the place a node is sorted. Above it, files further down are; beside it, none.
  by_cases below : place <+: address
  · rw [eq_true below]
    obtain ⟨rest, rfl⟩ := below
    rw [at_modify_at, at_append]
    cases tree.at? place with
    | none => exact .none
    | some part =>
        simp only [Option.bind_some, at_sort_by_size]
        cases part.at? rest with
        | none => exact .none
        | some node => exact .some (sort_by_size_reorders compareNames node)
  · rw [eq_false below]
    by_cases above : address <+: place
    · obtain ⟨rest, rfl⟩ := above
      rw [at_above_modify_at]
      cases tree.at? address with
      | none => exact .none
      | some node =>
          cases rest with
          | nil => exact absurd (by simp) below
          | cons index rest =>
              exact .some
                (modify_at_reorders compareNames all_files_sort_by_size_perm index rest node)
    · rw [at_beside_modify_at sortBySize place address below above]
      cases tree.at? address with
      | none => exact .none
      | some node => exact .some (reordered_same compareNames node)

/-- Sorting the part of a tree at a place reorders the files of the nodes in that part and no more: each
node of the tree stays where it is, with the same directories, as many lines of each kind, the same
summaries and, whatever the order of names is, the same breakdown up to ties. What lies beside the part is
not touched, and sorting it again changes nothing. -/
theorem sorting_only_reorders (place : List Nat) (tree : DirStats Nat) :
    let sorted := modifyAt sortBySize place tree
    (∀ address,
      Option.Rel (Reordered compareNames (place <+: address)) (sorted.at? address)
        (tree.at? address)) ∧
    (∀ address, ¬place <+: address → ¬address <+: place → sorted.at? address = tree.at? address) ∧
    modifyAt sortBySize place sorted = sorted := by
  refine ⟨fun address => at_reordered compareNames place address tree, ?_, ?_⟩
  · intro address notBelow notAbove
    exact at_beside_modify_at sortBySize place address notBelow notAbove tree
  · rw [modify_at_twice]
    simp only [sort_by_size_twice]

/-! ### An archive -/

def shortFile : FileStats Nat := .ofFigures "short.py" "Python" 3 1 0 none

def longFile : FileStats Nat := .ofFigures "long.md" "Markdown" 8 2 0 none

def archive : DirStats Nat :=
  mk "/a" [shortFile, longFile]
    [mk "/a/old" [shortFile, longFile, shortFile] [], mk "/a/new" [shortFile, longFile] []]

/-- Only one of the directories is sorted. -/
theorem archive_sorted_in_part :
    let sorted := modifyAt sortBySize [0] archive
    Std.TransCmp Text.collate ∧
    (∀ address,
      Option.Rel (Reordered Text.collate ([0] <+: address)) (sorted.at? address)
        (archive.at? address)) ∧
    ¬[0] <+: [1] ∧ ¬[1] <+: [0] ∧ sorted.at? [1] = archive.at? [1] ∧
    modifyAt sortBySize [0] sorted = sorted := by
  obtain ⟨reordered, beside, again⟩ := sorting_only_reorders Text.collate [0] archive
  have notBelow : ¬[0] <+: [1] := by decide
  have notAbove : ¬[1] <+: [0] := by decide
  exact ⟨inferInstance, reordered, notBelow, notAbove, beside [1] notBelow notAbove, again⟩

end DirStats

end LineCensus.Stats
