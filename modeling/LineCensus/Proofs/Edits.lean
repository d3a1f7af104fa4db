import LineCensus.Proofs.Sections
import LineCensus.Proofs.WholeCounts

/-!
Directory trees that are edited. A step brings no files but those that it is given, so that after any
number of steps the tree holds some of the files that it held or was given. Since no total is stored,
every node then agrees with the files it holds, and so does the report on it.
-/

namespace LineCensus

set_option autoImplicit false

open Numeric (Binary64)
open Stats (FileStats DirStats Count AddUpTo)

/-! ### Reading the report on a tree -/

namespace Json

structure GivesFigures (json : Json) (dir : DirStats Binary64) : Prop where
  files : json.Counts "totalFiles" dir.fileCount
  lines : json.field? "totalLines" = some (.number dir.totalLines)
  code : json.field? "codeLines" = some (.number dir.codeLines)
  comments : json.field? "commentLines" = some (.number dir.commentLines)
  blank : json.field? "blankLines" = some (.number dir.blankLines)

inductive GivesTree : Json → DirStats Binary64 → Prop where
  | node (json : Json) (dir : DirStats Binary64) (directories : List Json)
      (figures : json.GivesFigures dir)
      (nested : json.field? "subdirectories" = some (.array directories))
      (below : List.Forall₂ GivesTree directories dir.directories) : json.GivesTree dir

/-- Whether the entries for files in the report on a tree are the given ones: those of a directory
itself before those of the directories in it. -/
inductive ListsFiles : Json → List Json → Prop where
  | node (json : Json) (files directories : List Json) (lists : List (List Json))
      (own : json.field? "files" = some (.array files))
      (nested : json.field? "subdirectories" = some (.array directories))
      (below : List.Forall₂ ListsFiles directories lists) : json.ListsFiles (files ++ lists.flatten)

end Json

namespace Report

theorem dir_json_gives_tree (dir : DirStats Binary64) : (dirJson dir).GivesTree dir := by
  induction dir using DirStats.induction with
  | node path files directories ih =>
      have below : List.Forall₂ Json.GivesTree (dirsJson directories) directories := by
        rw [dirs_json_eq_map, List.forall₂_map_left_iff, List.forall₂_same]
        exact ih
      apply Json.GivesTree.node _ _ _ ?_ ?_ below
      · rw [dirJson]
        exact ⟨rfl, rfl, rfl, rfl, rfl⟩
      · rw [dirJson]
        rfl

theorem dir_json_lists_files (dir : DirStats Binary64) :
    (dirJson dir).ListsFiles (dir.allFiles.map fileJson) := by
  induction dir using DirStats.induction with
  | node path files directories ih =>
      have below : List.Forall₂ Json.ListsFiles (dirsJson directories)
          (directories.map fun dir => dir.allFiles.map fileJson) := by
        rw [dirs_json_eq_map, List.forall₂_map_left_iff, List.forall₂_map_right_iff,
          List.forall₂_same]
        exact ih
      rw [DirStats.allFiles, DirStats.all_files_in_eq_flat_map, List.map_append, List.map_flatMap,
        List.flatMap]
      apply Json.ListsFiles.node _ _ _ _ ?_ ?_ below
      · rw [dirJson]
        rfl
      · rw [dirJson]
        rfl

end Report

namespace Stats

/-! ### Edits -/

variable {α : Type}

inductive Edit (α : Type) where
  | addFile (file : FileStats α)
  | removeFile (index : Nat)
  | addDirectory (dir : DirStats α)
  | removeDirectory (index : Nat)
  | sortBySize

namespace Edit

variable [Count α]

def apply : Edit α → DirStats α → DirStats α
  | addFile file => DirStats.addFile file
  | removeFile index => DirStats.removeFile index
  | addDirectory dir => DirStats.addDirectory dir
  | removeDirectory index => DirStats.removeDirectory index
  | sortBySize => DirStats.sortBySize

def brought : Edit α → List (FileStats α)
  | addFile file => [file]
  | addDirectory dir => dir.allFiles
  | removeFile _ | removeDirectory _ | sortBySize => []

end Edit

theorem DirStats.all_files_in_modify {change : DirStats α → DirStats α} {more : List (FileStats α)}
    (step : ∀ dir, (change dir).allFiles.Subperm (dir.allFiles ++ more))
    (directories : List (DirStats α)) (index : Nat) :
    (allFilesIn (directories.modify index change)).Subperm (allFilesIn directories ++ more) := by
  -- The files in front of the directory that changes stay in front.
  induction directories generalizing index with
  | nil =>
      rw [List.modify_nil]
      exact List.nil_subperm
  | cons dir rest ih =>
      cases index with
      | zero =>
          have moved : (dir.allFiles ++ more ++ allFilesIn rest).Perm
              (dir.allFiles ++ allFilesIn rest ++ more) := by
            rw [List.append_assoc, List.append_assoc]
            exact List.perm_append_comm.append_left _
          rw [List.modify_zero_cons, allFilesIn, allFilesIn]
          exact ((List.subperm_append_right _).mpr (step dir)).trans moved.subperm
      | succ index =>
          rw [List.modify_succ_cons, allFilesIn, allFilesIn, List.append_assoc,
            List.subperm_append_left]
          exact ih index

variable [Count α]

/-- A tree after some steps, each taken at the directory at a place. -/
def DirStats.edited (edits : List (List Nat × Edit α)) (tree : DirStats α) : DirStats α :=
  edits.foldl (fun tree edit => DirStats.modifyAt edit.2.apply edit.1 tree) tree

def broughtBy (edits : List (List Nat × Edit α)) : List (FileStats α) :=
  edits.flatMap fun edit => edit.2.brought

namespace DirStats

theorem all_files_apply (edit : Edit α) (dir : DirStats α) :
    (edit.apply dir).allFiles.Subperm (dir.allFiles ++ edit.brought) := by
  cases dir with
  | mk path files directories =>
      cases edit with
      | addFile file =>
          change ((files ++ [file]) ++ allFilesIn directories).Subperm
            (files ++ allFilesIn directories ++ [file])
          rw [List.append_assoc, List.append_assoc, List.subperm_append_left]
          exact List.perm_append_comm.subperm
      | removeFile index =>
          change (files.eraseIdx index ++ allFilesIn directories).Subperm
            (files ++ allFilesIn directories ++ [])
          rw [List.append_nil]
          exact ((List.eraseIdx_sublist files index).append_right _).subperm
      | addDirectory dir =>
          change (files ++ allFilesIn (directories ++ [dir])).Subperm
            (files ++ allFilesIn directories ++ dir.allFiles)
          rw [all_files_in_eq_flat_map, List.flatMap_append, List.flatMap_singleton,
            ← all_files_in_eq_flat_map, List.append_assoc]
      | removeDirectory index =>
          change (files ++ allFilesIn (directories.eraseIdx index)).Subperm
            (files ++ allFilesIn directories ++ [])
          rw [List.append_nil, all_files_in_eq_flat_map, all_files_in_eq_flat_map]
          exact (((List.eraseIdx_sublist directories index).flatMap allFiles).append_left _).subperm
      | sortBySize =>
          change (sortBySize (mk path files directories)).allFiles.Subperm
            ((mk path files directories).allFiles ++ [])
          rw [List.append_nil]
          exact (all_files_sort_by_size_perm _).subperm

/-- One step, wherever it is taken, leaves only files that were there or are brought. -/
theorem all_files_modify_at (edit : Edit α) (place : List Nat) (dir : DirStats α) :
    (modifyAt edit.apply place dir).allFiles.Subperm (dir.allFiles ++ edit.brought) := by
  induction place generalizing dir with
  | nil =>
      rw [modifyAt]
      exact all_files_apply edit dir
  | cons index rest ih =>
      cases dir with
      | mk path files directories =>
          rw [modifyAt, allFiles, allFiles, List.append_assoc, List.subperm_append_left]
          exact all_files_in_modify ih directories index

theorem all_files_edited (edits : List (List Nat × Edit α)) (tree : DirStats α) :
    (tree.edited edits).allFiles.Subperm (tree.allFiles ++ broughtBy edits) := by
  induction edits generalizing tree with
  | nil =>
      rw [broughtBy, List.flatMap_nil, List.append_nil]
      rfl
  | cons edit rest ih =>
      have step := all_files_modify_at edit.2 edit.1 tree
      have run := ih (modifyAt edit.2.apply edit.1 tree)
      rw [broughtBy, List.flatMap_cons, ← List.append_assoc]
      exact run.trans ((List.subperm_append_right _).mpr step)

end DirStats

/-! ### Agreement -/

/-- Whether files have less than 2^53 lines together. -/
def WithinBounds (files : List (FileStats Binary64)) : Prop :=
  ∃ n, AddUpTo (files.map (·.total)) n ∧ n < 2 ^ 53

theorem WithinBounds.of_subperm {files fewer : List (FileStats Binary64)}
    (within : WithinBounds files) (among : fewer.Subperm files) : WithinBounds fewer := by
  obtain ⟨n, added, small⟩ := within
  obtain ⟨ordered, perm, kept⟩ := among
  obtain ⟨m, fewerAdded, le⟩ := added.of_subperm ⟨_, perm.map _, kept.map _⟩
  exact ⟨m, fewerAdded, le.trans_lt small⟩

namespace DirStats

/-- Whether a total is the sum of a figure over all files of a tree, with nothing rounded away. -/
def Totals (dir : DirStats Binary64) (figure : FileStats Binary64 → Binary64)
    (total : Binary64) : Prop :=
  ∃ n, AddUpTo (dir.allFiles.map figure) n ∧ n < 2 ^ 53 ∧ total = Binary64.ofNat n

/-- Whether a node and the report on it agree with the files that the node holds. -/
structure AgreesWithFiles (dir : DirStats Binary64) : Prop where
  files : dir.fileCount = dir.allFiles.length
  lines : dir.Totals (·.total) dir.totalLines
  code : dir.Totals (·.code) dir.codeLines
  comments : dir.Totals (·.comment) dir.commentLines
  blank : dir.Totals (·.blank) dir.blankLines
  kinds : dir.codeLines + dir.commentLines + dir.blankLines = dir.totalLines
  figures : (Report.dirJson dir).GivesTree dir
  entries : (Report.dirJson dir).ListsFiles (dir.allFiles.map Report.fileJson)

theorem agrees_with_files {dir : DirStats Binary64} (made : ∀ file ∈ dir.allFiles, file.IsMade)
    (within : WithinBounds dir.allFiles) : dir.AgreesWithFiles := by
  obtain ⟨n, added, small⟩ := within
  obtain ⟨code, comments, blank, codeAdded, commentsAdded, blankAdded, kinds⟩ :=
    kinds_add_up made added small
  have codeSum := sum_of_add_up codeAdded (by omega)
  have commentSum := sum_of_add_up commentsAdded (by omega)
  have blankSum := sum_of_add_up blankAdded (by omega)
  have lineSum := sum_of_add_up added small
  refine ⟨file_count_eq_length dir, ⟨n, added, small, lineSum⟩, ⟨code, codeAdded, by omega, codeSum⟩,
    ⟨comments, commentsAdded, by omega, commentSum⟩, ⟨blank, blankAdded, by omega, blankSum⟩, ?_,
    Report.dir_json_gives_tree dir, Report.dir_json_lists_files dir⟩
  have visible : dir.codeLines + dir.commentLines = Binary64.ofNat (code + comments) := by
    rw [codeLines, commentLines, codeSum, commentSum]
    exact Stats.add_counts (by omega)
  have all : Binary64.ofNat (code + comments) + dir.blankLines = Binary64.ofNat n := by
    rw [blankLines, blankSum, ← kinds]
    exact Stats.add_counts (by omega)
  rw [visible, all, totalLines, lineSum]

/-- However a tree of made files is edited, every node of it agrees with the files that it holds, as
long as the files that have ever been given, or at least those that are left, are within bounds. -/
theorem edited_nodes_agree_with_files (edits : List (List Nat × Edit Binary64))
    (tree : DirStats Binary64) (made : ∀ file ∈ tree.allFiles ++ broughtBy edits, file.IsMade)
    (within : WithinBounds (tree.allFiles ++ broughtBy edits) ∨
      WithinBounds (tree.edited edits).allFiles) :
    ∀ node ∈ (tree.edited edits).nodes, node.AgreesWithFiles := by
  intro node among
  have kept := all_files_edited edits tree
  have held := all_files_of_node among
  have leftWithin : WithinBounds (tree.edited edits).allFiles := by
    rcases within with given | left
    · exact given.of_subperm kept
    · exact left
  apply agrees_with_files
  · intro file inNode
    exact made file (kept.subset (held.subset inNode))
  · exact leftWithin.of_subperm held.subperm

/-! ### A small tree -/

def unevenFile : FileStats Binary64 :=
  .ofFigures "/p/uneven.py" "Python" (.ofNat 7) (.finite false 5 (-1)) (.infinite false) none

def emptyFile : FileStats Binary64 := .ofFigures "/p/empty.py" "Python" .nan .nan .nan none

def evenFile : FileStats Binary64 :=
  .ofFigures "/p/sub/even.py" "Python" (.ofNat 30) (.ofNat 4) (.ofNat 6) none

def smallTree : DirStats Binary64 := mk "/p" [emptyFile] [mk "/p/sub" [evenFile] []]

def smallEdits : List (List Nat × Edit Binary64) := [
  ([0], .addFile unevenFile), ([], .addDirectory (mk "/p/more" [evenFile] [])), ([], .sortBySize),
  ([0], .removeFile 0), ([], .removeDirectory 1)]

/-- The files need not fit together: one has two and a half blank lines, and comments without end. -/
theorem small_tree_agrees_after_edits :
    (∀ file ∈ smallTree.allFiles ++ broughtBy smallEdits, file.IsMade) ∧
      WithinBounds (smallTree.allFiles ++ broughtBy smallEdits) ∧
      ∀ node ∈ (smallTree.edited smallEdits).nodes, node.AgreesWithFiles := by
  have made : ∀ file ∈ smallTree.allFiles ++ broughtBy smallEdits, file.IsMade := by
    have given : smallTree.allFiles ++ broughtBy smallEdits =
        [emptyFile, evenFile, unevenFile, evenFile] := rfl
    rw [given]
    intro file among
    simp only [List.mem_cons, List.not_mem_nil, or_false] at among
    rcases among with rfl | rfl | rfl | rfl <;> exact ⟨_, _, _, _, _, _, rfl⟩
  have within : WithinBounds (smallTree.allFiles ++ broughtBy smallEdits) :=
    ⟨67, ⟨[0, 30, 7, 30], by decide +kernel, by decide⟩, by decide⟩
  exact ⟨made, within, edited_nodes_agree_with_files smallEdits smallTree made (.inl within)⟩

end DirStats

end Stats

end LineCensus
