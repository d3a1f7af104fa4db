import LineCensus.Stats.Directory
import Mathlib

/-!
The nodes of a directory tree, and which of them holds which file. The figures that a tree gives are
read off its nodes in order. Sorting files by size keeps the nodes where they are and changes only
the order of the files in each of them.
-/

namespace LineCensus.Stats.DirStats

set_option autoImplicit false

variable {α : Type}

/-- Induction over a directory and all directories in it. -/
theorem induction {motive : DirStats α → Prop}
    (node : ∀ path files directories, (∀ dir ∈ directories, motive dir) →
      motive (mk path files directories)) : ∀ dir, motive dir
  | mk path files directories =>
      node path files directories fun dir member =>
        have smaller : sizeOf dir < sizeOf (mk path files directories) := by
          have inList := List.sizeOf_lt_of_mem member
          rw [mk.sizeOf_spec]
          omega
        induction node dir
termination_by dir => sizeOf dir

mutual

def nodes : DirStats α → List (DirStats α)
  | mk path files directories => mk path files directories :: nodesIn directories

def nodesIn : List (DirStats α) → List (DirStats α)
  | [] => []
  | dir :: rest => dir.nodes ++ nodesIn rest

end

/-- The files of a tree, each with the path of the node that holds it. -/
def holdings (dir : DirStats α) : List (String × FileStats α) :=
  dir.nodes.flatMap fun node => node.files.map (node.path, ·)

def paths (dir : DirStats α) : List String :=
  dir.nodes.map path ++ dir.allFiles.map (·.path)

/-! ### Lists of directories -/

theorem nodes_in_eq_flat_map (directories : List (DirStats α)) :
    nodesIn directories = directories.flatMap nodes := by
  induction directories with
  | nil => rfl
  | cons dir rest ih => rw [nodesIn, ih, List.flatMap_cons]

theorem all_files_in_eq_flat_map (directories : List (DirStats α)) :
    allFilesIn directories = directories.flatMap allFiles := by
  induction directories with
  | nil => rfl
  | cons dir rest ih => rw [allFilesIn, ih, List.flatMap_cons]

theorem file_count_in_eq_sum (directories : List (DirStats α)) :
    fileCountIn directories = (directories.map fileCount).sum := by
  induction directories with
  | nil => rfl
  | cons dir rest ih => rw [fileCountIn, ih, List.map_cons, List.sum_cons]

/-! ### Files and nodes -/

/-- A node is made up of its path, its files and the directories in it. -/
theorem eq_of_parts {left right : DirStats α} (paths : left.path = right.path)
    (files : left.files = right.files) (directories : left.directories = right.directories) :
    left = right := by
  cases left
  cases right
  simp only [path, DirStats.files, DirStats.directories] at paths files directories
  rw [paths, files, directories]

theorem mem_nodes_iff (node dir : DirStats α) :
    node ∈ dir.nodes ↔ node = dir ∨ ∃ inner ∈ dir.directories, node ∈ inner.nodes := by
  cases dir with
  | mk path files directories =>
      rw [nodes, List.mem_cons, nodes_in_eq_flat_map, List.mem_flatMap]
      rfl

theorem all_files_eq_flat_map_nodes (dir : DirStats α) : dir.allFiles = dir.nodes.flatMap files := by
  induction dir using induction with
  | node path files directories ih =>
      rw [allFiles, nodes, List.flatMap_cons, all_files_in_eq_flat_map, nodes_in_eq_flat_map,
        List.flatMap_assoc]
      congr 1
      exact List.flatMap_congr ih

theorem all_files_of_node {node dir : DirStats α} (among : node ∈ dir.nodes) :
    node.allFiles.Sublist dir.allFiles := by
  induction dir using induction with
  | node path files directories ih =>
      rw [mem_nodes_iff] at among
      rcases among with rfl | ⟨inner, listed, within⟩
      · exact List.Sublist.refl _
      · rw [allFiles, all_files_in_eq_flat_map]
        have inside : inner.allFiles.Sublist (directories.flatMap allFiles) :=
          List.sublist_flatten_of_mem (List.mem_map_of_mem listed)
        exact ((ih inner listed within).trans inside).trans (List.sublist_append_right _ _)

theorem file_count_eq_length (dir : DirStats α) : dir.fileCount = dir.allFiles.length := by
  induction dir using induction with
  | node path files directories ih =>
      rw [fileCount, allFiles, List.length_append, all_files_in_eq_flat_map, file_count_in_eq_sum,
        List.length_flatMap, List.map_congr_left ih]

theorem holdings_mk (path : String) (files : List (FileStats α)) (directories : List (DirStats α)) :
    (mk path files directories).holdings =
      files.map (path, ·) ++ directories.flatMap holdings := by
  rw [holdings, nodes, List.flatMap_cons, nodes_in_eq_flat_map, List.flatMap_assoc]
  rfl

theorem map_snd_holdings (dir : DirStats α) : dir.holdings.map Prod.snd = dir.allFiles := by
  rw [all_files_eq_flat_map_nodes, holdings, List.map_flatMap]
  simp [Function.comp_def]

theorem holdings_eq_nil_iff (dir : DirStats α) : dir.holdings = [] ↔ dir.fileCount = 0 := by
  rw [file_count_eq_length, ← map_snd_holdings, List.length_map, List.length_eq_zero_iff]

theorem paths_mk_perm (path : String) (files : List (FileStats α))
    (directories : List (DirStats α)) :
    (mk path files directories).paths.Perm
      (path :: (files.map (·.path) ++ directories.flatMap paths)) := by
  have below : (directories.flatMap fun dir => dir.nodes.map DirStats.path ++
      dir.allFiles.map (·.path)).Perm
      (directories.flatMap (fun dir => dir.nodes.map DirStats.path) ++
        directories.flatMap fun dir => dir.allFiles.map (·.path)) :=
    (List.flatMap_append_perm directories _ _).symm
  rw [paths, nodes, allFiles, nodes_in_eq_flat_map, all_files_in_eq_flat_map, List.map_cons,
    List.map_append, List.map_flatMap, List.map_flatMap, List.cons_append]
  apply List.Perm.cons
  refine (List.perm_append_comm_assoc _ _ _).trans ?_
  exact below.symm.append_left _

/-! ### Sorting -/

variable [Count α]

theorem by_size_perm (files : List (FileStats α)) : (bySize files).Perm files :=
  List.mergeSort_perm _ _

theorem sort_by_size_in_eq_map (directories : List (DirStats α)) :
    sortBySizeIn directories = directories.map sortBySize := by
  induction directories with
  | nil => rfl
  | cons dir rest ih => rw [sortBySizeIn, ih, List.map_cons]

theorem path_sort_by_size (dir : DirStats α) : dir.sortBySize.path = dir.path := by
  cases dir
  rfl

theorem files_sort_by_size (dir : DirStats α) : dir.sortBySize.files = bySize dir.files := by
  cases dir
  rfl

theorem directories_sort_by_size (dir : DirStats α) :
    dir.sortBySize.directories = dir.directories.map sortBySize := by
  cases dir
  rw [sortBySize, sort_by_size_in_eq_map]
  rfl

theorem nodes_sort_by_size (dir : DirStats α) :
    dir.sortBySize.nodes = dir.nodes.map sortBySize := by
  induction dir using induction with
  | node path files directories ih =>
      rw [sortBySize, nodes, nodes, List.map_cons, sortBySize, sort_by_size_in_eq_map,
        nodes_in_eq_flat_map, nodes_in_eq_flat_map, List.flatMap_map, List.map_flatMap]
      congr 1
      exact List.flatMap_congr ih

theorem nodes_in_sort_by_size (dir : DirStats α) :
    nodesIn dir.sortBySize.directories = (nodesIn dir.directories).map sortBySize := by
  cases dir with
  | mk path files directories =>
      exact congrArg List.tail (nodes_sort_by_size (mk path files directories))

/-- Sorting moves no file to another node. -/
theorem holdings_sort_by_size_perm (dir : DirStats α) :
    dir.sortBySize.holdings.Perm dir.holdings := by
  rw [holdings, nodes_sort_by_size, List.flatMap_map]
  apply List.Perm.flatMap_left
  intro node _
  rw [path_sort_by_size, files_sort_by_size]
  exact (by_size_perm node.files).map _

theorem all_files_sort_by_size_perm (dir : DirStats α) :
    dir.sortBySize.allFiles.Perm dir.allFiles := by
  rw [← map_snd_holdings, ← map_snd_holdings]
  exact (holdings_sort_by_size_perm dir).map Prod.snd

theorem file_count_sort_by_size (dir : DirStats α) : dir.sortBySize.fileCount = dir.fileCount := by
  rw [file_count_eq_length, file_count_eq_length]
  exact (all_files_sort_by_size_perm dir).length_eq

theorem paths_sort_by_size_perm (dir : DirStats α) : dir.sortBySize.paths.Perm dir.paths := by
  have nodePaths : dir.sortBySize.nodes.map path = dir.nodes.map path := by
    rw [nodes_sort_by_size, List.map_map]
    exact List.map_congr_left fun node _ => path_sort_by_size node
  rw [paths, paths, nodePaths]
  exact ((all_files_sort_by_size_perm dir).map _).append_left _

end LineCensus.Stats.DirStats
