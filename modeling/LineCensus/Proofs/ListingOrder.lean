import LineCensus.Proofs.Restriction
import LineCensus.Proofs.Subprojects

/-!
The order in which directories are listed. Names are distinct in each directory, so there is one order
by name, and a walk puts every listing into it before anything else. A scan therefore neither finds
nor says anything that depends on the order of a listing; and as sorting by size keeps files of one
size where they were, its tree is ordered by name wherever sizes do not decide.
-/

namespace LineCensus

set_option autoImplicit false

open Stats (FileStats DirStats)

/-! ### Directory readers -/

/-- A way of listing directories: the entries of the directory at a path in some order. -/
structure DirectoryReader where
  list : String → List (String × Item) → List (String × Item)
  same_entries : ∀ path items, (list path items).Perm items

namespace DirectoryReader

variable (reader : DirectoryReader)

mutual

/-- What stands at a path, with all directories in it listed by a reader. -/
def shown (path : String) : Item → Item
  | .file bytes => .file bytes
  | .link target => .link target
  | .directory items => .directory (reader.list path (shownAll path items))

def shownAll (directory : String) : List (String × Item) → List (String × Item)
  | [] => []
  | (name, item) :: rest =>
    (name, shown (Path.join directory name) item) :: shownAll directory rest

end

theorem shown_all_eq_map (directory : String) (items : List (String × Item)) :
    reader.shownAll directory items =
      items.map fun entry => (entry.1, reader.shown (Path.join directory entry.1) entry.2) := by
  induction items with
  | nil => rw [shownAll, List.map_nil]
  | cons entry rest ih => rw [shownAll, ih, List.map_cons]

/-- In the order of their names the entries are the same whoever lists them. -/
theorem by_name_listed (path : String) {items : List (String × Item)}
    (distinct : (items.map Prod.fst).Nodup) :
    byName (reader.list path (reader.shownAll path items)) =
      (byName items).map fun entry =>
        (entry.1, reader.shown (Path.join path entry.1) entry.2) := by
  rw [← by_name_map, ← shown_all_eq_map]
  have shownDistinct : ((reader.shownAll path items).map Prod.fst).Nodup := by
    rw [shown_all_eq_map, List.map_map]
    exact distinct
  apply by_name_eq_of_perm (by_name_increases shownDistinct)
  exact (by_name_perm _).trans (reader.same_entries path _).symm

end DirectoryReader

namespace Survey

def readBy (survey : Survey) (reader : DirectoryReader) : Survey :=
  { survey with status := fun path => (survey.status path).map (·.map (reader.shown path)) }

variable (survey : Survey) (reader : DirectoryReader)

/-! ### Walks by a reader -/

theorem visit_link_read_by (path name : String) :
    (survey.readBy reader).visitLink path name = survey.visitLink path name := by
  have reached : (survey.readBy reader).status path =
      (survey.status path).map (·.map (reader.shown path)) := rfl
  rw [visitLink, visitLink, reached]
  cases survey.status path with
  | error error => rfl
  | ok target =>
      cases target with
      | none => rfl
      | some item => cases item <;> rfl

/-- A visit finds the same whoever lists the directories, provided that a walk through the directory
that it leads to does. -/
theorem visit_read_by (path name : String) (item : Item)
    (below : ∀ items, item = .directory items →
      (survey.readBy reader).walk path (reader.list path (reader.shownAll path items)) =
        survey.walk path items) :
    (survey.readBy reader).visit path name (reader.shown path item) =
      survey.visit path name item := by
  cases item with
  | file bytes => rw [DirectoryReader.shown, visit, visit]; rfl
  | link target =>
      rw [DirectoryReader.shown, visit, visit]
      exact survey.visit_link_read_by reader path name
  | directory items =>
      rw [DirectoryReader.shown, visit_directory, visit_directory, below items rfl]
      rfl

/-- A walk gives the same whoever lists the directories. The induction is on the directory, for each
path under which it may be walked. -/
theorem walk_read_by (items : List (String × Item)) (named : (Item.directory items).WellNamed)
    (path : String) :
    (survey.readBy reader).walk path (reader.list path (reader.shownAll path items)) =
      survey.walk path items := by
  induction items using Item.directory_induction generalizing path with
  | step items ih =>
      cases refused : survey.refusal path with
      | some failure =>
          have alsoRefused : (survey.readBy reader).refusal path = some failure := refused
          rw [walk, walk, refused, alsoRefused]
          rfl
      | none =>
          have same : (survey.readBy reader).findings path
              (reader.list path (reader.shownAll path items)) = survey.findings path items := by
            rw [findings, findings, reader.by_name_listed path named.distinct, List.map_map]
            congr 1
            apply List.map_congr_left
            rintro ⟨name, item⟩ inOrder
            have member := mem_by_name.mp inOrder
            apply survey.visit_read_by reader
            intro inner isDirectory
            subst isDirectory
            exact ih name inner member (named.inside member) _
          rw [walk_in_order survey path items refused,
            walk_in_order (survey.readBy reader) path _ refused, same]

theorem scan_read_by (store : Store) (storeNamed : store.top.WellNamed)
    (follows : survey.status = store.status "/") (root : String) :
    (survey.readBy reader).scan root = survey.scan root := by
  have reached : (survey.readBy reader).status root =
      (survey.status root).map (·.map (reader.shown root)) := rfl
  rw [scan, scan, rootItems, rootItems, reached]
  cases found : survey.status root with
  | error error => rfl
  | ok target =>
      cases target with
      | none => rfl
      | some item =>
          cases item with
          | file bytes => rfl
          | link target => rfl
          | directory items =>
              have named : (Item.directory items).WellNamed := by
                rw [follows] at found
                exact Store.find_well_named storeNamed (Store.find_of_status found)
              have walked := survey.walk_read_by reader items named root
              simp only [Except.map, Option.map, DirectoryReader.shown, walked]

end Survey

/-! ### Order in a tree -/

namespace Stats.DirStats

/-- Whether the files and the directories of a node stand in the order of their names. -/
structure ByName (node : DirStats Nat) : Prop where
  files : node.files.Pairwise fun a b => Text.units a.name < Text.units b.name
  directories : node.directories.Pairwise fun a b => Text.units a.name < Text.units b.name

/-- Whether the files of a node stand in the order of their sizes, those of one size and the
directories in the order of their names. -/
structure BySize (node : DirStats Nat) : Prop where
  files : node.files.Pairwise fun a b =>
    b.total < a.total ∨ a.total = b.total ∧ Text.units a.name < Text.units b.name
  directories : node.directories.Pairwise fun a b => Text.units a.name < Text.units b.name

theorem name_sort_by_size (dir : DirStats Nat) : dir.sortBySize.name = dir.name := by
  rw [name, name, path_sort_by_size]

theorem ByName.sorted {node : DirStats Nat} (ordered : node.ByName) : node.sortBySize.BySize where
  files := by
    rw [files_sort_by_size]
    exact by_size_stable ordered.files
  directories := by
    cases node with
    | mk path files directories =>
        rw [sortBySize, sort_by_size_in_eq_map]
        apply List.pairwise_map.mpr
        simp only [name_sort_by_size]
        exact ordered.directories

end Stats.DirStats

namespace Survey

variable {survey : Survey}

theorem visit_file_files (path name : String) :
    (survey.visitFile path name).files = [] ∨
      ∃ method file, survey.analyze method path = .ok file ∧
        (survey.visitFile path name).files = [file] := by
  cases chosen : survey.methodFor name with
  | none => exact .inl (by rw [visit_file_passed_over chosen]; rfl)
  | some method =>
      cases analyzed : survey.analyze method path with
      | error failure => exact .inl (by rw [visit_file_failed chosen analyzed]; rfl)
      | ok file => exact .inr ⟨method, file, analyzed, by rw [visit_file_analyzed chosen analyzed]⟩

/-- A visit finds one file at most, which is at the path of the visit. -/
theorem visit_files (path name : String) (item : Item) :
    (survey.visit path name item).files = [] ∨
      ∃ method file, survey.analyze method path = .ok file ∧
        (survey.visit path name item).files = [file] := by
  cases item with
  | file bytes =>
      rw [visit]
      exact visit_file_files path name
  | link target =>
      rw [visit]
      rcases survey.visit_link_eq path name with ⟨_, same⟩ | ⟨_, log, same⟩
      · rw [same]
        exact visit_file_files path name
      · exact .inl (by rw [same]; rfl)
  | directory items =>
      left
      rw [visit_directory]
      split <;> rfl

/-- A visit finds one directory at most, which is at the path of the visit. -/
theorem visit_one_directory (path name : String) (item : Item) :
    (survey.visit path name item).directories = [] ∨
      ∃ dir, dir.path = path ∧ (survey.visit path name item).directories = [dir] := by
  cases item with
  | file bytes => exact .inl (by rw [visit, visit_file_directories])
  | link target =>
      rw [visit]
      rcases survey.visit_link_eq path name with ⟨_, same⟩ | ⟨_, log, same⟩
      · exact .inl (by rw [same, visit_file_directories])
      · exact .inl (by rw [same]; rfl)
  | directory items =>
      rw [visit_directory]
      split
      · exact .inl rfl
      · rw [keep]
        by_cases filled : 0 < (survey.walk path items).2.fileCount
        · exact .inr ⟨_, survey.path_of_walk path items, if_pos filled⟩
        · exact .inl (if_neg filled)

/-- Places that are visited in the order of their names give what they have in this order, if each has
one thing at most and that bears the name of the place. -/
theorem flat_map_by_name {α β : Type} {entries : List (String × α)} (increasing : NamesIncrease entries)
    (given : String × α → List β) (nameOf : β → String)
    (one : ∀ entry ∈ entries, given entry = [] ∨
      ∃ thing, nameOf thing = entry.1 ∧ given entry = [thing]) :
    (entries.flatMap given).Pairwise fun a b => Text.units (nameOf a) < Text.units (nameOf b) := by
  have alone : ∀ entry ∈ entries, ∀ thing ∈ given entry, nameOf thing = entry.1 := by
    intro entry member thing inGiven
    rcases one entry member with none_ | ⟨other, named, only⟩
    · rw [none_] at inGiven
      cases inGiven
    · rw [only, List.mem_singleton] at inGiven
      rw [inGiven, named]
  rw [List.pairwise_flatMap]
  constructor
  · intro entry member
    rcases one entry member with none_ | ⟨other, named, only⟩
    · rw [none_]
      exact .nil
    · rw [only]
      exact List.pairwise_singleton _ _
  · apply increasing.imp_of_mem
    intro left right inLeft inRight before a fromLeft b fromRight
    rw [alone left inLeft a fromLeft, alone right inRight b fromRight]
    exact (Text.is_before_iff _ _).mp before

theorem name_of_directory {names : List String} {name : String} (plain : Path.IsPlain name.toList)
    {dir : DirStats Nat} (there : dir.path = Path.absolute (names ++ [name])) : dir.name = name := by
  have filled : name.isEmpty = false := by
    rw [Bool.eq_false_iff, ne_eq, String.isEmpty_iff]
    intro empty
    exact plain.1 (by rw [empty]; rfl)
  simp only [DirStats.name, there, Path.base_absolute names name plain, filled]
  rfl

theorem findings_files (path : String) (items : List (String × Item)) :
    (survey.findings path items).files = (byName items).flatMap fun entry =>
      (survey.visit (Path.join path entry.1) entry.1 entry.2).files := by
  simp only [findings, Found.gather, List.flatMap_map]

theorem findings_directories (path : String) (items : List (String × Item)) :
    (survey.findings path items).directories = (byName items).flatMap fun entry =>
      (survey.visit (Path.join path entry.1) entry.1 entry.2).directories := by
  simp only [findings, Found.gather, List.flatMap_map]

section

variable (keeps : ∀ method path file, survey.analyze method path = .ok file → file.path = path)

include keeps

/-- The node of a directory has its files and directories in the order of their names. -/
theorem walk_node_by_name {items : List (String × Item)} (named : (Item.directory items).WellNamed)
    {names : List String} (plain : ∀ name ∈ names, Path.IsPlain name.toList) :
    (survey.walk (Path.absolute names) items).2.ByName := by
  cases refused : survey.refusal (Path.absolute names) with
  | some failure =>
      rw [walk, refused]
      exact ⟨.nil, .nil⟩
  | none =>
      have increasing := by_name_increases named.distinct
      have joined {entry : String × Item} (inOrder : entry ∈ byName items) :
          Path.IsPlain entry.1.toList ∧
            Path.join (Path.absolute names) entry.1 = Path.absolute (names ++ [entry.1]) := by
        have namePlain := named.plain (mem_by_name.mp inOrder)
        exact ⟨namePlain, Path.join_absolute names entry.1 plain namePlain⟩
      rw [walk_in_order survey _ items refused, findings_files, findings_directories]
      constructor
      · apply flat_map_by_name increasing
        intro entry inOrder
        obtain ⟨namePlain, path⟩ := joined inOrder
        rw [path]
        rcases survey.visit_files _ entry.1 entry.2 with none_ | ⟨method, file, analyzed, only⟩
        · exact .inl none_
        · refine .inr ⟨file, ?_, only⟩
          rw [FileStats.name, keeps method _ file analyzed, Path.base_absolute _ _ namePlain]
      · apply flat_map_by_name increasing
        intro entry inOrder
        obtain ⟨namePlain, path⟩ := joined inOrder
        rw [path]
        rcases survey.visit_one_directory _ entry.1 entry.2 with none_ | ⟨dir, there, only⟩
        · exact .inl none_
        · exact .inr ⟨dir, name_of_directory namePlain there, only⟩

/-- So do all nodes below it. The induction is on the directory, for each place at which it may be. -/
theorem walk_by_name (items : List (String × Item)) (named : (Item.directory items).WellNamed)
    (names : List String) (plain : ∀ name ∈ names, Path.IsPlain name.toList) :
    ∀ node ∈ (survey.walk (Path.absolute names) items).2.nodes, node.ByName := by
  induction items using Item.directory_induction generalizing names with
  | step items ih =>
      intro node member
      rcases (DirStats.mem_nodes_iff _ _).mp member with rfl | ⟨dir, held, inside⟩
      · exact walk_node_by_name keeps named plain
      cases refused : survey.refusal (Path.absolute names) with
      | some failure =>
          rw [walk, refused] at held
          cases held
      | none =>
          obtain ⟨name, inner, entry, _, rfl, _⟩ := (survey.mem_walk_directories refused dir).mp held
          have namePlain := named.plain entry
          rw [Path.join_absolute names name plain namePlain] at inside
          exact ih name inner entry (named.inside entry) (names ++ [name])
            (Path.plain_concat plain namePlain) node inside

/-- In the tree of a scan, whoever lists the directories, all nodes are ordered by size. -/
theorem scan_read_by_size (store : Store) (storeNamed : store.top.WellNamed)
    (follows : survey.status = store.status "/") (reader : DirectoryReader)
    {names : List String} (plain : ∀ name ∈ names, Path.IsPlain name.toList)
    {items : List (String × Item)}
    (resolved : store.find "/" (Path.absolute names) = .ok (.directory items)) :
    ∃ log tree, (survey.readBy reader).scan (Path.absolute names) = .ok (log, tree) ∧
      ∀ node ∈ tree.nodes, node.BySize := by
  have rooted : rootItems survey.status (Path.absolute names) = .ok items := by
    rw [follows]
    exact root_items_of_status _ _ items (Store.status_of_find resolved)
  have ordered := walk_by_name keeps items (Store.find_well_named storeNamed resolved) names plain
  refine ⟨_, _, (survey.scan_read_by reader store storeNamed follows _).trans
    (survey.scan_of_root_items _ items rooted), ?_⟩
  intro node member
  rw [DirStats.nodes_sort_by_size] at member
  obtain ⟨before, inside, rfl⟩ := List.mem_map.mp member
  exact (ordered before inside).sorted

end

/-! ### Scans -/

/-- However directories are listed, a scan gives the same tree, or the same failure, and the same
messages in the same order. In the tree of a directory every node has its files by size, those of one
size by name, and its directories by name. -/
theorem scan_ignores_listing_order (store : Store) (storeNamed : store.top.WellNamed)
    (registry : Language.Registry) (extensions ignored : List String) (logger : Logger)
    (analyze : Method → String → Except Failure (FileStats Nat))
    (keeps : ∀ method path file, analyze method path = .ok file → file.path = path)
    (refusal : String → Option Failure) (first second : DirectoryReader) (directory path : String) :
    let survey : Survey :=
      { Survey.ofStore store registry extensions ignored logger with analyze, refusal }
    let root := Path.resolve directory path
    (survey.readBy first).scan root = (survey.readBy second).scan root ∧
    ∀ items, store.find "/" root = .ok (.directory items) →
      ∃ log tree, (survey.readBy first).scan root = .ok (log, tree) ∧
        ∀ node ∈ tree.nodes, node.BySize := by
  obtain ⟨names, plain, rootPath⟩ := Path.resolve_eq_absolute directory path
  rw [rootPath]
  constructor
  · exact (scan_read_by _ first store storeNamed rfl _).trans
      (scan_read_by _ second store storeNamed rfl _).symm
  · intro items resolved
    exact scan_read_by_size keeps store storeNamed rfl first plain resolved

/-! ### A shelf -/

def shelf : List (String × Item) := [
  ("b.md", .file []), ("long.md", .file [65, 10, 66]), ("a.md", .file []),
  ("src", .directory [("c.md", .file [])])]

def shelfStore : Store := ⟨[("work", .directory shelf)]⟩

theorem shelf_store_well_named : shelfStore.top.WellNamed := by
  simp only [Store.top, shelfStore, shelf, Item.WellNamed, Item.AllWellNamed]
  decide

def asKept : DirectoryReader where
  list _ items := items
  same_entries _ _ := .refl _

def fromTheEnd : DirectoryReader where
  list _ items := items.reverse
  same_entries _ _ := List.reverse_perm _

theorem shelf_read_from_both_ends :
    shelfStore.top.WellNamed ∧
    shelfStore.find "/" (Path.resolve "/" "work") = .ok (.directory shelf) ∧
    let analyze : Method → String → Except Failure (FileStats Nat) := fun method path =>
      .ok (method.analyze Language.builtinRegistry path (shelfStore.readSource "/" path).1)
    let survey : Survey := { Survey.ofStore shelfStore Language.builtinRegistry [] []
      (.standard .plain) with analyze, refusal := fun _ => none }
    let root := Path.resolve "/" "work"
    (survey.readBy asKept).scan root = (survey.readBy fromTheEnd).scan root ∧
    ∃ log tree, (survey.readBy asKept).scan root = .ok (log, tree) ∧
      ∀ node ∈ tree.nodes, node.BySize := by
  have resolved : shelfStore.find "/" (Path.resolve "/" "work") = .ok (.directory shelf) := by cbv
  have keeps : ∀ (method : Method) (path : String) (file : FileStats Nat),
      Except.ok (method.analyze Language.builtinRegistry path (shelfStore.readSource "/" path).1) =
        (.ok file : Except Failure _) → file.path = path := by
    intro method path file analyzed
    cases analyzed
    exact path_of_analyze method _ path _
  obtain ⟨same, ordered⟩ := scan_ignores_listing_order shelfStore shelf_store_well_named
    Language.builtinRegistry [] [] (.standard .plain) _ keeps (fun _ => none) asKept fromTheEnd
    "/" "work"
  exact ⟨shelf_store_well_named, resolved, same, ordered shelf resolved⟩

end Survey

end LineCensus
