import LineCensus.Proofs.Walk

/-!
Which files a scan counts. An entry is wanted if it is a visible file, or a link to one, of an allowed
extension that can be analyzed, and if only directories that are entered lead to it. A scan counts
every wanted entry once, in the node of the directory that the entry is in, and nothing else; below
the root no node is without files.
-/

namespace LineCensus

set_option autoImplicit false

open Stats (FileStats DirStats)

namespace Survey

/-- The path that leads from a directory through some names. -/
def pathBelow (root : String) (names : List String) : String := names.foldl Path.join root

/-- Whether the entry with a name, in the directory that `folders` lead to, is to be analyzed by a
method. Only directories can be among the folders, for no item is reached through a link. -/
structure Wants (survey : Survey) (root : String) (items : List (String × Item))
    (folders : List String) (name : String) (method : Method) : Prop where
  present : ∃ item, (Item.directory items).at? (folders ++ [name]) = some item ∧
    survey.LeadsToFile (pathBelow root (folders ++ [name])) item
  entered : ∀ folder ∈ folders, Ignore.skips survey.ignored folder = false
  visible : Ignore.isHidden name = false
  allowed : ∀ extensions, survey.extensions = some extensions →
    Language.extensionOf name ∈ extensions
  selected : Method.select survey.registry name = some method

/-! ### Wanted entries, one level at a time -/

variable {survey : Survey} {root : String} {items : List (String × Item)} {folders : List String}
  {name : String} {method : Method}

theorem wants_here_iff : survey.Wants root items [] name method ↔
    ∃ item, items.lookup name = some item ∧ survey.LeadsToFile (Path.join root name) item ∧
      survey.methodFor name = some method := by
  rw [method_for_eq_some_iff]
  constructor
  · intro wanted
    obtain ⟨item, found, leads⟩ := wanted.present
    obtain ⟨inner, looked, same⟩ := (Item.at_cons_iff items name [] item).mp found
    rw [Item.at?, Option.some.injEq] at same
    subst same
    exact ⟨inner, looked, leads, wanted.visible, wanted.allowed, wanted.selected⟩
  · rintro ⟨item, looked, leads, visible, allowed, selected⟩
    exact {
      present := ⟨item, (Item.at_cons_iff items name [] item).mpr ⟨item, looked, rfl⟩, leads⟩
      entered := by simp
      visible, allowed, selected }

theorem wants_below_iff (folder : String) :
    survey.Wants root items (folder :: folders) name method ↔
      ∃ inner, items.lookup folder = some (.directory inner) ∧
        Ignore.skips survey.ignored folder = false ∧
        survey.Wants (Path.join root folder) inner folders name method := by
  constructor
  · intro wanted
    obtain ⟨item, found, leads⟩ := wanted.present
    obtain ⟨next, looked, further⟩ := (Item.at_cons_iff items folder _ item).mp found
    cases next with
    | file bytes => cases folders <;> simp [Item.at?] at further
    | link target => cases folders <;> simp [Item.at?] at further
    | directory inner =>
        exact ⟨inner, looked, wanted.entered folder (by simp), {
          present := ⟨item, further, leads⟩
          entered := fun other member => wanted.entered other (List.mem_cons_of_mem folder member)
          visible := wanted.visible
          allowed := wanted.allowed
          selected := wanted.selected }⟩
  · rintro ⟨inner, looked, open_, wanted⟩
    obtain ⟨item, found, leads⟩ := wanted.present
    exact {
      present := ⟨item, (Item.at_cons_iff items folder _ item).mpr ⟨_, looked, found⟩, leads⟩
      entered := by simpa using ⟨open_, wanted.entered⟩
      visible := wanted.visible
      allowed := wanted.allowed
      selected := wanted.selected }

/-! ### What a walk holds -/

/-- Whether a file that is held under a path belongs to a wanted entry and stands in its place. -/
def Belongs (survey : Survey) (root : String) (items : List (String × Item))
    (held : String × FileStats Nat) : Prop :=
  ∃ folders name method, survey.Wants root items folders name method ∧
    held.1 = pathBelow root folders ∧
    survey.analyze method (pathBelow root (folders ++ [name])) = .ok held.2

theorem belongs_iff (held : String × FileStats Nat) :
    survey.Belongs root items held ↔
      ∃ name item, items.lookup name = some item ∧
        ((survey.LeadsToFile (Path.join root name) item ∧ ∃ method,
            survey.methodFor name = some method ∧ held.1 = root ∧
            survey.analyze method (Path.join root name) = .ok held.2) ∨
          ∃ inner, item = .directory inner ∧ Ignore.skips survey.ignored name = false ∧
            survey.Belongs (Path.join root name) inner held) := by
  constructor
  · rintro ⟨folders, name, method, wanted, holder, analyzed⟩
    cases folders with
    | nil =>
        obtain ⟨item, looked, leads, chosen⟩ := wants_here_iff.mp wanted
        exact ⟨name, item, looked, .inl ⟨leads, method, chosen, holder, analyzed⟩⟩
    | cons folder folders =>
        obtain ⟨inner, looked, entered, further⟩ := (wants_below_iff folder).mp wanted
        exact ⟨folder, _, looked,
          .inr ⟨inner, rfl, entered, folders, name, method, further, holder, analyzed⟩⟩
  · rintro ⟨name, item, looked, ⟨leads, method, chosen, holder, analyzed⟩ |
      ⟨inner, rfl, entered, folders, last, method, wanted, holder, analyzed⟩⟩
    · exact ⟨[], name, method, wants_here_iff.mpr ⟨item, looked, leads, chosen⟩, holder, analyzed⟩
    · exact ⟨name :: folders, last, method,
        (wants_below_iff name).mpr ⟨inner, looked, entered, wanted⟩, holder, analyzed⟩

/-- A walk holds exactly the files of wanted entries. The induction is on the directory, for each
path under which it may be walked. -/
theorem walk_holdings_iff (listed : ∀ path, survey.refusal path = none)
    (items : List (String × Item)) (named : (Item.directory items).WellNamed) (here : String)
    (held : String × FileStats Nat) :
    held ∈ (survey.walk here items).2.holdings ↔ survey.Belongs here items held := by
  induction items using Item.directory_induction generalizing here with
  | step items ih =>
      rw [walk_of_listed survey here items (listed here), (collect_holdings_perm here _).mem_iff,
        visit_all_eq_map, List.flatMap_map, List.mem_flatMap, belongs_iff]
      constructor
      · rintro ⟨⟨name, item⟩, member, found⟩
        have looked := (Item.lookup_eq_some_iff_mem named.distinct name item).mpr member
        refine ⟨name, item, looked, ?_⟩
        rcases (survey.visit_holdings here _ name item held).mp found with
          file | ⟨inner, rfl, entered, deeper⟩
        · exact .inl file
        · have below := ih name inner member (named.inside member) (Path.join here name)
          exact .inr ⟨inner, rfl, entered, below.mp deeper⟩
      · rintro ⟨name, item, looked, place⟩
        have member := (Item.lookup_eq_some_iff_mem named.distinct name item).mp looked
        refine ⟨(name, item), member, (survey.visit_holdings here _ name item held).mpr ?_⟩
        rcases place with file | ⟨inner, rfl, entered, deeper⟩
        · exact .inl file
        · have below := ih name inner member (named.inside member) (Path.join here name)
          exact .inr ⟨inner, rfl, entered, below.mpr deeper⟩

/-- Whatever cannot be listed, a walk holds nothing but files that were analyzed under directories that
are entered. -/
theorem walk_holds_analyzed (items : List (String × Item)) (here : String)
    {held : String × FileStats Nat} (inside : held ∈ (survey.walk here items).2.holdings) :
    ∃ folders name method, (∀ folder ∈ folders, Ignore.skips survey.ignored folder = false) ∧
      survey.methodFor name = some method ∧
      survey.analyze method (pathBelow here (folders ++ [name])) = .ok held.2 := by
  induction items using Item.directory_induction generalizing here with
  | step items ih =>
      cases refused : survey.refusal here with
      | some failure =>
          rw [walk, refused] at inside
          cases inside
      | none =>
          rw [walk_of_listed survey here items refused, (collect_holdings_perm here _).mem_iff,
            visit_all_eq_map, List.flatMap_map, List.mem_flatMap] at inside
          obtain ⟨⟨name, item⟩, member, found⟩ := inside
          rcases (survey.visit_holdings here _ name item held).mp found with
            ⟨_, method, chosen, _, analyzed⟩ | ⟨inner, rfl, entered, deeper⟩
          · exact ⟨[], name, method, by simp, chosen, analyzed⟩
          · obtain ⟨folders, last, method, open_, chosen, analyzed⟩ :=
              ih name inner member (Path.join here name) deeper
            exact ⟨name :: folders, last, method, by simpa using ⟨entered, open_⟩, chosen, analyzed⟩

/-! ### Paths in a tree -/

/-- Whether a path leads through the given names and perhaps further. -/
def LiesBelow (names : List String) (path : String) : Prop :=
  ∃ further : List String, (∀ name ∈ further, Path.IsPlain name.toList) ∧
    path = Path.absolute (names ++ further)

theorem path_below_absolute (names further : List String)
    (plain : ∀ name ∈ names, Path.IsPlain name.toList)
    (furtherPlain : ∀ name ∈ further, Path.IsPlain name.toList) :
    pathBelow (Path.absolute names) further = Path.absolute (names ++ further) := by
  induction further generalizing names with
  | nil => simp [pathBelow]
  | cons name rest ih =>
      have namePlain := furtherPlain name (by simp)
      have step : pathBelow (Path.absolute names) (name :: rest) =
          pathBelow (Path.absolute (names ++ [name])) rest := by
        rw [pathBelow, List.foldl_cons, Path.join_absolute names name plain namePlain]
        rfl
      rw [step, ih (names ++ [name]) _
        (fun other member => furtherPlain other (List.mem_cons_of_mem name member))]
      · simp
      · intro other member
        rcases List.mem_append.mp member with earlier | last
        · exact plain other earlier
        · exact (List.mem_singleton.mp last) ▸ namePlain

/-- Paths through two different names of one directory are different. -/
theorem lies_below_apart {names : List String} (plain : ∀ name ∈ names, Path.IsPlain name.toList)
    {left right : String} (leftPlain : Path.IsPlain left.toList)
    (rightPlain : Path.IsPlain right.toList) {path : String}
    (belowLeft : LiesBelow (names ++ [left]) path) (belowRight : LiesBelow (names ++ [right]) path) :
    left = right := by
  obtain ⟨leftFurther, leftAll, rfl⟩ := belowLeft
  obtain ⟨rightFurther, rightAll, same⟩ := belowRight
  have names_eq := Path.absolute_injective _ _ (by
    simpa [or_imp, forall_and] using ⟨plain, leftPlain, leftAll⟩) (by
    simpa [or_imp, forall_and] using ⟨plain, rightPlain, rightAll⟩) same
  simp only [List.append_assoc, List.append_cancel_left_eq, List.singleton_append] at names_eq
  exact (List.cons.inj names_eq).1

theorem lies_below_ne {names : List String} (plain : ∀ name ∈ names, Path.IsPlain name.toList)
    {name : String} (namePlain : Path.IsPlain name.toList) {path : String}
    (below : LiesBelow (names ++ [name]) path) : path ≠ Path.absolute names := by
  rintro rfl
  obtain ⟨further, all, same⟩ := below
  have names_eq := Path.absolute_injective _ _ plain (by
    simpa [or_imp, forall_and] using ⟨plain, namePlain, all⟩) same
  simpa using congrArg List.length names_eq

/-- Whether some paths all lead through the given names, and none is there twice. -/
def DistinctBelow (names paths : List String) : Prop :=
  (∀ path ∈ paths, LiesBelow names path) ∧ paths.Nodup

theorem walk_paths_perm (listed : ∀ path, survey.refusal path = none)
    (items : List (String × Item)) (here : String) :
    (survey.walk here items).2.paths.Perm
      (here :: items.flatMap fun entry =>
        (survey.visit (Path.join here entry.1) entry.1 entry.2).paths) := by
  rw [walk_of_listed survey here items (listed here)]
  refine (collect_paths_perm _ _).trans ?_
  rw [visit_all_eq_map, List.flatMap_map]

theorem visit_paths_distinct_below
    (keeps : ∀ method path file, survey.analyze method path = .ok file → file.path = path)
    (names : List String) (name : String) (item : Item)
    (inside : ∀ inner, item = .directory inner →
      DistinctBelow names (survey.walk (Path.absolute names) inner).2.paths) :
    DistinctBelow names (survey.visit (Path.absolute names) name item).paths := by
  rcases survey.visit_paths (Path.absolute names) name item with
    ⟨method, file, analyzed, same⟩ | ⟨inner, isDirectory, same⟩ | same
  · rw [same, keeps method _ file analyzed]
    exact ⟨by simpa using ⟨[], by simp⟩, List.nodup_singleton _⟩
  · rw [same]
    exact inside inner isDirectory
  · rw [same]
    exact ⟨by simp, List.nodup_nil⟩

/-- The nodes and the files of a walk all have paths of their own, and these lead through the
directory that is walked. -/
theorem walk_paths (listed : ∀ path, survey.refusal path = none)
    (keeps : ∀ method path file, survey.analyze method path = .ok file → file.path = path)
    (items : List (String × Item)) (named : (Item.directory items).WellNamed) (names : List String)
    (plain : ∀ name ∈ names, Path.IsPlain name.toList) :
    DistinctBelow names (survey.walk (Path.absolute names) items).2.paths := by
  induction items using Item.directory_induction generalizing names with
  | step items ih =>
      have part (entry : String × Item) (member : entry ∈ items) :
          DistinctBelow (names ++ [entry.1])
            (survey.visit (Path.join (Path.absolute names) entry.1) entry.1 entry.2).paths := by
        obtain ⟨name, item⟩ := entry
        have namePlain := named.plain member
        have allPlain : ∀ other ∈ names ++ [name], Path.IsPlain other.toList := by
          simpa [or_imp, forall_and] using ⟨plain, namePlain⟩
        rw [Path.join_absolute names name plain namePlain]
        apply visit_paths_distinct_below keeps
        rintro inner rfl
        exact ih name inner member (named.inside member) (names ++ [name]) allPlain
      have holds := walk_paths_perm listed items (Path.absolute names)
      constructor
      · intro path member
        rcases List.mem_cons.mp (holds.mem_iff.mp member) with rfl | inside
        · exact ⟨[], by simp⟩
        · obtain ⟨entry, found, deeper⟩ := List.mem_flatMap.mp inside
          obtain ⟨further, all, same⟩ := (part entry found).1 path deeper
          exact ⟨entry.1 :: further, by simpa using ⟨named.plain found, all⟩, by simpa using same⟩
      · rw [holds.nodup_iff, List.nodup_cons]
        constructor
        · intro inside
          obtain ⟨entry, found, deeper⟩ := List.mem_flatMap.mp inside
          exact lies_below_ne plain (named.plain found) ((part entry found).1 _ deeper) rfl
        · rw [List.nodup_flatMap]
          refine ⟨fun entry found => (part entry found).2, ?_⟩
          have distinct : items.Pairwise fun left right => left.1 ≠ right.1 :=
            List.pairwise_map.mp named.distinct
          apply distinct.imp_of_mem
          intro left right leftFound rightFound different path inLeft inRight
          exact different (lies_below_apart plain (named.plain leftFound) (named.plain rightFound)
            ((part left leftFound).1 path inLeft) ((part right rightFound).1 path inRight))

/-- Below the directory that is walked, no node is without files. -/
theorem walk_pruned (listed : ∀ path, survey.refusal path = none) (items : List (String × Item))
    (here : String) :
    ∀ node ∈ DirStats.nodesIn (survey.walk here items).2.directories, node.fileCount ≠ 0 := by
  induction items using Item.directory_induction generalizing here with
  | step items ih =>
      intro node member
      rw [walk_of_listed survey here items (listed here), DirStats.nodes_in_eq_flat_map] at member
      obtain ⟨dir, held, inside⟩ := List.mem_flatMap.mp member
      obtain ⟨found, parts, given⟩ := List.mem_flatMap.mp held
      obtain ⟨part, inParts, rfl⟩ := List.mem_map.mp ((in_name_order_perm _).mem_iff.mp parts)
      rw [visit_all_eq_map] at inParts
      obtain ⟨⟨name, item⟩, entry, rfl⟩ := List.mem_map.mp inParts
      obtain ⟨inner, rfl, entered, same, filled⟩ :=
        (survey.visit_directories _ name item dir).mp given
      cases dir with
      | mk path files directories =>
          rw [DirStats.nodes, List.mem_cons] at inside
          rcases inside with rfl | deeper
          · exact filled
          · have below := ih name inner entry (Path.join here name) node
            rw [← same] at below
            exact below deeper

/-! ### Scans -/

/-- Whether a tree shows what there is to count in a directory with the given items. -/
structure Portrays (survey : Survey) (root : String) (items : List (String × Item))
    (tree : DirStats Nat) : Prop where
  /-- A wanted entry is analyzed, and its file is held in the node of the directory that the entry
  is in; its path is that of no other file. -/
  one_for_each : ∀ folders name method, survey.Wants root items folders name method →
    ∃ file, survey.analyze method (pathBelow root (folders ++ [name])) = .ok file ∧
      (pathBelow root folders, file) ∈ tree.holdings ∧
      (tree.allFiles.map (·.path)).count (pathBelow root (folders ++ [name])) = 1
  no_other : ∀ held ∈ tree.holdings, survey.Belongs root items held
  paths_distinct : tree.paths.Nodup
  entries_apart : ∀ folders name method otherFolders otherName otherMethod,
    survey.Wants root items folders name method →
    survey.Wants root items otherFolders otherName otherMethod →
    pathBelow root (folders ++ [name]) = pathBelow root (otherFolders ++ [otherName]) →
      folders = otherFolders ∧ name = otherName
  root_path : tree.path = root
  pruned : ∀ node ∈ DirStats.nodesIn tree.directories, node.allFiles ≠ []

theorem all_files_ne_nil_iff (dir : DirStats Nat) : dir.allFiles ≠ [] ↔ dir.fileCount ≠ 0 := by
  rw [DirStats.file_count_eq_length, ne_eq, ne_eq, List.length_eq_zero_iff]

theorem walk_portrays (listed : ∀ path, survey.refusal path = none)
    (analyzes : ∀ method path, ∃ file, survey.analyze method path = .ok file ∧ file.path = path)
    (items : List (String × Item)) (named : (Item.directory items).WellNamed) (names : List String)
    (plain : ∀ name ∈ names, Path.IsPlain name.toList) :
    survey.Portrays (Path.absolute names) items (survey.walk (Path.absolute names) items).2 := by
  have keeps : ∀ method path file, survey.analyze method path = .ok file → file.path = path := by
    intro method path file given
    obtain ⟨other, analyzed, kept⟩ := analyzes method path
    rw [given, Except.ok.injEq] at analyzed
    exact analyzed ▸ kept
  have distinct := (walk_paths listed keeps items named names plain).2
  have entryPath {folders : List String} {name : String} {method : Method}
      (wanted : survey.Wants (Path.absolute names) items folders name method) :
      (∀ other ∈ names ++ (folders ++ [name]), Path.IsPlain other.toList) ∧
        pathBelow (Path.absolute names) (folders ++ [name]) =
          Path.absolute (names ++ (folders ++ [name])) := by
    obtain ⟨item, found, _⟩ := wanted.present
    have placePlain := named.place_plain found
    refine ⟨fun other member => ?_, path_below_absolute names _ plain placePlain⟩
    rcases List.mem_append.mp member with earlier | later
    · exact plain other earlier
    · exact placePlain other later
  exact {
    one_for_each := by
      intro folders name method wanted
      obtain ⟨file, analyzed, kept⟩ :=
        analyzes method (pathBelow (Path.absolute names) (folders ++ [name]))
      have held := (walk_holdings_iff listed items named (Path.absolute names) (_, file)).mpr
        ⟨folders, name, method, wanted, rfl, analyzed⟩
      refine ⟨file, analyzed, held, ?_⟩
      apply List.count_eq_one_of_mem
      · exact (List.nodup_append.mp distinct).2.1
      · rw [← DirStats.map_snd_holdings, List.map_map]
        exact List.mem_map.mpr ⟨_, held, kept⟩
    no_other := fun held member =>
      (walk_holdings_iff listed items named (Path.absolute names) held).mp member
    paths_distinct := distinct
    entries_apart := by
      intro folders name method otherFolders otherName otherMethod wanted otherWanted same
      obtain ⟨allPlain, path⟩ := entryPath wanted
      obtain ⟨otherPlain, otherPath⟩ := entryPath otherWanted
      rw [path, otherPath] at same
      have places := List.append_cancel_left
        (Path.absolute_injective _ _ allPlain otherPlain same)
      exact List.append_inj' places rfl |>.imp_right List.singleton_injective.eq_iff.mp
    root_path := by
      rw [walk_of_listed survey _ items (listed _)]
      rfl
    pruned := fun node member =>
      (all_files_ne_nil_iff node).mpr (walk_pruned listed items _ node member) }

theorem Portrays.sorted {tree : DirStats Nat} (portrays : survey.Portrays root items tree) :
    survey.Portrays root items tree.sortBySize where
  one_for_each := by
    intro folders name method wanted
    obtain ⟨file, analyzed, held, once⟩ := portrays.one_for_each folders name method wanted
    refine ⟨file, analyzed, (DirStats.holdings_sort_by_size_perm tree).mem_iff.mpr held, ?_⟩
    rw [((DirStats.all_files_sort_by_size_perm tree).map _).count_eq]
    exact once
  no_other := fun held member =>
    portrays.no_other held ((DirStats.holdings_sort_by_size_perm tree).mem_iff.mp member)
  paths_distinct := (DirStats.paths_sort_by_size_perm tree).nodup_iff.mpr portrays.paths_distinct
  entries_apart := portrays.entries_apart
  root_path := (DirStats.path_sort_by_size tree).trans portrays.root_path
  pruned := by
    intro node member
    rw [DirStats.nodes_in_sort_by_size] at member
    obtain ⟨before, inside, rfl⟩ := List.mem_map.mp member
    intro empty
    apply portrays.pruned before inside
    exact ((DirStats.all_files_sort_by_size_perm before).symm.trans (.of_eq empty)).eq_nil

theorem scan_portrays (store : Store) (named : store.top.WellNamed)
    (follows : survey.status = store.status "/") (listed : ∀ path, survey.refusal path = none)
    (analyzes : ∀ method path, ∃ file, survey.analyze method path = .ok file ∧ file.path = path)
    (directory path : String)
    (resolved : store.find "/" (Path.resolve directory path) = .ok (.directory items)) :
    ∃ log tree, survey.scan (Path.resolve directory path) = .ok (log, tree) ∧
      survey.Portrays (Path.resolve directory path) items tree := by
  obtain ⟨names, plain, rootPath⟩ := Path.resolve_eq_absolute directory path
  have reached : survey.status (Path.resolve directory path) = .ok (some (.directory items)) := by
    rw [follows]
    exact Store.status_of_find resolved
  have rooted := root_items_of_status _ _ items reached
  have portrays := walk_portrays listed analyzes items (Store.find_well_named named resolved)
    names plain
  rw [← rootPath] at portrays
  exact ⟨_, _, survey.scan_of_root_items _ items rooted, portrays.sorted⟩

/-- A scan of a directory in a well named store, in which every listing succeeds and every analysis
gives the file at the path it is given, counts exactly the wanted files. -/
theorem scan_counts_wanted_files (store : Store) (named : store.top.WellNamed)
    (registry : Language.Registry) (extensions ignored : List String) (logger : Logger)
    (analyze : Method → String → Except Failure (FileStats Nat))
    (analyzes : ∀ method path, ∃ file, analyze method path = .ok file ∧ file.path = path)
    (directory path : String) (items : List (String × Item))
    (resolved : store.find "/" (Path.resolve directory path) = .ok (.directory items)) :
    let survey : Survey := { Survey.ofStore store registry extensions ignored logger with analyze }
    ∃ log tree, survey.scan (Path.resolve directory path) = .ok (log, tree) ∧
      survey.Portrays (Path.resolve directory path) items tree := by
  intro survey
  exact scan_portrays store named rfl (fun _ => rfl) analyzes directory path resolved

/-! ### A small project -/

/-- The analysis by the content of files names the path that it is given. -/
theorem path_of_analyze (method : Method) (registry : Language.Registry) (path text : String) :
    (method.analyze registry path text).path = path := by
  cases method <;> rfl

def smallProject : List (String × Item) := [
  ("a.md", .file []), (".git", .directory [("c.md", .file [])]),
  ("src", .directory [("b.md", .link "../a.md"), ("lost.md", .link "nowhere"),
    ("empty", .directory [])])]

def smallStore : Store := ⟨[("work", .directory smallProject)]⟩

theorem small_store_well_named : smallStore.top.WellNamed := by
  simp only [Store.top, smallStore, smallProject, Item.WellNamed, Item.AllWellNamed]
  decide

theorem small_project_counts_wanted_files :
    smallStore.top.WellNamed ∧
    smallStore.find "/" (Path.resolve "/" "work") = .ok (.directory smallProject) ∧
    let analyze : Method → String → Except Failure (FileStats Nat) := fun method path =>
      .ok (method.analyze Language.builtinRegistry path (smallStore.readSource "/" path).1)
    let survey : Survey := { Survey.ofStore smallStore Language.builtinRegistry ["md"] []
      (.standard .plain) with analyze }
    ∃ log tree, survey.scan (Path.resolve "/" "work") = .ok (log, tree) ∧
      survey.Portrays (Path.resolve "/" "work") smallProject tree := by
  have resolved : smallStore.find "/" (Path.resolve "/" "work") =
      .ok (.directory smallProject) := by cbv
  exact ⟨small_store_well_named, resolved,
    scan_counts_wanted_files smallStore small_store_well_named Language.builtinRegistry ["md"] []
      (.standard .plain) _ (fun method path => ⟨_, rfl, path_of_analyze method _ path _⟩)
      "/" "work" smallProject resolved⟩

end Survey

end LineCensus
