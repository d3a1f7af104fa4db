import LineCensus.Proofs.Census
import LineCensus.Proofs.Following

/-!
A directory in a project as a project of its own. What a scan gives for a directory that it enters
does not depend on where the scan has begun: the tree of the project holds, in the place of the
directory, the very tree that a scan of the directory gives, and holds no node in its place if there
is no file in that tree. For nothing is handed down on the way but the path, every directory decides
for itself whether there is something in it, and sorting the files of one node leaves the others alone.
-/

namespace LineCensus

set_option autoImplicit false

open Stats (FileStats DirStats)

/-! ### Nodes by their paths -/

namespace Stats.DirStats

section

variable {α : Type}

/-- The node that names lead to from a directory: at each step the one with the path that the name
makes of the path before. -/
def below? : List String → DirStats α → Option (DirStats α)
  | [], dir => some dir
  | name :: rest, dir =>
    (dir.directories.find? fun inner => inner.path == Path.join dir.path name).bind (below? rest)

variable [Count α]

theorem find_sort_by_size (path : String) (directories : List (DirStats α)) :
    (directories.map sortBySize).find? (fun dir => dir.path == path) =
      (directories.find? fun dir => dir.path == path).map sortBySize := by
  rw [List.find?_map]
  simp only [Function.comp_def, path_sort_by_size]

/-- Sorting leaves every node in its place. -/
theorem below_sort_by_size (names : List String) (dir : DirStats α) :
    dir.sortBySize.below? names = (dir.below? names).map sortBySize := by
  induction names generalizing dir with
  | nil => rfl
  | cons name rest ih =>
      rw [below?, below?, directories_sort_by_size, path_sort_by_size, find_sort_by_size]
      cases dir.directories.find? fun inner => inner.path == Path.join dir.path name with
      | none => rfl
      | some inner => exact ih inner

end

theorem file_count_ne_zero_of_mem {α : Type} {dir inner : DirStats α}
    (member : inner ∈ dir.directories) (filled : inner.fileCount ≠ 0) : dir.fileCount ≠ 0 := by
  intro empty
  apply filled
  cases dir with
  | mk path files directories =>
      rw [file_count_eq_length, List.length_eq_zero_iff] at empty ⊢
      rw [allFiles, List.append_eq_nil_iff, all_files_in_eq_flat_map, List.flatMap_eq_nil_iff] at empty
      exact empty.2 inner member

end Stats.DirStats

namespace Survey

section

variable (survey : Survey)

theorem path_of_walk (here : String) (items : List (String × Item)) :
    (survey.walk here items).2.path = here := by
  rw [walk]
  split <;> rfl

/-- The nodes in the node of a directory are those of the directories in it that are entered and have
files in them. -/
theorem mem_walk_directories {here : String} {items : List (String × Item)}
    (listed : survey.refusal here = none) (dir : DirStats Nat) :
    dir ∈ (survey.walk here items).2.directories ↔
      ∃ name inner, (name, Item.directory inner) ∈ items ∧
        Ignore.skips survey.ignored name = false ∧
        dir = (survey.walk (Path.join here name) inner).2 ∧ dir.fileCount ≠ 0 := by
  rw [walk_of_listed survey here items listed, collect]
  change dir ∈ (inNameOrder _).flatMap (·.directories) ↔ _
  rw [List.mem_flatMap]
  constructor
  · rintro ⟨found, inOrder, given⟩
    rw [(in_name_order_perm _).mem_iff, visit_all_eq_map, List.map_map, List.mem_map] at inOrder
    obtain ⟨⟨name, item⟩, member, rfl⟩ := inOrder
    obtain ⟨inner, rfl, entered, same, filled⟩ := (survey.visit_directories _ name item dir).mp given
    exact ⟨name, inner, member, entered, same, filled⟩
  · rintro ⟨name, inner, member, entered, same, filled⟩
    refine ⟨survey.visit (Path.join here name) name (.directory inner), ?_, ?_⟩
    · rw [(in_name_order_perm _).mem_iff, visit_all_eq_map, List.map_map]
      exact List.mem_map.mpr ⟨(name, .directory inner), member, rfl⟩
    · exact (survey.visit_directories _ name _ dir).mpr ⟨inner, rfl, entered, same, filled⟩

end

section

variable {survey : Survey} {names : List String} {items inner : List (String × Item)} {name : String}
  (plain : ∀ other ∈ names, Path.IsPlain other.toList) (named : (Item.directory items).WellNamed)
  (listed : survey.refusal (Path.absolute names) = none)

include plain named listed

/-- No two nodes in a node have one path. -/
theorem walk_directory_unique (member : (name, Item.directory inner) ∈ items) {dir : DirStats Nat}
    (held : dir ∈ (survey.walk (Path.absolute names) items).2.directories)
    (there : dir.path = Path.absolute (names ++ [name])) :
    dir = (survey.walk (Path.absolute (names ++ [name])) inner).2 ∧ dir.fileCount ≠ 0 ∧
      Ignore.skips survey.ignored name = false := by
  obtain ⟨other, otherInner, otherMember, entered, rfl, filled⟩ :=
    (survey.mem_walk_directories listed dir).mp held
  rw [Path.join_absolute names other plain (named.plain otherMember)] at there filled ⊢
  rw [path_of_walk] at there
  have sameName : other = name := List.singleton_injective
    (Path.absolute_append_injective plain (by simpa using named.plain otherMember)
      (by simpa using named.plain member) there)
  subst sameName
  have looked := (Item.lookup_eq_some_iff_mem named.distinct other _).mpr member
  rw [(Item.lookup_eq_some_iff_mem named.distinct other _).mpr otherMember] at looked
  obtain rfl : otherInner = inner := by simpa using looked
  exact ⟨rfl, filled, entered⟩

/-- From the node of a directory, a name leads to the node of the directory with that name if this is
entered and has files in it. -/
theorem walk_below_cons (member : (name, Item.directory inner) ∈ items) (rest : List String) :
    (survey.walk (Path.absolute names) items).2.below? (name :: rest) =
      if Ignore.skips survey.ignored name = false ∧
          (survey.walk (Path.absolute (names ++ [name])) inner).2.fileCount ≠ 0 then
        (survey.walk (Path.absolute (names ++ [name])) inner).2.below? rest
      else none := by
  have joined := Path.join_absolute names name plain (named.plain member)
  rw [DirStats.below?, path_of_walk, joined]
  split
  case isTrue given =>
    have held : (survey.walk (Path.absolute (names ++ [name])) inner).2 ∈
        (survey.walk (Path.absolute names) items).2.directories :=
      (survey.mem_walk_directories listed _).mpr
        ⟨name, inner, member, given.1, by rw [joined], given.2⟩
    cases found : (survey.walk (Path.absolute names) items).2.directories.find?
        fun dir => dir.path == Path.absolute (names ++ [name]) with
    | none =>
        have missed := List.find?_eq_none.mp found _ held
        simp [path_of_walk] at missed
    | some dir =>
        have there := List.find?_some found
        obtain ⟨rfl, -⟩ := walk_directory_unique plain named listed member
          (List.mem_of_find?_eq_some found) (by simpa using there)
        rfl
  case isFalse lost =>
    have nothing : (survey.walk (Path.absolute names) items).2.directories.find?
        (fun dir => dir.path == Path.absolute (names ++ [name])) = none := by
      rw [List.find?_eq_none]
      intro dir held there
      obtain ⟨rfl, filled, entered⟩ := walk_directory_unique plain named listed member held
        (by simpa using there)
      exact lost ⟨entered, filled⟩
    rw [nothing]
    rfl

end

/-- What a walk gives for a directory that it comes to: the node of that directory if there are files
in it, and none otherwise. The induction is on the names that lead there, for each directory in which
they may begin. -/
theorem walk_below {survey : Survey} {names further : List String}
    {items inner : List (String × Item)} (plain : ∀ name ∈ names, Path.IsPlain name.toList)
    (named : (Item.directory items).WellNamed)
    (reached : (Item.directory items).at? further = some (.directory inner))
    (entered : ∀ name ∈ further, Ignore.skips survey.ignored name = false)
    (listed : ∀ front, front <+: further → front ≠ further →
      survey.refusal (Path.absolute (names ++ front)) = none) :
    ((survey.walk (Path.absolute (names ++ further)) inner).2.fileCount ≠ 0 →
      (survey.walk (Path.absolute names) items).2.fileCount ≠ 0 ∧
      (survey.walk (Path.absolute names) items).2.below? further =
        some (survey.walk (Path.absolute (names ++ further)) inner).2) ∧
    ((survey.walk (Path.absolute (names ++ further)) inner).2.fileCount = 0 → further ≠ [] →
      (survey.walk (Path.absolute names) items).2.below? further = none) := by
  induction further generalizing names items with
  | nil =>
      have same : items = inner := by simpa [Item.at?] using reached
      subst same
      rw [List.append_nil]
      exact ⟨fun filled => ⟨filled, rfl⟩, fun _ some => absurd rfl some⟩
  | cons name rest ih =>
      obtain ⟨next, looked, onwards⟩ := (Item.at_cons_iff items name rest _).mp reached
      obtain ⟨middle, rfl⟩ := Item.directory_of_at onwards
      have member := (Item.lookup_eq_some_iff_mem named.distinct name _).mp looked
      have nameEntered := entered name (by simp)
      have listedHere : survey.refusal (Path.absolute names) = none := by
        simpa using listed [] (List.nil_prefix) (by simp)
      have deeper := ih (Path.plain_concat plain (named.plain member)) (named.inside member) onwards
        (fun other inRest => entered other (List.mem_cons_of_mem name inRest))
        (by
          intro front before part
          rw [List.append_assoc]
          exact listed (name :: front) ((List.prefix_cons_inj name).mpr before) (by simpa using part))
      rw [List.append_assoc, List.singleton_append] at deeper
      rw [walk_below_cons plain named listedHere member rest]
      constructor
      · intro filled
        obtain ⟨middleFilled, found⟩ := deeper.1 filled
        rw [if_pos ⟨nameEntered, middleFilled⟩]
        refine ⟨?_, found⟩
        apply DirStats.file_count_ne_zero_of_mem _ middleFilled
        apply (survey.mem_walk_directories listedHere _).mpr
        refine ⟨name, middle, member, nameEntered, ?_, middleFilled⟩
        rw [Path.join_absolute names name plain (named.plain member)]
      · intro empty _
        -- If it is the directory itself that comes next, it is left out here; if not, it is further
        -- down.
        by_cases last : rest = []
        · subst last
          obtain rfl : middle = inner := by simpa [Item.at?] using onwards
          rw [if_neg fun both => both.2 empty]
        · rw [deeper.2 empty last, ite_self]

/-- Every node of a walk lies below the directory that is walked, by the names in its path. -/
theorem walk_nodes_below {survey : Survey} (items : List (String × Item))
    (named : (Item.directory items).WellNamed) (names : List String)
    (plain : ∀ name ∈ names, Path.IsPlain name.toList) :
    ∀ node ∈ (survey.walk (Path.absolute names) items).2.nodes, ∃ further : List String,
      (∀ name ∈ further, Path.IsPlain name.toList) ∧
      node.path = Path.absolute (names ++ further) ∧
      (survey.walk (Path.absolute names) items).2.below? further = some node := by
  induction items using Item.directory_induction generalizing names with
  | step items ih =>
      intro node member
      have nodes_eq : (survey.walk (Path.absolute names) items).2.nodes =
          (survey.walk (Path.absolute names) items).2 ::
            DirStats.nodesIn (survey.walk (Path.absolute names) items).2.directories := by
        cases (survey.walk (Path.absolute names) items).2
        rfl
      rw [nodes_eq, List.mem_cons] at member
      rcases member with rfl | inside
      · exact ⟨[], by simp, by rw [path_of_walk, List.append_nil], rfl⟩
      · cases refused : survey.refusal (Path.absolute names) with
        | some failure =>
            rw [walk, refused] at inside
            cases inside
        | none =>
            rw [DirStats.nodes_in_eq_flat_map, List.mem_flatMap] at inside
            obtain ⟨dir, held, inDir⟩ := inside
            obtain ⟨name, inner, member, entered, rfl, filled⟩ :=
              (survey.mem_walk_directories refused dir).mp held
            have namePlain := named.plain member
            rw [Path.join_absolute names name plain namePlain] at inDir filled
            obtain ⟨further, furtherPlain, there, found⟩ :=
              ih name inner member (named.inside member) (names ++ [name])
                (Path.plain_concat plain namePlain) node inDir
            refine ⟨name :: further, ?_, by simpa using there, ?_⟩
            · simpa [or_imp, forall_and] using ⟨namePlain, furtherPlain⟩
            · rw [walk_below_cons plain named refused member, if_pos ⟨entered, filled⟩, found]

/-! ### Scans -/

/-- A node of a sorted walk is the one that the names in its path lead to. -/
theorem below_of_path {survey : Survey} {items : List (String × Item)}
    (named : (Item.directory items).WellNamed) {names further : List String}
    (plain : ∀ name ∈ names, Path.IsPlain name.toList)
    (furtherPlain : ∀ name ∈ further, Path.IsPlain name.toList) {node : DirStats Nat}
    (member : node ∈ (survey.walk (Path.absolute names) items).2.sortBySize.nodes)
    (there : node.path = Path.absolute (names ++ further)) :
    (survey.walk (Path.absolute names) items).2.sortBySize.below? further = some node := by
  rw [DirStats.nodes_sort_by_size] at member
  obtain ⟨before, inside, rfl⟩ := List.mem_map.mp member
  obtain ⟨other, otherPlain, otherPath, found⟩ := walk_nodes_below items named names plain before inside
  rw [DirStats.path_sort_by_size, otherPath] at there
  obtain rfl := Path.absolute_append_injective plain otherPlain furtherPlain there
  rw [DirStats.below_sort_by_size, found]
  rfl

/-- A directory that is reached from the root of a project, through directories that are entered and
can be listed, has in the tree of the project the place of the tree that a scan of the directory gives,
and no other node has its path; there is no such node if the scan of the directory gives no file. The
names on the way have to be as short as names in a path may be. -/
theorem scan_holds_scan_of_directory (store : Store) (storeNamed : store.top.WellNamed)
    (survey : Survey) (follows : survey.status = store.status "/") (directory path : String)
    (items : List (String × Item))
    (resolved : store.find "/" (Path.resolve directory path) = .ok (.directory items))
    (further : List String) (inner : List (String × Item))
    (reached : (Item.directory items).at? further = some (.directory inner))
    (entered : ∀ name ∈ further, Ignore.skips survey.ignored name = false)
    (listed : ∀ front, front <+: further → front ≠ further →
      survey.refusal (pathBelow (Path.resolve directory path) front) = none)
    (short : ∀ name ∈ further, (Text.encode name).length ≤ Store.nameBound) :
    let place := pathBelow (Path.resolve directory path) further
    ∃ log tree innerLog innerTree,
      survey.scan (Path.resolve directory path) = .ok (log, tree) ∧
      survey.scan (Path.resolve directory place) = .ok (innerLog, innerTree) ∧
      (innerTree.fileCount ≠ 0 → tree.below? further = some innerTree ∧
        ∀ node ∈ tree.nodes, node.path = place → node = innerTree) ∧
      (innerTree.fileCount = 0 → further ≠ [] → ∀ node ∈ tree.nodes, node.path ≠ place) := by
  intro place
  obtain ⟨names, plain, rootPath⟩ := Path.resolve_eq_absolute directory path
  have named := Store.find_well_named storeNamed resolved
  have furtherPlain := named.place_plain reached
  have allPlain := Path.plain_append plain furtherPlain
  have below {front : List String} (before : front <+: further) :
      pathBelow (Path.resolve directory path) front = Path.absolute (names ++ front) := by
    rw [rootPath]
    exact path_below_absolute names front plain
      fun name member => furtherPlain name (before.subset member)
  have placePath : place = Path.absolute (names ++ further) := below (List.prefix_refl further)
  rw [rootPath] at resolved ⊢
  have found := Store.find_below resolved reached (by simp) plain furtherPlain short
  have reachedRoot : survey.status (Path.absolute names) = .ok (some (.directory items)) := by
    rw [follows]
    exact Store.status_of_find resolved
  have reachedInner : survey.status (Path.absolute (names ++ further)) =
      .ok (some (.directory inner)) := by
    rw [follows]
    exact Store.status_of_find found
  obtain ⟨filled, empty⟩ := walk_below plain named reached entered fun front before part => by
    rw [← below before]
    exact listed front before part
  rw [placePath, Path.resolve_absolute directory _ allPlain]
  refine ⟨_, _, _, _,
    survey.scan_of_root_items _ items (root_items_of_status _ _ items reachedRoot),
    survey.scan_of_root_items _ inner (root_items_of_status _ _ inner reachedInner), ?_, ?_⟩
  · intro some
    rw [DirStats.file_count_sort_by_size] at some
    have held := (filled some).2
    refine ⟨by rw [DirStats.below_sort_by_size, held]; rfl, ?_⟩
    intro node member there
    have found := below_of_path named plain furtherPlain member there
    rw [DirStats.below_sort_by_size, held] at found
    exact (Option.some.inj found).symm
  · intro none_ some node member there
    rw [DirStats.file_count_sort_by_size] at none_
    have found := below_of_path named plain furtherPlain member there
    rw [DirStats.below_sort_by_size, empty none_ some] at found
    cases found

/-! ### A directory in a project -/

def coreItems : List (String × Item) := [("b.md", .file []), ("a.md", .file [])]

/-- The two documents two directories down, another one, and a directory that cannot be listed. -/
def layeredItems : List (String × Item) := [
  ("lib", .directory [("core", .directory coreItems), ("empty", .directory [])]),
  ("z.md", .file []), ("shut", .directory [("c.md", .file [])])]

def layeredStore : Store :=
  ⟨[("work", .directory [("project", .link "code"), ("code", .directory layeredItems)])]⟩

def layeredSurvey : Survey :=
  { Survey.ofStore layeredStore Language.builtinRegistry [] [] (.standard .plain) with
    refusal := fun path => if path == "/work/project/shut" then some .nothing else none }

theorem layered_store_well_named : layeredStore.top.WellNamed := by
  simp only [Store.top, layeredStore, layeredItems, coreItems, Item.WellNamed, Item.AllWellNamed]
  decide

theorem layered_project_holds_scan_of_core :
    layeredStore.top.WellNamed ∧ layeredSurvey.status = layeredStore.status "/" ∧
    layeredStore.find "/" (Path.resolve "/work" "project") = .ok (.directory layeredItems) ∧
    (Item.directory layeredItems).at? ["lib", "core"] = some (.directory coreItems) ∧
    (∀ name ∈ ["lib", "core"], Ignore.skips layeredSurvey.ignored name = false) ∧
    (∀ front, front <+: ["lib", "core"] → front ≠ ["lib", "core"] →
      layeredSurvey.refusal (pathBelow (Path.resolve "/work" "project") front) = none) ∧
    (∀ name ∈ ["lib", "core"], (Text.encode name).length ≤ Store.nameBound) ∧
    let place := pathBelow (Path.resolve "/work" "project") ["lib", "core"]
    ∃ log tree innerLog innerTree,
      layeredSurvey.scan (Path.resolve "/work" "project") = .ok (log, tree) ∧
      layeredSurvey.scan (Path.resolve "/work" place) = .ok (innerLog, innerTree) ∧
      (innerTree.fileCount ≠ 0 → tree.below? ["lib", "core"] = some innerTree ∧
        ∀ node ∈ tree.nodes, node.path = place → node = innerTree) ∧
      (innerTree.fileCount = 0 → ["lib", "core"] ≠ [] → ∀ node ∈ tree.nodes, node.path ≠ place) := by
  have resolved : layeredStore.find "/" (Path.resolve "/work" "project") =
      .ok (.directory layeredItems) := by
    have root : Path.resolve "/work" "project" = "/work/project" := by decide
    rw [root]
    cbv
  have reached : (Item.directory layeredItems).at? ["lib", "core"] =
      some (.directory coreItems) := by rfl
  have entered : ∀ name ∈ ["lib", "core"], Ignore.skips layeredSurvey.ignored name = false := by
    decide
  have short : ∀ name ∈ ["lib", "core"], (Text.encode name).length ≤ Store.nameBound := by decide
  have listed : ∀ front, front <+: ["lib", "core"] → front ≠ ["lib", "core"] →
      layeredSurvey.refusal (pathBelow (Path.resolve "/work" "project") front) = none := by
    intro front before part
    rcases List.prefix_cons_iff.mp before with rfl | ⟨rest, rfl, behind⟩
    · decide
    rcases List.prefix_cons_iff.mp behind with rfl | ⟨rest, rfl, nothing⟩
    · decide
    · exact absurd (by rw [List.prefix_nil.mp nothing]) part
  exact ⟨layered_store_well_named, rfl, resolved, reached, entered, listed, short,
    scan_holds_scan_of_directory layeredStore layered_store_well_named layeredSurvey rfl "/work"
      "project" layeredItems resolved ["lib", "core"] coreItems reached entered listed short⟩

end Survey

end LineCensus
