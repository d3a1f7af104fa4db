import LineCensus.Proofs.Apart
import LineCensus.Proofs.Determined
import LineCensus.Proofs.IgnoreNames
import LineCensus.Proofs.JsonRun

/-!
Names of directories to leave out, and where they are given. A project may give them in its
configuration and in its ignore file, and a request may add some: all of them count alike, at every
depth. So it makes no difference for the tree of an analysis where a name is given, as long as the
files in which names are given are not counted themselves. They are hidden; but a link to one of them
need not be, and links to files are followed.
-/

namespace LineCensus

set_option autoImplicit false

open Stats (FileStats DirStats)

namespace Survey

/-! ### Scans of two file systems of which the same is left -/

/-- Whether a survey is that of a file system, with every file analyzed by what it holds. -/
structure Reads (survey : Survey) (store : Store) : Prop where
  follows : survey.status = store.status "/"
  analyzes : ∀ method path, survey.analyze method path =
    .ok (method.analyze survey.registry path (store.readSource "/" path).1)

/-- Whether two surveys pass over the same files and directories. -/
structure SameRules (first second : Survey) : Prop where
  registry : second.registry = first.registry
  extensions : second.extensions = first.extensions
  skips : Ignore.skips second.ignored = Ignore.skips first.ignored
  refusal : second.refusal = first.refusal

theorem SameRules.symm {first second : Survey} (rules : first.SameRules second) :
    second.SameRules first :=
  ⟨rules.registry.symm, rules.extensions.symm, rules.skips.symm, rules.refusal.symm⟩

theorem Reads.keeps {survey : Survey} {store : Store} (reads : survey.Reads store) (method : Method)
    (path : String) (file : FileStats Nat) (analyzed : survey.analyze method path = .ok file) :
    file.path = path := by
  rw [reads.analyzes, Except.ok.injEq] at analyzed
  rw [← analyzed]
  exact path_of_analyze method survey.registry path _

section

variable {first second : Survey} {store other : Store} (reads : first.Reads store)
  (otherReads : second.Reads other) {removed : List (List String)}
  (same : other.without removed = store.without removed)
  {names : List String} (plain : ∀ name ∈ names, Path.IsPlain name.toList)
  {items others : List (String × Item)} (named : (Item.directory items).WellNamed)
  (resolved : store.find "/" (Path.absolute names) = .ok (.directory items))
  (otherResolved : other.find "/" (Path.absolute names) = .ok (.directory others))
  (rules : first.SameRules second)

include reads otherReads same plain named resolved otherResolved rules

/-- What a walk finds in one file system under a path that is left, it finds in the other. -/
theorem finds_in_other {folders : List String} {name : String} {file : FileStats Nat}
    (finds : first.Finds (Path.absolute names) items folders name file) {bytes : List Nat}
    (found : (store.without removed).find "/" file.path = .ok (.file bytes)) :
    second.Finds (Path.absolute names) others folders name file := by
  obtain ⟨method, wanted, approached, analyzed⟩ := finds
  obtain ⟨item, reached, leads⟩ := wanted.present
  have furtherPlain := named.place_plain reached
  have path := reads.keeps method _ file analyzed
  have there := path_below_absolute names (folders ++ [name]) plain furtherPlain
  rw [path, there] at found
  have here := Store.find_file_of_without found
  have otherHere : other.find "/" (Path.absolute (names ++ (folders ++ [name]))) =
      .ok (.file bytes) := by
    rw [← same] at found
    exact Store.find_file_of_without found
  obtain ⟨place, otherItem, otherReached, sameItem⟩ := Store.stands_in_both same plain resolved
    otherResolved reached furtherPlain (by simp) found
  have otherLeads : second.LeadsToFile (pathBelow (Path.absolute names) (folders ++ [name]))
      otherItem := by
    cases item with
    | file held =>
        rw [Item.without_eq_file sameItem]
        trivial
    | link target =>
        rw [Item.without_eq_link sameItem, there, LeadsToFile, otherReads.follows]
        exact ⟨bytes, Store.status_of_find otherHere⟩
    | directory inner => exact leads.elim
  refine ⟨method, ?wanted, ?approached, ?analyzed⟩
  case wanted => exact {
    present := ⟨otherItem, otherReached, otherLeads⟩
    entered := by
      rw [rules.skips]
      exact wanted.entered
    visible := wanted.visible
    allowed := by
      rw [rules.extensions]
      exact wanted.allowed
    selected := by
      rw [rules.registry]
      exact wanted.selected }
  case approached =>
    intro front before part
    rw [rules.refusal]
    exact approached front before part
  case analyzed =>
    rw [reads.analyzes, there] at analyzed
    rw [otherReads.analyzes, rules.registry, there, ← analyzed, Store.readSource, Store.readSource,
      Store.readBytes, Store.readBytes, here, otherHere]

/-- Walks give the same tree if whatever either of them finds is left under its path. -/
theorem walk_same_of_left (othersNamed : (Item.directory others).WellNamed)
    (left : ∀ file, file ∈ (first.walk (Path.absolute names) items).2.allFiles ∨
        file ∈ (second.walk (Path.absolute names) others).2.allFiles →
      ∃ bytes, (store.without removed).find "/" file.path = .ok (.file bytes)) :
    (second.walk (Path.absolute names) others).2 = (first.walk (Path.absolute names) items).2 := by
  apply walk_determined otherReads.keeps reads.keeps others items othersNamed named names plain
  intro folders name file
  constructor
  · intro finds
    have held := (mem_walk_all_files_iff othersNamed file).mpr ⟨folders, name, finds⟩
    obtain ⟨bytes, found⟩ := left file (.inr held)
    rw [← same] at found
    exact finds_in_other otherReads reads same.symm plain othersNamed otherResolved resolved
      rules.symm finds found
  · intro finds
    have held := (mem_walk_all_files_iff named file).mpr ⟨folders, name, finds⟩
    obtain ⟨bytes, found⟩ := left file (.inl held)
    exact finds_in_other reads otherReads same plain named resolved otherResolved rules finds found

end

/-- Whether a file lies below a root and no directory on the way to it has one of the given names. -/
def KeepsClear (root : String) (names : List String) (file : FileStats Nat) : Prop :=
  ∃ folders name, file.path = pathBelow root (folders ++ [name]) ∧
    (∀ part ∈ folders ++ [name], Path.IsPlain part.toList) ∧ ∀ folder ∈ folders, folder ∉ names

theorem walk_keeps_clear {survey : Survey} {store : Store} (reads : survey.Reads store)
    {root : String} {items : List (String × Item)} (named : (Item.directory items).WellNamed)
    {file : FileStats Nat} (held : file ∈ (survey.walk root items).2.allFiles) :
    KeepsClear root survey.ignored file := by
  obtain ⟨folders, name, method, wanted, _, analyzed⟩ := (mem_walk_all_files_iff named file).mp held
  obtain ⟨item, reached, _⟩ := wanted.present
  refine ⟨folders, name, reads.keeps method _ file analyzed, named.place_plain reached, ?_⟩
  intro folder member leftOut
  have entered := wanted.entered folder member
  rw [Ignore.skips_of_mem leftOut] at entered
  cases entered

end Survey

/-! ### Files with names -/

namespace Store

variable {store : Store} {directory path : String}

theorem find_of_read_text {text : String} (read : store.readText directory path = .ok text) :
    ∃ bytes, store.find directory path = .ok (.file bytes) := by
  rw [readText, readBytes] at read
  split at read
  case h_1 bytes given =>
    split at given
    case h_1 found => exact ⟨_, found⟩
    all_goals cases given
  case h_2 => cases read

theorem find_of_config {config : Config} (read : Config.ofFile store directory path = .ok config) :
    ∃ bytes, store.find directory path = .ok (.file bytes) := by
  rw [Config.ofFile, readJson] at read
  cases held : store.readText directory path with
  | ok text => exact find_of_read_text held
  | error failure =>
      rw [held] at read
      cases read

theorem reaches_of_find {item : Item} (found : store.find directory path = .ok item) :
    store.reaches directory path = true := by
  rw [reaches, found]
  rfl

/-- Where an absolute path leads to does not depend on the directory that paths start in. -/
theorem find_absolute (store : Store) (directory : String) (names : List String) :
    store.find directory (Path.absolute names) = store.find "/" (Path.absolute names) := by
  have whole (directory : String) :
      wholePath directory (Path.absolute names) = Path.absolute names := by
    simp [wholePath, Path.absolute, Path.isAbsolute]
  rw [find, find, locate, locate, whole, whole]

end Store

theorem Config.load_of_file {store : Store} {directory root : String} {path : Option String}
    {config : Config} (unpointed : path.filter (!·.isEmpty) = none)
    (read : Config.ofFile store directory (Path.join root ".linestatrc.json") = .ok config) :
    Config.load store directory root path = .ok config := by
  obtain ⟨bytes, found⟩ := Store.find_of_config read
  rw [Config.load, unpointed, Config.fileNames, List.map_cons,
    List.find?_cons_of_pos (Store.reaches_of_find found)]
  exact read

namespace Ignore

/-- Whether a text is that of the file at a path, and there is no file there if there is no text. -/
def IsHeldAt (store : Store) (directory path : String) : Option String → Prop
  | some text => store.readText directory path = .ok text
  | none => store.reaches directory path = false

theorem load_of_held {store : Store} {directory root : String} {file : Option String}
    (held : IsHeldAt store directory (Path.join root fileName) file) (extra : List String) :
    load store directory root extra = .ok (names file extra) := by
  rw [load]
  cases file with
  | none =>
      rw [IsHeldAt] at held
      simp [held]
  | some text =>
      rw [IsHeldAt] at held
      obtain ⟨bytes, found⟩ := Store.find_of_read_text held
      simp only [Store.reaches_of_find found, held, if_true, Except.map]

end Ignore

/-! ### Analyses -/

namespace Command

/-- Names as they are spread over the places in which they can be given. -/
structure Spread where
  config : List String
  listed : List String
  options : List String

def Spread.names (spread : Spread) : List String := spread.config ++ spread.listed ++ spread.options

/-- Whether a project and a request for its analysis give names in this way, and no other patterns.
The project has its configuration, in which the settings are the given ones, in its own file. -/
structure Spread.IsGiven (spread : Spread) (place : Surroundings) (request : Request)
    (settings : Config) : Prop where
  bare : ∀ name ∈ spread.names, Ignore.IsBare name
  analysis : request.listExtensions = false
  unpointed : request.config.filter (!·.isEmpty) = none
  configured : Config.ofFile place.store place.directory
    (Path.join (Path.resolve place.directory request.path) ".linestatrc.json") =
      .ok { settings with ignore := spread.config }
  listed : ∃ file, Ignore.IsHeldAt place.store place.directory
    (Path.join (Path.resolve place.directory request.path) Ignore.fileName) file ∧
      Ignore.ListedIn file spread.listed
  options : request.ignore = spread.options

/-- Whether an analysis scans a project, with this tree and with these messages beside it, and reports
on the tree. -/
def Scans (place : Surroundings) (request : Request) (log : List Entry) (tree : DirStats Nat) : Prop :=
  ∃ plan, planOf place request = .ok plan ∧
    (plan.survey place).scan plan.root = .ok (log, tree) ∧
    analyze place request =
      ⟨plan.introduction ++ log ++ plan.conclusion place.time place.painter tree, none⟩

variable {place : Surroundings} {request : Request} {settings : Config} {spread : Spread}

theorem reads_of_plan (plan : Plan) (place : Surroundings) :
    (plan.survey place).Reads place.store :=
  ⟨rfl, fun _ _ => rfl⟩

/-- The plan leaves out the names that are given, and nothing else in it depends on them. -/
theorem Spread.IsGiven.planned (given : spread.IsGiven place request settings) :
    ∃ plan, planOf place request = .ok plan ∧
      plan.root = Path.resolve place.directory request.path ∧
      plan.extensions =
        (if request.extensions.isEmpty then settings.extensions else request.extensions) ∧
      ∀ name, name ∈ plan.ignored ↔ name ∈ spread.names := by
  obtain ⟨file, held, listed⟩ := given.listed
  have loaded := Config.load_of_file given.unpointed given.configured
  have ignored := Ignore.load_of_held held (spread.config ++ request.ignore)
  refine ⟨?plan, ?planned, ?root, ?extensions, ?names⟩
  case planned =>
    rw [planOf]
    simp only [loaded, Except.mapError, bind, Except.bind, ignored]
    rfl
  case root => rfl
  case extensions => rfl
  case names =>
    intro name
    have regrouped (name : String) : name ∈ spread.listed ++ (spread.config ++ spread.options) ↔
        name ∈ spread.names := by
      rw [Spread.names, List.append_assoc, List.mem_append, List.mem_append, List.mem_append,
        List.mem_append, or_left_comm]
    have bare : ∀ name ∈ spread.listed ++ (spread.config ++ spread.options), Ignore.IsBare name :=
      fun name member => given.bare name ((regrouped name).mp member)
    simp only [given.options]
    exact (Ignore.mem_names_iff listed bare).trans (regrouped name)

/-- The root of the project is a directory, as the configuration is in it. -/
theorem Spread.IsGiven.rooted (given : spread.IsGiven place request settings) :
    ∃ items, place.store.find "/" (Path.resolve place.directory request.path) =
      .ok (.directory items) := by
  obtain ⟨names, plain, rootPath⟩ := Path.resolve_eq_absolute place.directory request.path
  have filePlain : Path.IsPlain ".linestatrc.json".toList := by decide
  obtain ⟨bytes, found⟩ := Store.find_of_config given.configured
  rw [rootPath] at found ⊢
  rw [Path.join_absolute names _ plain filePlain, Store.find_absolute] at found
  exact Store.find_above plain (by simpa using filePlain) (by simp) found

theorem scans_of_plan {plan : Plan} {items : List (String × Item)}
    (analysis : request.listExtensions = false) (planned : planOf place request = .ok plan)
    (resolved : place.store.find "/" plan.root = .ok (.directory items)) :
    Scans place request ((plan.survey place).walk plan.root items).1
      ((plan.survey place).walk plan.root items).2.sortBySize := by
  have scanned := (plan.survey place).scan_of_root_items plan.root items
    (Survey.root_items_of_status _ _ items (Store.status_of_find resolved))
  refine ⟨plan, planned, scanned, ?_⟩
  rw [analyze_of_plan place request analysis plan planned, carry_out_of_scan place scanned]

theorem Spread.IsGiven.scans (given : spread.IsGiven place request settings) :
    ∃ log tree, Scans place request log tree := by
  obtain ⟨plan, planned, root, _⟩ := given.planned
  obtain ⟨items, resolved⟩ := given.rooted
  rw [← root] at resolved
  exact ⟨_, _, scans_of_plan given.analysis planned resolved⟩

/-- Names are left out of the project at every depth, wherever they are given; and the same names,
given otherwise, make for the same tree, in whatever order and how often they are given. In the other
file system other configuration and ignore files may stand, at the places that are `removed`; what
either scan counts has to be left without them. -/
theorem ignore_names_interchange (place : Surroundings) (named : place.store.top.WellNamed)
    (request : Request) (settings : Config) (spread : Spread)
    (given : spread.IsGiven place request settings) :
    ∃ log tree, Scans place request log tree ∧
      (∀ file ∈ tree.allFiles,
        Survey.KeepsClear (Path.resolve place.directory request.path) spread.names file) ∧
      ∀ (store : Store) (otherSpread : Spread) (removed : List (List String)),
        store.top.WellNamed →
        otherSpread.IsGiven { place with store } { request with ignore := otherSpread.options }
          settings →
        (∀ name, name ∈ otherSpread.names ↔ name ∈ spread.names) →
        store.without removed = place.store.without removed →
        ∃ otherLog otherTree,
          Scans { place with store } { request with ignore := otherSpread.options } otherLog
            otherTree ∧
          ((∀ file ∈ tree.allFiles ++ otherTree.allFiles, ∃ bytes,
              (place.store.without removed).find "/" file.path = .ok (.file bytes)) →
            otherTree = tree) := by
  obtain ⟨names, plain, rootPath⟩ := Path.resolve_eq_absolute place.directory request.path
  obtain ⟨plan, planned, root, extensions, ignored⟩ := given.planned
  obtain ⟨items, resolved⟩ := given.rooted
  rw [← root] at resolved rootPath ⊢
  have itemsNamed := Store.find_well_named named resolved
  refine ⟨_, _, scans_of_plan given.analysis planned resolved, ?clear, ?same⟩
  case clear =>
    intro file held
    rw [(DirStats.all_files_sort_by_size_perm _).mem_iff] at held
    obtain ⟨folders, name, path, parts, outside⟩ :=
      Survey.walk_keeps_clear (reads_of_plan plan place) itemsNamed held
    refine ⟨folders, name, path, parts, fun folder member leftOut => ?_⟩
    exact outside folder member ((ignored folder).mpr leftOut)
  case same =>
    intro store otherSpread removed otherNamed otherGiven sameNames left
    obtain ⟨otherPlan, otherPlanned, otherRoot, otherExtensions, otherIgnored⟩ := otherGiven.planned
    obtain ⟨others, otherResolved⟩ := otherGiven.rooted
    have sameRoot : otherPlan.root = plan.root := otherRoot.trans root.symm
    rw [← otherRoot] at otherResolved
    refine ⟨_, _, scans_of_plan otherGiven.analysis otherPlanned otherResolved, fun allLeft => ?_⟩
    have rules : (plan.survey place).SameRules (otherPlan.survey { place with store }) := {
      registry := rfl
      extensions := congrArg Extensions.restriction (otherExtensions.trans extensions.symm)
      skips := Ignore.skips_congr fun name =>
        (otherIgnored name).trans ((sameNames name).trans (ignored name).symm)
      refusal := rfl }
    rw [sameRoot] at otherResolved allLeft ⊢
    rw [rootPath] at resolved otherResolved allLeft ⊢
    apply congrArg DirStats.sortBySize
    apply Survey.walk_same_of_left (reads_of_plan plan place) (reads_of_plan otherPlan _) left plain
      itemsNamed resolved otherResolved rules (Store.find_well_named otherNamed otherResolved)
    intro file held
    apply allLeft file
    rw [List.mem_append, (DirStats.all_files_sort_by_size_perm _).mem_iff,
      (DirStats.all_files_sort_by_size_perm _).mem_iff]
    exact held

theorem Scans.files {log : List Entry} {tree : DirStats Nat} (scans : Scans place request log tree)
    (given : spread.IsGiven place request settings) (named : place.store.top.WellNamed)
    {items : List (String × Item)}
    (resolved : place.store.find "/" (Path.resolve place.directory request.path) =
      .ok (.directory items)) :
    ∃ plan : Plan, plan.extensions =
        (if request.extensions.isEmpty then settings.extensions else request.extensions) ∧
      (∀ name, name ∈ plan.ignored ↔ name ∈ spread.names) ∧
      ∀ file, file ∈ tree.allFiles ↔ ∃ folders name,
        (plan.survey place).Finds (Path.resolve place.directory request.path) items folders name
          file := by
  obtain ⟨other, otherPlanned, scanned, _⟩ := scans
  obtain ⟨plan, planned, root, extensions, ignored⟩ := given.planned
  rw [planned, Except.ok.injEq] at otherPlanned
  subst otherPlanned
  rw [← root] at resolved ⊢
  rw [(plan.survey place).scan_of_root_items plan.root items
    (Survey.root_items_of_status _ _ items (Store.status_of_find resolved)), Except.ok.injEq,
    Prod.mk.injEq] at scanned
  refine ⟨plan, extensions, ignored, fun file => ?_⟩
  rw [← scanned.2, (DirStats.all_files_sort_by_size_perm _).mem_iff,
    Survey.mem_walk_all_files_iff (Store.find_well_named named resolved)]

/-! ### Projects with names to leave out -/

def projectItems (config ignored : String) (others : List (String × Item)) :
    List (String × Item) :=
  (".linestatrc.json", .file (Text.encode config)) ::
    (".linestatignore", .file (Text.encode ignored)) :: others

def projectPlace (config ignored : String) (others : List (String × Item)) : Surroundings :=
  { emptyPlace with store := ⟨[("work", .directory (projectItems config ignored others))]⟩ }

def requestFor (spread : Spread) : Request :=
  { Request.standard with path := "work", ignore := spread.options }

section

variable {config ignored : String} {others : List (String × Item)}

theorem project_root (spread : Spread) :
    Path.resolve (projectPlace config ignored others).directory (requestFor spread).path =
      Path.absolute ["work"] := by
  have start : (projectPlace config ignored others).directory = "/" := rfl
  have asked : (requestFor spread).path = "work" := rfl
  rw [start, asked]
  cbv

theorem project_root_found :
    (projectPlace config ignored others).store.find "/" (Path.absolute ["work"]) =
      .ok (.directory (projectItems config ignored others)) := by
  have top := (projectPlace config ignored others).store.find_top
  have reached : (Item.directory (projectPlace config ignored others).store.root).at? ["work"] =
      some (.directory (projectItems config ignored others)) := rfl
  have found := Store.find_below top reached (by simp) (by simp) (by decide) (by decide)
  exact found

theorem project_file_found {name : String} (plain : Path.IsPlain name.toList)
    (short : (Text.encode name).length ≤ Store.nameBound) {bytes : List Nat}
    (entry : (projectItems config ignored others).lookup name = some (.file bytes)) :
    (projectPlace config ignored others).store.find "/" (Path.absolute ["work", name]) =
      .ok (.file bytes) := by
  have reached : (Item.directory (projectItems config ignored others)).at? [name] =
      some (.file bytes) := (Item.at_cons_iff _ name [] _).mpr ⟨_, entry, rfl⟩
  have found := Store.find_below project_root_found reached (by simp) (by decide)
    (by simpa using plain) (by simpa using short)
  exact found

theorem project_given {spread : Spread} (bare : ∀ name ∈ spread.names, Ignore.IsBare name)
    (configured : Config.ofJson (Json.parse? (Text.decodeLossy (Text.encode config)))
      "/work/.linestatrc.json" = .ok { Config.default with ignore := spread.config })
    (listed : Ignore.Lists (Text.decodeLossy (Text.encode ignored)) spread.listed) :
    spread.IsGiven (projectPlace config ignored others) (requestFor spread) Config.default := by
  have path {name : String} (plain : Path.IsPlain name.toList) :
      Path.join (Path.resolve (projectPlace config ignored others).directory
        (requestFor spread).path) name = Path.absolute ["work", name] := by
    rw [project_root]
    exact Path.join_absolute ["work"] name (by decide) plain
  have readText {name : String} (plain : Path.IsPlain name.toList)
      (short : (Text.encode name).length ≤ Store.nameBound) {bytes : List Nat}
      (entry : (projectItems config ignored others).lookup name = some (.file bytes)) :
      (projectPlace config ignored others).store.readText "/" (Path.absolute ["work", name]) =
        .ok (Text.decodeLossy bytes) := by
    rw [Store.readText, Store.readBytes, project_file_found plain short entry]
  exact {
    bare
    analysis := rfl
    unpointed := rfl
    configured := by
      have read : (projectPlace config ignored others).store.readText "/"
          (Path.absolute ["work", ".linestatrc.json"]) = .ok (Text.decodeLossy (Text.encode config)) :=
        readText (by decide) (by decide +kernel) rfl
      have written : Path.absolute ["work", ".linestatrc.json"] = "/work/.linestatrc.json" := by
        decide
      have start : (projectPlace config ignored others).directory = "/" := rfl
      rw [path (by decide), start, Config.ofFile, Store.readJson, read, written]
      cases parsed : Json.parse? (Text.decodeLossy (Text.encode config)) with
      | none =>
          rw [parsed] at configured
          cases configured
      | some value =>
          rw [parsed] at configured
          simp only [parsed]
          exact configured
    listed := by
      refine ⟨some (Text.decodeLossy (Text.encode ignored)), ?_, listed⟩
      rw [path (by decide)]
      exact readText (by decide) (by decide +kernel) rfl
    options := rfl }

theorem visible_among_others {folders : List String} {name : String} {item : Item}
    (reached : (Item.directory (projectItems config ignored others)).at? (folders ++ [name]) =
      some item) (shown : Ignore.isHidden name = false) :
    (Item.directory others).at? (folders ++ [name]) = some item := by
  have onwards {first : String} {rest : List String}
      (reached : (Item.directory (projectItems config ignored others)).at? (first :: rest) =
        some item) (notConfig : first ≠ ".linestatrc.json") (notIgnored : first ≠ ".linestatignore") :
      (Item.directory others).at? (first :: rest) = some item := by
    rw [Item.at_cons_iff] at reached ⊢
    rw [projectItems, List.lookup_cons, List.lookup_cons, beq_eq_false_iff_ne.mpr notConfig,
      beq_eq_false_iff_ne.mpr notIgnored] at reached
    exact reached
  -- The two files are hidden, and no name leads on from them.
  cases folders with
  | nil =>
      apply onwards reached
      all_goals
        intro same
        subst same
        revert shown
        decide
  | cons first rest =>
      apply onwards reached
      all_goals
        intro same
        subst same
        cases rest <;> simp [projectItems, Item.at?, List.lookup] at reached

theorem project_files {spread : Spread}
    (given : spread.IsGiven (projectPlace config ignored others) (requestFor spread) Config.default)
    (named : (projectPlace config ignored others).store.top.WellNamed) {log : List Entry}
    {tree : DirStats Nat}
    (scans : Scans (projectPlace config ignored others) (requestFor spread) log tree) :
    ∃ plan : Plan, plan.extensions = [] ∧ (∀ name, name ∈ plan.ignored ↔ name ∈ spread.names) ∧
      ∀ file, file ∈ tree.allFiles ↔ ∃ folders name,
        (plan.survey (projectPlace config ignored others)).Finds (Path.absolute ["work"])
          (projectItems config ignored others) folders name file := by
  have resolved : (projectPlace config ignored others).store.find "/"
      (Path.resolve (projectPlace config ignored others).directory (requestFor spread).path) =
        .ok (.directory (projectItems config ignored others)) := by
    rw [project_root]
    exact project_root_found
  have files := scans.files given named resolved
  rw [project_root] at files
  exact files

/-- If all directories are left out, what is counted are visible entries of the project itself. -/
theorem counted_among_others {spread : Spread}
    (given : spread.IsGiven (projectPlace config ignored others) (requestFor spread) Config.default)
    (named : (projectPlace config ignored others).store.top.WellNamed)
    (leftOut : ∀ name inner, others.lookup name = some (.directory inner) → name ∈ spread.names)
    {log : List Entry} {tree : DirStats Nat}
    (scans : Scans (projectPlace config ignored others) (requestFor spread) log tree)
    {file : FileStats Nat} (held : file ∈ tree.allFiles) :
    ∃ name item method, others.lookup name = some item ∧ item.isDirectory = false ∧
      Method.select Language.builtinRegistry name = some method ∧
      file = method.analyze Language.builtinRegistry (Path.absolute ["work", name])
        ((projectPlace config ignored others).store.readSource "/"
          (Path.absolute ["work", name])).1 := by
  obtain ⟨plan, _, ignoredNames, found⟩ := project_files given named scans
  obtain ⟨folders, name, method, wanted, _, analyzed⟩ := (found file).mp held
  obtain ⟨item, reached, leads⟩ := wanted.present
  have among := visible_among_others reached wanted.visible
  cases folders with
  | nil =>
      obtain ⟨next, looked, same⟩ := (Item.at_cons_iff others name [] item).mp among
      rw [Item.at?, Option.some.injEq] at same
      subst same
      have inProject : (Item.directory (projectItems config ignored others)).WellNamed :=
        Store.find_well_named named project_root_found
      have namePlain := inProject.place_plain reached name (by simp)
      have path : Survey.pathBelow (Path.absolute ["work"]) ([] ++ [name]) =
          Path.absolute ["work", name] := Path.join_absolute ["work"] name (by decide) namePlain
      rw [(reads_of_plan plan _).analyzes, path, Except.ok.injEq] at analyzed
      refine ⟨name, next, method, looked, ?_, wanted.selected, analyzed.symm⟩
      cases next with
      | directory inner => exact leads.elim
      | file bytes => rfl
      | link target => rfl
  | cons folder rest =>
      obtain ⟨next, looked, further⟩ := (Item.at_cons_iff others folder _ item).mp among
      obtain ⟨inner, rfl⟩ : ∃ inner, next = .directory inner := by
        cases rest <;> exact Item.directory_of_at_cons further
      have entered := wanted.entered folder List.mem_cons_self
      have given := (ignoredNames folder).mpr (leftOut folder inner looked)
      change Ignore.skips plan.ignored folder = false at entered
      rw [Ignore.skips_of_mem given] at entered
      cases entered

end

/-! ### One set of names, spread in two ways -/

def filedItems : List (String × Item) :=
  [("a", .directory [("x.md", .file [])]), ("c.md", .file [])]

section

variable {config ignored : String}

theorem filed_well_named : (projectPlace config ignored filedItems).store.top.WellNamed := by
  simp only [Store.top, projectPlace, projectItems, filedItems, Item.WellNamed, Item.AllWellNamed,
    List.map_cons, List.map_nil]
  decide

theorem filed_path {spread : Spread}
    (given : spread.IsGiven (projectPlace config ignored filedItems) (requestFor spread)
      Config.default) (leftOut : "a" ∈ spread.names) {log : List Entry} {tree : DirStats Nat}
    (scans : Scans (projectPlace config ignored filedItems) (requestFor spread) log tree)
    {file : FileStats Nat} (held : file ∈ tree.allFiles) : file.path = "/work/c.md" := by
  have entries {name : String} {item : Item} (looked : filedItems.lookup name = some item) :
      name = "a" ∧ item.isDirectory = true ∨ name = "c.md" ∧ item.isDirectory = false := by
    have entry := Item.lookup_eq_some_iff_mem (by decide) name item |>.mp looked
    simp only [filedItems, List.mem_cons, Prod.mk.injEq, List.not_mem_nil, or_false] at entry
    rcases entry with ⟨rfl, rfl⟩ | ⟨rfl, rfl⟩
    · exact .inl ⟨rfl, rfl⟩
    · exact .inr ⟨rfl, rfl⟩
  have directories : ∀ name inner, filedItems.lookup name = some (.directory inner) →
      name ∈ spread.names := by
    intro name inner looked
    rcases entries looked with ⟨rfl, _⟩ | ⟨_, notDirectory⟩
    · exact leftOut
    · cases notDirectory
  obtain ⟨name, item, method, looked, notDirectory, _, rfl⟩ :=
    counted_among_others given filed_well_named directories scans held
  rw [Survey.path_of_analyze]
  rcases entries looked with ⟨_, isDirectory⟩ | ⟨rfl, _⟩
  · rw [isDirectory] at notDirectory
    cases notDirectory
  · decide

end

def filedSpread : Spread := ⟨["a"], ["b"], []⟩

def listedSpread : Spread := ⟨[], ["a", "b", "a"], ["b"]⟩

theorem filed_and_listed_names_give_one_tree :
    let place := projectPlace "\x7b\"ignore\": [\"a\"]\x7d" "b" filedItems
    let other := projectPlace "\x7b\x7d" "a\nb\n# more\n  a" filedItems
    let removed := [["work", ".linestatrc.json"], ["work", ".linestatignore"]]
    place.store.top.WellNamed ∧ other.store.top.WellNamed ∧
    filedSpread.IsGiven place (requestFor filedSpread) Config.default ∧
    listedSpread.IsGiven other (requestFor listedSpread) Config.default ∧
    (∀ name, name ∈ listedSpread.names ↔ name ∈ filedSpread.names) ∧
    other.store.without removed = place.store.without removed ∧
    ∃ log otherLog tree, Scans place (requestFor filedSpread) log tree ∧
      Scans other (requestFor listedSpread) otherLog tree ∧
      ∀ file ∈ tree.allFiles, Survey.KeepsClear "/work" filedSpread.names file := by
  intro place other removed
  have placeGiven : filedSpread.IsGiven place (requestFor filedSpread) Config.default :=
    project_given (by decide) (by cbv) (by
      have text : Text.decodeLossy (Text.encode "b") = "b" := by cbv
      rw [text]
      decide)
  have otherGiven : listedSpread.IsGiven other (requestFor listedSpread) Config.default :=
    project_given (by decide) (by cbv) (by
      have text : Text.decodeLossy (Text.encode "a\nb\n# more\n  a") = "a\nb\n# more\n  a" := by cbv
      rw [text]
      decide)
  have sameNames : ∀ name, name ∈ listedSpread.names ↔ name ∈ filedSpread.names := by
    intro name
    simp only [listedSpread, filedSpread, Spread.names, List.nil_append, List.cons_append,
      List.mem_cons, List.not_mem_nil, or_false]
    grind
  have left : place.store.without removed = ⟨[("work", .directory filedItems)]⟩ := by rfl
  have otherLeft : other.store.without removed = place.store.without removed := by rfl
  have document : (place.store.without removed).find "/" "/work/c.md" = .ok (.file []) := by
    rw [left]
    cbv
  obtain ⟨log, tree, scans, clear, interchange⟩ := ignore_names_interchange place filed_well_named
    (requestFor filedSpread) Config.default filedSpread placeGiven
  obtain ⟨otherLog, otherTree, otherScans, same⟩ := interchange other.store listedSpread removed
    filed_well_named otherGiven sameNames otherLeft
  have oneTree : otherTree = tree := by
    apply same
    intro file held
    have path : file.path = "/work/c.md" := by
      rcases List.mem_append.mp held with here | there
      · exact filed_path placeGiven (by decide) scans here
      · exact filed_path otherGiven (by decide) otherScans there
    rw [path]
    exact ⟨[], document⟩
  have root : Path.resolve place.directory (requestFor filedSpread).path = "/work" := by cbv
  rw [root] at clear
  rw [oneTree] at otherScans
  exact ⟨filed_well_named, filed_well_named, placeGiven, otherGiven, sameNames, otherLeft,
    log, otherLog, tree, scans, otherScans, clear⟩

/-! ### A link to the ignore file -/

def linkedItems : List (String × Item) := [("names.md", .link ".linestatignore")]

section

variable {config ignored : String}

theorem linked_well_named : (projectPlace config ignored linkedItems).store.top.WellNamed := by
  simp only [Store.top, projectPlace, projectItems, linkedItems, Item.WellNamed, Item.AllWellNamed,
    List.map_cons, List.map_nil]
  decide

theorem link_found :
    (projectPlace config ignored linkedItems).store.find "/" (Path.absolute ["work", "names.md"]) =
      .ok (.file (Text.encode ignored)) := by
  let store := (projectPlace config ignored linkedItems).store
  have top : store.top.at? ([] : List String).reverse =
      some (.directory [("work", .directory (projectItems config ignored linkedItems))]) := rfl
  have inside : store.top.at? ["work"].reverse =
      some (.directory (projectItems config ignored linkedItems)) := rfl
  have toProject : store.follow .follow false 40 [] ["work", "names.md"] =
      store.follow .follow false 40 ["work"] ["names.md"] := by
    rw [Store.follow_entry 40 top (by decide), if_neg (by decide)]
    rfl
  have throughLink : store.follow .follow false 40 ["work"] ["names.md"] =
      store.follow .follow false 39 ["work"] [".linestatignore"] := by
    have target : Store.namesOf ".linestatignore" ++ [] = [".linestatignore"] := by cbv
    have relative : Path.isAbsolute ".linestatignore".toList = false := by decide
    rw [Store.follow_entry 40 inside (by decide), if_neg (by decide)]
    have looked : (projectItems config ignored linkedItems).lookup "names.md" =
        some (.link ".linestatignore") := rfl
    simp only [looked, relative, target, Bool.false_eq_true, if_false]
  have toFile : store.follow .follow false 39 ["work"] [".linestatignore"] =
      .ok ["work", ".linestatignore"] :=
    Store.follow_standing 39 inside rfl (by simp) (by decide) (by decide +kernel)
  have located : store.locate .follow false "/" (Path.absolute ["work", "names.md"]) =
      .ok ["work", ".linestatignore"] := by
    rw [Store.locate_absolute _ (by decide), Store.linkBound, toProject, throughLink, toFile]
  rw [Store.find, located]
  rfl

theorem link_read :
    ((projectPlace config ignored linkedItems).store.readSource "/"
      (Path.absolute ["work", "names.md"])).1 = (Text.decode (Text.encode ignored)).1 := by
  rw [Store.readSource, Store.readBytes, link_found]

variable {spread : Spread} {log : List Entry} {tree : DirStats Nat}
  (given : spread.IsGiven (projectPlace config ignored linkedItems) (requestFor spread)
    Config.default)
  (scans : Scans (projectPlace config ignored linkedItems) (requestFor spread) log tree)

include given scans

/-- The link is counted, with the lines of the ignore file. -/
theorem link_counted :
    Method.markdown.analyze Language.builtinRegistry (Path.absolute ["work", "names.md"])
      (Text.decode (Text.encode ignored)).1 ∈ tree.allFiles := by
  obtain ⟨plan, extensions, _, found⟩ := project_files given linked_well_named scans
  have joined : Path.join (Path.absolute ["work"]) "names.md" = Path.absolute ["work", "names.md"] :=
    Path.join_absolute ["work"] "names.md" (by decide) (by decide)
  have unlimited : (plan.survey (projectPlace config ignored linkedItems)).extensions = none :=
    congrArg Extensions.restriction extensions
  have leads : (plan.survey (projectPlace config ignored linkedItems)).LeadsToFile
      (Path.join (Path.absolute ["work"]) "names.md") (.link ".linestatignore") := by
    rw [joined]
    exact ⟨_, Store.status_of_find link_found⟩
  have selected : Method.select Language.builtinRegistry "names.md" = some .markdown := by decide
  have chosen : (plan.survey (projectPlace config ignored linkedItems)).methodFor "names.md" =
      some .markdown :=
    (Survey.method_for_eq_some_iff _ _ _).mpr ⟨by decide, by simp [unlimited], selected⟩
  refine (found _).mpr ⟨[], "names.md", (Survey.finds_here_iff rfl).mpr
    ⟨_, rfl, leads, .markdown, chosen, ?_⟩⟩
  rw [joined, (reads_of_plan plan _).analyzes]
  change Except.ok (Method.markdown.analyze Language.builtinRegistry _
    (Store.readSource _ "/" _).1) = _
  rw [link_read]

theorem only_link_counted {file : FileStats Nat} (held : file ∈ tree.allFiles) :
    file = Method.markdown.analyze Language.builtinRegistry (Path.absolute ["work", "names.md"])
      (Text.decode (Text.encode ignored)).1 := by
  have entries {name : String} {item : Item} (looked : linkedItems.lookup name = some item) :
      name = "names.md" ∧ item = .link ".linestatignore" := by
    have entry := Item.lookup_eq_some_iff_mem (by decide) name item |>.mp looked
    simpa [linkedItems] using entry
  have noDirectory : ∀ name inner, linkedItems.lookup name = some (.directory inner) →
      name ∈ spread.names := by
    intro name inner looked
    cases (entries looked).2
  obtain ⟨name, item, method, looked, _, chosen, rfl⟩ :=
    counted_among_others given linked_well_named noDirectory scans held
  obtain ⟨rfl, _⟩ := entries looked
  have selected : Method.select Language.builtinRegistry "names.md" = some .markdown := by decide
  rw [selected, Option.some.injEq] at chosen
  rw [link_read, chosen]

end

def onceListed : Spread := ⟨[], ["a"], []⟩

def twiceListed : Spread := ⟨[], ["a", "a"], []⟩

/-- A link shows the ignore file under a visible name. It is counted, with the lines that it has. -/
theorem linked_ignore_file_is_counted :
    let once := projectPlace "\x7b\x7d" "a" linkedItems
    let twice := projectPlace "\x7b\x7d" "a\na" linkedItems
    onceListed.IsGiven once (requestFor onceListed) Config.default ∧
    twiceListed.IsGiven twice (requestFor twiceListed) Config.default ∧
    requestFor onceListed = requestFor twiceListed ∧
    (∀ name, name ∈ twiceListed.names ↔ name ∈ onceListed.names) ∧
    twice.store.without [["work", ".linestatignore"]] =
      once.store.without [["work", ".linestatignore"]] ∧
    (∃ log tree, Scans once (requestFor onceListed) log tree) ∧
    (∃ log tree, Scans twice (requestFor twiceListed) log tree) ∧
    ¬∃ log otherLog tree, Scans once (requestFor onceListed) log tree ∧
      Scans twice (requestFor twiceListed) otherLog tree := by
  intro once twice
  have empty : Config.ofJson (Json.parse? (Text.decodeLossy (Text.encode "\x7b\x7d")))
      "/work/.linestatrc.json" = .ok { Config.default with ignore := [] } := by cbv
  have onceText : Text.decodeLossy (Text.encode "a") = "a" := by cbv
  have twiceText : Text.decodeLossy (Text.encode "a\na") = "a\na" := by cbv
  have onceGiven : onceListed.IsGiven once (requestFor onceListed) Config.default :=
    project_given (by decide) empty (by rw [onceText]; decide)
  have twiceGiven : twiceListed.IsGiven twice (requestFor twiceListed) Config.default :=
    project_given (by decide) empty (by rw [twiceText]; decide)
  refine ⟨onceGiven, twiceGiven, rfl, by simp [onceListed, twiceListed, Spread.names], by rfl,
    onceGiven.scans, twiceGiven.scans, ?_⟩
  intro common
  obtain ⟨log, otherLog, tree, onceScans, twiceScans⟩ := common
  have held := link_counted twiceGiven twiceScans
  have same := congrArg FileStats.total (only_link_counted onceGiven onceScans held)
  have total (text : String) : (Method.markdown.analyze Language.builtinRegistry
      (Path.absolute ["work", "names.md"]) text).total = (Text.splitLines .text text).length := rfl
  have onceLines : (Text.splitLines .text (Text.decode (Text.encode "a")).1).length = 1 := by cbv
  have twiceLines : (Text.splitLines .text (Text.decode (Text.encode "a\na")).1).length = 2 := by
    cbv
  rw [total, total, onceLines, twiceLines] at same
  cases same

end Command

end LineCensus
