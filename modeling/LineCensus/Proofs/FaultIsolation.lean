import LineCensus.Proofs.Warnings

/-!
What faults do to a scan. A scan comes to its end whatever files cannot be analyzed and whatever
directories cannot be listed, and it gives the tree that it would give if these files were not there
and these directories were empty; of the faults that it meets it warns, and of nothing else.

That is so as far as the links that are left lead to files where they did. A link may lead through a
directory that cannot be listed to a file that can be analyzed: the scan counts that file, which is
gone once the directory is empty.
-/

namespace LineCensus

set_option autoImplicit false

open Stats (FileStats DirStats)

/-! ### Equal finds -/

/-- Whether one visit or several find the same as others, without a warning. -/
structure Found.MatchesQuietly (calm found : Found) : Prop where
  files : calm.files = found.files
  directories : calm.directories = found.directories
  quiet : warningsOf calm.log = []

/-- What is found at the places that are left matches what is found at all of them if nothing is found
at the others. -/
theorem Found.MatchesQuietly.gather {α β : Type} (left : α → Option β) {calm : β → Found}
    {found : α → Found} {places : List α}
    (each : ∀ place ∈ places, MatchesQuietly ((left place).elim (.silent []) calm) (found place)) :
    MatchesQuietly (.gather ((places.filterMap left).map calm)) (.gather (places.map found)) := by
  induction places with
  | nil => exact ⟨rfl, rfl, rfl⟩
  | cons place rest ih =>
      have head := each place (by simp)
      have tail := ih fun other member => each other (List.mem_cons_of_mem place member)
      have joined {first behind : Found} {parts : List Found}
          (here : MatchesQuietly first (found place))
          (there : MatchesQuietly (.gather parts) behind) :
          MatchesQuietly (.gather (first :: parts))
            ⟨(found place).log ++ behind.log, (found place).files ++ behind.files,
              (found place).directories ++ behind.directories⟩ := by
        simp only [Found.gather, List.flatMap_cons] at there ⊢
        exact {
          files := by rw [here.files, ← there.files]
          directories := by rw [here.directories, ← there.directories]
          quiet := by rw [warnings_of_append, here.quiet, there.quiet]; rfl }
      cases kept : left place with
      | none =>
          rw [kept] at head
          rw [List.filterMap_cons_none kept]
          have gone := joined head tail
          simpa [Found.gather, Found.silent] using gone
      | some remainder =>
          rw [kept] at head
          rw [List.filterMap_cons_some kept]
          exact joined head tail

namespace Survey

/-! ### What remains without the faults -/

/-- Whether the file at a path is one that is analyzed by its name, and cannot be. -/
def failsOn (survey : Survey) (path name : String) : Bool :=
  match Method.select survey.registry name with
  | some method => !(survey.analyze method path).isOk
  | none => false

def followsToFile (survey : Survey) (path : String) : Bool :=
  match survey.status path with
  | .ok (some (.file _)) => true
  | _ => false

mutual

/-- What remains of the item at a path, without the files that cannot be analyzed and without all that
is in directories that cannot be listed. -/
def remains (survey : Survey) (path name : String) : Item → Option Item
  | .file bytes => if survey.failsOn path name then none else some (.file bytes)
  | .link target =>
    if survey.failsOn path name && survey.followsToFile path then none else some (.link target)
  | .directory items =>
    some (.directory (if (survey.refusal path).isSome then [] else survey.remainsAll path items))

def remainsAll (survey : Survey) (directory : String) : List (String × Item) → List (String × Item)
  | [] => []
  | (name, item) :: rest =>
    match survey.remains (Path.join directory name) name item with
    | some remainder => (name, remainder) :: survey.remainsAll directory rest
    | none => survey.remainsAll directory rest

end

def remainsIn (survey : Survey) (path : String) (items : List (String × Item)) :
    List (String × Item) :=
  if (survey.refusal path).isSome then [] else survey.remainsAll path items

def remainsOf (survey : Survey) (path : String) (entry : String × Item) : Option (String × Item) :=
  (survey.remains (Path.join path entry.1) entry.1 entry.2).map (entry.1, ·)

variable {survey : Survey}

theorem fails_on_iff (path name : String) : survey.failsOn path name = true ↔
    ∃ method failure, Method.select survey.registry name = some method ∧
      survey.analyze method path = .error failure := by
  unfold failsOn
  cases Method.select survey.registry name with
  | none => simp
  | some method =>
      cases analyzed : survey.analyze method path <;>
        simp [analyzed, Except.isOk, Except.toBool]

theorem follows_to_file_iff (path : String) : survey.followsToFile path = true ↔
    ∃ bytes, survey.status path = .ok (some (.file bytes)) := by
  unfold followsToFile
  split
  case h_1 bytes reached => simp [reached]
  case h_2 other =>
      constructor
      · intro never
        cases never
      · rintro ⟨bytes, reached⟩
        exact absurd reached (other bytes)

theorem remains_directory (path name : String) (items : List (String × Item)) :
    survey.remains path name (.directory items) = some (.directory (survey.remainsIn path items)) := by
  rw [remains, remainsIn]

theorem remains_in_refused {path : String} {failure : Failure}
    (refused : survey.refusal path = some failure) (items : List (String × Item)) :
    survey.remainsIn path items = [] := by
  simp [remainsIn, refused]

theorem remains_in_listed {path : String} (listed : survey.refusal path = none)
    (items : List (String × Item)) :
    survey.remainsIn path items = items.filterMap (survey.remainsOf path) := by
  have all : survey.remainsAll path items = items.filterMap (survey.remainsOf path) := by
    induction items with
    | nil => rw [remainsAll, List.filterMap_nil]
    | cons entry rest ih =>
        obtain ⟨name, item⟩ := entry
        rw [remainsAll, List.filterMap_cons, ih, remainsOf]
        cases survey.remains (Path.join path name) name item <;> rfl
  rw [remainsIn, listed, ← all]
  rfl

/-- What remains under a name is what remains of the item that it stands for. -/
theorem lookup_remains {path : String} (listed : survey.refusal path = none)
    {items : List (String × Item)} (distinct : (items.map Prod.fst).Nodup) {name : String}
    {item remainder : Item} (member : (name, item) ∈ items)
    (kept : survey.remains (Path.join path name) name item = some remainder) :
    (survey.remainsIn path items).lookup name = some remainder := by
  rw [remains_in_listed listed]
  apply (Item.lookup_eq_some_iff_mem ?_ name remainder).mpr
  · exact List.mem_filterMap.mpr ⟨_, member, by rw [remainsOf, kept]; rfl⟩
  · refine List.pairwise_map.mpr (List.Pairwise.filterMap _ ?_ (List.pairwise_map.mp distinct))
    intro a b different left fromA right fromB
    obtain ⟨_, _, rfl⟩ := Option.map_eq_some_iff.mp fromA
    obtain ⟨_, _, rfl⟩ := Option.map_eq_some_iff.mp fromB
    exact different

/-! ### Calm surveys -/

/-- Whether a survey goes about a project as another does, with every directory listed. -/
structure Calms (calm survey : Survey) : Prop where
  methods : calm.methodFor = survey.methodFor
  ignored : calm.ignored = survey.ignored
  listed : ∀ path, calm.refusal path = none

/-- Whether all that a walk comes by among some items is to one survey what it is to another: links
lead to files where they do, and files that can be analyzed give the same. -/
structure Agrees (calm survey : Survey) (root : String) (items : List (String × Item)) : Prop where
  links : ∀ folders name method target,
    (∀ folder ∈ folders, Ignore.skips survey.ignored folder = false) →
    survey.methodFor name = some method →
    (Item.directory items).at? (folders ++ [name]) = some (.link target) →
      (calm.LeadsToFile (pathBelow root (folders ++ [name])) (.link target) ↔
        survey.LeadsToFile (pathBelow root (folders ++ [name])) (.link target))
  analyzed : ∀ folders name method file, survey.Wants root items folders name method →
    survey.analyze method (pathBelow root (folders ++ [name])) = .ok file →
      calm.analyze method (pathBelow root (folders ++ [name])) = .ok file

variable {calm : Survey} {root path name : String} {left : List (String × Item)}

theorem Agrees.below {items inner : List (String × Item)} (agrees : Agrees calm survey root items)
    (looked : items.lookup name = some (.directory inner))
    (entered : Ignore.skips survey.ignored name = false) :
    Agrees calm survey (Path.join root name) inner where
  links := by
    intro folders last method target allEntered chosen present
    exact agrees.links (name :: folders) last method target (by simpa using ⟨entered, allEntered⟩)
      chosen ((Item.at_cons_iff items name _ _).mpr ⟨_, looked, present⟩)
  analyzed := by
    intro folders last method file wanted
    exact agrees.analyzed (name :: folders) last method file
      ((wants_below_iff name).mpr ⟨inner, looked, entered, wanted⟩)

theorem Agrees.link_iff (agrees : Agrees calm survey root left) {target : String} {method : Method}
    (looked : left.lookup name = some (.link target))
    (chosen : survey.methodFor name = some method) :
    (∃ bytes, calm.status (Path.join root name) = .ok (some (.file bytes))) ↔
      ∃ bytes, survey.status (Path.join root name) = .ok (some (.file bytes)) :=
  agrees.links [] name method target (by simp) chosen
    ((Item.at_cons_iff left name [] _).mpr ⟨_, looked, rfl⟩)

theorem Agrees.analyzed_here (agrees : Agrees calm survey root left) {item : Item}
    (looked : left.lookup name = some item) (leads : survey.LeadsToFile (Path.join root name) item)
    (method : Method) (file : FileStats Nat) (chosen : survey.methodFor name = some method) :
    survey.analyze method (Path.join root name) = .ok file →
      calm.analyze method (Path.join root name) = .ok file :=
  agrees.analyzed [] name method file (wants_here_iff.mpr ⟨item, looked, leads, chosen⟩)

/-! ### Two visits -/

theorem visit_file_lost (lost : survey.failsOn path name = true) :
    ∃ log, survey.visitFile path name = .silent log := by
  obtain ⟨method, failure, selected, failed⟩ := (fails_on_iff path name).mp lost
  cases chosen : survey.methodFor name with
  | none => exact ⟨[], visit_file_passed_over chosen path⟩
  | some other =>
      have same := ((survey.method_for_eq_some_iff name other).mp chosen).2.2
      rw [selected, Option.some.injEq] at same
      subst same
      exact ⟨_, visit_file_failed chosen failed⟩

theorem visit_link_passed_over (passed : survey.methodFor name = none) (path : String) :
    ∃ log, survey.visitLink path name = .silent log ∧ warningsOf log = [] := by
  rcases survey.visit_link_eq path name with ⟨leads, same⟩ | ⟨astray, _⟩
  · exact ⟨[], by rw [same, visit_file_passed_over passed], rfl⟩
  · exact visit_link_astray astray name

section

variable (calms : calm.Calms survey)

include calms

theorem visit_file_matches (lasting : survey.failsOn path name = false)
    (analyzed : ∀ method file, survey.methodFor name = some method →
      survey.analyze method path = .ok file → calm.analyze method path = .ok file) :
    (calm.visitFile path name).MatchesQuietly (survey.visitFile path name) := by
  have sameMethod : calm.methodFor name = survey.methodFor name := by rw [calms.methods]
  cases chosen : survey.methodFor name with
  | none =>
      rw [visit_file_passed_over chosen, visit_file_passed_over (sameMethod.trans chosen)]
      exact ⟨rfl, rfl, rfl⟩
  | some method =>
      cases given : survey.analyze method path with
      | ok file =>
          have calmly := analyzed method file chosen given
          rw [visit_file_analyzed chosen given,
            visit_file_analyzed (sameMethod.trans chosen) calmly]
          exact ⟨rfl, rfl, rfl⟩
      | error failure =>
          have selected := ((survey.method_for_eq_some_iff name method).mp chosen).2.2
          have lost := (fails_on_iff path name).mpr ⟨method, failure, selected, given⟩
          rw [lasting] at lost
          cases lost

/-- A link that remains is followed to a file without faults if it is with them. -/
theorem visit_link_matches {target : String} (agrees : calm.Agrees survey root left)
    (looked : left.lookup name = some (.link target))
    (lasting : (survey.failsOn (Path.join root name) name &&
      survey.followsToFile (Path.join root name)) = false) :
    (calm.visitLink (Path.join root name) name).MatchesQuietly
      (survey.visitLink (Path.join root name) name) := by
  have sameMethod : calm.methodFor name = survey.methodFor name := by rw [calms.methods]
  cases chosen : survey.methodFor name with
  | none =>
      -- Nothing is analyzed under this name, wherever the links lead.
      obtain ⟨log, found, _⟩ := visit_link_passed_over chosen (Path.join root name)
      obtain ⟨calmLog, calmFound, quiet⟩ :=
        visit_link_passed_over (sameMethod.trans chosen) (Path.join root name)
      rw [found, calmFound]
      exact ⟨rfl, rfl, quiet⟩
  | some method =>
      -- The link is still there, so it has to lead to a file in both or in neither.
      have sameWay := agrees.link_iff looked chosen
      rcases survey.visit_link_eq (Path.join root name) name with
        ⟨leads, found⟩ | ⟨astray, log, found⟩
      · rcases calm.visit_link_eq (Path.join root name) name with ⟨_, calmFound⟩ | ⟨calmAstray, _⟩
        · rw [found, calmFound]
          rw [(follows_to_file_iff _).mpr leads, Bool.and_true] at lasting
          exact visit_file_matches calms lasting (agrees.analyzed_here looked leads)
        · exact absurd (sameWay.mpr leads) calmAstray
      · have calmAstray := fun leads => astray (sameWay.mp leads)
        obtain ⟨calmLog, calmFound, quiet⟩ := visit_link_astray calmAstray name
        rw [found, calmFound]
        exact ⟨rfl, rfl, quiet⟩

/-- What is found at what remains of an entry matches what is found at the entry, provided that the
walks through the directory that it is do. -/
theorem visit_matches {item : Item} (agrees : calm.Agrees survey root left)
    (looked : ∀ remainder, survey.remains (Path.join root name) name item = some remainder →
      left.lookup name = some remainder)
    (below : ∀ inner, item = .directory inner →
      calm.Agrees survey (Path.join root name) (survey.remainsIn (Path.join root name) inner) →
      (calm.walk (Path.join root name) (survey.remainsIn (Path.join root name) inner)).2 =
        (survey.walk (Path.join root name) inner).2 ∧
      warningsOf (calm.walk (Path.join root name)
        (survey.remainsIn (Path.join root name) inner)).1 = []) :
    ((survey.remains (Path.join root name) name item).elim (.silent [])
        (calm.visit (Path.join root name) name)).MatchesQuietly
      (survey.visit (Path.join root name) name item) := by
  cases item with
  | file bytes =>
      by_cases fails : survey.failsOn (Path.join root name) name = true
      · obtain ⟨log, lost⟩ := visit_file_lost fails
        rw [remains, if_pos fails, visit, lost]
        exact ⟨rfl, rfl, rfl⟩
      · rw [remains, if_neg fails] at looked ⊢
        rw [Option.elim_some, visit, visit]
        exact visit_file_matches calms (by simpa using fails)
          (agrees.analyzed_here (looked _ rfl) trivial)
  | link target =>
      by_cases fails : (survey.failsOn (Path.join root name) name &&
          survey.followsToFile (Path.join root name)) = true
      · rw [remains, if_pos fails, visit]
        obtain ⟨failed, leads⟩ := Bool.and_eq_true_iff.mp fails
        rcases survey.visit_link_eq (Path.join root name) name with ⟨_, found⟩ | ⟨astray, _⟩
        · obtain ⟨log, lost⟩ := visit_file_lost failed
          rw [found, lost]
          exact ⟨rfl, rfl, rfl⟩
        · exact absurd ((follows_to_file_iff _).mp leads) astray
      · rw [remains, if_neg fails] at looked ⊢
        rw [Option.elim_some, visit, visit]
        exact visit_link_matches calms agrees (looked _ rfl) (by simpa using fails)
  | directory inner =>
      rw [remains_directory] at looked ⊢
      rw [Option.elim_some, visit_directory, visit_directory, calms.ignored]
      by_cases skipped : Ignore.skips survey.ignored name = true
      · rw [if_pos skipped, if_pos skipped]
        exact ⟨rfl, rfl, warnings_of_debug _ _⟩
      · rw [if_neg skipped, if_neg skipped]
        obtain ⟨sameNode, quiet⟩ := below inner rfl
          (agrees.below (looked _ rfl) (by simpa using skipped))
        exact ⟨rfl, by rw [keep, keep, sameNode], quiet⟩

/-- A walk through what remains of a directory gives the node that a walk through the directory gives,
and warns of nothing. The induction is on the directory, for each path under which it may be walked. -/
theorem walk_isolates (items : List (String × Item)) (named : (Item.directory items).WellNamed)
    (root : String) (agrees : calm.Agrees survey root (survey.remainsIn root items)) :
    (calm.walk root (survey.remainsIn root items)).2 = (survey.walk root items).2 ∧
      warningsOf (calm.walk root (survey.remainsIn root items)).1 = [] := by
  induction items using Item.directory_induction generalizing root with
  | step items ih =>
      cases refused : survey.refusal root with
      | some failure =>
          have nothing : calm.findings root [] = ⟨[], [], []⟩ := by
            rw [findings, byName, List.mergeSort_nil]
            rfl
          rw [remains_in_refused refused, walk_in_order calm root [] (calms.listed root), nothing,
            walk, refused]
          exact ⟨rfl, rfl⟩
      | none =>
          have inOrder : byName (survey.remainsIn root items) =
              (byName items).filterMap (survey.remainsOf root) := by
            rw [remains_in_listed refused]
            exact by_name_filter_map _ named.distinct
          have matching : (calm.findings root (survey.remainsIn root items)).MatchesQuietly
              (survey.findings root items) := by
            rw [findings, findings, inOrder]
            apply Found.MatchesQuietly.gather
            rintro ⟨name, item⟩ listed
            have member := mem_by_name.mp listed
            rw [remainsOf, Option.elim_map]
            refine visit_matches calms agrees
              (fun remainder => lookup_remains refused named.distinct member) ?_
            rintro inner rfl
            exact ih name inner member (named.inside member) _
          rw [walk_in_order calm root _ (calms.listed root), walk_in_order survey root items refused]
          exact ⟨by rw [matching.files, matching.directories], matching.quiet⟩

end

/-! ### Scans -/

/-- The survey of another file system with another analysis, in which every directory can be
listed. -/
def undisturbed (survey : Survey) (rest : Store)
    (analyze : Method → String → Except Failure (FileStats Nat)) : Survey :=
  { survey with status := rest.status "/", analyze, refusal := fun _ => none }

/-- Whatever files cannot be analyzed and whatever directories cannot be listed, a scan of a directory
comes to its end. It warns once of each fault that it meets, in the order of their places, and of
nothing else. Its tree is the one that a scan without faults gives in a file system where the root
leads to what remains of the directory, provided that the links that remain there lead to files where
they did. -/
theorem scan_isolates_faults (store : Store) (storeNamed : store.top.WellNamed) (survey : Survey)
    (follows : survey.status = store.status "/") (directory path : String)
    (items : List (String × Item))
    (resolved : store.find "/" (Path.resolve directory path) = .ok (.directory items)) :
    let root := Path.resolve directory path
    ∃ log tree, survey.scan root = .ok (log, tree) ∧
      (∃ faults, survey.Recounts log faults (survey.Meets root items)) ∧
      ∀ (rest : Store) (analyze : Method → String → Except Failure (FileStats Nat)),
        rest.find "/" root = .ok (.directory (survey.remainsIn root items)) →
        (survey.undisturbed rest analyze).Agrees survey root (survey.remainsIn root items) →
          ∃ calmLog, (survey.undisturbed rest analyze).scan root = .ok (calmLog, tree) ∧
            warningsOf calmLog = [] := by
  intro root
  have named := Store.find_well_named storeNamed resolved
  have reached : survey.status root = .ok (some (.directory items)) := by
    rw [follows]
    exact Store.status_of_find resolved
  clear_value root
  have scanned := survey.scan_of_root_items root items (root_items_of_status _ _ items reached)
  refine ⟨_, _, scanned, walk_recounts items named root, ?_⟩
  intro rest analyze left agrees
  have calms : (survey.undisturbed rest analyze).Calms survey := ⟨rfl, rfl, fun _ => rfl⟩
  have rooted : rootItems (survey.undisturbed rest analyze).status root =
      .ok (survey.remainsIn root items) :=
    root_items_of_status _ _ _ (Store.status_of_find left)
  obtain ⟨sameNode, quiet⟩ := walk_isolates calms items named root agrees
  have calmly := (survey.undisturbed rest analyze).scan_of_root_items root _ rooted
  rw [sameNode] at calmly
  exact ⟨_, calmly, quiet⟩

/-! ### A project with faults -/

/-- Two documents, of which one cannot be analyzed, a link to the other, and a directory that cannot be
listed. -/
def faultyItems : List (String × Item) := [
  ("b.md", .link "a.md"), ("broken.md", .file []), ("a.md", .file []),
  ("shut", .directory [("c.md", .file [])])]

def faultyStore : Store := ⟨[("work", .directory faultyItems)]⟩

def faultySurvey : Survey :=
  { Survey.ofStore faultyStore Language.builtinRegistry [] [] (.standard .plain) with
    analyze := fun method path =>
      if path == "/work/broken.md" then .error (.plain "broken")
      else .ok (method.analyze Language.builtinRegistry path (faultyStore.readSource "/" path).1)
    refusal := fun path => if path == "/work/shut" then some (.plain "shut") else none }

def soundItems : List (String × Item) :=
  [("b.md", .link "a.md"), ("a.md", .file []), ("shut", .directory [])]

def soundStore : Store := ⟨[("work", .directory soundItems)]⟩

theorem faulty_store_well_named : faultyStore.top.WellNamed := by
  simp only [Store.top, faultyStore, faultyItems, Item.WellNamed, Item.AllWellNamed]
  decide

theorem faulty_project_remains : faultySurvey.remainsIn "/work" faultyItems = soundItems := by
  rfl

theorem sound_project_agrees :
    (faultySurvey.undisturbed soundStore faultySurvey.analyze).Agrees faultySurvey "/work"
      soundItems where
  links := by
    intro folders name method target _ _ present
    have distinct : (soundItems.map Prod.fst).Nodup := by decide
    cases folders with
    | nil =>
        obtain ⟨item, looked, same⟩ := (Item.at_cons_iff soundItems name [] _).mp present
        obtain rfl : item = .link target := by simpa [Item.at?] using same
        have member := (Item.lookup_eq_some_iff_mem distinct name _).mp looked
        obtain ⟨rfl, rfl⟩ : name = "b.md" ∧ target = "a.md" := by simpa [soundItems] using member
        have place : pathBelow "/work" ([] ++ ["b.md"]) = "/work/b.md" := by decide
        rw [place]
        have before : faultyStore.find "/" "/work/b.md" = .ok (.file []) := by cbv
        have behind : soundStore.find "/" "/work/b.md" = .ok (.file []) := by cbv
        exact ⟨fun _ => ⟨[], Store.status_of_find before⟩, fun _ => ⟨[], Store.status_of_find behind⟩⟩
    | cons folder folders =>
        obtain ⟨item, looked, further⟩ := (Item.at_cons_iff soundItems folder _ _).mp present
        have member := (Item.lookup_eq_some_iff_mem distinct folder item).mp looked
        have kinds : item = .link "a.md" ∨ item = .file [] ∨ item = .directory [] := by
          simp only [soundItems, List.mem_cons, Prod.mk.injEq, List.not_mem_nil, or_false] at member
          tauto
        rcases kinds with rfl | rfl | rfl <;> cases folders <;> simp [Item.at?] at further
  analyzed := fun _ _ _ _ _ analyzed => analyzed

theorem faulty_project_scans_as_sound :
    faultyStore.top.WellNamed ∧ faultySurvey.status = faultyStore.status "/" ∧
    faultyStore.find "/" (Path.resolve "/" "work") = .ok (.directory faultyItems) ∧
    soundStore.find "/" (Path.resolve "/" "work") =
      .ok (.directory (faultySurvey.remainsIn (Path.resolve "/" "work") faultyItems)) ∧
    let root := Path.resolve "/" "work"
    ∃ log tree, faultySurvey.scan root = .ok (log, tree) ∧
      (∃ faults, faultySurvey.Recounts log faults (faultySurvey.Meets root faultyItems)) ∧
      ∃ calmLog,
        (faultySurvey.undisturbed soundStore faultySurvey.analyze).scan root = .ok (calmLog, tree) ∧
        warningsOf calmLog = [] := by
  have rootPath : Path.resolve "/" "work" = "/work" := by decide
  have resolved : faultyStore.find "/" (Path.resolve "/" "work") =
      .ok (.directory faultyItems) := by cbv
  have left : soundStore.find "/" (Path.resolve "/" "work") =
      .ok (.directory (faultySurvey.remainsIn (Path.resolve "/" "work") faultyItems)) := by
    rw [rootPath, faulty_project_remains]
    cbv
  obtain ⟨log, tree, scanned, recounted, isolated⟩ := scan_isolates_faults faultyStore
    faulty_store_well_named faultySurvey rfl "/" "work" faultyItems resolved
  refine ⟨faulty_store_well_named, rfl, resolved, left, log, tree, scanned, recounted,
    isolated soundStore faultySurvey.analyze left ?_⟩
  rw [rootPath, faulty_project_remains]
  exact sound_project_agrees

/-! ### A link into a directory that cannot be listed -/

def lockedItems : List (String × Item) :=
  [("b.md", .link "l/a.md"), ("l", .directory [("a.md", .file [])])]

def lockedStore : Store := ⟨lockedItems⟩

def lockedSurvey : Survey :=
  { Survey.ofStore lockedStore Language.builtinRegistry [] [] (.standard .plain) with
    refusal := fun path =>
      if path == "/l" then some (.file ⟨.denied, "scandir", some "/l"⟩) else none }

def emptiedItems : List (String × Item) := [("b.md", .link "l/a.md"), ("l", .directory [])]

def emptiedStore : Store := ⟨emptiedItems⟩

theorem locked_walk_counts : (lockedSurvey.walk "/" lockedItems).2.fileCount ≠ 0 := by
  have found : lockedStore.find "/" "/b.md" = .ok (.file []) := by cbv
  have joined : Path.join "/" "b.md" = "/b.md" := by decide
  have leads : lockedSurvey.LeadsToFile (Path.join "/" "b.md") (.link "l/a.md") := by
    rw [joined]
    exact ⟨[], Store.status_of_find found⟩
  have chosen : lockedSurvey.methodFor "b.md" = some .markdown := by decide
  exact walk_filled_of_entry (by decide) (by simp [lockedItems]) leads chosen rfl

def emptiedSurvey : Survey :=
  .ofStore emptiedStore Language.builtinRegistry [] [] (.standard .plain)

theorem emptied_walk_counts : (emptiedSurvey.walk "/" emptiedItems).2.fileCount = 0 := by
  have distinct : (emptiedItems.map Prod.fst).Nodup := by decide
  have named : (Item.directory emptiedItems).WellNamed := by
    simp only [emptiedItems, Item.WellNamed, Item.AllWellNamed]
    decide
  have lost : emptiedStore.find "/" "/b.md" = .error .missing := by cbv
  have nothing : emptiedSurvey.status (Path.join "/" "b.md") = .ok none := by
    have joined : Path.join "/" "b.md" = "/b.md" := by decide
    have follows : emptiedSurvey.status = emptiedStore.status "/" := rfl
    rw [joined, follows, Store.status, lost]
  rw [← DirStats.holdings_eq_nil_iff, List.eq_nil_iff_forall_not_mem]
  intro held member
  rw [walk_holdings_iff (fun _ => rfl) emptiedItems named, belongs_iff] at member
  obtain ⟨name, item, looked, here⟩ := member
  have entry := (Item.lookup_eq_some_iff_mem distinct name item).mp looked
  obtain ⟨rfl, rfl⟩ | ⟨rfl, rfl⟩ : name = "b.md" ∧ item = .link "l/a.md" ∨
      name = "l" ∧ item = .directory [] := by simpa [emptiedItems] using entry
  · rcases here with ⟨⟨bytes, leads⟩, _⟩ | ⟨inner, isDirectory, _⟩
    · rw [nothing] at leads
      cases leads
    · cases isDirectory
  · rcases here with ⟨leads, _⟩ | ⟨inner, isDirectory, _, further⟩
    · exact leads
    · cases isDirectory
      obtain ⟨other, otherItem, found, _⟩ := belongs_iff held |>.mp further
      cases found

/-- The file that the link leads to is counted although its directory cannot be listed, and is not
counted once that directory is empty. -/
theorem locked_file_is_counted_through_link :
    lockedStore.find "/" "/" = .ok (.directory lockedItems) ∧
    emptiedStore.find "/" "/" = .ok (.directory (lockedSurvey.remainsIn "/" lockedItems)) ∧
    ¬∃ log calmLog tree, lockedSurvey.scan "/" = .ok (log, tree) ∧
      emptiedSurvey.scan "/" = .ok (calmLog, tree) := by
  have locked : lockedStore.find "/" "/" = .ok (.directory lockedItems) := by cbv
  have emptied : emptiedStore.find "/" "/" = .ok (.directory emptiedItems) := by cbv
  have remaining : lockedSurvey.remainsIn "/" lockedItems = emptiedItems := by rfl
  refine ⟨locked, by rw [remaining, emptied], ?_⟩
  rintro ⟨log, calmLog, tree, scanned, calmly⟩
  have lockedRoot : rootItems lockedSurvey.status "/" = .ok lockedItems :=
    root_items_of_status _ _ _ (Store.status_of_find locked)
  have emptiedRoot : rootItems emptiedSurvey.status "/" = .ok emptiedItems :=
    root_items_of_status _ _ _ (Store.status_of_find emptied)
  rw [scan_of_root_items _ _ _ lockedRoot, Except.ok.injEq, Prod.mk.injEq] at scanned
  rw [scan_of_root_items _ _ _ emptiedRoot, Except.ok.injEq, Prod.mk.injEq] at calmly
  apply locked_walk_counts
  rw [← DirStats.file_count_sort_by_size, scanned.2, ← calmly.2, DirStats.file_count_sort_by_size]
  exact emptied_walk_counts

end Survey

end LineCensus
