import LineCensus.Proofs.Items
import LineCensus.Proofs.Nodes
import LineCensus.Scan

/-!
What one step of a walk through a project does: what a visit to an entry finds, and how a directory is
put together from what was found in it. Every statement about whole walks starts from these.
-/

namespace LineCensus

set_option autoImplicit false

open Stats (FileStats DirStats)

namespace Found

/-- The files that were found, each with the path of the node that is to hold it; `here` is that of
the directory in which they were found. -/
def holdings (here : String) (found : Found) : List (String × FileStats Nat) :=
  found.files.map (here, ·) ++ found.directories.flatMap DirStats.holdings

def paths (found : Found) : List String :=
  found.files.map (·.path) ++ found.directories.flatMap DirStats.paths

end Found

theorem in_name_order_perm (parts : List (String × Found)) :
    (inNameOrder parts).Perm (parts.map Prod.snd) :=
  (List.mergeSort_perm _ _).map Prod.snd

namespace Survey

/-! ### Directories -/

theorem visit_all_eq_map (survey : Survey) (directory : String) (items : List (String × Item)) :
    survey.visitAll directory items =
      items.map fun entry =>
        (entry.1, survey.visit (Path.join directory entry.1) entry.1 entry.2) := by
  induction items with
  | nil => rw [visitAll, List.map_nil]
  | cons entry rest ih => rw [visitAll, ih, List.map_cons]

theorem visit_directory (survey : Survey) (path name : String) (items : List (String × Item)) :
    survey.visit path name (.directory items) =
      if Ignore.skips survey.ignored name then
        .silent (survey.logger.debug ("Ignoring directory " ++ path))
      else keep (survey.walk path items) := by
  rw [visit, walk]
  cases survey.refusal path <;> rfl

theorem walk_of_listed (survey : Survey) (path : String) (items : List (String × Item))
    (listed : survey.refusal path = none) :
    survey.walk path items = collect path (survey.visitAll path items) := by
  rw [walk, listed]

theorem root_items_of_status (status : String → Except FileError (Option Item)) (path : String)
    (items : List (String × Item)) (reached : status path = .ok (some (.directory items))) :
    rootItems status path = .ok items := by
  rw [rootItems, reached]

theorem scan_of_root_items (survey : Survey) (root : String) (items : List (String × Item))
    (rooted : rootItems survey.status root = .ok items) :
    survey.scan root =
      .ok ((survey.walk root items).1, (survey.walk root items).2.sortBySize) := by
  rw [scan, rooted]
  rfl

/-- A directory holds what was found in it, in whatever order. -/
theorem collect_holdings_perm (here : String) (parts : List (String × Found)) :
    (collect here parts).2.holdings.Perm (parts.flatMap fun part => part.2.holdings here) := by
  have inOrder : (collect here parts).2.holdings.Perm
      ((inNameOrder parts).flatMap (Found.holdings here)) := by
    rw [collect, Found.gather, DirStats.holdings_mk, List.map_flatMap, List.flatMap_assoc]
    exact List.flatMap_append_perm _ _ _
  refine inOrder.trans ?_
  rw [← List.flatMap_map Prod.snd (Found.holdings here)]
  exact (in_name_order_perm parts).flatMap_right _

theorem collect_paths_perm (here : String) (parts : List (String × Found)) :
    (collect here parts).2.paths.Perm (here :: parts.flatMap fun part => part.2.paths) := by
  have inOrder : (collect here parts).2.paths.Perm
      (here :: (inNameOrder parts).flatMap Found.paths) := by
    rw [collect, Found.gather]
    refine (DirStats.paths_mk_perm _ _ _).trans ?_
    rw [List.map_flatMap, List.flatMap_assoc]
    exact (List.flatMap_append_perm _ _ _).cons here
  refine inOrder.trans ?_
  rw [← List.flatMap_map Prod.snd Found.paths]
  exact ((in_name_order_perm parts).flatMap_right _).cons here

/-- A directory that is left out because no file is in it would have held nothing. -/
theorem keep_holdings (here : String) (outcome : List Entry × DirStats Nat) :
    (keep outcome).holdings here = outcome.2.holdings := by
  by_cases filled : 0 < outcome.2.fileCount
  · simp [keep, Found.holdings, filled]
  · have empty : outcome.2.holdings = [] :=
      (DirStats.holdings_eq_nil_iff _).mpr (by omega)
    simp [keep, Found.holdings, filled, empty]

theorem keep_directories (outcome : List Entry × DirStats Nat) (dir : DirStats Nat) :
    dir ∈ (keep outcome).directories ↔ dir = outcome.2 ∧ dir.fileCount ≠ 0 := by
  by_cases filled : 0 < outcome.2.fileCount
  · simp only [keep, filled, if_true, List.mem_singleton]
    constructor
    · rintro rfl
      exact ⟨rfl, by omega⟩
    · exact fun both => both.1
  · simp only [keep, filled, if_false, List.not_mem_nil, false_iff]
    rintro ⟨rfl, some⟩
    omega

/-! ### Files -/

/-- Whether what stands at a path is a file, or a link that leads to one. -/
def LeadsToFile (survey : Survey) (path : String) : Item → Prop
  | .file _ => True
  | .link _ => ∃ bytes, survey.status path = .ok (some (.file bytes))
  | .directory _ => False

theorem method_for_eq_some_iff (survey : Survey) (name : String) (method : Method) :
    survey.methodFor name = some method ↔
      Ignore.isHidden name = false ∧
      (∀ extensions, survey.extensions = some extensions →
        Language.extensionOf name ∈ extensions) ∧
      Method.select survey.registry name = some method := by
  unfold methodFor
  cases hidden : Ignore.isHidden name with
  | true => simp
  | false =>
      cases limit : survey.extensions with
      | none => simp
      | some extensions =>
          by_cases member : Language.extensionOf name ∈ extensions <;> simp [member]

theorem visit_file_passed_over {survey : Survey} {name : String}
    (passed : survey.methodFor name = none) (path : String) :
    survey.visitFile path name = .silent [] := by
  rw [visitFile, passed]

theorem visit_file_analyzed {survey : Survey} {path name : String} {method : Method}
    {file : FileStats Nat} (chosen : survey.methodFor name = some method)
    (analyzed : survey.analyze method path = .ok file) :
    survey.visitFile path name = ⟨[], [file], []⟩ := by
  rw [visitFile, chosen]
  simp only [analyzed]

theorem visit_file_failed {survey : Survey} {path name : String} {method : Method}
    {failure : Failure} (chosen : survey.methodFor name = some method)
    (failed : survey.analyze method path = .error failure) :
    survey.visitFile path name =
      .silent (survey.logger.warn ("Failed to analyze " ++ path ++ ": " ++ failure.message)) := by
  rw [visitFile, chosen]
  simp only [failed]

/-- A visit to a file, or to a link to a file, finds at most the file itself. -/
theorem visit_file_holdings (survey : Survey) (here path name : String)
    (held : String × FileStats Nat) :
    held ∈ (survey.visitFile path name).holdings here ↔
      ∃ method, survey.methodFor name = some method ∧ held.1 = here ∧
        survey.analyze method path = .ok held.2 := by
  obtain ⟨holder, file⟩ := held
  unfold visitFile
  cases chosen : survey.methodFor name with
  | none => simp [Found.silent, Found.holdings]
  | some method =>
      cases analyzed : survey.analyze method path with
      | error failure => simp [Found.silent, Found.holdings, analyzed]
      | ok stats => simp [Found.holdings, analyzed, eq_comm]

theorem visit_file_directories (survey : Survey) (path name : String) :
    (survey.visitFile path name).directories = [] := by
  unfold visitFile
  cases survey.methodFor name with
  | none => rfl
  | some method => cases analyzed : survey.analyze method path <;> simp [Found.silent, analyzed]

theorem visit_file_paths (survey : Survey) (path name : String) :
    (∃ method file, survey.analyze method path = .ok file ∧
        (survey.visitFile path name).paths = [file.path]) ∨
      (survey.visitFile path name).paths = [] := by
  unfold visitFile
  cases survey.methodFor name with
  | none => exact .inr rfl
  | some method =>
      cases analyzed : survey.analyze method path with
      | error failure => exact .inr (by simp [analyzed, Found.silent, Found.paths])
      | ok file => exact .inl ⟨method, file, analyzed, by simp [analyzed, Found.paths]⟩

theorem visit_link_eq (survey : Survey) (path name : String) :
    (∃ bytes, survey.status path = .ok (some (.file bytes))) ∧
        survey.visitLink path name = survey.visitFile path name ∨
      (¬∃ bytes, survey.status path = .ok (some (.file bytes))) ∧
        ∃ log, survey.visitLink path name = .silent log := by
  unfold visitLink
  cases reached : survey.status path with
  | error error => exact .inr ⟨by simp, _, rfl⟩
  | ok target =>
      cases target with
      | none => exact .inr ⟨by simp, _, rfl⟩
      | some item =>
          cases item with
          | file bytes => exact .inl ⟨⟨bytes, rfl⟩, rfl⟩
          | directory items => exact .inr ⟨by simp, _, rfl⟩
          | link target => exact .inr ⟨by simp, _, rfl⟩

/-! ### Entries -/

/-- What a visit finds is the file that it leads to, or all that a walk finds in a directory that is
not left out. -/
theorem visit_holdings (survey : Survey) (here path name : String) (item : Item)
    (held : String × FileStats Nat) :
    held ∈ (survey.visit path name item).holdings here ↔
      (survey.LeadsToFile path item ∧ ∃ method, survey.methodFor name = some method ∧
        held.1 = here ∧ survey.analyze method path = .ok held.2) ∨
      ∃ items, item = .directory items ∧ Ignore.skips survey.ignored name = false ∧
        held ∈ (survey.walk path items).2.holdings := by
  cases item with
  | file bytes =>
      rw [visit, visit_file_holdings]
      simp [LeadsToFile]
  | link target =>
      rw [visit]
      rcases survey.visit_link_eq path name with ⟨leads, same⟩ | ⟨astray, log, same⟩
      · rw [same, visit_file_holdings]
        simp [LeadsToFile, leads]
      · rw [same]
        simp [LeadsToFile, astray, Found.silent, Found.holdings]
  | directory items =>
      rw [visit_directory]
      by_cases skipped : Ignore.skips survey.ignored name = true
      · simp [skipped, LeadsToFile, Found.silent, Found.holdings]
      · simp [skipped, LeadsToFile, keep_holdings]

theorem visit_directories (survey : Survey) (path name : String) (item : Item)
    (dir : DirStats Nat) :
    dir ∈ (survey.visit path name item).directories ↔
      ∃ items, item = .directory items ∧ Ignore.skips survey.ignored name = false ∧
        dir = (survey.walk path items).2 ∧ dir.fileCount ≠ 0 := by
  cases item with
  | file bytes => simp [visit, visit_file_directories]
  | link target =>
      rw [visit]
      rcases survey.visit_link_eq path name with ⟨_, same⟩ | ⟨_, log, same⟩
      · simp [same, visit_file_directories]
      · simp [same, Found.silent]
  | directory items =>
      rw [visit_directory]
      by_cases skipped : Ignore.skips survey.ignored name = true
      · simp [skipped, Found.silent]
      · simp [skipped, keep_directories]

/-- What a visit finds lies at the path of the visit, below it, or nowhere. -/
theorem visit_paths (survey : Survey) (path name : String) (item : Item) :
    (∃ method file, survey.analyze method path = .ok file ∧
        (survey.visit path name item).paths = [file.path]) ∨
      (∃ items, item = .directory items ∧
        (survey.visit path name item).paths = (survey.walk path items).2.paths) ∨
      (survey.visit path name item).paths = [] := by
  cases item with
  | file bytes =>
      rw [visit]
      rcases survey.visit_file_paths path name with file | none
      · exact .inl file
      · exact .inr (.inr none)
  | link target =>
      rw [visit]
      rcases survey.visit_link_eq path name with ⟨_, same⟩ | ⟨_, log, same⟩
      · rw [same]
        rcases survey.visit_file_paths path name with file | none
        · exact .inl file
        · exact .inr (.inr none)
      · rw [same]
        exact .inr (.inr rfl)
  | directory items =>
      rw [visit_directory]
      by_cases skipped : Ignore.skips survey.ignored name = true
      · rw [if_pos skipped]
        exact .inr (.inr rfl)
      · rw [if_neg skipped]
        by_cases filled : 0 < (survey.walk path items).2.fileCount
        · exact .inr (.inl ⟨items, rfl, by simp [keep, Found.paths, filled]⟩)
        · exact .inr (.inr (by simp [keep, Found.paths, filled]))

/-- A walk finds a file if an entry leads to one that can be analyzed. -/
theorem walk_filled_of_entry {survey : Survey} {root name : String} {items : List (String × Item)}
    (listed : survey.refusal root = none) {item : Item} (member : (name, item) ∈ items)
    (leads : survey.LeadsToFile (Path.join root name) item) {method : Method} {file : FileStats Nat}
    (chosen : survey.methodFor name = some method)
    (analyzed : survey.analyze method (Path.join root name) = .ok file) :
    (survey.walk root items).2.fileCount ≠ 0 := by
  have found := (survey.visit_holdings root (Path.join root name) name item (root, file)).mpr
    (.inl ⟨leads, method, chosen, rfl, analyzed⟩)
  have held : (root, file) ∈ (survey.walk root items).2.holdings := by
    rw [walk_of_listed survey root items listed, (collect_holdings_perm root _).mem_iff,
      visit_all_eq_map, List.flatMap_map]
    exact List.mem_flatMap.mpr ⟨_, member, found⟩
  rw [ne_eq, ← DirStats.holdings_eq_nil_iff]
  exact List.ne_nil_of_mem held

end Survey

end LineCensus
