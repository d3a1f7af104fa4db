import LineCensus.Proofs.Census
import LineCensus.Proofs.NameOrder
import LineCensus.Proofs.SizeOrder

/-!
What a list of extensions does to a scan. A scan that is restricted to some extensions gives the tree
of the scan without the restriction, less the files of other extensions and the directories that are
left without a file. The order of what is left does not change: putting files in the order of their
size keeps files of one size in place, whichever others stand between them.
-/

namespace LineCensus

set_option autoImplicit false

open Stats (FileStats DirStats)

/-! ### Trees with some files taken out -/

namespace Stats.DirStats

section

variable {α : Type}

mutual

/-- A tree with only the wanted files in it, and below its root only directories in which there are
any. -/
def restrict (wanted : FileStats α → Bool) : DirStats α → DirStats α
  | mk path files directories => mk path (files.filter wanted) (restrictIn wanted directories)

def restrictIn (wanted : FileStats α → Bool) : List (DirStats α) → List (DirStats α)
  | [] => []
  | dir :: rest =>
    if (dir.restrict wanted).fileCount = 0 then restrictIn wanted rest
    else dir.restrict wanted :: restrictIn wanted rest

end

variable (wanted : FileStats α → Bool)

theorem restrict_in_eq (directories : List (DirStats α)) :
    restrictIn wanted directories =
      (directories.map (restrict wanted)).filter (·.fileCount != 0) := by
  induction directories with
  | nil => rfl
  | cons dir rest ih =>
      by_cases empty : (dir.restrict wanted).fileCount = 0 <;> simp [restrictIn, empty, ih]

theorem restrict_in_append (left right : List (DirStats α)) :
    restrictIn wanted (left ++ right) = restrictIn wanted left ++ restrictIn wanted right := by
  simp [restrict_in_eq]

theorem file_count_eq_zero_iff (dir : DirStats α) : dir.fileCount = 0 ↔ dir.allFiles = [] := by
  rw [file_count_eq_length, List.length_eq_zero_iff]

/-- The directories that are taken out hold none of the wanted files. -/
theorem all_files_restrict (dir : DirStats α) :
    (dir.restrict wanted).allFiles = dir.allFiles.filter wanted := by
  induction dir using induction with
  | node path files directories ih =>
      rw [restrict, allFiles, allFiles, all_files_in_eq_flat_map, all_files_in_eq_flat_map,
        List.filter_append, List.filter_flatMap]
      congr 1
      induction directories with
      | nil => rfl
      | cons dir rest rest_ih =>
          have head := ih dir (by simp)
          have tail := rest_ih fun other member => ih other (List.mem_cons_of_mem dir member)
          rw [List.flatMap_cons, ← head, ← tail, restrictIn]
          by_cases empty : (dir.restrict wanted).fileCount = 0
          · rw [if_pos empty, (file_count_eq_zero_iff _).mp empty, List.nil_append]
          · rw [if_neg empty, List.flatMap_cons]

theorem restrict_of_empty {dir : DirStats α} (empty : dir.fileCount = 0) :
    (dir.restrict wanted).fileCount = 0 := by
  rw [file_count_eq_zero_iff] at empty ⊢
  rw [all_files_restrict, empty, List.filter_nil]

end

/-- Files are taken out of a tree before it is sorted or after, with the same result. -/
theorem restrict_sort_by_size (wanted : FileStats Nat → Bool) (dir : DirStats Nat) :
    dir.sortBySize.restrict wanted = (dir.restrict wanted).sortBySize := by
  induction dir using induction with
  | node path files directories ih =>
      rw [sortBySize, restrict, restrict, sortBySize, filter_by_size]
      congr 1
      induction directories with
      | nil => rfl
      | cons dir rest rest_ih =>
          have head := ih dir (by simp)
          have tail := rest_ih fun other member => ih other (List.mem_cons_of_mem dir member)
          rw [sortBySizeIn, restrictIn, restrictIn, head, tail, file_count_sort_by_size]
          by_cases empty : (dir.restrict wanted).fileCount = 0
          · rw [if_pos empty, if_pos empty]
          · rw [if_neg empty, if_neg empty, sortBySizeIn]

end Stats.DirStats

/-! ### Walks -/

def hasExtension (extensions : List String) (file : FileStats Nat) : Bool :=
  extensions.contains (Language.extensionOf file.name)

namespace Found

/-- Whether one finding is what is left of another without the files that are not wanted. -/
structure IsRestriction (wanted : FileStats Nat → Bool) (some all : Found) : Prop where
  files : some.files = all.files.filter wanted
  directories : some.directories = DirStats.restrictIn wanted all.directories

theorem IsRestriction.silent (wanted : FileStats Nat → Bool) (log log' : List Entry) :
    IsRestriction wanted (.silent log) (.silent log') := ⟨rfl, rfl⟩

/-- What is left of several findings is put together from what is left of each. -/
theorem IsRestriction.gather {α : Type} {wanted : FileStats Nat → Bool} {places : List α}
    {some all : α → Found} (each : ∀ place ∈ places, IsRestriction wanted (some place) (all place)) :
    IsRestriction wanted (.gather (places.map some)) (.gather (places.map all)) := by
  induction places with
  | nil => exact ⟨rfl, rfl⟩
  | cons place rest ih =>
      have head := each place (by simp)
      have tail := ih fun other member => each other (List.mem_cons_of_mem place member)
      simp only [Found.gather, List.map_cons, List.flatMap_cons] at tail ⊢
      exact {
        files := by rw [List.filter_append, ← head.files, ← tail.files]
        directories := by rw [DirStats.restrict_in_append, ← head.directories, ← tail.directories] }

end Found

namespace Survey

theorem keep_is_restriction {wanted : FileStats Nat → Bool} {some all : List Entry × DirStats Nat}
    (same : some.2 = all.2.restrict wanted) : (keep some).IsRestriction wanted (keep all) := by
  refine ⟨rfl, ?_⟩
  rw [keep, keep, same]
  -- A directory may be kept without the restriction and left out with it, but not the other way.
  by_cases filled : 0 < all.2.fileCount
  · by_cases left : (all.2.restrict wanted).fileCount = 0
    · simp [filled, left, DirStats.restrictIn]
    · simp [filled, left, DirStats.restrictIn, Nat.pos_of_ne_zero left]
  · have nothing := DirStats.restrict_of_empty wanted (Nat.eq_zero_of_not_pos filled)
    simp [filled, nothing, DirStats.restrictIn]

def limitedTo (survey : Survey) (extensions : List String) : Survey :=
  { survey with extensions := some extensions }

/-- Whether the analysis gives a file the extension that its path has. -/
def KeepsExtensions (survey : Survey) : Prop :=
  ∀ method path file, survey.analyze method path = .ok file →
    Language.extensionOf file.name = Language.extensionOf (Path.base path)

section

variable {survey : Survey} (free : survey.extensions = none) (extensions : List String)

include free

theorem method_for_limited (name : String) :
    (survey.limitedTo extensions).methodFor name =
      if extensions.contains (Language.extensionOf name) then survey.methodFor name else none := by
  unfold methodFor
  rw [free]
  by_cases hidden : Ignore.isHidden name = true <;> simp [limitedTo, hidden]

variable (keeps : survey.KeepsExtensions)

include keeps

theorem visit_file_limited (path name : String) (named : Path.base path = name) :
    ((survey.limitedTo extensions).visitFile path name).IsRestriction (hasExtension extensions)
      (survey.visitFile path name) := by
  have limited := method_for_limited free extensions name
  cases chosen : survey.methodFor name with
  | none =>
      rw [chosen, ite_self] at limited
      rw [visit_file_passed_over chosen, visit_file_passed_over limited]
      exact .silent _ _ _
  | some method =>
      rw [chosen] at limited
      cases analyzed : survey.analyze method path with
      | error failure =>
          rw [visit_file_failed chosen analyzed]
          by_cases allowed : extensions.contains (Language.extensionOf name) = true
          · rw [if_pos allowed] at limited
            rw [visit_file_failed limited analyzed]
            exact .silent _ _ _
          · rw [if_neg allowed] at limited
            rw [visit_file_passed_over limited]
            exact .silent _ _ _
      | ok file =>
          have told : hasExtension extensions file =
              extensions.contains (Language.extensionOf name) := by
            rw [hasExtension, keeps method path file analyzed, named]
          rw [visit_file_analyzed chosen analyzed]
          by_cases allowed : extensions.contains (Language.extensionOf name) = true
          · rw [if_pos allowed] at limited
            rw [visit_file_analyzed limited analyzed]
            exact ⟨by rw [List.filter_cons_of_pos (told.trans allowed), List.filter_nil], rfl⟩
          · rw [if_neg allowed] at limited
            rw [visit_file_passed_over limited]
            exact ⟨by rw [List.filter_cons_of_neg (told ▸ allowed), List.filter_nil]; rfl, rfl⟩

/-- A visit finds what is left of what it finds without the restriction, provided that a walk through
the directory that it leads to does. -/
theorem visit_limited (path name : String) (item : Item) (named : Path.base path = name)
    (below : ∀ items, item = .directory items →
      ((survey.limitedTo extensions).walk path items).2 =
        (survey.walk path items).2.restrict (hasExtension extensions)) :
    ((survey.limitedTo extensions).visit path name item).IsRestriction (hasExtension extensions)
      (survey.visit path name item) := by
  cases item with
  | file bytes =>
      rw [visit, visit]
      exact visit_file_limited free extensions keeps path name named
  | link target =>
      rw [visit, visit]
      rcases survey.visit_link_eq path name with ⟨leads, same⟩ | ⟨astray, log, same⟩ <;>
        rcases (survey.limitedTo extensions).visit_link_eq path name with
          ⟨limitedLeads, limitedSame⟩ | ⟨limitedAstray, limitedLog, limitedSame⟩
      · rw [same, limitedSame]
        exact visit_file_limited free extensions keeps path name named
      · exact absurd leads limitedAstray
      · exact absurd limitedLeads astray
      · rw [same, limitedSame]
        exact .silent _ _ _
  | directory items =>
      rw [visit_directory, visit_directory]
      change Found.IsRestriction _
        (if Ignore.skips survey.ignored name then _ else _) _
      by_cases skipped : Ignore.skips survey.ignored name = true
      · rw [if_pos skipped, if_pos skipped]
        exact .silent _ _ _
      · rw [if_neg skipped, if_neg skipped]
        exact keep_is_restriction (below items rfl)

/-- A walk with the restriction gives what is left of the tree without it. The induction is on the
directory, for each place at which it may be. -/
theorem walk_limited (items : List (String × Item)) (named : (Item.directory items).WellNamed)
    (names : List String) (plain : ∀ name ∈ names, Path.IsPlain name.toList) :
    ((survey.limitedTo extensions).walk (Path.absolute names) items).2 =
      (survey.walk (Path.absolute names) items).2.restrict (hasExtension extensions) := by
  induction items using Item.directory_induction generalizing names with
  | step items ih =>
      cases refused : survey.refusal (Path.absolute names) with
      | some failure =>
          have limitedRefused : (survey.limitedTo extensions).refusal (Path.absolute names) =
              some failure := refused
          rw [walk, walk, refused, limitedRefused]
          rfl
      | none =>
          rw [walk_in_order survey _ items refused,
            walk_in_order (survey.limitedTo extensions) _ items refused]
          have left : ((survey.limitedTo extensions).findings (Path.absolute names)
              items).IsRestriction (hasExtension extensions)
              (survey.findings (Path.absolute names) items) := by
            apply Found.IsRestriction.gather
            rintro ⟨name, item⟩ inOrder
            have member := mem_by_name.mp inOrder
            have namePlain := named.plain member
            rw [Path.join_absolute names name plain namePlain]
            apply visit_limited free extensions keeps _ name item (Path.base_absolute names name namePlain)
            rintro inner rfl
            exact ih name inner member (named.inside member) (names ++ [name])
              (Path.plain_concat plain namePlain)
          simp only [DirStats.restrict, left.files, left.directories]

end

/-! ### Scans -/

/-- A scan for a list of extensions that restricts it gives the tree of the scan for no extensions in
particular, less the files of other extensions and then, below the root, the directories without a
file. -/
theorem scan_for_extensions_is_restriction (store : Store) (storeNamed : store.top.WellNamed)
    (registry : Language.Registry) (given extensions ignored : List String)
    (restricting : Extensions.restriction given = some extensions) (logger : Logger)
    (analyze : Method → String → Except Failure (FileStats Nat))
    (keeps : ∀ method path file, analyze method path = .ok file →
      Language.extensionOf file.name = Language.extensionOf (Path.base path))
    (refusal : String → Option Failure) (directory path : String) (items : List (String × Item))
    (resolved : store.find "/" (Path.resolve directory path) = .ok (.directory items)) :
    let survey := fun list : List String =>
      { Survey.ofStore store registry list ignored logger with analyze, refusal }
    ∃ log tree freeLog freeTree,
      (survey given).scan (Path.resolve directory path) = .ok (log, tree) ∧
      (survey []).scan (Path.resolve directory path) = .ok (freeLog, freeTree) ∧
      tree = freeTree.restrict fun file =>
        extensions.contains (Language.extensionOf file.name) := by
  intro survey
  obtain ⟨names, plain, rootPath⟩ := Path.resolve_eq_absolute directory path
  have rooted : rootItems (store.status "/") (Path.resolve directory path) = .ok items :=
    root_items_of_status _ _ items (Store.status_of_find resolved)
  have limited : survey given = (survey []).limitedTo extensions := by
    simp only [survey, limitedTo, ofStore, restricting]
  have free : (survey []).extensions = none := rfl
  have trees := walk_limited free extensions keeps items
    (Store.find_well_named storeNamed resolved) names plain
  rw [← rootPath, ← limited] at trees
  refine ⟨_, _, _, _, scan_of_root_items (survey given) _ items rooted,
    scan_of_root_items (survey []) _ items rooted, ?_⟩
  rw [trees]
  exact (DirStats.restrict_sort_by_size _ _).symm

/-! ### A project of two languages -/

/-- Documents and programs, some of them in directories without any of the others. -/
def mixedProject : List (String × Item) := [
  ("b.py", .file []), ("a.md", .file []),
  ("docs", .directory [("old", .directory [("c.md", .file [])]), ("d.py", .file [])]),
  ("src", .directory [("core", .directory [("e.py", .file [])])])]

def mixedStore : Store := ⟨[("work", .directory mixedProject)]⟩

theorem mixed_store_well_named : mixedStore.top.WellNamed := by
  simp only [Store.top, mixedStore, mixedProject, Item.WellNamed, Item.AllWellNamed]
  decide

theorem mixed_project_restricts_to_documents :
    mixedStore.top.WellNamed ∧ Extensions.restriction ["MD"] = some [".md"] ∧
    mixedStore.find "/" (Path.resolve "/" "work") = .ok (.directory mixedProject) ∧
    let analyze : Method → String → Except Failure (FileStats Nat) := fun method path =>
      .ok (method.analyze Language.builtinRegistry path (mixedStore.readSource "/" path).1)
    let survey := fun list : List String =>
      { Survey.ofStore mixedStore Language.builtinRegistry list [] (.standard .plain) with
        analyze, refusal := fun _ => none }
    (∀ method path file, analyze method path = .ok file →
      Language.extensionOf file.name = Language.extensionOf (Path.base path)) ∧
    ∃ log tree freeLog freeTree,
      (survey ["MD"]).scan (Path.resolve "/" "work") = .ok (log, tree) ∧
      (survey []).scan (Path.resolve "/" "work") = .ok (freeLog, freeTree) ∧
      tree = freeTree.restrict fun file =>
        [".md"].contains (Language.extensionOf file.name) := by
  have restricting : Extensions.restriction ["MD"] = some [".md"] := by decide
  have resolved : mixedStore.find "/" (Path.resolve "/" "work") =
      .ok (.directory mixedProject) := by cbv
  refine ⟨mixed_store_well_named, restricting, resolved, ?_⟩
  intro analyze survey
  have keeps : ∀ method path file, analyze method path = .ok file →
      Language.extensionOf file.name = Language.extensionOf (Path.base path) := by
    intro method path file analyzed
    rw [← Except.ok.inj analyzed, FileStats.name, path_of_analyze]
  exact ⟨keeps,
    scan_for_extensions_is_restriction mixedStore mixed_store_well_named Language.builtinRegistry
      ["MD"] [".md"] [] restricting (.standard .plain) analyze keeps (fun _ => none) "/" "work"
      mixedProject resolved⟩

/-! ### Analyses that do not tell files by their extensions or sizes -/

def documentItems : List (String × Item) := [("a.md", .file [])]

def documentStore : Store := ⟨[("work", .directory documentItems)]⟩

def renamingSurvey (list : List String) : Survey :=
  { Survey.ofStore documentStore Language.builtinRegistry list [] (.standard .plain) with
    analyze := fun _ path => .ok (.ofFigures (path ++ ".x") "Markdown" 0 0 0 none) }

theorem renaming_scan (list : List String)
    (chosen : (renamingSurvey list).methodFor "a.md" = some .markdown) :
    (renamingSurvey list).scan "/work" =
      .ok ([], .mk "/work" [.ofFigures "/work/a.md.x" "Markdown" 0 0 0 none] []) := by
  have found : documentStore.find "/" "/work" = .ok (.directory documentItems) := by cbv
  have rooted : rootItems (renamingSurvey list).status "/work" = .ok documentItems :=
    root_items_of_status _ _ _ (Store.status_of_find found)
  have joined : Path.join "/work" "a.md" = "/work/a.md" := by decide
  have visited : (renamingSurvey list).visitFile "/work/a.md" "a.md" =
      ⟨[], [.ofFigures "/work/a.md.x" "Markdown" 0 0 0 none], []⟩ :=
    visit_file_analyzed chosen rfl
  rw [scan_of_root_items _ _ _ rooted, walk_in_order _ _ _ rfl, findings, documentItems, byName,
    List.mergeSort_singleton, List.map_singleton, joined, visit, visited]
  simp [Found.gather, DirStats.sortBySize, DirStats.bySize, DirStats.sortBySizeIn]

/-- A file of which the number of lines is no natural one or none at all. -/
def sizedFile (name : String) (lines : Numeric.Binary64) : FileStats Numeric.Binary64 :=
  ⟨"/work/" ++ name, "Markdown", lines, lines, .zero false, .zero false, none⟩

/-- Documents with programs between them for which there is no number of lines. -/
def unsizedProject : DirStats Numeric.Binary64 :=
  .mk "/work" [sizedFile "a.md" (.ofNat 1), sizedFile "b.py" .nan, sizedFile "c.py" .nan,
    sizedFile "d.md" (.ofNat 2)] []

def isDocument (file : FileStats Numeric.Binary64) : Bool :=
  [".md"].contains (Language.extensionOf file.name)

set_option maxRecDepth 4000 in
theorem unsized_documents_sorted_among_others :
    (unsizedProject.sortBySize.restrict isDocument).files.map (·.name) = ["a.md", "d.md"] := by cbv

set_option maxRecDepth 4000 in
theorem unsized_documents_sorted_alone :
    (unsizedProject.restrict isDocument).sortBySize.files.map (·.name) = ["d.md", "a.md"] := by cbv

/-- A file under a name with another extension stays in the restricted scan but is no document in the
other one; and documents that are apart by files without a size are not put in order as they are alone. -/
theorem restriction_fails_for_renamed_or_unsized_files :
    Extensions.restriction ["md"] = some [".md"] ∧
    documentStore.find "/" "/work" = .ok (.directory documentItems) ∧
    (¬∃ log tree freeLog freeTree,
      (renamingSurvey ["md"]).scan "/work" = .ok (log, tree) ∧
      (renamingSurvey []).scan "/work" = .ok (freeLog, freeTree) ∧
      tree = freeTree.restrict fun file => [".md"].contains (Language.extensionOf file.name)) ∧
    unsizedProject.sortBySize.restrict isDocument ≠
      (unsizedProject.restrict isDocument).sortBySize := by
  refine ⟨by decide, by cbv, ?renamed, ?unsized⟩
  case renamed =>
    rintro ⟨log, tree, freeLog, freeTree, scanned, scannedFreely, rfl⟩
    have restricted := Except.ok.inj ((renaming_scan ["md"] (by decide)).symm.trans scanned)
    have free := Except.ok.inj ((renaming_scan [] (by decide)).symm.trans scannedFreely)
    rw [← (Prod.mk.inj free).2] at restricted
    have count := congrArg DirStats.fileCount (Prod.mk.inj restricted).2
    revert count
    decide
  case unsized =>
    intro same
    have names := unsized_documents_sorted_among_others
    rw [same, unsized_documents_sorted_alone] at names
    revert names
    decide

end Survey

end LineCensus
