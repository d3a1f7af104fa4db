import LineCensus.Proofs.Casing
import LineCensus.Proofs.Census
import LineCensus.Proofs.Totals
import LineCensus.Report.Document

/-!
The sections of a report on a project agree. Each section takes the files of the tree together in a way
of its own: by what is known of them, by their languages or by their directories. That the sums fit
together rests on what an analysis by extension gives for each file: scripts are in the languages of
scripts and documents in that of documents, and no other file is.
-/

namespace LineCensus

set_option autoImplicit false

open Stats (FileStats DirStats Tally)

/-! ### Reading a report -/

namespace Json

def field? (name : String) : Json → Option Json
  | .object fields => Json.lookup name fields
  | _ => none

/-- Whether a field of an object is the given count. -/
def Counts (json : Json) (name : String) (n : Nat) : Prop :=
  json.field? name = some (Report.numberOf n)

/-- Whether the figures of some files stand in an object, except for their number. The names are those
of the fields for all lines, code, comments and blank lines. -/
structure CountsLines (json : Json) (lines code comments blank : String) (tally : Tally) : Prop where
  lines : json.Counts lines tally.lines
  code : json.Counts code tally.code
  comments : json.Counts comments tally.comments
  blank : json.Counts blank tally.blank

/-- Whether the figures of some files stand in a section of a report. -/
structure GivesTally (json : Json) (tally : Tally) : Prop where
  files : json.Counts "files" tally.files
  lines : json.CountsLines "lines" "code" "comments" "blank" tally

/-- Whether the figures of one file stand in an object. -/
structure GivesFile (json : Json) (tally : Tally) : Prop where
  single : tally.files = 1
  lines : json.CountsLines "totalLines" "codeLines" "commentLines" "blankLines" tally

/-- Whether the figures of a directory stand in an object. -/
structure GivesNode (json : Json) (tally : Tally) : Prop where
  files : json.Counts "totalFiles" tally.files
  lines : json.CountsLines "totalLines" "codeLines" "commentLines" "blankLines" tally

/-- Whether every node of a tree in a report gives the sums over its own files and over what the
directories in it give. The figures are those of the node on top. -/
inductive SumsUp : Json → Tally → Prop where
  | node (json : Json) (files directories : List Json) (own inner : List Tally)
      (listed : json.field? "files" = some (.array files))
      (nested : json.field? "subdirectories" = some (.array directories))
      (ownGiven : List.Forall₂ GivesFile files own)
      (innerGiven : List.Forall₂ SumsUp directories inner)
      (given : json.GivesNode (own.sum + inner.sum)) : json.SumsUp (own.sum + inner.sum)

end Json

namespace Report

def levelNames : List String := ["1", "2", "3", "4", "5", "6"]

/-- The figures in a report that are to agree. -/
structure Figures where
  summary : Tally
  languages : List (String × Tally)
  scripts : Nat
  documentedScripts : Nat
  documents : Nat
  headings : Nat
  headingsByLevel : List Nat

namespace Figures

def ofTree (tree : DirStats Nat) : Figures where
  summary := tree.tally
  languages := tree.languages
  scripts := tree.scriptSummary.files
  documentedScripts := tree.scriptSummary.filesWithModuleDoc
  documents := tree.markdownSummary.files
  headings := tree.markdownSummary.totals.headings
  headingsByLevel := tree.markdownSummary.totals.headingsByLevel.toList

/-- Whether a report gives some figures. -/
structure StandIn (figures : Figures) (report : Json) : Prop where
  summary : ∃ summary, report.field? "summary" = some summary ∧ summary.GivesTally figures.summary
  scripts : ∃ scripts, report.field? "scripts" = some scripts ∧
    scripts.Counts "files" figures.scripts ∧
    scripts.Counts "filesWithModuleDoc" figures.documentedScripts
  markdown : ∃ documents levels, report.field? "markdown" = some documents ∧
    documents.Counts "files" figures.documents ∧ documents.Counts "headings" figures.headings ∧
    documents.field? "headingsByLevel" = some levels ∧
    List.Forall₂ levels.Counts levelNames figures.headingsByLevel
  languages : ∃ entries, report.field? "languages" = some (.array entries) ∧
    List.Forall₂ (fun entry language =>
      entry.field? "language" = some (.string language.1) ∧ entry.GivesTally language.2)
      entries figures.languages
  tree : ∃ tree, report.field? "tree" = some tree ∧ tree.SumsUp figures.summary

/-- How many files there are in a language; none if it has no entry. -/
def filesIn (figures : Figures) (language : String) : Nat :=
  ((figures.languages.lookup language).map (·.files)).getD 0

structure Agree (figures : Figures) : Prop where
  distinct : (figures.languages.map Prod.fst).Nodup
  languages : (figures.languages.map Prod.snd).sum = figures.summary
  kinds : figures.summary.code + figures.summary.comments + figures.summary.blank =
    figures.summary.lines
  scripts : figures.scripts = figures.filesIn "TypeScript" + figures.filesIn "JavaScript"
  documents : figures.documents = figures.filesIn "Markdown"
  headings : figures.headings = figures.headingsByLevel.sum
  documented : figures.documentedScripts ≤ figures.scripts

end Figures

/-! ### What a report gives -/

theorem file_json_gives (file : FileStats Nat) : (fileJson file).GivesFile (Tally.ofFile file) where
  single := rfl
  lines := ⟨rfl, rfl, rfl, rfl⟩

theorem dirs_json_eq_map {α : Type} [Stats.Count α] (directories : List (DirStats α)) :
    dirsJson directories = directories.map dirJson := by
  induction directories with
  | nil => rw [dirsJson, List.map_nil]
  | cons dir rest ih => rw [dirsJson, ih, List.map_cons]

theorem dir_json_sums_up (dir : DirStats Nat) : (dirJson dir).SumsUp dir.tally := by
  induction dir using DirStats.induction with
  | node path files directories ih =>
      have ownGiven : List.Forall₂ Json.GivesFile (files.map fileJson) (files.map Tally.ofFile) := by
        rw [List.forall₂_map_left_iff, List.forall₂_map_right_iff, List.forall₂_same]
        intro file _
        exact file_json_gives file
      have innerGiven : List.Forall₂ Json.SumsUp (dirsJson directories)
          (directories.map DirStats.tally) := by
        rw [dirs_json_eq_map, List.forall₂_map_left_iff, List.forall₂_map_right_iff,
          List.forall₂_same]
        exact ih
      have sums := DirStats.tally_mk path files directories
      rw [sums]
      apply Json.SumsUp.node _ _ _ _ _ ?_ ?_ ownGiven innerGiven
      · rw [← sums, dirJson]
        exact ⟨rfl, rfl, rfl, rfl, rfl⟩
      · rw [dirJson]
        rfl
      · rw [dirJson]
        rfl

theorem level_names_eq : [1, 2, 3, 4, 5, 6].map (fun level : Nat => bare level) = levelNames := by
  cbv

theorem levels_json_eq (levels : Vector Nat Stats.headingLevels) :
    levelsJson levels = .object (levelNames.zip (levels.toList.map numberOf)) := by
  have six : levels.toList.length = 6 := Vector.length_toList
  match same : levels.toList, six with
  | [first, second, third, fourth, fifth, sixth], _ =>
      rw [levelsJson, same, ← level_names_eq]
      rfl

theorem levels_json_counts (levels : Vector Nat Stats.headingLevels) :
    List.Forall₂ (levelsJson levels).Counts levelNames levels.toList := by
  have six : levels.toList.length = 6 := Vector.length_toList
  rw [levels_json_eq]
  match levels.toList, six with
  | [first, second, third, fourth, fifth, sixth], _ =>
      exact .cons rfl (.cons rfl (.cons rfl (.cons rfl (.cons rfl (.cons rfl .nil)))))

theorem figures_stand_in_document (project generatedAt : String) (tree : DirStats Nat) :
    (Figures.ofTree tree).StandIn (documentJson project generatedAt tree) where
  summary := ⟨_, rfl, rfl, rfl, rfl, rfl, rfl⟩
  scripts := ⟨_, rfl, rfl, rfl⟩
  markdown := ⟨_, _, rfl, rfl, rfl, rfl, levels_json_counts _⟩
  languages := by
    refine ⟨_, rfl, ?_⟩
    change List.Forall₂ _ (tree.languages.map languageJson) tree.languages
    rw [List.forall₂_map_left_iff, List.forall₂_same]
    intro language _
    exact ⟨rfl, rfl, rfl, rfl, rfl, rfl⟩
  tree := ⟨_, rfl, dir_json_sums_up tree⟩

end Report

/-! ### What is known of a file -/

/-- Whether what is known of a file goes with its language and its figures fit together. -/
structure Stats.FileStats.Fits (file : FileStats Nat) : Prop where
  kinds : file.code + file.comment + file.blank = file.total
  script : (∃ details, file.details = some (.script details)) ↔
    file.language = "TypeScript" ∨ file.language = "JavaScript"
  document : (∃ details, file.details = some (.markdown details)) ↔ file.language = "Markdown"
  headings : ∀ details, file.details = some (.markdown details) →
    details.headings = details.headingsByLevel.toList.sum

theorem kinds_of_figures (path language : String) (total blank comment : Nat)
    (details : Option (Stats.Details Nat)) :
    let file := FileStats.ofFigures path language total blank comment details
    file.code + file.comment + file.blank = file.total := by
  change total - min blank total - min comment (total - min blank total) +
    min comment (total - min blank total) + min blank total = total
  omega

theorem Script.language_of_kind (kind : Script.Kind) :
    kind.language = "TypeScript" ∨ kind.language = "JavaScript" := by
  cases kind <;> decide

/-- Whatever has been found out about a script, what is given of it fits. -/
theorem Script.stats_of_fits (path : String) (source : Script.Source) (lines : List String)
    (findings : Option Script.Findings) : (Script.statsOf path source lines findings).Fits := by
  have written : (Script.statsOf path source lines findings).language =
      (Script.Kind.ofPath path).language := by
    rw [Script.statsOf, FileStats.ofFigures]
  have language := Script.language_of_kind (Script.Kind.ofPath path)
  rw [← written] at language
  constructor
  · exact kinds_of_figures _ _ _ _ _ _
  · exact iff_of_true ⟨_, rfl⟩ language
  · apply iff_of_false
    · intro isDocument
      obtain ⟨details, same⟩ := isDocument
      cases same
    · intro isMarkdown
      rw [isMarkdown] at language
      exact absurd language (by decide)
  · intro details isDocument
    cases isDocument

/-- There are as many headings as there are of each level together. -/
theorem headings_of_details (lines : List String) :
    (Markdown.details lines).headings = (Markdown.details lines).headingsByLevel.toList.sum := by
  have counted (levels : List (Fin Stats.headingLevels)) :
      (List.ofFn fun level => levels.count level).sum = levels.length := by
    rw [List.sum_ofFn]
    induction levels with
    | nil => simp
    | cons level rest ih =>
        simp only [List.count_cons, Finset.sum_add_distrib, ih]
        simp
  change _ = (Vector.ofFn _).toList.sum
  rw [Vector.toList_ofFn, counted]
  rfl

theorem Markdown.file_stats_fits (path : String) (lines : List String) :
    (Markdown.fileStats path lines).Fits := by
  constructor
  · exact kinds_of_figures _ _ _ _ _ _
  · apply iff_of_false
    · intro isScript
      obtain ⟨details, same⟩ := isScript
      cases same
    · change ¬(Markdown.language = "TypeScript" ∨ Markdown.language = "JavaScript")
      decide
  · exact iff_of_true ⟨_, rfl⟩ rfl
  · intro details isDocument
    cases isDocument
    exact headings_of_details lines

/-! ### The languages that are known -/

theorem builtin_extensions_checked : ∀ entry ∈ Language.builtinExtensions,
    (entry.2 = "TypeScript" ∨ entry.2 = "JavaScript" →
      Text.lower entry.1 ∈ Script.extensions) ∧
    (entry.2 = "Markdown" → Text.lower entry.1 ∈ Markdown.extensions) := by
  decide +kernel

/-- The languages of scripts and of documents have no extensions but those of scripts and documents. -/
theorem builtin_language_of {raw language : String}
    (known : Language.builtinRegistry.languageOf (Text.lower raw) = language) :
    (language = "TypeScript" ∨ language = "JavaScript" → Text.lower raw ∈ Script.extensions) ∧
    (language = "Markdown" → Text.lower raw ∈ Markdown.extensions) := by
  rw [Language.Registry.languageOf] at known
  cases found : Language.builtinRegistry.byExtension.lookup (Text.lower (Text.lower raw)) with
  | none =>
      rw [found] at known
      subst known
      constructor
      · intro isScript
        exact absurd isScript (by decide)
      · intro isMarkdown
        exact absurd isMarkdown (by decide)
  | some value =>
      rw [found] at known
      subst known
      obtain ⟨before, behind, entries, _⟩ := List.lookup_eq_some_iff.mp found
      have member : (Text.lower (Text.lower raw), value) ∈ Language.builtinRegistry.byExtension := by
        rw [entries]
        exact List.mem_append_right _ List.mem_cons_self
      obtain ⟨entry, listed, same⟩ := List.mem_map.mp (Keyed.mem_of_mem_of_list member)
      rw [Prod.mk.injEq] at same
      obtain ⟨sameKey, sameValue⟩ := same
      obtain ⟨scripts, documents⟩ := builtin_extensions_checked entry listed
      rw [Text.lower_lower] at sameKey
      rw [← sameKey, ← sameValue]
      exact ⟨scripts, documents⟩

theorem select_markers {registry : Language.Registry} {name language : String}
    (chosen : Method.select registry name = some (.markers language)) :
    Language.extensionOf name ∉ Script.extensions ∧
      Language.extensionOf name ∉ Markdown.extensions ∧
      registry.languageOf (Language.extensionOf name) = language := by
  simp only [Method.select] at chosen
  split at chosen
  case isTrue => cases chosen
  case isFalse noScript =>
    split at chosen
    case isTrue => cases chosen
    case isFalse noDocument =>
      refine ⟨by simpa using noScript, by simpa using noDocument, ?_⟩
      split at chosen
      case isTrue => cases chosen
      case isFalse =>
        cases chosen
        rfl

/-- Whatever method is chosen by extension among the known languages, its figures fit. -/
theorem analyzed_fits {name : String} {method : Method}
    (chosen : Method.select Language.builtinRegistry name = some method) (path text : String) :
    (method.analyze Language.builtinRegistry path text).Fits := by
  cases method with
  | script => exact Script.stats_of_fits path _ _ _
  | markdown => exact Markdown.file_stats_fits path _
  | markers language =>
      obtain ⟨noScript, noDocument, known⟩ := select_markers chosen
      obtain ⟨scripts, documents⟩ := builtin_language_of known
      constructor
      · exact kinds_of_figures _ _ _ _ _ _
      · apply iff_of_false
        · rintro ⟨details, isScript⟩
          cases isScript
        · exact fun isScript => noScript (scripts isScript)
      · apply iff_of_false
        · rintro ⟨details, isDocument⟩
          cases isDocument
        · exact fun isDocument => noDocument (documents isDocument)
      · intro details isDocument
        cases isDocument

/-! ### Agreement -/

namespace Report

theorem sum_to_list {n : Nat} (counts : Vector Nat n) :
    counts.toList.sum = ∑ index : Fin n, counts.get index := by
  rw [← List.sum_ofFn]
  congr 1
  apply List.ext_getElem
  · simp
  · intro index inList inBounds
    rw [Vector.getElem_toList, List.getElem_ofFn]
    rfl

variable {files : List (FileStats Nat)} (fit : ∀ file ∈ files, file.Fits)

include fit

theorem kinds_of_files : (Tally.ofFiles files).code + (Tally.ofFiles files).comments +
    (Tally.ofFiles files).blank = (Tally.ofFiles files).lines := by
  induction files with
  | nil => rfl
  | cons file rest ih =>
      have first := (fit file List.mem_cons_self).kinds
      have later := ih fun other member => fit other (List.mem_cons_of_mem _ member)
      rw [Tally.of_files_eq] at later ⊢
      simp only [List.map_cons, List.sum_cons] at later ⊢
      omega

theorem script_details_length : (Stats.scriptDetails files).length =
    files.countP (·.language == "TypeScript") + files.countP (·.language == "JavaScript") := by
  have inEither : (Stats.scriptDetails files).length =
      files.countP fun file => file.language == "TypeScript" || file.language == "JavaScript" := by
    rw [Stats.scriptDetails, List.length_filterMap_eq_countP]
    apply List.countP_congr
    intro file member
    rw [Bool.or_eq_true, beq_iff_eq, beq_iff_eq, ← (fit file member).script]
    cases known : file.details with
    | none => simp
    | some details => cases details <;> simp
  rw [inEither]
  -- No file is in both languages.
  clear fit inEither
  induction files with
  | nil => rfl
  | cons file rest ih =>
      rw [List.countP_cons, List.countP_cons, List.countP_cons, ih]
      by_cases typed : file.language = "TypeScript"
      · simp [typed]
        omega
      · simp [typed]
        omega

theorem markdown_details_length :
    (Stats.markdownDetails files).length = files.countP (·.language == "Markdown") := by
  rw [Stats.markdownDetails, List.length_filterMap_eq_countP]
  apply List.countP_congr
  intro file member
  rw [beq_iff_eq, ← (fit file member).document]
  cases known : file.details with
  | none => simp
  | some details => cases details <;> simp

theorem headings_of_files : ((Stats.markdownDetails files).map (·.headings)).sum =
    (List.ofFn fun level : Fin Stats.headingLevels =>
      ((Stats.markdownDetails files).map (·.headingsByLevel.get level)).sum).sum := by
  have each : ∀ details ∈ Stats.markdownDetails files,
      details.headings = ∑ level : Fin Stats.headingLevels, details.headingsByLevel.get level := by
    intro details member
    rw [Stats.markdownDetails, List.mem_filterMap] at member
    obtain ⟨file, inFiles, given⟩ := member
    split at given
    case h_1 known =>
      cases given
      rw [(fit file inFiles).headings details known, sum_to_list]
    case h_2 => cases given
  rw [List.sum_ofFn]
  generalize Stats.markdownDetails files = documents at each ⊢
  induction documents with
  | nil => simp
  | cons details rest ih =>
      have first := each details List.mem_cons_self
      have later := ih fun other member => each other (List.mem_cons_of_mem _ member)
      simp only [List.map_cons, List.sum_cons, Finset.sum_add_distrib, first, later]

omit fit in
theorem files_in_language (tree : DirStats Nat) (language : String) :
    (Figures.ofTree tree).filesIn language = tree.allFiles.countP (·.language == language) := by
  have distinct := Stats.totals_by_language_distinct tree.allFiles
  have looked := Stats.lookup_totals_by_language tree.allFiles language
  rw [Keyed.lookup_eq_of_perm (Stats.languages_perm tree).symm distinct, Tally.of_files_eq] at looked
  have number : ((tree.languages.lookup language).getD 0).files =
      (tree.allFiles.filter (·.language == language)).length :=
    congrArg Stats.LanguageTotals.files looked
  rw [List.countP_eq_length_filter, ← number, Figures.filesIn]
  change ((tree.languages.lookup language).map _).getD 0 = _
  cases tree.languages.lookup language <;> rfl

omit fit in
theorem figures_agree {tree : DirStats Nat} (fit : ∀ file ∈ tree.allFiles, file.Fits) :
    (Figures.ofTree tree).Agree where
  distinct := ((Stats.languages_perm tree).map Prod.fst).symm.nodup
    (Stats.totals_by_language_distinct tree.allFiles)
  languages := by
    change (tree.languages.map Prod.snd).sum = tree.tally
    rw [((Stats.languages_perm tree).map Prod.snd).sum_eq, Stats.sum_totals_by_language,
      DirStats.tally_eq]
  kinds := by
    change tree.tally.code + tree.tally.comments + tree.tally.blank = tree.tally.lines
    rw [DirStats.tally_eq]
    exact kinds_of_files fit
  scripts := by
    rw [files_in_language, files_in_language]
    exact script_details_length fit
  documents := by
    rw [files_in_language]
    exact markdown_details_length fit
  headings := by
    change Stats.sum _ = (Vector.toList (Vector.ofFn _)).sum
    rw [DirStats.sum_eq_list_sum, Vector.toList_ofFn]
    simp only [DirStats.sum_eq_list_sum]
    exact headings_of_files fit
  documented := List.countP_le_length

end Report

/-! ### Reports on scans -/

/-- The survey of a project in which some files cannot be read, for the reasons given. -/
def Survey.failingOn (survey : Survey) (unreadable : String → Option Failure) : Survey :=
  { survey with
    analyze := fun method path =>
      match unreadable path with
      | some failure => .error failure
      | none => survey.analyze method path }

theorem Survey.analyzed_of_failing_on {survey : Survey} {unreadable : String → Option Failure}
    {method : Method} {path : String} {file : FileStats Nat}
    (analyzed : (survey.failingOn unreadable).analyze method path = .ok file) :
    survey.analyze method path = .ok file := by
  simp only [failingOn] at analyzed
  split at analyzed
  case h_1 => cases analyzed
  case h_2 => exact analyzed

/-- All files in the tree of a scan come from analyses. -/
theorem Survey.scan_holds_analyzed {survey : Survey} {root : String} {log : List Entry}
    {tree : DirStats Nat} (scanned : survey.scan root = .ok (log, tree)) :
    ∀ file ∈ tree.allFiles, ∃ name method path, survey.methodFor name = some method ∧
      survey.analyze method path = .ok file := by
  intro file inTree
  rw [scan] at scanned
  cases rooted : rootItems survey.status root with
  | error failure =>
      rw [rooted] at scanned
      cases scanned
  | ok items =>
      rw [rooted] at scanned
      cases scanned
      rw [(DirStats.all_files_sort_by_size_perm _).mem_iff, ← DirStats.map_snd_holdings] at inTree
      obtain ⟨held, inside, rfl⟩ := List.mem_map.mp inTree
      obtain ⟨folders, name, method, _, chosen, analyzed⟩ := walk_holds_analyzed items root inside
      exact ⟨name, method, _, chosen, analyzed⟩

theorem Survey.scan_fits {survey : Survey} (known : survey.registry = Language.builtinRegistry)
    (reads : ∀ method path file, survey.analyze method path = .ok file →
      ∃ text, file = method.analyze Language.builtinRegistry path text)
    {root : String} {log : List Entry} {tree : DirStats Nat}
    (scanned : survey.scan root = .ok (log, tree)) : ∀ file ∈ tree.allFiles, file.Fits := by
  intro file inTree
  obtain ⟨name, method, path, chosen, analyzed⟩ := scan_holds_analyzed scanned file inTree
  obtain ⟨_, _, selected⟩ := (survey.method_for_eq_some_iff name method).mp chosen
  obtain ⟨text, rfl⟩ := reads method path file analyzed
  rw [known] at selected
  exact analyzed_fits selected path text

/-- The sections of the report on a scan agree, whatever the project is like, whichever of its files and
directories cannot be read, and whatever the scan is restricted to. -/
theorem report_sections_agree (store : Store) (extensions ignored : List String) (logger : Logger)
    (unreadable refusal : String → Option Failure) (directory path : String) :
    let survey : Survey :=
      { (Survey.ofStore store Language.builtinRegistry extensions ignored logger).failingOn
          unreadable with refusal }
    let root := Path.resolve directory path
    (∀ items, store.find "/" root = .ok (.directory items) →
      ∃ log tree, survey.scan root = .ok (log, tree)) ∧
    ∀ log tree, survey.scan root = .ok (log, tree) → ∀ project generatedAt,
      (Report.Figures.ofTree tree).StandIn (Report.documentJson project generatedAt tree) ∧
        (Report.Figures.ofTree tree).Agree := by
  intro survey root
  constructor
  · intro items resolved
    have reached : store.status "/" root = .ok (some (.directory items)) :=
      Store.status_of_find resolved
    have rooted := Survey.root_items_of_status (store.status "/") root items reached
    exact ⟨_, _, survey.scan_of_root_items root items rooted⟩
  · intro log tree scanned project generatedAt
    have fit : ∀ file ∈ tree.allFiles, file.Fits := by
      apply Survey.scan_fits rfl ?_ scanned
      intro method place file analyzed
      have content := Survey.analyzed_of_failing_on analyzed
      exact ⟨_, (Except.ok.inj content).symm⟩
    exact ⟨Report.figures_stand_in_document project generatedAt tree, Report.figures_agree fit⟩

/-! ### A small project -/

/-- Scripts in both languages, of which one cannot be read, a document, and a file of another kind. -/
def varietyItems : List (String × Item) := [
  ("a.ts", .file []), ("b.mjs", .file [10]), ("locked.ts", .file []),
  ("docs", .directory [("c.md", .file [35, 32, 99])]), ("d.py", .file [35])]

def varietyStore : Store := ⟨[("work", .directory varietyItems)]⟩

def lockedScript (path : String) : Option Failure :=
  if path == "/work/locked.ts" then some (.plain "locked") else none

theorem variety_sections_agree :
    varietyStore.find "/" (Path.resolve "/" "work") = .ok (.directory varietyItems) ∧
    let survey : Survey :=
      { (Survey.ofStore varietyStore Language.builtinRegistry [] [] (.standard .plain)).failingOn
          lockedScript with refusal := fun _ => none }
    ∃ log tree, survey.scan (Path.resolve "/" "work") = .ok (log, tree) ∧
      ∀ project generatedAt,
        (Report.Figures.ofTree tree).StandIn (Report.documentJson project generatedAt tree) ∧
          (Report.Figures.ofTree tree).Agree := by
  have resolved : varietyStore.find "/" (Path.resolve "/" "work") =
      .ok (.directory varietyItems) := by cbv
  obtain ⟨scans, agree⟩ := report_sections_agree varietyStore [] [] (.standard .plain) lockedScript
    (fun _ => none) "/" "work"
  obtain ⟨log, tree, scanned⟩ := scans varietyItems resolved
  exact ⟨resolved, log, tree, scanned, agree log tree scanned⟩

end LineCensus
