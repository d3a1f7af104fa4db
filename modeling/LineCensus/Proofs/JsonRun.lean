import LineCensus.Command.Analyze
import LineCensus.Proofs.Following
import LineCensus.Proofs.ReportText
import LineCensus.Proofs.Walk

/-!
What is printed by an analysis that has to give JSON: one document on standard output, and nothing
else there. Progress and details are not mentioned; what goes wrong on the way goes to the other
stream, and what ends the analysis is the document. It is read back from what is printed. This is shown
of all stores and of directories that refuse to be listed, whichever they are.
-/

namespace LineCensus

set_option autoImplicit false

/-! ### Messages of a scan -/

def Logger.Warns (logger : Logger) (entry : Entry) : Prop :=
  ∃ message, logger.warn message = [entry]

theorem Logger.Warns.stream {logger : Logger} {entry : Entry} (warning : logger.Warns entry) :
    entry.stream = .err := by
  obtain ⟨message, same⟩ := warning
  rw [warn, List.cons.injEq] at same
  rw [← same.1]
  rfl

theorem Logger.warns_of_mem_warn {logger : Logger} {message : String} {entry : Entry}
    (member : entry ∈ logger.warn message) : logger.Warns entry := by
  rw [warn, List.mem_singleton] at member
  exact ⟨message, by rw [member, warn]⟩

theorem Logger.debug_eq_nil {logger : Logger} (terse : logger.verbose = false) (message : String) :
    logger.debug message = [] := by
  rw [debug, terse]
  rfl

namespace Survey

variable (survey : Survey)

theorem visit_file_warns (path name : String) :
    ∀ entry ∈ (survey.visitFile path name).log, survey.logger.Warns entry := by
  intro entry said
  unfold visitFile at said
  cases chosen : survey.methodFor name with
  | none => simp [chosen, Found.silent] at said
  | some method =>
      cases analyzed : survey.analyze method path with
      | ok file => simp [chosen, analyzed] at said
      | error failure =>
          simp only [chosen, analyzed, Found.silent] at said
          exact Logger.warns_of_mem_warn said

variable (terse : survey.logger.verbose = false)

include terse

theorem visit_link_warns (path name : String) :
    ∀ entry ∈ (survey.visitLink path name).log, survey.logger.Warns entry := by
  intro entry said
  unfold visitLink at said
  split at said
  · exact survey.visit_file_warns path name entry said
  · cases said
  · rw [Found.silent, Logger.debug_eq_nil terse] at said
    cases said

/-- A visit gives nothing but warnings, provided that the walk through the directory that it leads to
does. -/
theorem visit_warns (path name : String) (item : Item)
    (below : ∀ items, item = .directory items →
      ∀ entry ∈ (survey.walk path items).1, survey.logger.Warns entry) :
    ∀ entry ∈ (survey.visit path name item).log, survey.logger.Warns entry := by
  intro entry said
  cases item with
  | file bytes =>
      rw [visit] at said
      exact survey.visit_file_warns path name entry said
  | link target =>
      rw [visit] at said
      exact survey.visit_link_warns terse path name entry said
  | directory items =>
      rw [visit_directory] at said
      split at said
      · rw [Found.silent, Logger.debug_eq_nil terse] at said
        cases said
      · exact below items rfl entry said

/-- A walk gives nothing but warnings to those who want no details. -/
theorem walk_warns (items : List (String × Item)) :
    ∀ path, ∀ entry ∈ (survey.walk path items).1, survey.logger.Warns entry := by
  induction items using Item.directory_induction with
  | step items ih =>
      intro path entry said
      cases refused : survey.refusal path with
      | some failure =>
          rw [walk, refused] at said
          exact Logger.warns_of_mem_warn said
      | none =>
          rw [survey.walk_of_listed path items refused, collect, Found.gather,
            List.mem_flatMap] at said
          obtain ⟨part, inOrder, said⟩ := said
          rw [(in_name_order_perm _).mem_iff, visit_all_eq_map, List.map_map, List.mem_map] at inOrder
          obtain ⟨⟨name, item⟩, member, rfl⟩ := inOrder
          refine survey.visit_warns terse _ name item ?_ entry said
          rintro inner rfl
          exact ih name inner member _

end Survey

/-! ### Runs -/

namespace Command

open Stats (DirStats)

def Plan.survey (plan : Plan) (place : Surroundings) : Survey :=
  { Survey.ofStore place.store Language.builtinRegistry plan.extensions plan.ignored plan.logger with
    refusal := place.refusal }

/-- What keeps an analysis from being carried out: there is no configuration to go by, the ignore file
cannot be read, or the root is no directory. -/
inductive Obstacle (place : Surroundings) (request : Request) : Failure → Prop where
  | config (fault : ConfigFault)
      (faulty : Config.load place.store place.directory
        (Path.resolve place.directory request.path) request.config = .error fault) :
      Obstacle place request (.config fault)
  | ignoreFile (config : Config) (failure : Failure)
      (loaded : Config.load place.store place.directory
        (Path.resolve place.directory request.path) request.config = .ok config)
      (unreadable : Ignore.load place.store place.directory
        (Path.resolve place.directory request.path) (config.ignore ++ request.ignore) =
          .error failure) :
      Obstacle place request failure
  | root (plan : Plan) (failure : Failure) (planned : planOf place request = .ok plan)
      (refused : Survey.rootItems (place.store.status "/") plan.root = .error failure) :
      Obstacle place request failure

section

variable (place : Surroundings) (request : Request)

/-- There is a plan unless the configuration or the ignore file stands in the way; and who wants JSON
gets a plan for JSON that keeps quiet. -/
theorem plan_of_json (json : request.json = true) :
    (∃ plan, planOf place request = .ok plan ∧ plan.json = true ∧ plan.logger.quiet = true ∧
        plan.logger.verbose = false) ∨
      ∃ failure, planOf place request = .error failure ∧ Obstacle place request failure := by
  cases loaded : Config.load place.store place.directory
      (Path.resolve place.directory request.path) request.config with
  | error fault =>
      refine .inr ⟨.config fault, ?_, .config fault loaded⟩
      rw [planOf, loaded]
      rfl
  | ok config =>
      cases read : Ignore.load place.store place.directory
          (Path.resolve place.directory request.path) (config.ignore ++ request.ignore) with
      | error failure =>
          refine .inr ⟨failure, ?_, .ignoreFile config failure loaded read⟩
          simp only [planOf, loaded, Except.mapError, bind, Except.bind, read]
      | ok ignored =>
          refine .inl ⟨?plan, ?planned, ?forJson, ?quiet, ?terse⟩
          case planned =>
            simp only [planOf, loaded, Except.mapError, bind, Except.bind, read]
            rfl
          case forJson => exact json
          case quiet => simp [json]
          case terse => simp [json]

theorem introduction_eq_nil (plan : Plan) (quiet : plan.logger.quiet = true)
    (terse : plan.logger.verbose = false) : plan.introduction = [] := by
  have noInfo : ∀ message, plan.logger.info message = [] := by
    intro message
    rw [Logger.info, quiet]
    rfl
  rw [Plan.introduction, noInfo]
  split <;> split <;> simp [noInfo, Logger.debug_eq_nil terse]

theorem wants_json_values (json : request.json = true) : wantsJson request.values = true := by
  rw [Request.values, json]
  rfl

theorem carry_out_of_scan {plan : Plan} {log : List Entry} {dir : DirStats Nat}
    (scanned : (plan.survey place).scan plan.root = .ok (log, dir)) :
    plan.carryOut place =
      ⟨plan.introduction ++ log ++ plan.conclusion place.time place.painter dir, none⟩ := by
  rw [Plan.survey] at scanned
  simp only [Plan.carryOut, scanned]

theorem carry_out_of_failure {plan : Plan} {failure : Failure}
    (failed : (plan.survey place).scan plan.root = .error failure) :
    plan.carryOut place = ⟨plan.introduction, some failure⟩ := by
  rw [Plan.survey] at failed
  simp only [Plan.carryOut, failed]

/-- A plan for JSON that keeps quiet says nothing but warnings and the report, unless the root is no
directory. -/
theorem carry_out_json (plan : Plan) (json : plan.json = true) (quiet : plan.logger.quiet = true)
    (terse : plan.logger.verbose = false) :
    (∃ warnings dir, (plan.survey place).scan plan.root = .ok (warnings, dir) ∧
        (∀ entry ∈ warnings, plan.logger.Warns entry) ∧
        plan.carryOut place =
          ⟨warnings ++ [.out (Report.documentJson plan.root place.time dir).renderIndented],
            none⟩) ∨
      ∃ failure, Survey.rootItems (place.store.status "/") plan.root = .error failure ∧
        plan.carryOut place = ⟨[], some failure⟩ := by
  have unannounced := introduction_eq_nil plan quiet terse
  cases rooted : Survey.rootItems (place.store.status "/") plan.root with
  | error failure =>
      have failed : (plan.survey place).scan plan.root = .error failure := by
        rw [Survey.scan, show (plan.survey place).status = place.store.status "/" from rfl, rooted]
        rfl
      exact .inr ⟨failure, rfl, by rw [carry_out_of_failure place failed, unannounced]⟩
  | ok items =>
      have scanned := (plan.survey place).scan_of_root_items plan.root items rooted
      refine .inl ⟨_, _, scanned, (plan.survey place).walk_warns terse items plan.root, ?_⟩
      rw [carry_out_of_scan place scanned, unannounced]
      simp only [Plan.conclusion, json, if_true]
      rfl

theorem analyze_of_plan (analysis : request.listExtensions = false) (plan : Plan)
    (planned : planOf place request = .ok plan) : analyze place request = plan.carryOut place := by
  rw [analyze, analysis, planned]
  rfl

theorem analyze_without_plan (analysis : request.listExtensions = false) (failure : Failure)
    (unplanned : planOf place request = .error failure) :
    analyze place request = ⟨[], some failure⟩ := by
  rw [analyze, analysis, unplanned]
  rfl

/-- A run for JSON ends with the report, and nothing but warnings before it, unless something stands in
the way. -/
theorem analyze_json (json : request.json = true) (analysis : request.listExtensions = false) :
    (∃ plan warnings dir, planOf place request = .ok plan ∧
        (plan.survey place).scan plan.root = .ok (warnings, dir) ∧
        (∀ entry ∈ warnings, plan.logger.Warns entry) ∧
        analyze place request =
          ⟨warnings ++ [.out (Report.documentJson plan.root place.time dir).renderIndented],
            none⟩) ∨
      ∃ failure, Obstacle place request failure ∧ analyze place request = ⟨[], some failure⟩ := by
  rcases plan_of_json place request json with
    ⟨plan, planned, forJson, quiet, terse⟩ | ⟨failure, unplanned, obstacle⟩
  · have started := analyze_of_plan place request analysis plan planned
    rcases carry_out_json place plan forJson quiet terse with
      ⟨warnings, dir, scanned, warned, carried⟩ | ⟨failure, refused, carried⟩
    · exact .inl ⟨plan, warnings, dir, planned, scanned, warned, started.trans carried⟩
    · exact .inr ⟨failure, .root plan failure planned refused, started.trans carried⟩
  · exact .inr ⟨failure, obstacle, analyze_without_plan place request analysis failure unplanned⟩

theorem run_of_failure (json : request.json = true) (failure : Failure)
    (failed : analyze place request = ⟨[], some failure⟩) :
    runAnalysis place request =
      ⟨[.out (failureJson "analyze" place.time failure).renderIndented], some 1⟩ := by
  rw [runAnalysis, failed, conclude]
  simp only [wants_json_values request json, if_true]
  rfl

/-- Who wants JSON gets one document on standard output, whatever the files are like: the report on
the project, with nothing but warnings beside it, or the failure that has kept it from being made. What
is printed is the writing of this document in JSON. -/
theorem json_run_prints_one_document (json : request.json = true)
    (analysis : request.listExtensions = false) :
    ∃ document : Json,
      (runAnalysis place request).log.filter (·.stream == .out) =
        [.out document.renderIndented] ∧
      Json.parse? document.renderIndented = some document.asWritten ∧
      ((∃ plan warnings dir,
          planOf place request = .ok plan ∧
          (plan.survey place).scan plan.root = .ok (warnings, dir) ∧
          (∀ entry ∈ warnings, plan.logger.Warns entry) ∧
          document = Report.documentJson plan.root place.time dir ∧
          runAnalysis place request = ⟨warnings ++ [.out document.renderIndented], none⟩) ∨
        ∃ failure, Obstacle place request failure ∧
          document = .object
            ([("success", .bool false), ("error", .string failure.message),
              ("command", .string "analyze"), ("timestamp", .string place.time)] ++
              match failure.code? with
              | some code => [("code", .string code)]
              | none => []) ∧
          runAnalysis place request = ⟨[.out document.renderIndented], some 1⟩) := by
  rcases analyze_json place request json analysis with
    ⟨plan, warnings, dir, planned, scanned, warned, done⟩ | ⟨failure, obstacle, failed⟩
  · have result : runAnalysis place request =
        ⟨warnings ++ [.out (Report.documentJson plan.root place.time dir).renderIndented], none⟩ := by
      rw [runAnalysis, done]
      rfl
    have proper := Report.document_json_is_proper plan.root place.time dir
    refine ⟨_, ?_, Json.parse_rendered Json.indented_spaced proper 0,
      .inl ⟨plan, warnings, dir, planned, scanned, warned, rfl, result⟩⟩
    have elsewhere : warnings.filter (·.stream == .out) = [] := by
      rw [List.filter_eq_nil_iff]
      intro entry said
      rw [(warned entry said).stream]
      decide
    rw [result, List.filter_append, elsewhere]
    rfl
  · have result := run_of_failure place request json failure failed
    have proper := failure_json_is_proper "analyze" place.time failure
    refine ⟨_, ?_, Json.parse_rendered Json.indented_spaced proper 0,
      .inr ⟨failure, obstacle, rfl, result⟩⟩
    rw [result]
    rfl

end

def emptyPlace : Surroundings :=
  { store := ⟨[]⟩, directory := "/", time := "2024-01-01T00:00:00.000Z", painter := .plain
    refusal := fun _ => none }

def lockedItems : List (String × Item) := [("a.py", .file [35, 10]), ("locked", .directory [])]

def lockedPlace : Surroundings :=
  { emptyPlace with
    store := ⟨lockedItems⟩
    refusal := fun path => if path == "/locked" then some (.plain "permission denied") else none }

def jsonRequest : Request := { Request.standard with json := true }

def jsonPlan : Plan :=
  { root := "/", extensions := [], ignored := [], json := true, mode := .full
    logger := ⟨false, true, .plain⟩ }

theorem locked_place_lacks {name : String} (plain : Path.IsPlain name.toList)
    (absent : lockedItems.lookup name = none) :
    lockedPlace.store.reaches "/" (Path.join "/" name) = false := by
  have joined : Path.join "/" name = Path.absolute [name] := Path.join_absolute [] name (by simp) plain
  rw [joined]
  exact Store.reaches_absent plain absent

theorem json_request_planned : planOf lockedPlace jsonRequest = .ok jsonPlan := by
  have root : Path.resolve lockedPlace.directory jsonRequest.path = "/" := by cbv
  have start : lockedPlace.directory = "/" := rfl
  have loaded : Config.load lockedPlace.store lockedPlace.directory "/" jsonRequest.config =
      .ok Config.default := by
    have unnamed : jsonRequest.config.filter (!·.isEmpty) = none := rfl
    have apart : ∀ name ∈ Config.fileNames,
        Path.IsPlain name.toList ∧ lockedItems.lookup name = none := by decide
    have absent : (Config.fileNames.map (Path.join "/")).find? (lockedPlace.store.reaches "/") =
        none := by
      rw [List.find?_eq_none, List.forall_mem_map]
      intro name member
      rw [locked_place_lacks (apart name member).1 (apart name member).2]
      decide
    rw [Config.load, unnamed, start]
    simp only [absent]
  have read : Ignore.load lockedPlace.store lockedPlace.directory "/"
      (Config.default.ignore ++ jsonRequest.ignore) = .ok [] := by
    rw [Ignore.load, start]
    simp only [locked_place_lacks (show Path.IsPlain Ignore.fileName.toList by decide) (by decide)]
    rfl
  simp only [planOf, root, loaded, Except.mapError, bind, Except.bind, read]
  rfl

theorem locked_place_walked :
    ∃ file, (jsonPlan.survey lockedPlace).walk "/" lockedItems =
      ([.err "⚠ Skipping unreadable directory /locked: permission denied"], .mk "/" [file] []) := by
  have chosen : (jsonPlan.survey lockedPlace).methodFor "a.py" = some (.markers "Python") := by
    have visible : Ignore.isHidden "a.py" = false := by decide
    have selected : Method.select Language.builtinRegistry "a.py" = some (.markers "Python") := by
      decide
    rw [Survey.methodFor, visible]
    exact selected
  have kept : Ignore.skips (jsonPlan.survey lockedPlace).ignored "locked" = false := by decide
  have paths : Path.join "/" "a.py" = "/a.py" ∧ Path.join "/" "locked" = "/locked" := by decide
  have refused : (jsonPlan.survey lockedPlace).refusal "/locked" = some (.plain "permission denied") :=
    rfl
  have inOrder : Text.isBefore "locked" "a.py" = false := by decide
  rw [Survey.walk_of_listed _ _ _ rfl, lockedItems, Survey.visitAll, Survey.visitAll, Survey.visitAll,
    paths.1, paths.2, Survey.visit, Survey.visitFile, chosen, Survey.visit, kept, refused,
    Survey.collect, inNameOrder, List.mergeSort_of_pairwise (by simp [inOrder])]
  exact ⟨_, rfl⟩

/-- The directory is warned of, and the report on the file is all that is on standard output. -/
theorem locked_directory_leaves_one_document :
    jsonRequest.json = true ∧ jsonRequest.listExtensions = false ∧
      ∃ dir : DirStats Nat, dir.fileCount = 1 ∧
        let document := Report.documentJson "/" lockedPlace.time dir
        Json.parse? document.renderIndented = some document.asWritten ∧
          runAnalysis lockedPlace jsonRequest =
            ⟨[.err "⚠ Skipping unreadable directory /locked: permission denied",
              .out document.renderIndented], none⟩ := by
  obtain ⟨file, walked⟩ := locked_place_walked
  have rooted : Survey.rootItems (lockedPlace.store.status "/") "/" = .ok lockedItems := by cbv
  have scans := (jsonPlan.survey lockedPlace).scan_of_root_items "/" lockedItems rooted
  have finished : (runAnalysis lockedPlace jsonRequest).exitCode = none := by
    rw [runAnalysis, analyze_of_plan _ _ rfl _ json_request_planned, carry_out_of_scan _ scans]
    rfl
  refine ⟨rfl, rfl, ?_⟩
  obtain ⟨document, -, read, ⟨plan, warnings, dir, planned, scanned, -, rfl, result⟩ |
    ⟨failure, -, -, result⟩⟩ := json_run_prints_one_document lockedPlace jsonRequest rfl rfl
  · rw [json_request_planned, Except.ok.injEq] at planned
    subst planned
    rw [show jsonPlan.root = "/" from rfl, scans, Except.ok.injEq, Prod.mk.injEq, walked] at scanned
    refine ⟨dir, ?_, read, ?_⟩
    · rw [← scanned.2, DirStats.file_count_sort_by_size]
      rfl
    · rw [result, ← scanned.1]
      rfl
  · rw [result] at finished
    cases finished

end Command

end LineCensus
