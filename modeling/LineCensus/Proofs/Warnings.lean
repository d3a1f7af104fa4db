import LineCensus.Proofs.Census
import LineCensus.Proofs.NameOrder

/-!
What a walk warns of. A walk meets a fault where a file that it wants cannot be analyzed and where a
directory that it enters cannot be listed, and behind a directory that cannot be listed it meets
nothing. It warns of each fault that it meets once and of nothing else, in the order of their places:
depth first, and by name in each directory.
-/

namespace LineCensus

set_option autoImplicit false

open Stats (FileStats DirStats)

/-- The order in which a walk comes to places, each given by the names that lead there. -/
def Earlier (left right : List String) : Prop :=
  List.Lex (fun a b => Text.isBefore a b = true) left right

/-! ### Warnings among messages -/

def warningsOf (log : List Entry) : List Entry := log.filter (·.stream == .err)

theorem warnings_of_append (first second : List Entry) :
    warningsOf (first ++ second) = warningsOf first ++ warningsOf second := List.filter_append _ _

theorem warnings_of_warn (logger : Logger) (message : String) :
    warningsOf (logger.warn message) = logger.warn message := rfl

theorem warnings_of_debug (logger : Logger) (message : String) :
    warningsOf (logger.debug message) = [] := by
  rw [Logger.debug]
  split <;> rfl

namespace Survey

variable (survey : Survey)

/-! ### Faults -/

def failedText (path : String) (failure : Failure) : String :=
  "Failed to analyze " ++ path ++ ": " ++ failure.message

def unreadableText (path : String) (failure : Failure) : String :=
  "Skipping unreadable directory " ++ path ++ ": " ++ failure.message

/-- Whether every directory on the way to a place can be listed. -/
def Approaches (root : String) (place : List String) : Prop :=
  ∀ front, front <+: place → front ≠ place → survey.refusal (pathBelow root front) = none

/-- The faults that a walk meets, each with its place and with what is said of it. -/
inductive Meets (root : String) (items : List (String × Item)) : List String → String → Prop where
  | file {folders : List String} {name : String} {method : Method} {failure : Failure}
      (wanted : survey.Wants root items folders name method)
      (approached : survey.Approaches root (folders ++ [name]))
      (failed : survey.analyze method (pathBelow root (folders ++ [name])) = .error failure) :
      Meets root items (folders ++ [name])
        (failedText (pathBelow root (folders ++ [name])) failure)
  | directory {place : List String} {inner : List (String × Item)} {failure : Failure}
      (present : (Item.directory items).at? place = some (.directory inner))
      (entered : ∀ folder ∈ place, Ignore.skips survey.ignored folder = false)
      (approached : survey.Approaches root place)
      (refused : survey.refusal (pathBelow root place) = some failure) :
      Meets root items place (unreadableText (pathBelow root place) failure)

/-- The faults that a visit to one entry meets, their places given from the entry on. -/
def MeetsAt (path name : String) (item : Item) (place : List String) (message : String) : Prop :=
  (place = [] ∧ survey.LeadsToFile path item ∧ ∃ method failure,
    survey.methodFor name = some method ∧ survey.analyze method path = .error failure ∧
      message = failedText path failure) ∨
  ∃ inner, item = .directory inner ∧ Ignore.skips survey.ignored name = false ∧
    survey.Meets path inner place message

variable {survey} {root : String} {items : List (String × Item)}

theorem approaches_cons_iff (listed : survey.refusal root = none) (name : String)
    (rest : List String) :
    survey.Approaches root (name :: rest) ↔ survey.Approaches (Path.join root name) rest := by
  constructor
  · intro approached front before part
    exact approached (name :: front) ((List.prefix_cons_inj name).mpr before) (by simpa using part)
  · intro approached front before part
    rcases List.prefix_cons_iff.mp before with rfl | ⟨inner, rfl, further⟩
    · exact listed
    · exact approached inner further (by simpa using part)

/-- A directory that cannot be listed is the one fault that a walk through it meets. -/
theorem meets_refused_iff {failure : Failure} (refused : survey.refusal root = some failure)
    (place : List String) (message : String) :
    survey.Meets root items place message ↔ place = [] ∧ message = unreadableText root failure := by
  have start {place : List String} (approached : survey.Approaches root place) : place = [] := by
    by_contra some
    have listed := approached [] List.nil_prefix (Ne.symm some)
    change survey.refusal root = none at listed
    rw [refused] at listed
    cases listed
  constructor
  · intro met
    cases met with
    | file wanted approached failed => exact absurd (start approached) (by simp)
    | directory present entered approached refusedThere =>
        obtain rfl := start approached
        change survey.refusal root = _ at refusedThere
        rw [refused, Option.some.injEq] at refusedThere
        exact ⟨rfl, by rw [refusedThere]; rfl⟩
  · rintro ⟨rfl, rfl⟩
    have present : (Item.directory items).at? [] = some (.directory items) := rfl
    exact .directory present (by simp) (fun front before part =>
      absurd (List.prefix_nil.mp before) part) refused

/-- A walk through a directory that can be listed meets what visits to the entries in it meet. -/
theorem meets_listed_iff (listed : survey.refusal root = none) (place : List String)
    (message : String) :
    survey.Meets root items place message ↔ ∃ name item rest, items.lookup name = some item ∧
      place = name :: rest ∧ survey.MeetsAt (Path.join root name) name item rest message := by
  constructor
  · intro met
    cases met with
    | @file folders name method failure wanted approached failed =>
        cases folders with
        | nil =>
            obtain ⟨item, looked, leads, chosen⟩ := wants_here_iff.mp wanted
            exact ⟨name, item, [], looked, rfl,
              .inl ⟨rfl, leads, method, failure, chosen, failed, rfl⟩⟩
        | cons folder folders =>
            obtain ⟨inner, looked, entered, further⟩ := (wants_below_iff folder).mp wanted
            rw [List.cons_append, approaches_cons_iff listed] at approached
            exact ⟨folder, _, folders ++ [name], looked, rfl,
              .inr ⟨inner, rfl, entered, .file further approached failed⟩⟩
    | @directory place inner failure present entered approached refused =>
        cases place with
        | nil =>
            change survey.refusal root = _ at refused
            rw [listed] at refused
            cases refused
        | cons name rest =>
            obtain ⟨item, looked, further⟩ := (Item.at_cons_iff items name rest _).mp present
            rw [approaches_cons_iff listed] at approached
            obtain ⟨middle, rfl⟩ := Item.directory_of_at further
            exact ⟨name, _, rest, looked, rfl, .inr ⟨middle, rfl, entered name (by simp),
              .directory further (fun folder member =>
                entered folder (List.mem_cons_of_mem name member)) approached refused⟩⟩
  · rintro ⟨name, item, rest, looked, rfl, ⟨rfl, leads, method, failure, chosen, failed, rfl⟩ |
      ⟨inner, rfl, entered, met⟩⟩
    · have approached : survey.Approaches root ([] ++ [name]) :=
        (approaches_cons_iff listed name []).mpr
          fun front before part => absurd (List.prefix_nil.mp before) part
      exact .file (wants_here_iff.mpr ⟨item, looked, leads, chosen⟩) approached failed
    · cases met with
      | @file folders last method failure wanted approached failed =>
          have whole : survey.Approaches root (name :: folders ++ [last]) :=
            (approaches_cons_iff listed name _).mpr approached
          exact .file ((wants_below_iff name).mpr ⟨inner, looked, entered, wanted⟩) whole failed
      | directory present enteredThere approached refused =>
          refine .directory ((Item.at_cons_iff items name rest _).mpr
            ⟨_, looked, present⟩) ?_ ((approaches_cons_iff listed name rest).mpr approached) refused
          simpa using ⟨entered, enteredThere⟩

/-! ### Warnings -/

/-- Whether the warnings among some messages are those of the given faults, one for each, in the order
of their places, and these are all faults that are met. -/
structure Recounts (survey : Survey) (log : List Entry) (faults : List (List String × String))
    (meets : List String → String → Prop) : Prop where
  told : warningsOf log = faults.flatMap fun fault => survey.logger.warn fault.2
  ordered : faults.Pairwise fun earlier later => Earlier earlier.1 later.1
  met_iff : ∀ place message, (place, message) ∈ faults ↔ meets place message

theorem Recounts.nothing {log : List Entry} {meets : List String → String → Prop}
    (silent : warningsOf log = []) (unmet : ∀ place message, ¬meets place message) :
    survey.Recounts log [] meets where
  told := silent
  ordered := .nil
  met_iff := fun place message => by simp [unmet place message]

theorem Recounts.single {log : List Entry} {meets : List String → String → Prop} (message : String)
    (told : warningsOf log = survey.logger.warn message)
    (only : ∀ place said, meets place said ↔ place = [] ∧ said = message) :
    survey.Recounts log [([], message)] meets where
  told := by simpa using told
  ordered := List.pairwise_singleton _ _
  met_iff := fun place said => by simp [only place said]

/-- A link that does not lead to a file is passed over without a warning. -/
theorem visit_link_astray {path : String}
    (astray : ¬∃ bytes, survey.status path = .ok (some (.file bytes))) (name : String) :
    ∃ log, survey.visitLink path name = .silent log ∧ warningsOf log = [] := by
  rw [visitLink]
  split
  case h_1 bytes reached => exact absurd ⟨bytes, reached⟩ astray
  case h_2 => exact ⟨[], rfl, rfl⟩
  case h_3 => exact ⟨_, rfl, warnings_of_debug _ _⟩

theorem visit_file_recounts {path name : String} {item : Item}
    (leads : survey.LeadsToFile path item) (same : survey.visit path name item =
      survey.visitFile path name) :
    ∃ faults, survey.Recounts (survey.visit path name item).log faults
      (survey.MeetsAt path name item) := by
  have notDirectory : ∀ inner, item ≠ .directory inner := by
    rintro inner rfl
    exact leads
  rw [same]
  cases chosen : survey.methodFor name with
  | none =>
      rw [visit_file_passed_over chosen]
      refine ⟨[], .nothing rfl ?_⟩
      rintro place message (⟨-, -, method, failure, other, -⟩ | ⟨inner, isDirectory, -⟩)
      · rw [chosen] at other
        cases other
      · exact notDirectory inner isDirectory
  | some method =>
      cases analyzed : survey.analyze method path with
      | ok file =>
          rw [visit_file_analyzed chosen analyzed]
          refine ⟨[], .nothing rfl ?_⟩
          rintro place message (⟨-, -, other, failure, otherChosen, failed, -⟩ |
            ⟨inner, isDirectory, -⟩)
          · rw [chosen, Option.some.injEq] at otherChosen
            subst otherChosen
            rw [analyzed] at failed
            cases failed
          · exact notDirectory inner isDirectory
      | error failure =>
          rw [visit_file_failed chosen analyzed]
          refine ⟨_, .single (failedText path failure) rfl ?_⟩
          intro place said
          constructor
          · rintro (⟨rfl, -, other, otherFailure, otherChosen, failed, rfl⟩ |
              ⟨inner, isDirectory, -⟩)
            · rw [chosen, Option.some.injEq] at otherChosen
              subst otherChosen
              rw [analyzed, Except.error.injEq] at failed
              exact ⟨rfl, by rw [failed]⟩
            · exact absurd isDirectory (notDirectory inner)
          · rintro ⟨rfl, rfl⟩
            exact .inl ⟨rfl, leads, method, failure, chosen, analyzed, rfl⟩

/-- A visit warns of the faults that it meets, provided that a walk through the directory that it
leads to does. -/
theorem visit_recounts (path name : String) (item : Item)
    (below : ∀ inner, item = .directory inner → ∃ faults,
      survey.Recounts (survey.walk path inner).1 faults (survey.Meets path inner)) :
    ∃ faults, survey.Recounts (survey.visit path name item).log faults
      (survey.MeetsAt path name item) := by
  cases item with
  | file bytes => exact visit_file_recounts trivial (by rw [visit])
  | link target =>
      rcases survey.visit_link_eq path name with ⟨leads, same⟩ | ⟨astray, log, same⟩
      · exact visit_file_recounts leads (by rw [visit, same])
      · obtain ⟨said, silent, unwarned⟩ := visit_link_astray astray name
        refine ⟨[], .nothing (by rwa [visit, silent]) ?_⟩
        rintro place message (⟨-, leads, -⟩ | ⟨inner, isDirectory, -⟩)
        · exact astray leads
        · cases isDirectory
  | directory inner =>
      rw [visit_directory]
      by_cases skipped : Ignore.skips survey.ignored name = true
      · rw [if_pos skipped]
        refine ⟨[], .nothing (warnings_of_debug _ _) ?_⟩
        rintro place message (⟨-, leads, -⟩ | ⟨_, -, entered, -⟩)
        · exact leads
        · rw [skipped] at entered
          cases entered
      · rw [if_neg skipped]
        obtain ⟨faults, recounted⟩ := below inner rfl
        refine ⟨faults, recounted.told, recounted.ordered, fun place message => ?_⟩
        rw [recounted.met_iff]
        constructor
        · exact fun met => .inr ⟨inner, rfl, by simpa using skipped, met⟩
        · rintro (⟨-, leads, -⟩ | ⟨_, same, -, met⟩)
          · exact leads.elim
          · cases same
            exact met

/-- What is met at one of some entries, its place given from the directory that they are in. -/
def MeetsAmong (survey : Survey) (root : String) (entries : List (String × Item))
    (place : List String) (message : String) : Prop :=
  ∃ name item rest, (name, item) ∈ entries ∧ place = name :: rest ∧
    survey.MeetsAt (Path.join root name) name item rest message

/-- Visits to entries in the order of their names warn of the faults that they meet, one after
another. -/
theorem visits_recount (survey : Survey) (root : String) (entries : List (String × Item)) (increasing : NamesIncrease entries)
    (each : ∀ entry ∈ entries, ∃ faults, survey.Recounts
      (survey.visit (Path.join root entry.1) entry.1 entry.2).log faults
      (survey.MeetsAt (Path.join root entry.1) entry.1 entry.2)) :
    ∃ faults, survey.Recounts
      (entries.flatMap fun entry => (survey.visit (Path.join root entry.1) entry.1 entry.2).log)
      faults (survey.MeetsAmong root entries) := by
  induction entries with
  | nil => exact ⟨[], .nothing rfl (by simp [MeetsAmong])⟩
  | cons entry rest ih =>
      obtain ⟨name, item⟩ := entry
      rw [NamesIncrease, List.pairwise_cons] at increasing
      obtain ⟨first, head⟩ := each (name, item) (by simp)
      obtain ⟨others, tail⟩ := ih increasing.2 fun other member =>
        each other (List.mem_cons_of_mem _ member)
      refine ⟨first.map (fun fault => (name :: fault.1, fault.2)) ++ others, ?_, ?_, ?_⟩
      · rw [List.flatMap_cons, warnings_of_append, head.told, tail.told, List.flatMap_append,
          List.flatMap_map]
      · -- Faults at one entry keep their order behind its name; those at others differ by the name.
        rw [List.pairwise_append]
        refine ⟨List.pairwise_map.mpr (head.ordered.imp fun earlier => .cons earlier), tail.ordered, ?_⟩
        intro early inFirst later inOthers
        obtain ⟨fault, _, rfl⟩ := List.mem_map.mp inFirst
        obtain ⟨other, otherItem, place, member, same, _⟩ := (tail.met_iff later.1 later.2).mp inOthers
        rw [same]
        exact .rel (increasing.1 (other, otherItem) member)
      · intro place message
        rw [List.mem_append, List.mem_map, tail.met_iff]
        constructor
        · rintro (⟨⟨inner, said⟩, inFirst, same⟩ | ⟨other, otherItem, inner, member, rfl, met⟩)
          · obtain ⟨rfl, rfl⟩ := Prod.mk.inj same
            exact ⟨name, item, inner, by simp, rfl, (head.met_iff inner said).mp inFirst⟩
          · exact ⟨other, otherItem, inner, List.mem_cons_of_mem _ member, rfl, met⟩
        · rintro ⟨other, otherItem, inner, member, rfl, met⟩
          rcases List.mem_cons.mp member with same | behind
          · obtain ⟨rfl, rfl⟩ := Prod.mk.inj same
            exact .inl ⟨(inner, message), (head.met_iff inner message).mpr met, rfl⟩
          · exact .inr ⟨other, otherItem, inner, behind, rfl, met⟩

/-- A walk warns of the faults that it meets. The induction is on the directory, for each path under
which it may be walked. -/
theorem walk_recounts (items : List (String × Item)) (named : (Item.directory items).WellNamed)
    (root : String) :
    ∃ faults, survey.Recounts (survey.walk root items).1 faults (survey.Meets root items) := by
  induction items using Item.directory_induction generalizing root with
  | step items ih =>
      cases refused : survey.refusal root with
      | some failure =>
          rw [walk, refused]
          exact ⟨_, .single (unreadableText root failure) (warnings_of_warn _ _)
            (meets_refused_iff refused)⟩
      | none =>
          obtain ⟨faults, recounted⟩ := visits_recount survey root
            (byName items) (by_name_increases named.distinct) (by
              rintro ⟨name, item⟩ inOrder
              have member := mem_by_name.mp inOrder
              apply visit_recounts
              rintro inner rfl
              exact ih name inner member (named.inside member) _)
          rw [walk_in_order survey root items refused, findings, Found.gather, List.flatMap_map]
          refine ⟨faults, recounted.told, recounted.ordered, fun place message => ?_⟩
          rw [recounted.met_iff, meets_listed_iff refused]
          constructor
          · rintro ⟨name, item, rest, inOrder, same, met⟩
            exact ⟨name, item, rest, (Item.lookup_eq_some_iff_mem named.distinct name item).mpr
              (mem_by_name.mp inOrder), same, met⟩
          · rintro ⟨name, item, rest, looked, same, met⟩
            exact ⟨name, item, rest, mem_by_name.mpr
              ((Item.lookup_eq_some_iff_mem named.distinct name item).mp looked), same, met⟩

end Survey

end LineCensus
