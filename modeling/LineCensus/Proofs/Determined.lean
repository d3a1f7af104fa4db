import LineCensus.Proofs.ListingOrder
import LineCensus.Proofs.Warnings

/-!
What makes up the tree of a walk. Its files are those of the entries that the walk finds, and its nodes
are there for these files only, in an order that their names decide. So two walks that find the same
files in the same places give the same tree, whatever else there is in the two directories.
-/

namespace LineCensus

set_option autoImplicit false

open Stats (FileStats DirStats)

namespace Survey

/-! ### Files that are found -/

/-- Whether a walk finds a file at the entry with a name in the directory that `folders` lead to. It
comes there if the entry is wanted and every directory on the way can be listed. -/
def Finds (survey : Survey) (root : String) (items : List (String × Item)) (folders : List String)
    (name : String) (file : FileStats Nat) : Prop :=
  ∃ method, survey.Wants root items folders name method ∧
    survey.Approaches root (folders ++ [name]) ∧
    survey.analyze method (pathBelow root (folders ++ [name])) = .ok file

variable {survey : Survey} {root : String} {items : List (String × Item)} {folders : List String}
  {name : String} {file : FileStats Nat}

theorem Finds.listed (finds : survey.Finds root items folders name file) :
    survey.refusal root = none := by
  obtain ⟨_, _, approached, _⟩ := finds
  exact approached [] List.nil_prefix (by simp)

theorem finds_here_iff (listed : survey.refusal root = none) :
    survey.Finds root items [] name file ↔
      ∃ item, items.lookup name = some item ∧ survey.LeadsToFile (Path.join root name) item ∧
        ∃ method, survey.methodFor name = some method ∧
          survey.analyze method (Path.join root name) = .ok file := by
  constructor
  · intro finds
    obtain ⟨method, wanted, _, analyzed⟩ := finds
    obtain ⟨item, looked, leads, chosen⟩ := wants_here_iff.mp wanted
    exact ⟨item, looked, leads, method, chosen, analyzed⟩
  · intro given
    obtain ⟨item, looked, leads, method, chosen, analyzed⟩ := given
    have approached : survey.Approaches root [name] :=
      (approaches_cons_iff listed name []).mpr
        fun front before part => absurd (List.prefix_nil.mp before) part
    exact ⟨method, wants_here_iff.mpr ⟨item, looked, leads, chosen⟩, approached, analyzed⟩

theorem finds_below_iff (listed : survey.refusal root = none) (folder : String) :
    survey.Finds root items (folder :: folders) name file ↔
      ∃ inner, items.lookup folder = some (.directory inner) ∧
        Ignore.skips survey.ignored folder = false ∧
        survey.Finds (Path.join root folder) inner folders name file := by
  constructor
  · intro finds
    obtain ⟨method, wanted, approached, analyzed⟩ := finds
    obtain ⟨inner, looked, entered, further⟩ := (wants_below_iff folder).mp wanted
    exact ⟨inner, looked, entered, method, further,
      (approaches_cons_iff listed folder _).mp approached, analyzed⟩
  · intro given
    obtain ⟨inner, looked, entered, method, further, approached, analyzed⟩ := given
    exact ⟨method, (wants_below_iff folder).mpr ⟨inner, looked, entered, further⟩,
      (approaches_cons_iff listed folder _).mpr approached, analyzed⟩

/-- Where a file is found below a folder, whatever is found below it is found in the directory that the
folder stands for. -/
theorem Finds.inside {folder : String} (finds : survey.Finds root items (folder :: folders) name file) :
    ∃ inner, items.lookup folder = some (.directory inner) ∧ ∀ folders name file,
      survey.Finds root items (folder :: folders) name file ↔
        survey.Finds (Path.join root folder) inner folders name file := by
  obtain ⟨inner, looked, entered, _⟩ := (finds_below_iff finds.listed folder).mp finds
  refine ⟨inner, looked, fun folders name file => ?_⟩
  rw [finds_below_iff finds.listed]
  constructor
  · intro given
    obtain ⟨other, otherLooked, _, further⟩ := given
    rw [looked, Option.some.injEq, Item.directory.injEq] at otherLooked
    exact otherLooked ▸ further
  · intro further
    exact ⟨inner, looked, entered, further⟩

/-! ### What they make of a tree -/

theorem mem_visit_files (path name : String) (item : Item) :
    file ∈ (survey.visit path name item).files ↔
      survey.LeadsToFile path item ∧ ∃ method, survey.methodFor name = some method ∧
        survey.analyze method path = .ok file := by
  have visited : file ∈ (survey.visitFile path name).files ↔
      ∃ method, survey.methodFor name = some method ∧ survey.analyze method path = .ok file := by
    cases chosen : survey.methodFor name with
    | none => simp [visit_file_passed_over chosen, Found.silent]
    | some method =>
        cases analyzed : survey.analyze method path with
        | error failure => simp [visit_file_failed chosen analyzed, Found.silent, analyzed]
        | ok stats => simp [visit_file_analyzed chosen analyzed, analyzed, eq_comm]
  cases item with
  | file bytes => simp [visit, visited, LeadsToFile]
  | link target =>
      rcases survey.visit_link_eq path name with ⟨leads, same⟩ | ⟨astray, log, same⟩
      · simp [visit, same, visited, LeadsToFile, leads]
      · simp [visit, same, LeadsToFile, astray, Found.silent]
  | directory inner =>
      rw [visit_directory]
      split <;> simp [LeadsToFile, Found.silent, keep]

theorem walk_of_refused {failure : Failure} (refused : survey.refusal root = some failure) :
    (survey.walk root items).2 = .mk root [] [] := by
  rw [walk, refused]
  rfl

section

variable (named : (Item.directory items).WellNamed)

include named

theorem mem_walk_files_iff (file : FileStats Nat) :
    file ∈ (survey.walk root items).2.files ↔ ∃ name, survey.Finds root items [] name file := by
  cases refused : survey.refusal root with
  | some failure =>
      have unfound (name : String) : ¬survey.Finds root items [] name file := by
        intro finds
        rw [finds.listed] at refused
        cases refused
      rw [walk_of_refused refused]
      simp [DirStats.files, unfound]
  | none =>
      rw [walk_in_order survey root items refused]
      change file ∈ (survey.findings root items).files ↔ _
      rw [findings_files, List.mem_flatMap]
      simp only [finds_here_iff refused, mem_visit_files]
      constructor
      · intro given
        obtain ⟨⟨name, item⟩, inOrder, leads⟩ := given
        exact ⟨name, item, (Item.lookup_eq_some_iff_mem named.distinct name item).mpr
          (mem_by_name.mp inOrder), leads⟩
      · intro given
        obtain ⟨name, item, looked, leads⟩ := given
        exact ⟨(name, item), mem_by_name.mpr
          ((Item.lookup_eq_some_iff_mem named.distinct name item).mp looked), leads⟩

/-- A walk has the files that it finds in its tree, and no others. -/
theorem mem_walk_all_files_iff (file : FileStats Nat) :
    file ∈ (survey.walk root items).2.allFiles ↔
      ∃ folders name, survey.Finds root items folders name file := by
  induction items using Item.directory_induction generalizing root with
  | step items ih =>
      have apart : file ∈ (survey.walk root items).2.allFiles ↔
          file ∈ (survey.walk root items).2.files ∨
            ∃ dir ∈ (survey.walk root items).2.directories, file ∈ dir.allFiles := by
        cases (survey.walk root items).2 with
        | mk path files directories =>
            rw [DirStats.allFiles, DirStats.all_files_in_eq_flat_map, List.mem_append, List.mem_flatMap]
            rfl
      rw [apart, mem_walk_files_iff named]
      constructor
      · intro given
        rcases given with ⟨name, finds⟩ | ⟨dir, held, inside⟩
        · exact ⟨[], name, finds⟩
        · cases refused : survey.refusal root with
          | some failure =>
              rw [walk_of_refused refused] at held
              cases held
          | none =>
              obtain ⟨folder, inner, member, entered, rfl, _⟩ :=
                (survey.mem_walk_directories refused dir).mp held
              obtain ⟨folders, name, finds⟩ := (ih folder inner member (named.inside member)).mp inside
              exact ⟨folder :: folders, name, (finds_below_iff refused folder).mpr
                ⟨inner, (Item.lookup_eq_some_iff_mem named.distinct folder _).mpr member, entered,
                  finds⟩⟩
      · intro given
        obtain ⟨folders, name, finds⟩ := given
        cases folders with
        | nil => exact .inl ⟨name, finds⟩
        | cons folder folders =>
            obtain ⟨inner, looked, entered, further⟩ := (finds_below_iff finds.listed folder).mp finds
            have member := (Item.lookup_eq_some_iff_mem named.distinct folder _).mp looked
            have inside := (ih folder inner member (named.inside member)).mpr ⟨folders, name, further⟩
            refine .inr ⟨_, (survey.mem_walk_directories finds.listed _).mpr
              ⟨folder, inner, member, entered, rfl, ?_⟩, inside⟩
            exact (all_files_ne_nil_iff _).mp (List.ne_nil_of_mem inside)

theorem mem_walk_directories_iff (dir : DirStats Nat) :
    dir ∈ (survey.walk root items).2.directories ↔
      ∃ folder inner, items.lookup folder = some (.directory inner) ∧
        dir = (survey.walk (Path.join root folder) inner).2 ∧
        ∃ folders name file, survey.Finds root items (folder :: folders) name file := by
  have filled (folder : String) (inner : List (String × Item))
      (member : (folder, Item.directory inner) ∈ items) :
      (survey.walk (Path.join root folder) inner).2.fileCount ≠ 0 ↔
        ∃ folders name file, survey.Finds (Path.join root folder) inner folders name file := by
    have inWalk (file : FileStats Nat) :
        file ∈ (survey.walk (Path.join root folder) inner).2.allFiles ↔
          ∃ folders name, survey.Finds (Path.join root folder) inner folders name file :=
      mem_walk_all_files_iff (named.inside member) file
    rw [← all_files_ne_nil_iff]
    constructor
    · intro some
      obtain ⟨file, held⟩ := List.exists_mem_of_ne_nil _ some
      obtain ⟨folders, name, finds⟩ := (inWalk file).mp held
      exact ⟨folders, name, file, finds⟩
    · intro given
      obtain ⟨folders, name, file, finds⟩ := given
      exact List.ne_nil_of_mem ((inWalk file).mpr ⟨folders, name, finds⟩)
  constructor
  · intro held
    cases refused : survey.refusal root with
    | some failure =>
        rw [walk_of_refused refused] at held
        cases held
    | none =>
        obtain ⟨folder, inner, member, entered, same, some⟩ :=
          (survey.mem_walk_directories refused dir).mp held
        rw [same] at some
        obtain ⟨folders, name, file, finds⟩ := (filled folder inner member).mp some
        have looked := (Item.lookup_eq_some_iff_mem named.distinct folder _).mpr member
        exact ⟨folder, inner, looked, same, folders, name, file,
          (finds_below_iff refused folder).mpr ⟨inner, looked, entered, finds⟩⟩
  · intro given
    obtain ⟨folder, inner, looked, same, folders, name, file, finds⟩ := given
    have listed := finds.listed
    obtain ⟨other, otherLooked, entered, further⟩ := (finds_below_iff listed folder).mp finds
    rw [looked, Option.some.injEq, Item.directory.injEq] at otherLooked
    subst otherLooked
    have member := (Item.lookup_eq_some_iff_mem named.distinct folder _).mp looked
    refine (survey.mem_walk_directories listed dir).mpr ⟨folder, inner, member, entered, same, ?_⟩
    rw [same]
    exact (filled folder inner member).mpr ⟨folders, name, file, further⟩

end

/-! ### Equal trees -/

/-- Things in the order of their names are known from which things there are. -/
theorem eq_of_by_name {α : Type} {nameOf : α → String} {left right : List α}
    (leftOrdered : left.Pairwise fun a b => Text.units (nameOf a) < Text.units (nameOf b))
    (rightOrdered : right.Pairwise fun a b => Text.units (nameOf a) < Text.units (nameOf b))
    (same : ∀ thing, thing ∈ left ↔ thing ∈ right) : left = right := by
  let before (a b : α) : Prop := Text.units (nameOf a) < Text.units (nameOf b)
  have irreflexive : Std.Irrefl before := ⟨fun a => List.lt_irrefl (Text.units (nameOf a))⟩
  have antisymmetric : Std.Antisymm before :=
    ⟨fun a b first second => absurd second (List.lt_asymm first)⟩
  have leftBefore : left.Pairwise before := leftOrdered
  exact leftBefore.eq_of_mem_iff rightOrdered same

/-- Walks that find the same files in the same places give the same tree. The induction is on the first
directory, for each place at which both may be and each directory that may be there instead. -/
theorem walk_determined {first second : Survey}
    (firstKeeps : ∀ method path file, first.analyze method path = .ok file → file.path = path)
    (secondKeeps : ∀ method path file, second.analyze method path = .ok file → file.path = path)
    (items others : List (String × Item)) (named : (Item.directory items).WellNamed)
    (othersNamed : (Item.directory others).WellNamed)
    (names : List String) (plain : ∀ name ∈ names, Path.IsPlain name.toList)
    (same : ∀ folders name file, first.Finds (Path.absolute names) items folders name file ↔
      second.Finds (Path.absolute names) others folders name file) :
    (first.walk (Path.absolute names) items).2 = (second.walk (Path.absolute names) others).2 := by
  induction items using Item.directory_induction generalizing others names with
  | step items ih =>
      -- A folder with a file below it stands for a directory in both, and both are walked alike.
      have twin {folder : String} {folders : List String} {name : String} {file : FileStats Nat}
          (finds : first.Finds (Path.absolute names) items (folder :: folders) name file)
          (otherFinds : second.Finds (Path.absolute names) others (folder :: folders) name file) :
          ∃ inner otherInner, items.lookup folder = some (.directory inner) ∧
            others.lookup folder = some (.directory otherInner) ∧
            (first.walk (Path.join (Path.absolute names) folder) inner).2 =
              (second.walk (Path.join (Path.absolute names) folder) otherInner).2 := by
        obtain ⟨inner, looked, below⟩ := finds.inside
        obtain ⟨otherInner, otherLooked, otherBelow⟩ := otherFinds.inside
        have member := (Item.lookup_eq_some_iff_mem named.distinct folder _).mp looked
        have otherMember := (Item.lookup_eq_some_iff_mem othersNamed.distinct folder _).mp otherLooked
        have folderPlain := named.plain member
        refine ⟨inner, otherInner, looked, otherLooked, ?_⟩
        rw [Path.join_absolute names folder plain folderPlain] at below otherBelow ⊢
        apply ih folder inner member otherInner (named.inside member) (othersNamed.inside otherMember)
          (names ++ [folder]) (Path.plain_concat plain folderPlain)
        intro folders name file
        rw [← below, ← otherBelow, same]
      have ordered := walk_node_by_name firstKeeps named plain
      have otherOrdered := walk_node_by_name secondKeeps othersNamed plain
      have files : (first.walk (Path.absolute names) items).2.files =
          (second.walk (Path.absolute names) others).2.files := by
        apply eq_of_by_name ordered.files otherOrdered.files
        intro file
        simp only [mem_walk_files_iff named, mem_walk_files_iff othersNamed, same]
      have directories : (first.walk (Path.absolute names) items).2.directories =
          (second.walk (Path.absolute names) others).2.directories := by
        apply eq_of_by_name ordered.directories otherOrdered.directories
        intro dir
        rw [mem_walk_directories_iff named, mem_walk_directories_iff othersNamed]
        constructor
        · intro given
          obtain ⟨folder, inner, looked, rfl, folders, name, file, finds⟩ := given
          have otherFinds := (same _ _ _).mp finds
          obtain ⟨twinInner, otherInner, twinLooked, otherLooked, walked⟩ := twin finds otherFinds
          rw [looked, Option.some.injEq, Item.directory.injEq] at twinLooked
          subst twinLooked
          exact ⟨folder, otherInner, otherLooked, walked, folders, name, file, otherFinds⟩
        · intro given
          obtain ⟨folder, inner, looked, rfl, folders, name, file, otherFinds⟩ := given
          have finds := (same _ _ _).mpr otherFinds
          obtain ⟨own, twinInner, ownLooked, twinLooked, walked⟩ := twin finds otherFinds
          rw [looked, Option.some.injEq, Item.directory.injEq] at twinLooked
          subst twinLooked
          exact ⟨folder, own, ownLooked, walked.symm, folders, name, file, finds⟩
      have paths := (first.path_of_walk (Path.absolute names) items).trans
        (second.path_of_walk (Path.absolute names) others).symm
      exact DirStats.eq_of_parts paths files directories

end Survey

end LineCensus
