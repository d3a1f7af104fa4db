import LineCensus.Proofs.TextOrder
import LineCensus.Proofs.Walk

/-!
The order of a walk. The entries of a directory have one order by their names, and a walk is what visits
in that order find, one after another.
-/

namespace LineCensus

set_option autoImplicit false

/-! ### Entries by name -/

def byName {α : Type} (entries : List (String × α)) : List (String × α) :=
  entries.mergeSort fun a b => !Text.isBefore b.1 a.1

def NamesIncrease {α : Type} (entries : List (String × α)) : Prop :=
  entries.Pairwise fun a b => Text.isBefore a.1 b.1 = true

section

variable {α β : Type}

theorem by_name_perm (entries : List (String × α)) : (byName entries).Perm entries :=
  List.mergeSort_perm _ _

theorem mem_by_name {entries : List (String × α)} {entry : String × α} :
    entry ∈ byName entries ↔ entry ∈ entries := (by_name_perm entries).mem_iff

theorem by_name_increases {entries : List (String × α)} (distinct : (entries.map Prod.fst).Nodup) :
    NamesIncrease (byName entries) :=
  Text.sorted_by_increases Prod.fst distinct

/-- There is one way to put entries in the order of their names. -/
theorem by_name_eq_of_perm {entries ordered : List (String × α)} (increasing : NamesIncrease ordered)
    (same : ordered.Perm entries) : byName entries = ordered := by
  have distinct : (entries.map Prod.fst).Nodup := by
    rw [← (same.map Prod.fst).nodup_iff]
    refine List.pairwise_map.mpr (increasing.imp ?_)
    rintro a b before names
    rw [names, Text.is_before_irrefl] at before
    cases before
  refine List.Perm.eq_of_pairwise ?_ (by_name_increases distinct) increasing
    ((by_name_perm entries).trans same.symm)
  intro a b _ _ before behind
  rw [Text.is_before_asymm before] at behind
  cases behind

theorem by_name_map (f : String × α → β) (entries : List (String × α)) :
    byName (entries.map fun entry => (entry.1, f entry)) =
      (byName entries).map fun entry => (entry.1, f entry) := by
  rw [byName, byName, List.map_mergeSort]
  intro a _ b _
  rfl

/-- Entries that are changed or left out by themselves stay in their order. -/
theorem by_name_filter_map (f : String × α → Option β) {entries : List (String × α)}
    (distinct : (entries.map Prod.fst).Nodup) :
    byName (entries.filterMap fun entry => (f entry).map (entry.1, ·)) =
      (byName entries).filterMap fun entry => (f entry).map (entry.1, ·) := by
  apply by_name_eq_of_perm
  · refine List.Pairwise.filterMap _ ?_ (by_name_increases distinct)
    intro a b before left fromA right fromB
    obtain ⟨_, _, rfl⟩ := Option.map_eq_some_iff.mp fromA
    obtain ⟨_, _, rfl⟩ := Option.map_eq_some_iff.mp fromB
    exact before
  · exact (by_name_perm entries).filterMap _

end

namespace Survey

/-- What is found under the names in a directory, in the order of the names. -/
def findings (survey : Survey) (path : String) (items : List (String × Item)) : Found :=
  .gather ((byName items).map fun entry =>
    survey.visit (Path.join path entry.1) entry.1 entry.2)

theorem walk_in_order (survey : Survey) (path : String) (items : List (String × Item))
    (listed : survey.refusal path = none) :
    survey.walk path items =
      ((survey.findings path items).log,
        .mk path (survey.findings path items).files (survey.findings path items).directories) := by
  have inOrder : inNameOrder (survey.visitAll path items) =
      (byName items).map fun entry => survey.visit (Path.join path entry.1) entry.1 entry.2 := by
    rw [visit_all_eq_map]
    change (byName _).map Prod.snd = _
    rw [by_name_map, List.map_map]
    rfl
  rw [walk_of_listed survey path items listed, collect, inOrder]
  rfl

end Survey

end LineCensus
