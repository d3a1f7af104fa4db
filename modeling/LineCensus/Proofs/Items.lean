import LineCensus.Proofs.Keyed
import LineCensus.Proofs.Path
import LineCensus.Store

/-!
What a file system may look like: in each directory every name is there once, and all names are plain.
This is a property of whole trees of items; it passes to everything that is reached in them, by names
or by paths.
-/

namespace LineCensus

set_option autoImplicit false

namespace Item

/-- Induction over a directory: what holds of it may be shown from what holds of the directories
directly in it. -/
theorem directory_induction {motive : List (String × Item) → Prop}
    (step : ∀ items, (∀ name inner, (name, directory inner) ∈ items → motive inner) →
      motive items) (items : List (String × Item)) : motive items :=
  step items fun name inner member =>
    have smaller : sizeOf inner < sizeOf items := by
      have inList := List.sizeOf_lt_of_mem member
      rw [Prod.mk.sizeOf_spec, directory.sizeOf_spec] at inList
      omega
    directory_induction step inner
termination_by sizeOf items

mutual

/-- Every directory in an item has each of its names once, and only plain ones. -/
def WellNamed : Item → Prop
  | .directory items => (items.map Prod.fst).Nodup ∧ AllWellNamed items
  | .file _ | .link _ => True

def AllWellNamed : List (String × Item) → Prop
  | [] => True
  | (name, item) :: rest => Path.IsPlain name.toList ∧ item.WellNamed ∧ AllWellNamed rest

end

theorem all_well_named_iff (items : List (String × Item)) :
    AllWellNamed items ↔ ∀ entry ∈ items, Path.IsPlain entry.1.toList ∧ entry.2.WellNamed := by
  induction items with
  | nil => simp [AllWellNamed]
  | cons entry rest ih =>
      obtain ⟨name, item⟩ := entry
      simp [AllWellNamed, ih, and_assoc]

namespace WellNamed

variable {items : List (String × Item)}

theorem distinct (named : (directory items).WellNamed) : (items.map Prod.fst).Nodup := by
  rw [WellNamed] at named
  exact named.1

theorem plain (named : (directory items).WellNamed) {name : String} {item : Item}
    (member : (name, item) ∈ items) : Path.IsPlain name.toList := by
  rw [WellNamed, all_well_named_iff] at named
  exact (named.2 _ member).1

theorem inside (named : (directory items).WellNamed) {name : String} {item : Item}
    (member : (name, item) ∈ items) : item.WellNamed := by
  rw [WellNamed, all_well_named_iff] at named
  exact (named.2 _ member).2

end WellNamed

/-- Looking a name up finds the entry that has it. -/
theorem lookup_eq_some_iff_mem {items : List (String × Item)} (distinct : (items.map Prod.fst).Nodup)
    (name : String) (item : Item) : items.lookup name = some item ↔ (name, item) ∈ items :=
  Keyed.lookup_eq_some_iff_mem distinct name item

theorem at_cons_iff (items : List (String × Item)) (name : String) (rest : List String)
    (inner : Item) :
    (directory items).at? (name :: rest) = some inner ↔
      ∃ item, items.lookup name = some item ∧ item.at? rest = some inner := by
  cases found : items.lookup name <;> simp [at?, found]

/-- Only from a directory does a name lead anywhere. -/
theorem directory_of_at_cons {item inner : Item} {name : String} {rest : List String}
    (found : item.at? (name :: rest) = some inner) : ∃ items, item = directory items := by
  cases item with
  | directory items => exact ⟨items, rfl⟩
  | file bytes => simp [at?] at found
  | link target => simp [at?] at found

/-- Only from a directory do names lead to a directory. -/
theorem directory_of_at {item : Item} {place : List String} {inner : List (String × Item)}
    (found : item.at? place = some (directory inner)) : ∃ items, item = directory items := by
  cases place with
  | nil => exact ⟨inner, by simpa [at?] using found⟩
  | cons name rest => exact directory_of_at_cons found

/-- What is reached in a well named tree is well named. -/
theorem WellNamed.reached {item inner : Item} (named : item.WellNamed) {place : List String}
    (found : item.at? place = some inner) : inner.WellNamed := by
  induction place generalizing item with
  | nil =>
      rw [at?, Option.some.injEq] at found
      exact found ▸ named
  | cons name rest ih =>
      cases item with
      | file bytes => simp [at?] at found
      | link target => simp [at?] at found
      | directory items =>
          obtain ⟨next, looked, further⟩ := (at_cons_iff items name rest inner).mp found
          have member := (lookup_eq_some_iff_mem named.distinct name next).mp looked
          exact ih (named.inside member) further

/-- Only plain names lead through a well named tree. -/
theorem WellNamed.place_plain {item inner : Item} (named : item.WellNamed) {place : List String}
    (found : item.at? place = some inner) : ∀ name ∈ place, Path.IsPlain name.toList := by
  induction place generalizing item with
  | nil => simp
  | cons name rest ih =>
      cases item with
      | file bytes => simp [at?] at found
      | link target => simp [at?] at found
      | directory items =>
          obtain ⟨next, looked, further⟩ := (at_cons_iff items name rest inner).mp found
          have member := (lookup_eq_some_iff_mem named.distinct name next).mp looked
          intro other inPlace
          rcases List.mem_cons.mp inPlace with rfl | later
          · exact named.plain member
          · exact ih (named.inside member) further other later

end Item

namespace Store

/-- A path leads to something in the tree. -/
theorem find_reached {store : Store} {directory path : String} {item : Item}
    (found : store.find directory path = .ok item) :
    ∃ place, store.top.at? place = some item := by
  unfold find at found
  cases located : store.locate .follow false directory path with
  | error fault => simp [located] at found
  | ok place =>
      cases reached : store.top.at? place with
      | none => simp [located, reached] at found
      | some inner =>
          have same : inner = item := by simpa [located, reached] using found
          exact ⟨place, same ▸ reached⟩

theorem find_well_named {store : Store} (named : store.top.WellNamed) {directory path : String}
    {item : Item} (found : store.find directory path = .ok item) : item.WellNamed := by
  obtain ⟨place, reached⟩ := find_reached found
  exact named.reached reached

theorem status_of_find {store : Store} {directory path : String} {item : Item}
    (found : store.find directory path = .ok item) :
    store.status directory path = .ok (some item) := by
  simp [status, found]

theorem find_of_status {store : Store} {directory path : String} {item : Item}
    (reached : store.status directory path = .ok (some item)) :
    store.find directory path = .ok item := by
  rw [status] at reached
  split at reached
  case h_1 other found => rw [found, Option.some.inj (Except.ok.inj reached)]
  all_goals cases reached

end Store

end LineCensus
