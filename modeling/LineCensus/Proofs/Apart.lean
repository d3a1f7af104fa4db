import LineCensus.Proofs.Following

/-!
File systems that differ in a few places only. They are the same once what is at these places has been
taken out, and what is left knows nothing of it: a path that leads somewhere in what is left leads there
in the whole file system as well, for it comes by none of these places.
-/

namespace LineCensus

set_option autoImplicit false

namespace Item

mutual

/-- An item at a place, without what is at the places that are given. Places are names from the
root. -/
def without (removed : List (List String)) (place : List String) : Item → Item
  | .file bytes => .file bytes
  | .link target => .link target
  | .directory items => .directory (withoutAll removed place items)

def withoutAll (removed : List (List String)) (place : List String) :
    List (String × Item) → List (String × Item)
  | [] => []
  | (name, item) :: rest =>
    if removed.contains (place ++ [name]) then withoutAll removed place rest
    else (name, item.without removed (place ++ [name])) :: withoutAll removed place rest

end

variable {removed : List (List String)} {place : List String}

theorem lookup_without_all (items : List (String × Item)) (name : String) :
    (withoutAll removed place items).lookup name =
      if removed.contains (place ++ [name]) then none
      else (items.lookup name).map (·.without removed (place ++ [name])) := by
  induction items with
  | nil => simp [withoutAll]
  | cons entry rest ih =>
      obtain ⟨first, item⟩ := entry
      rw [withoutAll]
      cases same : name == first with
      | true =>
          rw [beq_iff_eq] at same
          subst same
          split
          case isTrue gone => rw [ih, if_pos gone]
          case isFalse => simp
      | false =>
          split
          case isTrue => rw [ih, List.lookup_cons, same]
          case isFalse => rw [List.lookup_cons, same, ih, List.lookup_cons, same]

theorem without_eq_directory {item : Item} {left : List (String × Item)}
    (same : item.without removed place = .directory left) :
    ∃ items, item = .directory items ∧ left = withoutAll removed place items := by
  cases item with
  | file bytes => cases same
  | link target => cases same
  | directory items =>
      rw [without, directory.injEq] at same
      exact ⟨items, rfl, same.symm⟩

theorem without_eq_file {item : Item} {bytes : List Nat}
    (same : item.without removed place = .file bytes) : item = .file bytes := by
  cases item with
  | file other => exact same
  | link target => cases same
  | directory items => cases same

theorem without_eq_link {item : Item} {target : String}
    (same : item.without removed place = .link target) : item = .link target := by
  cases item with
  | file other => cases same
  | link other => exact same
  | directory items => cases same

/-- What names lead to in what is left is left of what they lead to. -/
theorem at_without {item left : Item} {names : List String}
    (reached : (item.without removed place).at? names = some left) :
    ∃ whole, item.at? names = some whole ∧ left = whole.without removed (place ++ names) := by
  induction names generalizing item place with
  | nil =>
      rw [at?, Option.some.injEq] at reached
      exact ⟨item, rfl, by rw [← reached, List.append_nil]⟩
  | cons name rest ih =>
      obtain ⟨leftItems, isDirectory⟩ := directory_of_at_cons reached
      obtain ⟨items, rfl, rfl⟩ := without_eq_directory isDirectory
      rw [isDirectory] at reached
      obtain ⟨next, looked, further⟩ := (at_cons_iff _ name rest left).mp reached
      rw [lookup_without_all] at looked
      split at looked
      case isTrue => cases looked
      case isFalse =>
        obtain ⟨inner, found, rfl⟩ := Option.map_eq_some_iff.mp looked
        obtain ⟨whole, there, same⟩ := ih further
        refine ⟨whole, (at_cons_iff items name rest whole).mpr ⟨inner, found, there⟩, ?_⟩
        rw [same, List.append_assoc]
        rfl

end Item

namespace Store

def without (store : Store) (removed : List (List String)) : Store :=
  ⟨Item.withoutAll removed [] store.root⟩

variable {store : Store} {removed : List (List String)}

theorem top_without : (store.without removed).top = store.top.without removed [] := by
  rw [top, without, top, Item.without]

theorem directory_of_without {place : List String} {left : List (String × Item)}
    (reached : (store.without removed).top.at? place = some (.directory left)) :
    ∃ items, store.top.at? place = some (.directory items) ∧
      left = Item.withoutAll removed place items := by
  rw [top_without] at reached
  obtain ⟨whole, there, same⟩ := Item.at_without reached
  obtain ⟨items, rfl, rfl⟩ := Item.without_eq_directory same.symm
  exact ⟨items, there, rfl⟩

/-- Where names lead in what is left, they lead in the whole file system. -/
theorem follow_of_without (links : Nat) (place names : List String) {target : List String}
    (led : (store.without removed).follow .follow false links place names = .ok target) :
    store.follow .follow false links place names = .ok target := by
  match names with
  | [] =>
      rw [follow] at led ⊢
      exact led
  | name :: rest =>
      cases reached : (store.without removed).top.at? place.reverse with
      | none => simp [follow, reached] at led
      | some item =>
          cases item with
          | file bytes => simp [follow, reached] at led
          | link target => simp [follow, reached] at led
          | directory left =>
              obtain ⟨items, there, rfl⟩ := directory_of_without reached
              rw [follow] at led ⊢
              simp only [reached] at led
              simp only [there]
              by_cases here : (name.isEmpty || name == ".") = true
              · rw [if_pos here] at led ⊢
                exact follow_of_without links place rest led
              rw [if_neg here] at led ⊢
              by_cases up : (name == "..") = true
              · rw [if_pos up] at led ⊢
                exact follow_of_without links place.tail rest led
              rw [if_neg up] at led ⊢
              by_cases long : nameBound < (Text.encode name).length
              · rw [if_pos long] at led
                cases led
              rw [if_neg long] at led ⊢
              -- A name that is taken out leads nowhere in what is left; any other stands for the same
              -- there, with what is below it taken out.
              rw [Item.lookup_without_all] at led
              by_cases gone : removed.contains (place.reverse ++ [name]) = true
              · rw [if_pos gone] at led
                simp at led
              rw [if_neg gone] at led
              cases looked : items.lookup name with
              | none => simp [looked] at led
              | some next =>
                  cases next with
                  | file bytes =>
                      rw [looked] at led
                      exact follow_of_without links (name :: place) rest led
                  | directory inner =>
                      rw [looked, Option.map_some, Item.without] at led
                      exact follow_of_without links (name :: place) rest led
                  | link target =>
                      rw [looked, Option.map_some, Item.without] at led
                      cases links with
                      | zero => simp at led
                      | succ links =>
                          have followed : (LastLink.follow == LastLink.keep) = false := rfl
                          simp only [followed, Bool.and_false, Bool.false_eq_true, if_false]
                            at led ⊢
                          exact follow_of_without links _ _ led
termination_by (links, names.length)

theorem locate_of_without {directory path : String} {place : List String}
    (located : (store.without removed).locate .follow false directory path = .ok place) :
    store.locate .follow false directory path = .ok place := by
  rw [locate] at located ⊢
  split at located
  case isTrue => cases located
  case isFalse filled =>
    rw [if_neg filled]
    exact follow_of_without linkBound [] _ located

theorem find_of_without {directory path : String} {left : Item}
    (found : (store.without removed).find directory path = .ok left) :
    ∃ place whole, (store.without removed).locate .follow false directory path = .ok place ∧
      store.top.at? place = some whole ∧ store.find directory path = .ok whole ∧
      left = whole.without removed place := by
  unfold find at found
  cases located : (store.without removed).locate .follow false directory path with
  | error fault => simp [located] at found
  | ok place =>
      cases reached : (store.without removed).top.at? place with
      | none => simp [located, reached] at found
      | some item =>
          have same : item = left := by simpa [located, reached] using found
          subst same
          rw [top_without] at reached
          obtain ⟨whole, there, same⟩ := Item.at_without reached
          refine ⟨place, whole, rfl, there, ?_, same⟩
          rw [find, locate_of_without located]
          simp only [there]

theorem find_file_of_without {directory path : String} {bytes : List Nat}
    (found : (store.without removed).find directory path = .ok (.file bytes)) :
    store.find directory path = .ok (.file bytes) := by
  obtain ⟨place, whole, _, _, whole_found, same⟩ := find_of_without found
  rw [whole_found, Item.without_eq_file same.symm]

/-- Names that are followed from a directory in what is left, without a link on the way but perhaps
for the last of them, all stand there. -/
theorem stands_of_follow (links : Nat) {place names : List String} {items : List (String × Item)}
    {item : Item} {target : List String}
    (here : store.top.at? place.reverse = some (.directory items))
    (leftHere : (store.without removed).top.at? place.reverse =
      some (.directory (Item.withoutAll removed place.reverse items)))
    (reached : (Item.directory items).at? names = some item)
    (plain : ∀ name ∈ names, Path.IsPlain name.toList)
    (led : (store.without removed).follow .follow false links place names = .ok target) :
    (Item.directory (Item.withoutAll removed place.reverse items)).at? names =
      some (item.without removed (place.reverse ++ names)) := by
  induction names generalizing place items with
  | nil =>
      rw [Item.at?, Option.some.injEq] at reached
      rw [← reached, List.append_nil]
      rfl
  | cons name rest ih =>
      obtain ⟨next, looked, further⟩ := (Item.at_cons_iff items name rest item).mp reached
      rw [follow_entry links leftHere (plain name List.mem_cons_self), Item.lookup_without_all] at led
      by_cases long : nameBound < (Text.encode name).length
      · rw [if_pos long] at led
        cases led
      by_cases gone : removed.contains (place.reverse ++ [name]) = true
      · rw [if_neg long, if_pos gone] at led
        cases led
      have standing : (Item.withoutAll removed place.reverse items).lookup name =
          some (next.without removed (place.reverse ++ [name])) := by
        rw [Item.lookup_without_all, if_neg gone, looked, Option.map_some]
      apply (Item.at_cons_iff _ name rest _).mpr
      refine ⟨_, standing, ?_⟩
      cases rest with
      | nil =>
          rw [Item.at?, Option.some.injEq] at further
          rw [← further]
          rfl
      | cons second others =>
          obtain ⟨inner, rfl⟩ := Item.directory_of_at_cons further
          have there : store.top.at? (name :: place).reverse = some (.directory inner) := by
            rw [List.reverse_cons, Item.at_append, here, Option.bind_some]
            exact (Item.at_cons_iff items name [] _).mpr ⟨_, looked, rfl⟩
          have leftThere : (store.without removed).top.at? (name :: place).reverse =
              some (.directory (Item.withoutAll removed (name :: place).reverse inner)) := by
            rw [List.reverse_cons, Item.at_append, leftHere, Option.bind_some]
            exact (Item.at_cons_iff _ name [] _).mpr ⟨_, standing, rfl⟩
          rw [if_neg long, if_neg gone, looked] at led
          have onwards := ih there leftThere further
            (fun other member => plain other (List.mem_cons_of_mem name member)) led
          rw [List.reverse_cons, List.append_assoc] at onwards
          exact onwards

/-- What a path stands for in what is left stands there in every file system of which the same is
left, provided that names lead to it from a directory without a link on the way. -/
theorem stands_in_both {store other : Store} {removed : List (List String)}
    (same : other.without removed = store.without removed) {names further : List String}
    (plain : ∀ name ∈ names, Path.IsPlain name.toList) {items others : List (String × Item)}
    (resolved : store.find "/" (Path.absolute names) = .ok (.directory items))
    (otherResolved : other.find "/" (Path.absolute names) = .ok (.directory others))
    {item : Item} (reached : (Item.directory items).at? further = some item)
    (furtherPlain : ∀ name ∈ further, Path.IsPlain name.toList) (filled : further ≠ [])
    {target : Item}
    (found : (store.without removed).find "/" (Path.absolute (names ++ further)) = .ok target) :
    ∃ place otherItem, (Item.directory others).at? further = some otherItem ∧
      otherItem.without removed place = item.without removed place := by
  -- The names come by the same directory in what is left and in both file systems.
  obtain ⟨left, leftFound⟩ := find_above plain furtherPlain filled found
  obtain ⟨links, place, located, leftThere, led⟩ := goes_on_from_directory plain leftFound
  have directoryIn {whole : Store} (sameLeft : whole.without removed = store.without removed)
      {entries : List (String × Item)}
      (entriesFound : whole.find "/" (Path.absolute names) = .ok (.directory entries)) :
      whole.top.at? place.reverse = some (.directory entries) ∧
        Item.withoutAll removed place.reverse entries = left := by
    rw [← sameLeft] at leftFound located
    obtain ⟨start, found, startLocated, there, wholeFound, whatIsLeft⟩ := find_of_without leftFound
    rw [located, Except.ok.injEq] at startLocated
    subst startLocated
    rw [entriesFound, Except.ok.injEq] at wholeFound
    subst wholeFound
    rw [Item.without, Item.directory.injEq] at whatIsLeft
    exact ⟨there, whatIsLeft.symm⟩
  obtain ⟨here, rfl⟩ := directoryIn rfl resolved
  obtain ⟨_, sameLeft⟩ := directoryIn same otherResolved
  obtain ⟨_, _, targetLocated, _⟩ := find_of_without found
  rw [locate_absolute _ (Path.plain_append plain furtherPlain), led] at targetLocated
  have standing := stands_of_follow links here leftThere reached furtherPlain targetLocated
  rw [← sameLeft, ← Item.without] at standing
  obtain ⟨otherItem, otherReached, sameItem⟩ := Item.at_without standing
  exact ⟨_, otherItem, otherReached, sameItem.symm⟩

end Store

end LineCensus
