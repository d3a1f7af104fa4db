import LineCensus.Proofs.Items

/-!
Following paths. A path is followed name by name, and what a name does depends on nothing that stands
behind it: following some names fails, whatever comes after them, or leads to a place from which the
names behind are followed. So a path that goes on from a directory leads where the names that are
added lead in that directory.
-/

namespace LineCensus

set_option autoImplicit false

/-- Whether a fault is one of those by which a path leads nowhere. -/
def FileFault.OfPath (fault : FileFault) : Prop :=
  fault = .missing ∨ fault = .notDirectory ∨ fault = .tooManyLinks ∨ fault = .nameTooLong

namespace Item

/-- Names are followed one after another. -/
theorem at_append (item : Item) (first second : List String) :
    item.at? (first ++ second) = (item.at? first).bind (·.at? second) := by
  induction first generalizing item with
  | nil => rfl
  | cons name rest ih =>
      cases item with
      | file bytes => rfl
      | link target => rfl
      | directory items => cases found : items.lookup name <;> simp [at?, found, ih]

end Item

namespace Store

/-- What one name does on the way: it ends the way, or it is taken off, with the names of a link in
its place if it stands for one. -/
theorem follow_step (store : Store) (links : Nat) (place : List String) (name : String) :
    (∃ fault : FileFault, fault.OfPath ∧
      ∀ rest, store.follow .follow false links place (name :: rest) = .error fault) ∨
    ∃ linksLeft next front, (linksLeft < links ∨ linksLeft = links ∧ front = []) ∧
      ∀ rest, store.follow .follow false links place (name :: rest) =
        store.follow .follow false linksLeft next (front ++ rest) := by
  cases found : store.top.at? place.reverse with
  | none => exact .inl ⟨.notDirectory, by simp [FileFault.OfPath], fun rest => by simp [follow, found]⟩
  | some item =>
      cases item with
      | file bytes =>
          exact .inl ⟨.notDirectory, by simp [FileFault.OfPath], fun rest => by simp [follow, found]⟩
      | link target =>
          exact .inl ⟨.notDirectory, by simp [FileFault.OfPath], fun rest => by simp [follow, found]⟩
      | directory items =>
          by_cases here : (name.isEmpty || name == ".") = true
          · refine .inr ⟨links, place, [], .inr ⟨rfl, rfl⟩, fun rest => ?_⟩
            simp only [follow, found, here, if_true, List.nil_append]
          by_cases up : (name == "..") = true
          · refine .inr ⟨links, place.tail, [], .inr ⟨rfl, rfl⟩, fun rest => ?_⟩
            simp only [follow, found, here, up, if_true, if_false, List.nil_append,
              Bool.false_eq_true]
          by_cases long : nameBound < (Text.encode name).length
          · refine .inl ⟨.nameTooLong, by simp [FileFault.OfPath], fun rest => ?_⟩
            simp only [follow, found, here, up, long, if_true, if_false, Bool.false_eq_true]
          cases looked : items.lookup name with
          | none =>
              refine .inl ⟨.missing, by simp [FileFault.OfPath], fun rest => ?_⟩
              simp only [follow, found, here, up, long, looked, if_false, Bool.false_eq_true,
                Bool.false_and]
          | some next =>
              cases next with
              | file bytes =>
                  refine .inr ⟨links, name :: place, [], .inr ⟨rfl, rfl⟩, fun rest => ?_⟩
                  simp only [follow, found, here, up, long, looked, if_false, Bool.false_eq_true,
                    List.nil_append]
              | directory inner =>
                  refine .inr ⟨links, name :: place, [], .inr ⟨rfl, rfl⟩, fun rest => ?_⟩
                  simp only [follow, found, here, up, long, looked, if_false, Bool.false_eq_true,
                    List.nil_append]
              | link target =>
                  cases links with
                  | zero =>
                      refine .inl ⟨.tooManyLinks, by simp [FileFault.OfPath], fun rest => ?_⟩
                      simp [follow, found, here, up, long, looked]
                  | succ links =>
                      refine .inr ⟨links, if Path.isAbsolute target.toList then [] else place,
                        namesOf target, .inl (by omega), fun rest => ?_⟩
                      simp [follow, found, here, up, long, looked]

/-- What some names do on the way, whatever stands behind them: they end the way, or the names behind
them are followed from where they lead. -/
theorem follow_names (store : Store) (links : Nat) (place names : List String) :
    (∃ fault : FileFault, fault.OfPath ∧
      ∀ behind, store.follow .follow false links place (names ++ behind) = .error fault) ∨
    ∃ linksLeft next, ∀ behind, store.follow .follow false links place (names ++ behind) =
      store.follow .follow false linksLeft next behind := by
  match names with
  | [] => exact .inr ⟨links, place, fun behind => rfl⟩
  | name :: rest =>
      rcases store.follow_step links place name with
        ⟨fault, ofPath, failed⟩ | ⟨linksLeft, next, front, fewer, stepped⟩
      · exact .inl ⟨fault, ofPath, fun behind => failed (rest ++ behind)⟩
      · have goesOn : ∀ behind, store.follow .follow false links place (name :: rest ++ behind) =
            store.follow .follow false linksLeft next (front ++ rest ++ behind) := by
          intro behind
          rw [List.cons_append, stepped, List.append_assoc]
        rcases store.follow_names linksLeft next (front ++ rest) with
          ⟨fault, ofPath, failed⟩ | ⟨linksThen, then_, led⟩
        · exact .inl ⟨fault, ofPath, fun behind => (goesOn behind).trans (failed behind)⟩
        · exact .inr ⟨linksThen, then_, fun behind => (goesOn behind).trans (led behind)⟩
termination_by (links, names.length)
decreasing_by
  rcases fewer with less | ⟨same, nothing⟩
  · exact Prod.Lex.left _ _ less
  · subst same nothing
    exact Prod.Lex.right _ (by simp)

/-- A path that leads nowhere does so by one of the faults of paths. -/
theorem find_fault {store : Store} {directory path : String} {fault : FileFault}
    (failed : store.find directory path = .error fault) : fault.OfPath := by
  have missing : FileFault.missing.OfPath := .inl rfl
  unfold find at failed
  cases located : store.locate .follow false directory path with
  | ok place =>
      cases reached : store.top.at? place with
      | some item => simp [located, reached] at failed
      | none =>
          rw [located] at failed
          simp only [reached, Except.error.injEq] at failed
          exact failed ▸ missing
  | error other =>
      rw [located, Except.error.injEq] at failed
      subst failed
      unfold locate at located
      by_cases empty : path.isEmpty = true
      · rw [if_pos empty, Except.error.injEq] at located
        exact located ▸ missing
      · rw [if_neg empty] at located
        rcases store.follow_names linkBound [] (namesOf (wholePath directory path)) with
          ⟨fault, ofPath, met⟩ | ⟨linksLeft, next, led⟩
        · have same := met []
          rw [List.append_nil, located, Except.error.injEq] at same
          exact same ▸ ofPath
        · have same := led []
          rw [List.append_nil, located, follow] at same
          cases same

/-! ### Going on from a directory -/

/-- What following a plain name comes to in a directory. -/
theorem follow_entry {store : Store} (links : Nat) {place : List String}
    {items : List (String × Item)} (here : store.top.at? place.reverse = some (.directory items))
    {name : String} (plain : Path.IsPlain name.toList) (rest : List String) :
    store.follow .follow false links place (name :: rest) =
      if nameBound < (Text.encode name).length then .error .nameTooLong
      else match items.lookup name with
      | none => .error .missing
      | some (.link target) =>
        match links with
        | 0 => .error .tooManyLinks
        | links + 1 =>
          store.follow .follow false links (if Path.isAbsolute target.toList then [] else place)
            (namesOf target ++ rest)
      | some _ => store.follow .follow false links (name :: place) rest := by
  have notHere : (name.isEmpty || name == ".") = false := by
    have notEmpty : name ≠ "" := fun same => plain.1 (by simp [same])
    have notDot : name ≠ "." := fun same => plain.2.1 (by simp [same])
    simp [notEmpty, notDot]
  have notUp : (name == "..") = false := by
    simpa using fun same : name = ".." => plain.2.2.1 (by simp [same])
  rw [follow]
  simp only [here, notHere, notUp, if_false, Bool.false_eq_true]
  cases looked : items.lookup name with
  | none => simp
  | some next =>
      cases next with
      | file bytes => rfl
      | directory inner => rfl
      | link target => cases links <;> simp

/-- Names that stand for something without a link on the way lead there. -/
theorem follow_standing {store : Store} (links : Nat) {place names : List String}
    {items : List (String × Item)} {item : Item}
    (here : store.top.at? place.reverse = some (.directory items))
    (reached : (Item.directory items).at? names = some item)
    (notLink : ∀ target, item ≠ .link target)
    (plain : ∀ name ∈ names, Path.IsPlain name.toList)
    (short : ∀ name ∈ names, (Text.encode name).length ≤ nameBound) :
    store.follow .follow false links place names = .ok (place.reverse ++ names) := by
  induction names generalizing place items with
  | nil => simp [follow]
  | cons name rest ih =>
      obtain ⟨next, looked, further⟩ := (Item.at_cons_iff items name rest _).mp reached
      rw [follow_entry links here (plain name (by simp)), if_neg (Nat.not_lt.mpr (short name (by simp))),
        looked]
      have extended : place.reverse ++ name :: rest = (name :: place).reverse ++ rest := by simp
      rw [extended]
      cases rest with
      | nil =>
          rw [Item.at?, Option.some.injEq] at further
          subst further
          cases next with
          | link target => exact absurd rfl (notLink target)
          | file bytes => simp [follow]
          | directory inner => simp [follow]
      | cons second others =>
          obtain ⟨inside, rfl⟩ := Item.directory_of_at_cons further
          have there : store.top.at? (name :: place).reverse = some (.directory inside) := by
            rw [List.reverse_cons, Item.at_append, here, Option.bind_some]
            exact (Item.at_cons_iff items name [] _).mpr ⟨_, looked, rfl⟩
          exact ih there further
            (fun other member => plain other (List.mem_cons_of_mem name member))
            (fun other member => short other (List.mem_cons_of_mem name member))

/-- The slash that a path begins with is no name to be followed. -/
theorem follow_absolute (store : Store) (links : Nat) (names : List String)
    (plain : ∀ name ∈ names, Path.IsPlain name.toList) :
    store.follow .follow false links [] (namesOf (wholePath "/" (Path.absolute names))) =
      store.follow .follow false links [] names := by
  have whole : wholePath "/" (Path.absolute names) = Path.absolute names := by
    simp [wholePath, Path.absolute, Path.isAbsolute]
  have skip (rest : List String) : store.follow .follow false links [] ("" :: rest) =
      store.follow .follow false links [] rest := by
    have root : store.top.at? [] = some (.directory store.root) := rfl
    rw [follow]
    simp [root]
  rw [whole]
  cases names with
  | nil =>
      have spelled : namesOf (Path.absolute []) = ["", ""] := by cbv
      rw [spelled, skip, skip]
  | cons first rest =>
      have pieces := Path.cut_glue first.toList (rest.map String.toList) (by
        intro part member
        obtain ⟨name, found, rfl⟩ := List.mem_map.mp (List.map_cons ▸ member)
        exact (plain name found).2.2.2)
      have spelled : namesOf (Path.absolute (first :: rest)) = "" :: first :: rest := by
        rw [namesOf, Path.absolute, String.toList_ofList, List.map_cons, Path.cut]
        simp [pieces, Function.comp_def]
      rw [spelled, skip]

theorem locate_absolute (store : Store) {names : List String}
    (plain : ∀ name ∈ names, Path.IsPlain name.toList) :
    store.locate .follow false "/" (Path.absolute names) =
      store.follow .follow false linkBound [] names := by
  have filled : (Path.absolute names).isEmpty = false := by simp [Path.absolute]
  rw [locate, filled, ← follow_absolute store linkBound names plain]
  rfl

theorem find_top (store : Store) :
    store.find "/" (Path.absolute []) = .ok (.directory store.root) := by
  rw [find, locate_absolute store (by simp), follow]
  rfl

/-- A name that does not stand in the root leads nowhere from there. -/
theorem reaches_absent {store : Store} {name : String} (plain : Path.IsPlain name.toList)
    (absent : store.root.lookup name = none) :
    store.reaches "/" (Path.absolute [name]) = false := by
  have root : store.top.at? ([] : List String).reverse = some (.directory store.root) := rfl
  rw [reaches, find, locate_absolute store (by simpa using plain), follow_entry linkBound root plain,
    absent]
  by_cases long : nameBound < (Text.encode name).length
  · rw [if_pos long]
    rfl
  · rw [if_neg long]
    rfl

/-- What stands behind the names of a directory is followed from this directory. Links may lie on the
way to it, so that is where following has come to, with the links that are left. -/
theorem goes_on_from_directory {store : Store} {names : List String} {items : List (String × Item)}
    (plain : ∀ name ∈ names, Path.IsPlain name.toList)
    (found : store.find "/" (Path.absolute names) = .ok (.directory items)) :
    ∃ links place, store.locate .follow false "/" (Path.absolute names) = .ok place.reverse ∧
      store.top.at? place.reverse = some (.directory items) ∧
      ∀ behind, store.follow .follow false linkBound [] (names ++ behind) =
        store.follow .follow false links place behind := by
  unfold find at found
  rw [locate_absolute store plain] at found ⊢
  rcases store.follow_names linkBound [] names with ⟨fault, _, failed⟩ | ⟨links, place, led⟩
  · have same := failed []
    rw [List.append_nil] at same
    rw [same] at found
    cases found
  · have same := led []
    rw [List.append_nil, follow] at same
    rw [same] at found ⊢
    cases there : store.top.at? place.reverse with
    | none => simp [there] at found
    | some item =>
        have isDirectory : item = .directory items := by simpa [there] using found
        exact ⟨links, place, rfl, by rw [there, isDirectory], led⟩

/-- A path that goes on from a directory, without a link on the way, leads to what its names lead to
there. -/
theorem find_below {store : Store} {names further : List String} {items : List (String × Item)}
    {item : Item} (found : store.find "/" (Path.absolute names) = .ok (.directory items))
    (reached : (Item.directory items).at? further = some item)
    (notLink : ∀ target, item ≠ .link target)
    (plain : ∀ name ∈ names, Path.IsPlain name.toList)
    (furtherPlain : ∀ name ∈ further, Path.IsPlain name.toList)
    (short : ∀ name ∈ further, (Text.encode name).length ≤ nameBound) :
    store.find "/" (Path.absolute (names ++ further)) = .ok item := by
  obtain ⟨links, place, _, there, led⟩ := goes_on_from_directory plain found
  unfold find
  rw [locate_absolute store (Path.plain_append plain furtherPlain), led,
    follow_standing links there reached notLink furtherPlain short]
  simp only
  rw [Item.at_append, there, Option.bind_some, reached]

/-- Behind names that a path goes on from there has to be a directory. -/
theorem find_above {store : Store} {names further : List String} {item : Item}
    (plain : ∀ name ∈ names, Path.IsPlain name.toList)
    (furtherPlain : ∀ name ∈ further, Path.IsPlain name.toList) (some : further ≠ [])
    (found : store.find "/" (Path.absolute (names ++ further)) = .ok item) :
    ∃ items, store.find "/" (Path.absolute names) = .ok (.directory items) := by
  unfold find at found ⊢
  rw [locate_absolute store (Path.plain_append plain furtherPlain)] at found
  rw [locate_absolute store plain]
  rcases store.follow_names linkBound [] names with ⟨fault, _, failed⟩ | ⟨links, place, led⟩
  · rw [failed] at found
    cases found
  · have same := led []
    rw [List.append_nil, follow] at same
    obtain ⟨name, rest, rfl⟩ := List.exists_cons_of_ne_nil some
    rw [led, follow] at found
    rw [same]
    cases there : store.top.at? place.reverse with
    | none => simp [there] at found
    | some item =>
        cases item with
        | file bytes => simp [there] at found
        | link target => simp [there] at found
        | directory items => exact ⟨items, by simp only [there]⟩

end Store

end LineCensus
