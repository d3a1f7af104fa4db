import LineCensus.Config
import LineCensus.Proofs.Following

/-!
Where the configuration of a project comes from, and which files hold one. One file decides: the one
that is given, or else the first in the root that is there, whatever it turns out to be. It is accepted
exactly if it can be read, is JSON, and gives the fields that are known as they have to be; other fields
make no difference. Everything else is a fault of the configuration that names the file, and nothing is
looked for elsewhere.
-/

namespace LineCensus

set_option autoImplicit false

namespace Config

/-! ### Fields -/

/-- Whether a field that may be missing gives a value: it is the value in writing, or it is missing and
the value is the standard one. -/
def FieldGives {α : Type} (write : α → Json) (standard : α) (field : Option Json) (value : α) : Prop :=
  field = some (write value) ∨ field = none ∧ value = standard

def textsJson (texts : List String) : Json := .array (texts.map .string)

/-- Whether a value is an object with the fields of a configuration, and perhaps others. -/
def Describes (value : Json) (config : Config) : Prop :=
  ∃ fields, value = .object fields ∧
    FieldGives .bool false (Json.lookup "quiet" fields) config.quiet ∧
    FieldGives textsJson [] (Json.lookup "extensions" fields) config.extensions ∧
    FieldGives textsJson [] (Json.lookup "ignore" fields) config.ignore

theorem texts_eq_some_iff (items : List Json) (texts : List String) :
    texts? items = some texts ↔ items = texts.map .string := by
  induction items generalizing texts with
  | nil => cases texts <;> simp [texts?]
  | cons item rest ih =>
      cases item with
      | string text =>
          rw [texts?, Option.map_eq_some_iff]
          constructor
          · rintro ⟨others, read, rfl⟩
            rw [(ih others).mp read, List.map_cons]
          · intro spelled
            obtain ⟨first, others, rfl, same, rfl⟩ := List.map_eq_cons_iff.mp spelled.symm
            cases same
            exact ⟨others, (ih others).mpr rfl, rfl⟩
      | null | bool | number | array | object => cases texts <;> simp [texts?]

theorem texts_of_eq_ok_iff (fields : List (String × Json)) (field source : String)
    (texts : List String) : textsOf fields field source = .ok texts ↔
      FieldGives textsJson [] (Json.lookup field fields) texts := by
  unfold textsOf FieldGives textsJson
  cases Json.lookup field fields with
  | none => simp [eq_comm]
  | some value =>
      cases value with
      | array items =>
          have read := texts_eq_some_iff items
          cases found : texts? items with
          | none =>
              have unlike : items ≠ texts.map .string := by
                intro spelled
                rw [(read texts).mpr spelled] at found
                cases found
              simp [found, unlike]
          | some others =>
              have same : others = texts ↔ items = texts.map .string := by
                rw [← read texts, found, Option.some.injEq]
              simp [found, same]
      | null | bool | number | string | object => simp

theorem flag_of_eq_ok_iff (fields : List (String × Json)) (field source : String)
    (standard value : Bool) : flagOf fields field source standard = .ok value ↔
      FieldGives .bool standard (Json.lookup field fields) value := by
  unfold flagOf FieldGives
  cases Json.lookup field fields with
  | none => simp [eq_comm]
  | some found => cases found <;> simp

/-! ### Values -/

theorem bind_eq_ok_iff {ε α β : Type} (first : Except ε α) (next : α → Except ε β) (value : β) :
    first >>= next = .ok value ↔ ∃ between, first = .ok between ∧ next between = .ok value := by
  cases first <;> simp [bind, Except.bind]

/-- A value is accepted exactly if it describes a configuration, which is the one it stands for. -/
theorem of_json_eq_ok_iff (value : Json) (source : String) (config : Config) :
    ofJson (some value) source = .ok config ↔ Describes value config := by
  cases value with
  | object fields =>
      simp only [ofJson, bind_eq_ok_iff, flag_of_eq_ok_iff, texts_of_eq_ok_iff]
      constructor
      · rintro ⟨quiet, quietGiven, extensions, extensionsGiven, ignore, ignoreGiven, made⟩
        cases made
        exact ⟨fields, rfl, quietGiven, extensionsGiven, ignoreGiven⟩
      · rintro ⟨_, same, quietGiven, extensionsGiven, ignoreGiven⟩
        cases same
        exact ⟨_, quietGiven, _, extensionsGiven, _, ignoreGiven, rfl⟩
  | null | bool | number | string | array => simp [ofJson, Describes]

/-- Whether a fault is that of a file that is there but holds no configuration. -/
def IsInvalid (fault : ConfigFault) (file : String) : Prop :=
  ∃ reason, fault.message = ConfigFault.invalid file reason

theorem texts_of_invalid {fields : List (String × Json)} {field source : String} {fault : ConfigFault}
    (refused : textsOf fields field source = .error fault) : IsInvalid fault source := by
  unfold textsOf at refused
  split at refused
  · cases refused
  · split at refused
    · cases refused
    · cases refused
      exact ⟨_, rfl⟩
  · cases refused
    exact ⟨_, rfl⟩

theorem flag_of_invalid {fields : List (String × Json)} {field source : String} {standard : Bool}
    {fault : ConfigFault} (refused : flagOf fields field source standard = .error fault) :
    IsInvalid fault source := by
  unfold flagOf at refused
  split at refused
  · cases refused
  · cases refused
  · cases refused
    exact ⟨_, rfl⟩

theorem bind_eq_error_iff {ε α β : Type} (first : Except ε α) (next : α → Except ε β) (failure : ε) :
    first >>= next = .error failure ↔
      first = .error failure ∨ ∃ between, first = .ok between ∧ next between = .error failure := by
  cases first <;> simp [bind, Except.bind]

theorem of_json_invalid {value : Option Json} {source : String} {fault : ConfigFault}
    (refused : ofJson value source = .error fault) : IsInvalid fault source := by
  unfold ofJson at refused
  split at refused
  · simp only [bind_eq_error_iff] at refused
    rcases refused with badQuiet | ⟨_, -, badExtensions | ⟨_, -, badIgnore | ⟨_, -, made⟩⟩⟩
    · exact flag_of_invalid badQuiet
    · exact texts_of_invalid badExtensions
    · exact texts_of_invalid badIgnore
    · cases made
  · cases refused
    exact ⟨_, rfl⟩

/-! ### Files -/

/-- Whether what a path leads to is a file that holds a configuration. -/
def Holds (found : Except FileFault Item) (config : Config) : Prop :=
  ∃ bytes value, found = .ok (.file bytes) ∧
    Json.parse? (Text.decodeLossy bytes) = some value ∧ Describes value config

/-- Whether a result is what the file at a path makes it: the configuration that it holds, or else a
fault that names the file. Whatever keeps it from being read is told as such a fault. -/
structure IsRuledBy (result : Except ConfigFault Config) (store : Store) (directory file : String) :
    Prop where
  accepted : ∀ config, result = .ok config ↔ Holds (store.find directory file) config
  refused : (¬∃ config, Holds (store.find directory file) config) →
    ∃ fault, result = .error fault ∧ IsInvalid fault file
  wrapped : ∀ failure, store.readJson directory file = .error failure →
    result = .error (.unreadable file failure.message)

variable (store : Store) (directory : String)

theorem read_json_eq_ok_iff (file : String) (value : Json) :
    store.readJson directory file = .ok value ↔ ∃ bytes,
      store.find directory file = .ok (.file bytes) ∧
        Json.parse? (Text.decodeLossy bytes) = some value := by
  unfold Store.readJson Store.readText Store.readBytes
  cases store.find directory file with
  | error fault => simp
  | ok item =>
      cases item with
      | file bytes =>
          simp only [Except.ok.injEq, Item.file.injEq, exists_eq_left']
          cases Json.parse? (Text.decodeLossy bytes) <;> simp
      | directory items => simp
      | link target => simp

theorem of_file_eq_ok_iff (file : String) (config : Config) :
    ofFile store directory file = .ok config ↔ Holds (store.find directory file) config := by
  have opened : ofFile store directory file = .ok config ↔
      ∃ value, store.readJson directory file = .ok value ∧ ofJson (some value) file = .ok config := by
    unfold ofFile
    cases store.readJson directory file <;> simp
  rw [opened]
  simp only [read_json_eq_ok_iff, of_json_eq_ok_iff]
  constructor
  · rintro ⟨value, ⟨bytes, found, parsed⟩, described⟩
    exact ⟨bytes, value, found, parsed, described⟩
  · rintro ⟨bytes, value, found, parsed, described⟩
    exact ⟨value, ⟨bytes, found, parsed⟩, described⟩

theorem of_file_invalid {file : String} {fault : ConfigFault}
    (refused : ofFile store directory file = .error fault) : IsInvalid fault file := by
  unfold ofFile at refused
  split at refused
  · exact of_json_invalid refused
  · cases refused
    exact ⟨_, rfl⟩

theorem of_file_ruled (file : String) :
    IsRuledBy (ofFile store directory file) store directory file where
  accepted := of_file_eq_ok_iff store directory file
  refused := by
    intro nothing
    cases result : ofFile store directory file with
    | ok config => exact absurd ⟨config, (of_file_eq_ok_iff store directory file config).mp result⟩ nothing
    | error fault => exact ⟨fault, rfl, of_file_invalid store directory result⟩
  wrapped := by
    intro failure failed
    unfold ofFile
    rw [failed]

/-- What a file gives depends on nothing but what its path leads to. -/
theorem of_file_congr {other : Store} {file : String}
    (same : other.find directory file = store.find directory file) :
    ofFile other directory file = ofFile store directory file := by
  simp only [ofFile, Store.readJson, Store.readText, Store.readBytes, same]

theorem reaches_congr {other : Store} {file : String}
    (same : other.find directory file = store.find directory file) :
    other.reaches directory file = store.reaches directory file := by
  rw [Store.reaches, Store.reaches, same]

/-! ### Choosing a file -/

variable (root : String)

theorem load_of_given {path : String} (filled : path ≠ "") :
    load store directory root (some path) =
      if store.reaches directory path then ofFile store directory path
      else .error (.missing path) := by
  have kept : (some path).filter (!·.isEmpty) = some path := by
    simp [Option.filter, filled]
  rw [load, kept]

theorem load_of_unset {path : Option String} (unset : path = none ∨ path = some "") :
    load store directory root path =
      if store.reaches directory (Path.join root ".linestatrc.json") then
        ofFile store directory (Path.join root ".linestatrc.json")
      else if store.reaches directory (Path.join root "linestat.config.json") then
        ofFile store directory (Path.join root "linestat.config.json")
      else .ok ⟨[], [], false⟩ := by
  have none : path.filter (!·.isEmpty) = none := by
    rcases unset with rfl | rfl <;> rfl
  rw [load, none, fileNames, List.map_cons, List.map_cons, List.map_nil]
  cases first : store.reaches directory (Path.join root ".linestatrc.json") with
  | true =>
      rw [List.find?_cons_of_pos first]
      rfl
  | false =>
      rw [List.find?_cons_of_neg (by simp [first])]
      cases second : store.reaches directory (Path.join root "linestat.config.json") with
      | true =>
          rw [List.find?_cons_of_pos second]
          rfl
      | false =>
          rw [List.find?_cons_of_neg (by simp [second]), List.find?_nil]
          rfl

/-- One file decides on the configuration of a project. A path that is given has to lead somewhere, and
what it leads to decides, wherever the root is and whatever else there is. Without one, the first of the
two files in the root decides if it is there, be it broken or no file at all; the second one decides if
only that is there, and if neither is, the configuration is the standard one. -/
theorem one_file_decides :
    (∀ path, path ≠ "" →
      (store.reaches directory path = false →
        load store directory root (some path) = .error (.missing path)) ∧
      (store.reaches directory path = true →
        IsRuledBy (load store directory root (some path)) store directory path) ∧
      ∀ other otherRoot, other.find directory path = store.find directory path →
        load other directory otherRoot (some path) = load store directory root (some path)) ∧
    ∀ path, path = none ∨ path = some "" →
      let first := Path.join root ".linestatrc.json"
      let second := Path.join root "linestat.config.json"
      (store.reaches directory first = true →
        IsRuledBy (load store directory root path) store directory first ∧
        ∀ other, other.find directory first = store.find directory first →
          load other directory root path = load store directory root path) ∧
      (store.reaches directory first = false → store.reaches directory second = true →
        IsRuledBy (load store directory root path) store directory second) ∧
      (store.reaches directory first = false → store.reaches directory second = false →
        load store directory root path = .ok ⟨[], [], false⟩) := by
  constructor
  · intro path filled
    refine ⟨?_, ?_, ?_⟩
    · intro missing
      rw [load_of_given store directory root filled, missing]
      rfl
    · intro there
      rw [load_of_given store directory root filled, there]
      exact of_file_ruled store directory path
    · intro other otherRoot same
      rw [load_of_given other directory otherRoot filled, load_of_given store directory root filled,
        reaches_congr store directory same, of_file_congr store directory same]
  · intro path unset first second
    have chosen := load_of_unset store directory root unset
    refine ⟨?_, ?_, ?_⟩
    · intro there
      have decided : load store directory root path = ofFile store directory first := by
        rw [chosen, if_pos there]
      constructor
      · rw [decided]
        exact of_file_ruled store directory first
      · intro other same
        rw [load_of_unset other directory root unset, reaches_congr store directory same, if_pos there,
          decided, of_file_congr store directory same]
    · intro missing there
      rw [chosen, if_neg (Bool.eq_false_iff.mp missing), if_pos there]
      exact of_file_ruled store directory second
    · intro missing alsoMissing
      rw [chosen, if_neg (Bool.eq_false_iff.mp missing), if_neg (Bool.eq_false_iff.mp alsoMissing)]

def shadowedItems (second : String) : List (String × Item) :=
  [(".linestatrc.json", .directory []), ("linestat.config.json", .file (Text.encode second))]

def shadowedStore (second : String) : Store := ⟨[("p", .directory (shadowedItems second))]⟩

theorem shadowed_found {second name : String} {item : Item} (plain : Path.IsPlain name.toList)
    (short : (Text.encode name).length ≤ Store.nameBound)
    (entry : (shadowedItems second).lookup name = some item) (notLink : ∀ target, item ≠ .link target) :
    (shadowedStore second).find "/" (Path.absolute ["p", name]) = .ok item := by
  have top := (shadowedStore second).find_top
  have reached : (Item.directory (shadowedStore second).root).at? ["p", name] = some item :=
    (Item.at_cons_iff _ "p" [name] _).mpr
      ⟨_, rfl, (Item.at_cons_iff _ name [] _).mpr ⟨_, entry, rfl⟩⟩
  apply Store.find_below top reached notLink (by simp)
  · simpa using ⟨by decide, plain⟩
  · simpa using ⟨by decide, short⟩

def secondText : String := "\x7b\"ignore\": [\"a\"], \"quiet\": true, \"x\": null\x7d"

theorem broken_first_file_decides :
    let store := shadowedStore secondText
    load store "/" "/p" none =
        .error (.unreadable "/p/.linestatrc.json"
          "EISDIR: illegal operation on a directory, read") ∧
      load store "/" "/q" (some "/p/linestat.config.json") = .ok ⟨[], ["a"], true⟩ := by
  intro store
  have firstPath : Path.absolute ["p", ".linestatrc.json"] = "/p/.linestatrc.json" := by cbv
  have secondPath : Path.absolute ["p", "linestat.config.json"] = "/p/linestat.config.json" := by cbv
  have first : store.find "/" "/p/.linestatrc.json" = .ok (.directory []) := by
    rw [← firstPath]
    exact shadowed_found (by decide) (by decide +kernel) rfl (by simp)
  have second : store.find "/" "/p/linestat.config.json" = .ok (.file (Text.encode secondText)) := by
    rw [← secondPath]
    exact shadowed_found (by decide) (by decide +kernel) rfl (by simp)
  have parsed : Json.parse? (Text.decodeLossy (Text.encode secondText)) =
      some (.object [("ignore", .array [.string "a"]), ("quiet", .bool true), ("x", .null)]) := by
    cbv
  have joined : Path.join "/p" ".linestatrc.json" = "/p/.linestatrc.json" := by decide
  obtain ⟨-, unset⟩ := one_file_decides store "/" "/p"
  obtain ⟨given, -⟩ := one_file_decides store "/" "/q"
  obtain ⟨decided, -⟩ := (unset none (.inl rfl)).1 (by rw [joined, Store.reaches, first]; rfl)
  obtain ⟨-, taken, -⟩ := given "/p/linestat.config.json" (by decide)
  constructor
  · rw [joined] at decided
    apply decided.wrapped (.file ⟨.isDirectory, "read", none⟩)
    simp only [Store.readJson, Store.readText, Store.readBytes, first]
    rfl
  · apply ((taken (by rw [Store.reaches, second]; rfl)).accepted _).mpr
    exact ⟨_, _, second, parsed, _, rfl, .inl rfl, .inr ⟨rfl, rfl⟩, .inl rfl⟩

end Config

end LineCensus
