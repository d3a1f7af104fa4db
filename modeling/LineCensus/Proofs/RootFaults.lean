import LineCensus.Proofs.Following
import LineCensus.Proofs.Walk

/-!
What stops a scan. Nothing below the root of a project does, whatever goes wrong there; a scan fails
if and only if its root is no directory. A root that is something else, and one that is missing or
leads through a file, are told as faults of the root. A root whose links go in circles, or too far, is
not, and neither is one with a name that is too long: there the scan fails as the look at the root
has failed, under a code that no fault of a root has. So the promise that every failure is a fault of
the root is kept exactly by the roots that can be followed to their end.
-/

namespace LineCensus

set_option autoImplicit false

namespace Survey

/-- Whether a scan fails by a fault of its root that has the given code. -/
def FailsWith (survey : Survey) (root code : String) : Prop :=
  ∃ fault : RootFault, survey.scan root = .error (.root fault) ∧ fault.code = code

/-- The promise for scans: a root that is a directory is scanned, and for any other the scan fails by
a fault of the root, whose code tells what is there from what leads nowhere. -/
def KeepsRootPromise (survey : Survey) (store : Store) (root : String) : Prop :=
  match store.find "/" root with
  | .ok (.directory _) => ∃ log tree, survey.scan root = .ok (log, tree)
  | .ok _ => survey.FailsWith root "NOT_A_DIRECTORY"
  | .error _ => survey.FailsWith root "PATH_NOT_FOUND"

theorem scan_of_root_failure {survey : Survey} {root : String} {failure : Failure}
    (failed : rootItems survey.status root = .error failure) :
    survey.scan root = .error failure := by
  rw [scan, failed]
  rfl

section

variable {survey : Survey} {store : Store} (follows : survey.status = store.status "/")
  {root : String}

include follows

theorem scan_of_directory {items : List (String × Item)}
    (found : store.find "/" root = .ok (.directory items)) :
    ∃ log tree, survey.scan root = .ok (log, tree) := by
  have reached : survey.status root = .ok (some (.directory items)) := by
    rw [follows]
    exact Store.status_of_find found
  exact ⟨_, _, survey.scan_of_root_items root items (root_items_of_status _ _ items reached)⟩

theorem scan_of_other {item : Item} (found : store.find "/" root = .ok item)
    (other : item.isDirectory = false) :
    survey.scan root = .error (.root (.notDirectory root)) := by
  apply scan_of_root_failure
  rw [rootItems, follows, Store.status_of_find found]
  cases item with
  | file bytes => rfl
  | link target => rfl
  | directory items => cases other

theorem scan_of_nowhere {fault : FileFault} (failed : store.find "/" root = .error fault)
    (nowhere : fault = .missing ∨ fault = .notDirectory) :
    survey.scan root = .error (.root (.missing root)) := by
  apply scan_of_root_failure
  rw [rootItems, follows, Store.status, failed]
  rcases nowhere with rfl | rfl <;> rfl

theorem scan_of_endless {fault : FileFault} (failed : store.find "/" root = .error fault)
    (endless : fault = .tooManyLinks ∨ fault = .nameTooLong) :
    survey.scan root = .error (.file ⟨fault, "stat", some root⟩) := by
  apply scan_of_root_failure
  rw [rootItems, follows, Store.status, failed]
  rcases endless with rfl | rfl <;> rfl

/-- A root that leads somewhere is scanned or told for what it is. -/
theorem promise_kept_of_found {item : Item} (found : store.find "/" root = .ok item) :
    survey.KeepsRootPromise store root := by
  rw [KeepsRootPromise, found]
  cases item with
  | directory items => exact scan_of_directory follows found
  | file bytes => exact ⟨_, scan_of_other follows found rfl, rfl⟩
  | link target => exact ⟨_, scan_of_other follows found rfl, rfl⟩

theorem promise_kept_of_nowhere {fault : FileFault} (failed : store.find "/" root = .error fault)
    (nowhere : fault = .missing ∨ fault = .notDirectory) :
    survey.KeepsRootPromise store root := by
  rw [KeepsRootPromise, failed]
  exact ⟨_, scan_of_nowhere follows failed nowhere, rfl⟩

theorem promise_broken_of_endless {fault : FileFault}
    (failed : store.find "/" root = .error fault)
    (endless : fault = .tooManyLinks ∨ fault = .nameTooLong) :
    ¬survey.KeepsRootPromise store root := by
  rw [KeepsRootPromise, failed]
  rintro ⟨rootFault, scanned, _⟩
  rw [scan_of_endless follows failed endless] at scanned
  cases scanned

theorem keeps_root_promise_iff : survey.KeepsRootPromise store root ↔
    store.find "/" root ≠ .error .tooManyLinks ∧ store.find "/" root ≠ .error .nameTooLong := by
  cases found : store.find "/" root with
  | ok item => simp [promise_kept_of_found follows found]
  | error fault =>
      rcases Store.find_fault found with rfl | rfl | rfl | rfl
      · simp [promise_kept_of_nowhere follows found (.inl rfl)]
      · simp [promise_kept_of_nowhere follows found (.inr rfl)]
      · simp [promise_broken_of_endless follows found (.inl rfl)]
      · simp [promise_broken_of_endless follows found (.inr rfl)]

theorem scan_fails_iff : (∃ failure, survey.scan root = .error failure) ↔
    ¬∃ items, store.find "/" root = .ok (.directory items) := by
  constructor
  · rintro ⟨failure, failed⟩ ⟨items, found⟩
    obtain ⟨log, tree, scanned⟩ := scan_of_directory follows found
    rw [scanned] at failed
    cases failed
  · intro noDirectory
    cases found : store.find "/" root with
    | ok item =>
        have other : item.isDirectory = false := by
          cases item with
          | directory items => exact absurd ⟨items, found⟩ noDirectory
          | file bytes => rfl
          | link target => rfl
        exact ⟨_, scan_of_other follows found other⟩
    | error fault =>
        rcases Store.find_fault found with rfl | rfl | rfl | rfl
        · exact ⟨_, scan_of_nowhere follows found (.inl rfl)⟩
        · exact ⟨_, scan_of_nowhere follows found (.inr rfl)⟩
        · exact ⟨_, scan_of_endless follows found (.inl rfl)⟩
        · exact ⟨_, scan_of_endless follows found (.inr rfl)⟩

end

/-- A scan fails if and only if its root is no directory, and it keeps the promise for its failures if
and only if the root can be followed to its end; where it cannot, because of too many links or the
length of a name, the scan fails by that fault instead. Nothing is assumed of how files are analyzed
or of which directories can be listed. -/
theorem scan_fails_by_its_root (survey : Survey) (store : Store) (root : String) :
    let survey := { survey with status := store.status "/" }
    ((∃ failure, survey.scan root = .error failure) ↔
      ¬∃ items, store.find "/" root = .ok (.directory items)) ∧
    (survey.KeepsRootPromise store root ↔ store.find "/" root ≠ .error .tooManyLinks ∧
      store.find "/" root ≠ .error .nameTooLong) ∧
    ∀ fault : FileFault, fault = .tooManyLinks ∨ fault = .nameTooLong →
      store.find "/" root = .error fault →
        survey.scan root = .error (.file ⟨fault, "stat", some root⟩) :=
  ⟨scan_fails_iff rfl, keeps_root_promise_iff rfl,
    fun _ endless found => scan_of_endless rfl found endless⟩

/-! ### A link to itself -/

def loopStore : Store := ⟨[("loop", .link "loop")]⟩

theorem loop_breaks_root_promise :
    ¬(Survey.ofStore loopStore Language.builtinRegistry [] [] (.standard .plain)).KeepsRootPromise
      loopStore "/loop" := by
  have endless : loopStore.find "/" "/loop" = .error .tooManyLinks := by cbv
  exact promise_broken_of_endless rfl endless (.inl rfl)

end Survey

end LineCensus
