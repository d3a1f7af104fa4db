import LineCensus.Command.Outcome
import LineCensus.Proofs.JsonText
import LineCensus.Proofs.Sections
import Mathlib

/-!
The report in writing and the failure in writing are JSON. Their numbers are proper ones, as what is
counted and what is divided are rounded, and the names of their fields are different words, apart from
those for the levels of headings, which are numbers in increasing order.
-/

namespace LineCensus

set_option autoImplicit false

open Numeric
open Stats (FileStats DirStats Details)

namespace Json

def areOrdered : List String → Bool
  | [] => true
  | name :: rest =>
    rest.all (fun other => name != other && fieldPrecedes (name, null) (other, null)) && areOrdered rest

theorem ordered_names {names : List String} (ordered : areOrdered names = true) :
    names.Pairwise fun a b => a ≠ b ∧ fieldPrecedes (a, null) (b, null) = true := by
  induction names with
  | nil => exact .nil
  | cons name rest ih =>
      rw [areOrdered, Bool.and_eq_true, List.all_eq_true] at ordered
      refine .cons (fun other inRest => ?_) (ih ordered.2)
      have apart := ordered.1 other inRest
      rwa [Bool.and_eq_true, bne_iff_ne] at apart

theorem IsProper.of_names {fields : List (String × Json)}
    (names : areOrdered (fields.map Prod.fst) = true)
    (members : ∀ field ∈ fields, field.2.IsProper) : (Json.object fields).IsProper := by
  have apart := ordered_names names
  refine .object (apart.imp And.left) ?_ members
  exact List.pairwise_map.mp (apart.imp And.right)

attribute [simp] IsProper.string IsProper.bool

end Json

namespace Report

@[simp] theorem number_of_is_proper (n : Nat) : (numberOf n).IsProper := .number (Binary64.of_nat_is_proper n)

@[simp] theorem hundredths_is_proper (share : Binary64) : (hundredths share).IsProper :=
  .number (Binary64.div_is_proper _ _)

@[simp] theorem levels_json_is_proper (levels : Vector Nat Stats.headingLevels) :
    (levelsJson levels).IsProper := by
  have six : levels.toList.length = 6 := Vector.length_toList
  rw [levels_json_eq]
  apply Json.IsProper.of_names
  case names =>
    rw [List.map_fst_zip (by simp [six, levelNames])]
    cbv
  case members =>
    intro field member
    obtain ⟨n, -, number⟩ := List.mem_map.mp (List.of_mem_zip member).2
    rw [← number]
    exact number_of_is_proper n

@[simp] theorem details_json_is_proper (details : Details Nat) : (detailsJson details).IsProper := by
  cases details with
  | script details =>
      apply Json.IsProper.of_names (by simp only [List.map_cons, List.map_nil]; decide)
      simp
  | markdown details =>
      apply Json.IsProper.of_names (by simp only [List.map_cons, List.map_nil]; decide)
      simp

@[simp] theorem file_json_is_proper (file : FileStats Nat) : (fileJson file).IsProper := by
  rw [fileJson]
  cases file.details with
  | none =>
      apply Json.IsProper.of_names (by simp only [List.map_append, List.map_cons, List.map_nil]; decide)
      simp
  | some details =>
      apply Json.IsProper.of_names (by simp only [List.map_append, List.map_cons, List.map_nil]; decide)
      simp

@[simp] theorem dir_json_is_proper (dir : DirStats Nat) : (dirJson dir).IsProper := by
  induction dir using DirStats.induction with
  | node path files directories ih =>
      have filesProper : (Json.array (files.map fileJson)).IsProper :=
        .array (List.forall_mem_map.mpr fun file _ => file_json_is_proper file)
      have innerProper : (Json.array (dirsJson directories)).IsProper := by
        rw [dirs_json_eq_map]
        exact .array (List.forall_mem_map.mpr ih)
      rw [dirJson]
      apply Json.IsProper.of_names (by simp only [List.map_cons, List.map_nil]; decide)
      simp [filesProper, innerProper]

@[simp] theorem language_json_is_proper (entry : String × Stats.LanguageTotals Nat) :
    (languageJson entry).IsProper := by
  apply Json.IsProper.of_names (by simp only [List.map_cons, List.map_nil]; decide)
  simp

@[simp] theorem summary_json_is_proper (dir : DirStats Nat) : (summaryJson dir).IsProper := by
  apply Json.IsProper.of_names (by simp only [List.map_cons, List.map_nil]; decide)
  simp

@[simp] theorem script_summary_json_is_proper (summary : Stats.ScriptSummary Nat) :
    (scriptSummaryJson summary).IsProper := by
  apply Json.IsProper.of_names (by simp only [List.map_cons, List.map_nil]; decide)
  simp

@[simp] theorem markdown_summary_json_is_proper (summary : Stats.MarkdownSummary Nat) :
    (markdownSummaryJson summary).IsProper := by
  apply Json.IsProper.of_names (by simp only [List.map_cons, List.map_nil]; decide)
  simp

theorem document_json_is_proper (project generatedAt : String) (dir : DirStats Nat) :
    (documentJson project generatedAt dir).IsProper := by
  have languages : (Json.array (dir.languages.map languageJson)).IsProper :=
    .array (List.forall_mem_map.mpr fun entry _ => language_json_is_proper entry)
  apply Json.IsProper.of_names (by simp only [List.map_cons, List.map_nil]; decide)
  simp [languages]

end Report

theorem Command.failure_json_is_proper (command time : String) (failure : Failure) :
    (failureJson command time failure).IsProper := by
  rw [failureJson]
  cases failure.code? with
  | none =>
      apply Json.IsProper.of_names (by simp only [List.map_append, List.map_cons, List.map_nil]; decide)
      simp
  | some code =>
      apply Json.IsProper.of_names (by simp only [List.map_append, List.map_cons, List.map_nil]; decide)
      simp

end LineCensus
