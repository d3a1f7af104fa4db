import LineCensus.Analysis
import LineCensus.Proofs.Casing
import LineCensus.Proofs.Keyed
import LineCensus.Proofs.TextOrder

/-!
Which files are analyzed, and how. The list of extensions and the choice of a method for a name are made
from different data: the one from the keys of a registry, the other by looking an extension up that has
been put into lower case once more. They agree for every table of extensions, for a text in lower case
stays as it is.
-/

namespace LineCensus

set_option autoImplicit false

open LineCensus.Language (Registry CommentStyle)

/-! ### Extensions in a registry -/

namespace Language

/-- Whether the last entry of a table for an extension, in whatever case it is written there, gives a
language. -/
def GivesLast (table : List (String × String)) (extension language : String) : Prop :=
  ∃ before key behind, table = before ++ (key, language) :: behind ∧ Text.lower key = extension ∧
    ∀ entry ∈ behind, Text.lower entry.1 ≠ extension

variable (table : List (String × String)) (styles : List CommentStyle)

theorem lookup_extension_iff (extension language : String) :
    (Registry.make table styles).byExtension.lookup extension = some language ↔
      GivesLast table extension language := by
  rw [Registry.make, Keyed.lookup_of_list_eq_some_iff]
  constructor
  · rintro ⟨before, behind, split, later⟩
    obtain ⟨front, rest, rfl, rfl, cut⟩ := List.map_eq_append_iff.mp split
    obtain ⟨entry, others, rfl, same, rfl⟩ := List.map_eq_cons_iff.mp cut
    cases same
    refine ⟨front, entry.1, others, rfl, rfl, ?_⟩
    intro other member
    exact later _ (List.mem_map_of_mem member)
  · rintro ⟨before, key, behind, rfl, rfl, later⟩
    refine ⟨_, _, by rw [List.map_append, List.map_cons], ?_⟩
    intro entry member
    obtain ⟨other, inBehind, rfl⟩ := List.mem_map.mp member
    exact later other inBehind

theorem mem_extensions_iff (extension : String) :
    extension ∈ (Registry.make table styles).extensions ↔
      ∃ language, GivesLast table extension language := by
  have distinct : ((Registry.make table styles).byExtension.map Prod.fst).Nodup :=
    Keyed.of_list_distinct _
  rw [Registry.extensions, Text.mem_sort, List.mem_map]
  simp only [← lookup_extension_iff table styles, Keyed.lookup_eq_some_iff_mem distinct]
  constructor
  · rintro ⟨entry, listed, rfl⟩
    exact ⟨entry.2, listed⟩
  · rintro ⟨language, listed⟩
    exact ⟨(extension, language), listed, rfl⟩

theorem known_of_gives_last (known : ∀ entry ∈ table, entry.2 ≠ unknown) {extension language : String}
    (given : GivesLast table extension language) : language ≠ unknown := by
  obtain ⟨before, key, behind, rfl, -, -⟩ := given
  exact known (key, language) (by simp)

/-- An extension of a name has the language that its last entry gives, and none without an entry. -/
theorem language_of_extension (known : ∀ entry ∈ table, entry.2 ≠ unknown) (name language : String) :
    (Registry.make table styles).languageOf (extensionOf name) = language ∧ language ≠ unknown ↔
      GivesLast table (extensionOf name) language := by
  have looked : Text.lower (extensionOf name) = extensionOf name := Text.lower_lower _
  rw [← lookup_extension_iff table styles, Registry.languageOf, looked]
  cases found : (Registry.make table styles).byExtension.lookup (extensionOf name) with
  | none =>
      constructor
      · rintro ⟨rfl, isKnown⟩
        exact absurd rfl isKnown
      · intro given
        cases given
  | some value =>
      have isKnown := known_of_gives_last table known ((lookup_extension_iff table styles _ _).mp found)
      rw [Option.getD_some, Option.some.injEq]
      constructor
      · rintro ⟨same, -⟩
        exact same
      · rintro rfl
        exact ⟨rfl, isKnown⟩

end Language

open LineCensus.Language (extensionOf GivesLast)

/-! ### Methods -/

theorem markdown_no_script : ∀ extension ∈ Markdown.extensions, extension ∉ Script.extensions := by
  decide

namespace Method

variable {name : String} (registry : Registry)

theorem select_of_script (isScript : extensionOf name ∈ Script.extensions) :
    select registry name = some .script := by
  rw [select, if_pos (List.contains_iff_mem.mpr isScript)]

theorem select_of_markdown (isMarkdown : extensionOf name ∈ Markdown.extensions) :
    select registry name = some .markdown := by
  have noScript := markdown_no_script _ isMarkdown
  rw [select, if_neg (fun has => noScript (List.contains_iff_mem.mp has)),
    if_pos (List.contains_iff_mem.mpr isMarkdown)]

theorem select_of_neither (noScript : extensionOf name ∉ Script.extensions)
    (noMarkdown : extensionOf name ∉ Markdown.extensions) (method : Method) :
    select registry name = some method ↔
      ∃ language, method = .markers language ∧
        registry.languageOf (extensionOf name) = language ∧ language ≠ Language.unknown := by
  rw [select, if_neg (fun has => noScript (List.contains_iff_mem.mp has)),
    if_neg (fun has => noMarkdown (List.contains_iff_mem.mp has))]
  by_cases isUnknown : registry.languageOf (extensionOf name) = Language.unknown
  · simp [isUnknown]
  · rw [if_neg (by simpa using isUnknown), Option.some.injEq]
    constructor
    · rintro rfl
      exact ⟨_, rfl, rfl, isUnknown⟩
    · rintro ⟨language, rfl, rfl, -⟩
      rfl

end Method

theorem mem_analyzable_iff (registry : Registry) (extension : String) :
    extension ∈ analyzableExtensions registry ↔
      extension ∈ Script.extensions ∨ extension ∈ Markdown.extensions ∨
        extension ∈ registry.extensions := by
  rw [analyzableExtensions, Text.mem_sort, Text.mem_distinct, List.mem_append, List.mem_append]
  exact ⟨fun listed => by tauto, fun listed => by tauto⟩

theorem analyzable_increase (registry : Registry) :
    (analyzableExtensions registry).Pairwise fun a b => Text.units a < Text.units b := by
  apply (Text.sort_increases (Text.distinct_nodup _)).imp
  intro a b before
  exact (Text.is_before_iff a b).mp before

/-- The files that are analyzed are those with an extension in the list. Scripts and documents are told
by their extensions alone; for any other file its method is that of the last language that the table
gives for its extension. The list increases. -/
theorem selection_agrees_with_listing (table : List (String × String)) (styles : List CommentStyle)
    (name : String) :
    let registry := Registry.make table styles
    let extension := extensionOf name
    ((∀ entry ∈ table, entry.2 ≠ Language.unknown) →
      ((Method.select registry name).isSome ↔ extension ∈ analyzableExtensions registry) ∧
      ∀ language, Method.select registry name = some (.markers language) ↔
        extension ∉ Script.extensions ∧ extension ∉ Markdown.extensions ∧
          GivesLast table extension language) ∧
    (extension ∈ Script.extensions → Method.select registry name = some .script) ∧
    (extension ∈ Markdown.extensions → Method.select registry name = some .markdown) ∧
    (analyzableExtensions registry).Pairwise fun a b => Text.units a < Text.units b := by
  intro registry extension
  refine ⟨?_, Method.select_of_script registry, Method.select_of_markdown registry,
    analyzable_increase registry⟩
  intro known
  have language := Language.language_of_extension table styles known name
  rw [mem_analyzable_iff, Language.mem_extensions_iff, Option.isSome_iff_exists]
  by_cases isScript : extension ∈ Script.extensions
  · rw [Method.select_of_script registry isScript]
    simp [isScript]
  by_cases isMarkdown : extension ∈ Markdown.extensions
  · rw [Method.select_of_markdown registry isMarkdown]
    simp [isMarkdown]
  simp only [Method.select_of_neither registry isScript isMarkdown]
  constructor
  · constructor
    · rintro ⟨method, value, rfl, chosen⟩
      exact .inr (.inr ⟨value, (language value).mp chosen⟩)
    · rintro (inScripts | inMarkdown | ⟨value, given⟩)
      · exact absurd inScripts isScript
      · exact absurd inMarkdown isMarkdown
      · exact ⟨_, value, rfl, (language value).mpr given⟩
  · intro value
    rw [← language value]
    constructor
    · rintro ⟨other, same, chosen⟩
      cases same
      exact ⟨isScript, isMarkdown, chosen⟩
    · rintro ⟨-, -, chosen⟩
      exact ⟨value, rfl, chosen⟩

/-- A table with two entries for one extension, and one that would make scripts something else. -/
theorem doubled_extension_is_selected_and_listed :
    let table := [(".ÄX", "First"), (".ts", "Other"), (".äX", "Second")]
    (∀ entry ∈ table, entry.2 ≠ Language.unknown) ∧
    Method.select (Registry.make table []) "a.b.Äx" = some (.markers "Second") ∧
    extensionOf "a.b.Äx" ∈ analyzableExtensions (Registry.make table []) ∧
    extensionOf "c.TS" ∈ Script.extensions ∧
    Method.select (Registry.make table []) "c.TS" = some .script ∧
    extensionOf "d.Md" ∈ Markdown.extensions ∧
    Method.select (Registry.make table []) "d.Md" = some .markdown := by
  intro table
  have known : ∀ entry ∈ table, entry.2 ≠ Language.unknown := by decide
  obtain ⟨agree, -⟩ := selection_agrees_with_listing table [] "a.b.Äx"
  obtain ⟨listed, chosen⟩ := agree known
  have isScript : extensionOf "c.TS" ∈ Script.extensions := by decide +kernel
  have isMarkdown : extensionOf "d.Md" ∈ Markdown.extensions := by decide +kernel
  have noScript : extensionOf "a.b.Äx" ∉ Script.extensions := by decide +kernel
  have noMarkdown : extensionOf "a.b.Äx" ∉ Markdown.extensions := by decide +kernel
  have given : GivesLast table (extensionOf "a.b.Äx") "Second" :=
    ⟨[(".ÄX", "First"), (".ts", "Other")], ".äX", [], rfl, by decide +kernel, by simp⟩
  have selected := (chosen "Second").mpr ⟨noScript, noMarkdown, given⟩
  exact ⟨known, selected, listed.mp (by rw [selected]; rfl), isScript,
    (selection_agrees_with_listing table [] "c.TS").2.1 isScript, isMarkdown,
    (selection_agrees_with_listing table [] "d.Md").2.2.1 isMarkdown⟩

end LineCensus
