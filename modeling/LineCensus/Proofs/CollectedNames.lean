import LineCensus.Proofs.Interchange
import LineCensus.Proofs.Patterns

/-!
The names to leave out of a project. They come from the lines of its ignore file and from further
patterns, in this order, and each of them comes once, without blanks around it. Names that have been
collected are patterns for themselves; so they stay the same when they are given as patterns again.
-/

namespace LineCensus.Ignore

set_option autoImplicit false

/-- The name that a pattern stands for: what it reduces to, without blanks around it, unless nothing is
left. -/
def meaning (pattern : String) : Option String :=
  ((nameOf pattern).map Text.trim).filter (!·.isEmpty)

theorem meaning_eq_some_iff {pattern name : String} : meaning pattern = some name ↔
    name ≠ "" ∧ ∃ reduced, nameOf pattern = some reduced ∧ Text.trim reduced = name := by
  rw [meaning, Option.filter_eq_some_iff, Option.map_eq_some_iff, Bool.not_eq_true', and_comm,
    ← Bool.not_eq_true, String.isEmpty_iff]

theorem plain_name_of_meaning {pattern name : String} (means : meaning pattern = some name) :
    IsPlainName name := by
  obtain ⟨filled, reduced, reduces, rfl⟩ := meaning_eq_some_iff.mp means
  have unsigned := (name_chars_reduced (name_of_eq_some_iff.mp reduces)).1
  rw [Text.trim] at filled ⊢
  exact {
    filled
    first_visible := by
      rw [String.toList_ofList]
      exact Text.trim_chars_head _
    last_visible := by
      rw [String.toList_ofList]
      exact Text.trim_chars_last _
    unsigned := by
      rw [String.toList_ofList]
      exact fun c member => unsigned c ((Text.trim_chars_inside _).subset member) }

theorem meaning_of_plain_name {name : String} (plain : IsPlainName name) :
    meaning name = some name :=
  meaning_eq_some_iff.mpr
    ⟨plain.filled, name, name_of_plain plain, (Text.trim_eq_iff name).mpr plain.trimmed⟩

/-- The patterns of a project: the lines of its ignore file, if there is one, and further ones. -/
def patternsOf (file : Option String) (extra : List String) : List String :=
  (file.map patternLines).getD [] ++ extra

theorem names_eq_distinct (file : Option String) (extra : List String) :
    names file extra = Text.distinct ((patternsOf file extra).filterMap meaning) := by
  have listed : (file.map parse).getD [] = ((file.map patternLines).getD []).filterMap nameOf := by
    cases file with
    | none => rfl
    | some text => exact parse_eq_filter_map text
  rw [names, collect, listed, ← List.filterMap_append, ← patternsOf]
  congr 1
  rw [List.map_filterMap, List.filter_filterMap]
  rfl

theorem mem_names_iff_meant {file : Option String} {extra : List String} {name : String} :
    name ∈ names file extra ↔ ∃ pattern ∈ patternsOf file extra, meaning pattern = some name := by
  rw [names_eq_distinct, Text.mem_distinct, List.mem_filterMap]

/-- Collected names that are given as further patterns are collected again, and no others. -/
theorem names_again (file : Option String) (extra : List String) :
    names file (names file extra) = names file extra := by
  have kept : (names file extra).filterMap meaning = names file extra := by
    apply filter_map_of_kept
    intro name member
    obtain ⟨pattern, -, means⟩ := mem_names_iff_meant.mp member
    exact meaning_of_plain_name (plain_name_of_meaning means)
  rw [names_eq_distinct file (names file extra), patternsOf, List.filterMap_append, kept,
    names_eq_distinct file extra, patternsOf, List.filterMap_append, Text.distinct_append_again]

/-- The names to leave out of a project are all that its patterns stand for, each of them once, in the
order in which they are given first, and they stay the same when they are given once more. -/
theorem project_names_collected {store : Store} {directory root : String} {file : Option String}
    (held : IsHeldAt store directory (Path.join root fileName) file) (extra : List String) :
    ∃ names, load store directory root extra = .ok names ∧
      names.Nodup ∧
      (∀ name ∈ names, IsPlainName name) ∧
      (∀ name, name ∈ names ↔ name ≠ "" ∧ ∃ pattern ∈ patternsOf file extra,
        ∃ reduced, nameOf pattern = some reduced ∧ Text.trim reduced = name) ∧
      names.Pairwise (fun earlier later =>
        ((patternsOf file extra).filterMap meaning).idxOf earlier <
          ((patternsOf file extra).filterMap meaning).idxOf later) ∧
      load store directory root names = .ok names := by
  refine ⟨names file extra, load_of_held held extra, ?_, ?_, ?_, ?_, ?_⟩
  case refine_1 =>
    rw [names_eq_distinct]
    exact Text.distinct_nodup _
  case refine_2 =>
    intro name member
    obtain ⟨pattern, -, means⟩ := mem_names_iff_meant.mp member
    exact plain_name_of_meaning means
  case refine_3 =>
    intro name
    rw [mem_names_iff_meant]
    constructor
    · rintro ⟨pattern, given, means⟩
      obtain ⟨filled, reduced⟩ := meaning_eq_some_iff.mp means
      exact ⟨filled, pattern, given, reduced⟩
    · rintro ⟨filled, pattern, given, reduced⟩
      exact ⟨pattern, given, meaning_eq_some_iff.mpr ⟨filled, reduced⟩⟩
  case refine_4 =>
    rw [names_eq_distinct]
    exact Text.distinct_in_order _
  case refine_5 => rw [load_of_held held, names_again]

def vendorText : String := "# code\r\nvendor /\r\n./vendor\nold code\n"

def vendorStore : Store := (Command.projectPlace "\x7b\x7d" vendorText []).store

theorem vendor_names_collected :
    IsHeldAt vendorStore "/" (Path.join "/work" fileName) (some vendorText) ∧
    load vendorStore "/" "/work" ["out/", "vendor", "*.log"] = .ok ["vendor", "old code", "out"] ∧
    load vendorStore "/" "/work" ["vendor", "old code", "out"] = .ok ["vendor", "old code", "out"] ∧
    ["vendor", "old code", "out"].Nodup ∧
    ∀ name ∈ ["vendor", "old code", "out"], IsPlainName name := by
  have held : IsHeldAt vendorStore "/" (Path.join "/work" fileName) (some vendorText) := by
    have path : Path.join "/work" fileName = Path.absolute ["work", ".linestatignore"] := by
      decide +kernel
    have found : vendorStore.find "/" (Path.absolute ["work", ".linestatignore"]) =
        .ok (.file (Text.encode vendorText)) :=
      Command.project_file_found (by decide) (by decide +kernel) rfl
    have read : Text.decodeLossy (Text.encode vendorText) = vendorText := by cbv
    rw [IsHeldAt, path, Store.readText, Store.readBytes, found]
    exact congrArg Except.ok read
  have collected : names (some vendorText) ["out/", "vendor", "*.log"] =
      ["vendor", "old code", "out"] := by decide +kernel
  have loaded := load_of_held held ["out/", "vendor", "*.log"]
  rw [collected] at loaded
  obtain ⟨found, again, once, plain, -, -, stays⟩ :=
    project_names_collected held ["out/", "vendor", "*.log"]
  rw [loaded, Except.ok.injEq] at again
  subst again
  exact ⟨held, loaded, stays, once, plain⟩

end LineCensus.Ignore
