import LineCensus.Proofs.Path
import LineCensus.Proofs.Selection

/-!
The language that a file is labelled with. Scripts are told apart by the ending of the whole path in
lower case, documents are all of one language, and other files get the language that their extension has
in a table. Whichever way it is, the label is what the table says of the name.
-/

namespace LineCensus

set_option autoImplicit false

open LineCensus.Language (extensionOf builtinExtensions builtinRegistry)

/-! ### Extensions of names -/

namespace Path

theorem base_chars_of_no_slash {name : List Char} (clean : '/' ∉ name) : baseChars name = name := by
  have kept : ∀ c ∈ name.reverse, (c != '/') = true := by
    intro c member
    exact bne_iff_ne.mpr fun slash => clean (slash ▸ List.mem_reverse.mp member)
  have started : name.reverse.dropWhile (· == '/') = name.reverse := by
    apply List.dropWhile_eq_self_iff.mpr
    intro filled first
    have visible := kept _ (List.getElem_mem filled)
    rw [beq_iff_eq.mp first] at visible
    cases visible
  rw [baseChars, started, List.takeWhile_eq_self_iff.mpr kept, List.reverse_reverse]

theorem extension_chars_suffix (name : List Char) : extensionChars name <:+ name := by
  unfold extensionChars
  generalize last_eq : (name.reverse.takeWhile (· != '.')).reverse = last
  simp only
  split
  · exact List.nil_suffix
  · rename_i told
    simp only [Bool.or_eq_true, not_or, beq_iff_eq] at told
    -- There is a dot, for else the last part would be the whole name.
    have parts : name = (name.reverse.dropWhile (· != '.')).reverse ++ last := by
      rw [← last_eq, ← List.reverse_append, List.takeWhile_append_dropWhile, List.reverse_reverse]
    cases rest : name.reverse.dropWhile (· != '.') with
    | nil =>
        rw [rest, List.reverse_nil, List.nil_append] at parts
        exact absurd (congrArg List.length parts).symm told.1.1
    | cons dot before =>
        have isDot : dot = '.' := by
          have stopped := List.head?_dropWhile_not (· != '.') name.reverse
          rw [rest] at stopped
          simpa using stopped
        rw [rest, isDot, List.reverse_cons, List.append_assoc, List.singleton_append] at parts
        exact ⟨before.reverse, parts.symm⟩

theorem extension_suffix {name : String} (clean : '/' ∉ name.toList) :
    (extension name).toList <:+ name.toList := by
  rw [extension, String.toList_ofList, base_chars_of_no_slash clean]
  exact extension_chars_suffix name.toList

end Path

/-! ### Kinds of scripts -/

namespace Script

theorem extensions_ascii : ∀ extension ∈ extensions, ∀ c ∈ extension.toList, c.toNat < 128 := by
  simp [extensions]

/-- None of the endings is the end of another one. -/
theorem suffixes_apart : ∀ entry ∈ kindSuffixes, ∀ extension ∈ extensions,
    entry.1.toList <:+ extension.toList ∨ extension.toList <:+ entry.1.toList →
      entry.1 = extension := by
  decide

def kindOf (extension : String) : Kind :=
  ((kindSuffixes.find? fun entry => entry.1 == extension).map Prod.snd).getD .ts

theorem kind_of_path {path extension : String} (isScript : extension ∈ extensions)
    (ends : extension.toList <:+ (Text.lower path).toList) : Kind.ofPath path = kindOf extension := by
  have told : ∀ entry ∈ kindSuffixes,
      hasSuffix entry.1 (Text.lower path) = (entry.1 == extension) := by
    intro entry listed
    rw [Bool.eq_iff_iff, hasSuffix, List.isSuffixOf_iff_suffix, beq_iff_eq]
    constructor
    · intro other
      exact suffixes_apart entry listed extension isScript (List.suffix_or_suffix_of_suffix other ends)
    · rintro rfl
      exact ends
  rw [Kind.ofPath, kindOf, List.find?_congr told]

/-- The table gives scripts the language of their kind. -/
theorem language_of_kind_listed : ∀ extension ∈ extensions,
    builtinExtensions.lookup extension = some (kindOf extension).language ∧
      builtinRegistry.languageOf extension = (kindOf extension).language := by
  decide +kernel

/-- A path that ends in the name of a script is that of a script of its kind. -/
theorem kind_of_named_path {name path : String} (clean : '/' ∉ name.toList)
    (isScript : extensionOf name ∈ extensions) (ends : name.toList <:+ path.toList) :
    Kind.ofPath path = kindOf (extensionOf name) := by
  have extensionEnds := (Path.extension_suffix clean).trans ends
  exact kind_of_path isScript (Text.lower_ends extensionEnds (extensions_ascii _ isScript))

end Script

theorem documents_listed : ∀ extension ∈ Markdown.extensions,
    builtinRegistry.languageOf extension = Markdown.language := by
  decide +kernel

/-- A name with an extension is a plain name. -/
theorem plain_of_extension {name : String} (clean : '/' ∉ name.toList) (extended : extensionOf name ≠ "") :
    Path.IsPlain name.toList := by
  have none (name : String) (bare : Path.extension name = "") : extensionOf name = "" := by
    rw [extensionOf, bare]
    rfl
  refine ⟨?_, ?_, ?_, clean⟩ <;> intro same
  all_goals
    apply extended
    apply none
    rw [← String.ofList_toList (s := name), same]
    decide

def Method.languageAt (path : String) : Method → String
  | script => (Script.Kind.ofPath path).language
  | markdown => Markdown.language
  | markers language => language

theorem Method.language_of_run (method : Method) (registry : Language.Registry) (path text : String)
    (lines : List String) : (method.run registry path text lines).language = method.languageAt path := by
  cases method with
  | script => rw [run, Script.fileStats, Script.statsOf, Stats.FileStats.ofFigures, languageAt]
  | markdown => rw [run, Markdown.fileStats, Stats.FileStats.ofFigures, languageAt]
  | markers language => rw [run, Language.fileStats, Stats.FileStats.ofFigures, languageAt]

/-- The language that a file is labelled with, in whatever directory it is and whatever it holds, is the
one of its name among the languages that are known; it does not depend on how the file is analyzed. In
particular the kind of a script, told by the ending of its path, has the language that the table has for
its extension. -/
theorem label_is_language_of_name (directory name : String) (clean : '/' ∉ name.toList) :
    (∀ method, Method.select builtinRegistry name = some method → ∀ (text : String) (lines : List String),
      (method.run builtinRegistry (Path.join directory name) text lines).language =
        builtinRegistry.languageOfFile name) ∧
    (extensionOf name ∈ Script.extensions → ∀ path ∈ [name, Path.join directory name],
      builtinExtensions.lookup (extensionOf name) = some (Script.Kind.ofPath path).language) := by
  have joined (extended : extensionOf name ≠ "") : name.toList <:+ (Path.join directory name).toList :=
    Path.join_ends directory name (plain_of_extension clean extended)
  have extended (isScript : extensionOf name ∈ Script.extensions) : extensionOf name ≠ "" := by
    intro nothing
    rw [nothing] at isScript
    exact absurd isScript (by decide)
  constructor
  · intro method chosen text lines
    rw [Language.Registry.languageOfFile, Method.language_of_run]
    by_cases isScript : extensionOf name ∈ Script.extensions
    · rw [Method.select_of_script builtinRegistry isScript] at chosen
      cases chosen
      rw [(Script.language_of_kind_listed _ isScript).2,
        ← Script.kind_of_named_path clean isScript (joined (extended isScript)), Method.languageAt]
    by_cases isMarkdown : extensionOf name ∈ Markdown.extensions
    · rw [Method.select_of_markdown builtinRegistry isMarkdown] at chosen
      cases chosen
      rw [documents_listed _ isMarkdown, Method.languageAt]
    · obtain ⟨language, rfl, known, -⟩ :=
        (Method.select_of_neither builtinRegistry isScript isMarkdown method).mp chosen
      rw [known, Method.languageAt]
  · intro isScript path among
    rw [(Script.language_of_kind_listed _ isScript).1]
    simp only [List.mem_cons, List.not_mem_nil, or_false] at among
    rcases among with rfl | rfl
    · rw [Script.kind_of_named_path clean isScript List.suffix_rfl]
    · rw [Script.kind_of_named_path clean isScript (joined (extended isScript))]

/-- A script in capitals, in a directory that is named like another kind of script. -/
theorem label_of_capital_script :
    '/' ∉ "View.test.TSX".toList ∧
      (Script.fileStats (Path.join "lib.js/.." "View.test.TSX") "" []).language = "TypeScript" ∧
      (Script.Kind.ofPath (Path.join "lib.js/.." "View.test.TSX")).language = "TypeScript" := by
  have clean : '/' ∉ "View.test.TSX".toList := by decide
  have isScript : extensionOf "View.test.TSX" ∈ Script.extensions := by decide +kernel
  have known : builtinRegistry.languageOfFile "View.test.TSX" = "TypeScript" := by decide +kernel
  have listed : builtinExtensions.lookup (extensionOf "View.test.TSX") = some "TypeScript" := by
    decide +kernel
  obtain ⟨labelled, told⟩ := label_is_language_of_name "lib.js/.." "View.test.TSX" clean
  refine ⟨clean, ?_, ?_⟩
  · rw [← known]
    exact labelled .script (Method.select_of_script builtinRegistry isScript) "" []
  · have entry := told isScript _ (List.mem_cons_of_mem _ List.mem_cons_self)
    rw [listed, Option.some.injEq] at entry
    exact entry.symm

end LineCensus
