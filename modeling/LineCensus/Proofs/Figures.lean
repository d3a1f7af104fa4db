import LineCensus.Proofs.Codes
import LineCensus.Report.Figures

/-!
Figures in writing. They consist of digits, signs and fixed words, so there are no codes in them. A count
with its noun ends with something visible, and so does a description of a file, unless it is empty.
-/

namespace LineCensus

set_option autoImplicit false

open LineCensus.Style (escape)
open LineCensus.Text (isBlank)

/-! ### Figures in writing -/

namespace Numeric

open Decimal (text)

theorem text_unescaped (n : Nat) : escape ∉ text n := by
  intro inside
  have numeric := Nat.isDigit_of_mem_toDigits (by decide) (by decide) inside
  exact absurd numeric (by simp [escape])

theorem sign_unescaped (negative : Bool) : escape ∉ sign negative := by
  cases negative <;> decide

theorem zeros_unescaped (n : Nat) : escape ∉ zeros n := by
  intro inside
  exact absurd (List.eq_of_mem_replicate inside) (by decide)

theorem positional_unescaped {digits : List Char} (plain : escape ∉ digits) (point : Int) :
    escape ∉ positional digits point := by
  have front (n : Nat) : escape ∉ digits.take n := fun inside => plain (List.mem_of_mem_take inside)
  have behind (n : Nat) : escape ∉ digits.drop n := fun inside => plain (List.mem_of_mem_drop inside)
  have notPoint : escape ≠ '.' := by decide
  have notZero : escape ≠ '0' := by decide
  unfold positional
  split
  · simp [zeros_unescaped, plain, notPoint, notZero]
  · dsimp only
    split
    · simp [zeros_unescaped, plain]
    · simp [front, behind, notPoint]

theorem scientific_unescaped {digits : List Char} (plain : escape ∉ digits) (exponent : Int) :
    escape ∉ scientific digits exponent := by
  have notPoint : escape ≠ '.' := by decide
  have notLetter : escape ≠ 'e' := by decide
  have notSign : escape ≠ (if exponent < 0 then '-' else '+') := by split <;> decide
  unfold scientific
  split
  · simp only [List.mem_cons, not_or] at plain
    simp [plain, text_unescaped, notPoint, notLetter, notSign]
  · simp [plain, text_unescaped, notLetter, notSign]

theorem grouped_unescaped {digits : List Char} (plain : escape ∉ digits) : escape ∉ grouped digits := by
  have among (reversed : List Char) : escape ∈ groupReversed reversed → escape ∈ reversed := by
    fun_induction groupReversed reversed with
    | case1 a b c d rest ih =>
        have notComma : escape ≠ ',' := by decide
        simp only [List.mem_cons, notComma, false_or]
        rw [List.mem_cons] at ih
        tauto
    | case2 => exact id
  intro inside
  exact plain (List.mem_reverse.mp (among _ (List.mem_reverse.mp inside)))

theorem places_unescaped (thousandths : Nat) : escape ∉ placesOf thousandths := by
  intro inside
  have kept := (List.dropWhile_sublist _).subset (List.mem_reverse.mp inside)
  exact text_unescaped _ (List.mem_of_mem_drop (List.mem_reverse.mp kept))

theorem render_unescaped (n : Binary64) : escape ∉ (render n).toList := by
  unfold render
  split
  · decide
  · split <;> decide
  · split
    · decide
    · rw [String.toList_ofList, List.mem_append, not_or]
      refine ⟨sign_unescaped _, ?_⟩
      split
      · exact positional_unescaped (text_unescaped _) _
      · exact scientific_unescaped (text_unescaped _) _

theorem render_grouped_unescaped (n : Binary64) : escape ∉ (renderGrouped n).toList := by
  have notPoint : escape ≠ '.' := by decide
  unfold renderGrouped
  split
  · decide
  · rename_i negative
    cases negative <;> decide
  · rw [String.toList_ofList, List.mem_append, List.mem_append, not_or, not_or]
    refine ⟨⟨sign_unescaped _, grouped_unescaped (text_unescaped _)⟩, ?_⟩
    split
    · exact List.not_mem_nil
    · simp [places_unescaped, notPoint]

theorem render_tenths_unescaped (n : Binary64) : escape ∉ (renderTenths n).toList := by
  have notPoint : escape ≠ '.' := by decide
  unfold renderTenths
  split
  · dsimp only
    split
    · exact render_unescaped _
    · simp [sign_unescaped, text_unescaped, notPoint]
  · exact render_unescaped _

end Numeric

namespace Report

open Numeric Stats

variable {α : Type} [Count α]

theorem count_unescaped (n : α) : escape ∉ (count n).toList := render_grouped_unescaped _

theorem bare_unescaped (n : α) : escape ∉ (bare n).toList := render_unescaped _

theorem percent_unescaped (n : Binary64) : escape ∉ (percent n).toList := by
  have sign : escape ∉ "%".toList := by decide
  exact unescaped_append (render_tenths_unescaped n) sign

def nouns : List String :=
  ["file", "line", "class", "classes", "function", "heading", "link", "image", "code block", "table"]

theorem nouns_are_words : ∀ noun ∈ nouns, IsWord noun := by
  simp [nouns, isWord_iff, isPaintable_iff, isBlank, escape]

theorem ends_are_words : ∀ ending ∈ ["s", "✓", "✗", "/", ")"], IsWord ending := by
  simp [isWord_iff, isPaintable_iff, isBlank, escape]

theorem count_of_word (n : α) {singular plural : String} (one : IsWord singular) (many : IsWord plural) :
    IsWord (countOf n singular plural) := by
  have front : escape ∉ (count n ++ " ").toList := unescaped_append (count_unescaped n) (by decide)
  unfold countOf
  split
  · exact word_append front one
  · exact word_append front many

theorem count_with_word (n : α) {noun : String} (listed : noun ∈ nouns) : IsWord (countWith n noun) := by
  have word := nouns_are_words noun listed
  exact count_of_word n word (word_append word.plain (ends_are_words _ (by decide)))

theorem classes_word (n : α) : IsWord (countOf n "class" "classes") :=
  count_of_word n (nouns_are_words _ (by decide)) (nouns_are_words _ (by decide))

/-- The description of a file ends with something visible, unless it is empty. -/
theorem describe_paintable {file : FileStats α} (language : IsPaintable file.language) :
    IsPaintable (describe file) := by
  have dot : escape ∉ " · ".toList := by decide
  have counted (n : α) {noun : String} (listed : noun ∈ nouns) : escape ∉ (countWith n noun).toList :=
    (count_with_word n listed).plain
  unfold describe
  split
  · rename_i details _
    have last : IsWord ("module doc " ++ if details.hasModuleDoc then "✓" else "✗") :=
      word_append (by decide) (by split <;> exact ends_are_words _ (by decide))
    have front : ∀ part ∈ [file.language, countOf details.classes "class" "classes",
        countWith details.functions "function"], escape ∉ part.toList := by
      simp only [List.forall_mem_cons]
      exact ⟨language.plain, (classes_word _).plain, counted _ (by decide), List.forall_mem_nil _⟩
    exact (word_intercalate dot front last).toIsPaintable
  · rename_i details _
    have last : IsWord (countWith details.tables "table") := count_with_word _ (by decide)
    have front : ∀ part ∈ [file.language, countWith details.headings "heading",
        countWith details.links "link", countWith details.images "image",
        countWith details.codeBlocks "code block"], escape ∉ part.toList := by
      simp only [List.forall_mem_cons]
      exact ⟨language.plain, counted _ (by decide), counted _ (by decide), counted _ (by decide),
        counted _ (by decide), List.forall_mem_nil _⟩
    exact (word_intercalate dot front last).toIsPaintable
  · exact language

end Report

end LineCensus
