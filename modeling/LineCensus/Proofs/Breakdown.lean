import LineCensus.Proofs.Sorting
import LineCensus.Proofs.Totals

/-!
The breakdown of a tree by language. Its entries take the files of the tree apart, one entry for each
language that occurs. They stand in the order of their lines and then of their names; where the names
compare as equal, the language that occurs first comes first. All that matters of the order of names is
that it puts any of them in order.
-/

namespace LineCensus

set_option autoImplicit false

/-! ### The order of names -/

namespace Text

theorem collate_eq :
    collate = compareLex (compareOn fun text => level (·.letter) (weightsOf text))
      (compareLex (compareOn fun text => level (·.accent) (weightsOf text))
        (compareOn fun text => level (·.case) (weightsOf text))) :=
  rfl

instance : Std.TransCmp collate := by
  rw [collate_eq]
  infer_instance

end Text

namespace Stats

/-! ### The order of entries -/

variable {compareNames : String → String → Ordering}

theorem precedes_iff (a b : String × Tally) :
    precedes compareNames a b = true ↔
      b.2.lines < a.2.lines ∨ a.2.lines = b.2.lines ∧ (compareNames a.1 b.1).isLE = true := by
  have order : Count.order a.2.lines b.2.lines = compare a.2.lines b.2.lines := rfl
  rw [precedes, order]
  rcases Nat.lt_trichotomy a.2.lines b.2.lines with less | same | more
  · rw [Nat.compare_eq_lt.mpr less]
    simp
    omega
  · rw [same, Nat.compare_eq_eq.mpr rfl]
    cases compareNames a.1 b.1 <;> simp
  · rw [Nat.compare_eq_gt.mpr more]
    simp [more]

section

variable (compareNames) [Std.TransCmp compareNames]

theorem precedes_trans (a b c : String × Tally) (first : precedes compareNames a b = true)
    (second : precedes compareNames b c = true) : precedes compareNames a c = true := by
  rw [precedes_iff] at first second ⊢
  rcases first with more | ⟨same, before⟩
  · left
    omega
  · rcases second with more | ⟨sameToo, beforeToo⟩
    · left
      omega
    · exact .inr ⟨same.trans sameToo, Std.TransCmp.isLE_trans before beforeToo⟩

theorem precedes_total (a b : String × Tally) :
    (precedes compareNames a b || precedes compareNames b a) = true := by
  rw [Bool.or_eq_true, precedes_iff, precedes_iff]
  rcases Nat.lt_trichotomy a.2.lines b.2.lines with less | same | more
  · exact .inr (.inl less)
  · have swapped : compareNames b.1 a.1 = (compareNames a.1 b.1).swap := Std.OrientedCmp.eq_swap
    rw [swapped]
    cases compareNames a.1 b.1 <;> simp [same]
  · exact .inl (.inl more)

end

/-! ### The languages that occur -/

theorem mem_totals_by_language {α : Type} [Count α] (files : List (FileStats α)) (language : String) :
    language ∈ (totalsByLanguage files).map Prod.fst ↔ language ∈ files.map (·.language) := by
  induction files using List.reverseRecOn with
  | nil => rfl
  | append_singleton front last ih =>
      rw [languages_of_concat, List.map_append, List.mem_append, ← ih]
      split
      case isTrue there =>
        constructor
        · exact .inl
        · rintro (early | late)
          · exact early
          · rw [List.map_singleton, List.mem_singleton] at late
            exact late ▸ there
      case isFalse => rw [List.mem_append, List.map_singleton]

theorem totals_by_language_in_order (files : List (FileStats Nat)) :
    (totalsByLanguage files).Pairwise fun a b =>
      (files.map (·.language)).idxOf a.1 < (files.map (·.language)).idxOf b.1 := by
  rw [← List.pairwise_map (f := Prod.fst)
    (R := fun a b : String => (files.map (·.language)).idxOf a < (files.map (·.language)).idxOf b)]
  induction files using List.reverseRecOn with
  | nil => exact .nil
  | append_singleton front last ih =>
      -- A file more at the end does not move the first file of a language that is there already.
      have known {language : String} (member : language ∈ (totalsByLanguage front).map Prod.fst) :
          ((front ++ [last]).map (·.language)).idxOf language =
            (front.map (·.language)).idxOf language := by
        rw [List.map_append]
        exact List.idxOf_append_of_mem ((mem_totals_by_language front language).mp member)
      have kept : ((totalsByLanguage front).map Prod.fst).Pairwise fun a b =>
          ((front ++ [last]).map (·.language)).idxOf a <
            ((front ++ [last]).map (·.language)).idxOf b := by
        apply ih.imp_of_mem
        intro a b first second before
        rw [known first, known second]
        exact before
      rw [languages_of_concat]
      split
      case isTrue => exact kept
      case isFalse new =>
        rw [List.pairwise_append]
        refine ⟨kept, List.pairwise_singleton _ _, ?_⟩
        intro a first b inLast
        rw [List.mem_singleton.mp inLast, known first]
        have early := (mem_totals_by_language front a).mp first
        rw [mem_totals_by_language] at new
        rw [List.map_append, List.idxOf_append_of_notMem new]
        exact Nat.lt_add_right _ (List.idxOf_lt_length_iff.mpr early)

/-! ### Breakdowns -/

/-- Whether entries take some files apart by language, those with the most lines first. -/
structure IsBreakdown (compareNames : String → String → Ordering) (entries : List (String × Tally))
    (files : List (FileStats Nat)) : Prop where
  distinct : (entries.map Prod.fst).Nodup
  present : ∀ language, language ∈ entries.map Prod.fst ↔ ∃ file ∈ files, file.language = language
  figures : ∀ entry ∈ entries,
    let inLanguage := files.filter (·.language == entry.1)
    entry.2.files = inLanguage.length ∧
    entry.2.lines = (inLanguage.map (·.total)).sum ∧
    entry.2.code = (inLanguage.map (·.code)).sum ∧
    entry.2.comments = (inLanguage.map (·.comment)).sum ∧
    entry.2.blank = (inLanguage.map (·.blank)).sum
  /-- Names decide between entries with as many lines, and where they do not, the first file does. -/
  ordered : entries.Pairwise fun a b =>
    b.2.lines < a.2.lines ∨ a.2.lines = b.2.lines ∧
      (compareNames a.1 b.1 = .lt ∨ compareNames a.1 b.1 = .eq ∧
        (files.map (·.language)).idxOf a.1 < (files.map (·.language)).idxOf b.1)

theorem figures_of_language {files : List (FileStats Nat)} {entry : String × Tally}
    (listed : entry ∈ totalsByLanguage files) :
    entry.2 = Tally.ofFiles (files.filter (·.language == entry.1)) := by
  have found : (totalsByLanguage files).lookup entry.1 = some entry.2 :=
    (Keyed.lookup_eq_some_iff_mem (totals_by_language_distinct files) _ _).mpr listed
  rw [← lookup_totals_by_language, found, Option.getD_some]

variable (compareNames) [Std.TransCmp compareNames]

theorem languages_in_order (dir : DirStats Nat) :
    (dir.languagesBy compareNames).Pairwise fun a b =>
      b.2.lines < a.2.lines ∨ a.2.lines = b.2.lines ∧
        (compareNames a.1 b.1 = .lt ∨ compareNames a.1 b.1 = .eq ∧
          (dir.allFiles.map (·.language)).idxOf a.1 < (dir.allFiles.map (·.language)).idxOf b.1) := by
  have stable := merge_sort_stable (precedes_trans compareNames) (precedes_total compareNames)
    (totals_by_language_in_order dir.allFiles)
  apply stable.imp
  rintro a b ⟨forth, tied⟩
  rcases (precedes_iff a b).mp forth with more | ⟨same, before⟩
  · exact .inl more
  · refine .inr ⟨same, ?_⟩
    cases compared : compareNames a.1 b.1 with
    | lt => exact .inl rfl
    | gt => rw [compared] at before; cases before
    | eq =>
        have swapped : compareNames b.1 a.1 = (compareNames a.1 b.1).swap := Std.OrientedCmp.eq_swap
        refine .inr ⟨rfl, tied ?_⟩
        rw [precedes_iff, swapped, compared]
        exact .inr ⟨same.symm, rfl⟩

/-- The breakdown of a tree takes its files apart by language, whatever the order of names is. -/
theorem languages_break_files_down (dir : DirStats Nat) :
    IsBreakdown compareNames (dir.languagesBy compareNames) dir.allFiles where
  distinct := ((languages_by_perm compareNames dir).map Prod.fst).nodup_iff.mpr
    (totals_by_language_distinct _)
  present := by
    intro language
    rw [((languages_by_perm compareNames dir).map Prod.fst).mem_iff, mem_totals_by_language,
      List.mem_map]
  figures := by
    intro entry listed
    rw [figures_of_language ((languages_by_perm compareNames dir).mem_iff.mp listed),
      Tally.of_files_eq]
    exact ⟨rfl, rfl, rfl, rfl, rfl⟩
  ordered := languages_in_order compareNames dir

/-- A project with as many lines of one language as of another. -/
def evenProject : DirStats Nat :=
  .mk "/even" [.ofFigures "a.py" "Python" 3 0 0 none, .ofFigures "b.go" "Go" 5 0 0 none]
    [.mk "/even/c" [.ofFigures "c.py" "Python" 2 0 0 none] []]

theorem even_project_breaks_down :
    Std.TransCmp Text.collate ∧ Text.collate "Go" "Python" = .lt ∧
      IsBreakdown Text.collate evenProject.languages evenProject.allFiles :=
  ⟨inferInstance, by decide +kernel, languages_break_files_down Text.collate evenProject⟩

end Stats

end LineCensus
