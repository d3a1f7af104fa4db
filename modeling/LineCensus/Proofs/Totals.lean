import LineCensus.Proofs.Keyed
import LineCensus.Proofs.Nodes

/-!
Totals over files. The figures of files add up, each by itself; so whatever way the files of a tree are
taken together, by directories or by languages, the sum over all of them is the same.
-/

namespace LineCensus.Stats

set_option autoImplicit false

/-- How many files there are, and how many lines of each kind in them. -/
abbrev Tally := LanguageTotals Nat

namespace Tally

instance : Zero Tally := ⟨.zero⟩

instance : Add Tally where
  add first second :=
    { files := first.files + second.files
      lines := first.lines + second.lines
      code := first.code + second.code
      comments := first.comments + second.comments
      blank := first.blank + second.blank }

theorem eq_of_figures {first second : Tally} (files : first.files = second.files)
    (lines : first.lines = second.lines) (code : first.code = second.code)
    (comments : first.comments = second.comments) (blank : first.blank = second.blank) :
    first = second := by
  cases first
  cases second
  simp_all

instance : AddCommMonoid Tally where
  add_assoc first second third := by
    apply eq_of_figures <;> exact Nat.add_assoc _ _ _
  zero_add tally := by
    apply eq_of_figures <;> exact Nat.zero_add _
  add_zero tally := by
    apply eq_of_figures <;> exact Nat.add_zero _
  add_comm first second := by
    apply eq_of_figures <;> exact Nat.add_comm _ _
  nsmul := nsmulRec

def ofFile (file : FileStats Nat) : Tally := ⟨1, file.total, file.code, file.comment, file.blank⟩

def ofFiles (files : List (FileStats Nat)) : Tally := (files.map ofFile).sum

theorem of_files_cons (file : FileStats Nat) (rest : List (FileStats Nat)) :
    ofFiles (file :: rest) = ofFile file + ofFiles rest := by
  rw [ofFiles, List.map_cons, List.sum_cons, ofFiles]

theorem of_files_append (front behind : List (FileStats Nat)) :
    ofFiles (front ++ behind) = ofFiles front + ofFiles behind := by
  rw [ofFiles, List.map_append, List.sum_append, ofFiles, ofFiles]

theorem of_files_eq (files : List (FileStats Nat)) :
    ofFiles files = ⟨files.length, (files.map (·.total)).sum, (files.map (·.code)).sum,
      (files.map (·.comment)).sum, (files.map (·.blank)).sum⟩ := by
  induction files with
  | nil => rfl
  | cons file rest ih =>
      rw [of_files_cons, ih]
      apply eq_of_figures
      · exact Nat.add_comm _ _
      all_goals rfl

end Tally

/-! ### Directories -/

namespace DirStats

def tally (dir : DirStats Nat) : Tally :=
  ⟨dir.fileCount, dir.totalLines, dir.codeLines, dir.commentLines, dir.blankLines⟩

theorem sum_eq_list_sum (counts : List Nat) : Stats.sum counts = counts.sum := by
  rw [Stats.sum, sumFrom, List.sum_eq_foldl]
  rfl

theorem sum_in_eq_sum (figure : FileStats Nat → Nat) (total : Nat) (directories : List (DirStats Nat)) :
    sumIn figure total directories = total + (directories.map (sumOf figure)).sum := by
  induction directories generalizing total with
  | nil => rfl
  | cons dir rest ih =>
      rw [sumIn, ih, List.map_cons, List.sum_cons]
      exact Nat.add_assoc _ _ _

theorem sum_of_eq_sum (figure : FileStats Nat → Nat) (dir : DirStats Nat) :
    dir.sumOf figure = (dir.allFiles.map figure).sum := by
  induction dir using induction with
  | node path files directories ih =>
      rw [sumOf, sum_in_eq_sum, sum_eq_list_sum, allFiles, List.map_append, List.sum_append,
        all_files_in_eq_flat_map, List.map_flatMap, List.map_congr_left ih, List.flatMap,
        List.sum_flatten, List.map_map]
      rfl

/-- A directory gives the figures of all files in its tree. -/
theorem tally_eq (dir : DirStats Nat) : dir.tally = Tally.ofFiles dir.allFiles := by
  rw [tally, Tally.of_files_eq, file_count_eq_length, totalLines, codeLines, commentLines, blankLines,
    sum_of_eq_sum, sum_of_eq_sum, sum_of_eq_sum, sum_of_eq_sum]

theorem tally_mk (path : String) (files : List (FileStats Nat)) (directories : List (DirStats Nat)) :
    (mk path files directories).tally =
      (files.map Tally.ofFile).sum + (directories.map tally).sum := by
  rw [tally_eq, allFiles, Tally.of_files_append, all_files_in_eq_flat_map]
  congr 1
  induction directories with
  | nil => rfl
  | cons dir rest ih =>
      rw [List.flatMap_cons, Tally.of_files_append, List.map_cons, List.sum_cons, ih, tally_eq]

end DirStats

/-! ### Languages -/

theorem languages_of_concat {α : Type} [Count α] (files : List (FileStats α)) (file : FileStats α) :
    (totalsByLanguage (files ++ [file])).map Prod.fst =
      if file.language ∈ (totalsByLanguage files).map Prod.fst
      then (totalsByLanguage files).map Prod.fst
      else (totalsByLanguage files).map Prod.fst ++ [file.language] := by
  rw [totalsByLanguage, List.foldl_append]
  exact Keyed.keys_update _ _ _

theorem totals_by_language_concat (files : List (FileStats Nat)) (file : FileStats Nat) :
    totalsByLanguage (files ++ [file]) =
      Keyed.update file.language (fun before => before.getD 0 + Tally.ofFile file)
        (totalsByLanguage files) := by
  rw [totalsByLanguage, List.foldl_append]
  rfl

theorem totals_by_language_distinct (files : List (FileStats Nat)) :
    ((totalsByLanguage files).map Prod.fst).Nodup := by
  induction files using List.reverseRecOn with
  | nil => exact .nil
  | append_singleton front last ih =>
      rw [totals_by_language_concat]
      exact Keyed.update_distinct _ _ ih

/-- The totals of all languages are those of all files. -/
theorem sum_totals_by_language (files : List (FileStats Nat)) :
    ((totalsByLanguage files).map Prod.snd).sum = Tally.ofFiles files := by
  induction files using List.reverseRecOn with
  | nil => rfl
  | append_singleton front last ih =>
      rw [totals_by_language_concat, Keyed.sum_update, ih, Tally.of_files_append]
      rw [Tally.of_files_cons]
      exact congrArg _ (add_zero _).symm

/-- The totals of one language are those of the files in it. -/
theorem lookup_totals_by_language (files : List (FileStats Nat)) (language : String) :
    ((totalsByLanguage files).lookup language).getD 0 =
      Tally.ofFiles (files.filter (·.language == language)) := by
  induction files using List.reverseRecOn with
  | nil => rfl
  | append_singleton front last ih =>
      rw [totals_by_language_concat, Keyed.lookup_update, List.filter_append, Tally.of_files_append]
      by_cases same : language = last.language
      · subst same
        simp [ih, Tally.ofFiles]
      · simp [ih, Tally.ofFiles, same, Ne.symm same]

theorem languages_by_perm {α : Type} [Count α] (compareNames : String → String → Ordering)
    (dir : DirStats α) : (dir.languagesBy compareNames).Perm (totalsByLanguage dir.allFiles) :=
  List.mergeSort_perm _ _

theorem languages_perm {α : Type} [Count α] (dir : DirStats α) :
    dir.languages.Perm (totalsByLanguage dir.allFiles) :=
  languages_by_perm Text.collate dir

end LineCensus.Stats
