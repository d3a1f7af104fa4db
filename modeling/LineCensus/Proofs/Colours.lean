import LineCensus.Proofs.Breakdown
import LineCensus.Proofs.DrawnTrees
import LineCensus.Proofs.Figures
import LineCensus.Report.Console

/-!
Colours change nothing that the report shows. Its lines are put together from figures, names and fixed
words, none of which has a code in it; so the only codes are those of the painter, and without them the
lines are those of the plain report.
-/

namespace LineCensus

set_option autoImplicit false

open LineCensus.Style (escape Shows ShowsCut)

/-! ### Names in a tree -/

namespace Stats.DirStats

variable {α : Type}

/-- Whether the names in a tree that a report shows have no codes in them, and the languages no blanks
at their ends. -/
structure IsPlain (dir : DirStats α) : Prop where
  directories : ∀ node ∈ dir.nodes, escape ∉ node.name.toList
  files : ∀ file ∈ dir.allFiles, escape ∉ file.name.toList
  languages : ∀ file ∈ dir.allFiles, IsPaintable file.language

theorem plain_inside {path : String} {files : List (FileStats α)} {directories : List (DirStats α)}
    (plain : (mk path files directories).IsPlain) : ∀ dir ∈ directories, dir.IsPlain := by
  intro dir listed
  have nodes (node : DirStats α) (within : node ∈ dir.nodes) :
      node ∈ (mk path files directories).nodes :=
    (mem_nodes_iff node _).mpr (.inr ⟨dir, listed, within⟩)
  have among := all_files_of_node (nodes dir ((mem_nodes_iff dir dir).mpr (.inl rfl)))
  constructor
  case directories => exact fun node within => plain.directories node (nodes node within)
  case files => exact fun file held => plain.files file (among.subset held)
  case languages => exact fun file held => plain.languages file (among.subset held)

theorem languages_plain [Count α] {dir : DirStats α} (plain : dir.IsPlain) :
    ∀ entry ∈ dir.languages, escape ∉ entry.1.toList := by
  intro entry listed
  have among := (languages_perm dir).mem_iff.mp listed
  have occurs := (mem_totals_by_language _ _).mp (List.mem_map_of_mem among)
  obtain ⟨file, held, same⟩ := List.mem_map.mp occurs
  rw [← same]
  exact (plain.languages file held).plain

end Stats.DirStats

namespace Report

open Numeric Stats

/-! ### Drawn trees -/

namespace Branch

structure ShowsBranch (styled shown : Branch) : Prop where
  label : ShowsCut styled.label.toList shown.label.toList
  inside : List.Forall₂ ShowsCut styled.linesInside shown.linesInside

theorem led_shows {lead : List Char} (plain : escape ∉ lead) {styled shown : List (List Char)}
    (each : List.Forall₂ ShowsCut styled shown) :
    List.Forall₂ ShowsCut (styled.map (lead ++ ·)) (shown.map (lead ++ ·)) := by
  rw [List.forall₂_map_left_iff, List.forall₂_map_right_iff]
  exact each.imp fun _ _ shows => (Style.shows_itself_cut plain).append shows

theorem written_shows {styled shown : List (List Char)} (each : List.Forall₂ ShowsCut styled shown) :
    ShowsCut (written styled) (written shown) := by
  induction each with
  | nil => exact .nil
  | @cons line other rest others shows _ ih =>
      have feed : ShowsCut ['\n'] ['\n'] := Style.shows_itself_cut (by decide)
      have lines := (shows.append feed).append ih
      rw [written, written, List.flatMap_cons, List.flatMap_cons]
      exact lines

theorem railed_shows (hasChildren : Bool) {styled shown : List String}
    (each : List.Forall₂ (fun a b => ShowsCut a.toList b.toList) styled shown) :
    List.Forall₂ ShowsCut (railed hasChildren styled) (railed hasChildren shown) := by
  have plain : escape ∉ (detailRail hasChildren).toList := by cases hasChildren <;> decide
  rw [railed, railed, List.forall₂_map_left_iff, List.forall₂_map_right_iff]
  exact each.imp fun _ _ shows => (Style.shows_itself_cut plain).append shows

theorem lines_below_shows {styled shown : Branch} (shows : ShowsBranch styled shown) (isLast : Bool) :
    List.Forall₂ ShowsCut (linesBelow isLast styled) (linesBelow isLast shown) := by
  have connectorPlain : escape ∉ (connector isLast).toList := by cases isLast <;> decide
  have railPlain : escape ∉ (rail isLast).toList := by cases isLast <;> decide
  rw [lines_below_eq, lines_below_eq]
  exact .cons ((Style.shows_itself_cut connectorPlain).append shows.label)
    (led_shows railPlain shows.inside)

theorem lines_of_children_shows {styled shown : List Branch}
    (each : List.Forall₂ ShowsBranch styled shown) :
    List.Forall₂ ShowsCut (linesOfChildren styled) (linesOfChildren shown) := by
  induction each with
  | nil => exact .nil
  | @cons child other rest others shows later ih =>
      have sameLast : rest.isEmpty = others.isEmpty := by cases later <;> rfl
      rw [linesOfChildren, linesOfChildren, sameLast]
      exact List.rel_append (lines_below_shows shows _) ih

theorem branch_shows {label other : String} {details others : List String}
    {children otherChildren : List Branch} (labels : ShowsCut label.toList other.toList)
    (below : List.Forall₂ (fun a b => ShowsCut a.toList b.toList) details others)
    (each : List.Forall₂ ShowsBranch children otherChildren) :
    ShowsBranch (mk label details children) (mk other others otherChildren) where
  label := labels
  inside := by
    have sameChildren : children.isEmpty = otherChildren.isEmpty := by cases each <;> rfl
    rw [linesInside, linesInside, sameChildren]
    exact List.rel_append (railed_shows _ below) (lines_of_children_shows each)

theorem draw_shows {styled shown : Branch} (shows : ShowsBranch styled shown) :
    ShowsCut styled.draw.toList shown.draw.toList := by
  rw [draw_eq, draw_eq]
  exact written_shows (.cons shows.label shows.inside)

end Branch

open Branch (ShowsBranch)

variable {α : Type} [Count α]

theorem gray_shows (painter : Painter) {text : String} (paintable : IsPaintable text) :
    ShowsCut (painter.paint [.gray] text).toList (Painter.plain.paint [.gray] text).toList := by
  have gray : ∀ style ∈ [Style.gray], style.IsCoded := by simp [Style.gray_coded]
  exact painter.paint_shows (List.cons_ne_nil _ _) gray paintable

theorem dir_label_shows (painter : Painter) {dir : DirStats α} (plain : escape ∉ dir.name.toList) :
    ShowsCut (dirLabel painter dir).toList (dirLabel .plain dir).toList := by
  have boldBlue : ∀ style ∈ [Style.bold, Style.blue], style.IsCoded := by
    simp [Style.bold_coded, Style.blue_coded]
  have files : IsWord (countWith dir.fileCount "file") := count_with_word _ (by decide)
  have lines : IsWord (countWith dir.totalLines "line") := count_with_word _ (by decide)
  have front : escape ∉ ("📁 " ++ dir.name).toList := by simp +decide [plain]
  have counts : escape ∉
      ("(" ++ countWith dir.fileCount "file" ++ ", " ++ countWith dir.totalLines "line").toList := by
    simp +decide [files.plain, lines.plain]
  have name : IsWord ("📁 " ++ dir.name ++ "/") := word_append front (ends_are_words _ (by decide))
  have figures := word_append counts (ends_are_words ")" (by decide))
  have blank : ShowsCut " ".toList " ".toList := Style.shows_itself_cut (by decide)
  have named := painter.paint_shows (List.cons_ne_nil _ _) boldBlue name.toIsPaintable
  have counted := gray_shows painter figures.toIsPaintable
  rw [dirLabel, dirLabel, String.toList_append, String.toList_append, String.toList_append,
    String.toList_append]
  exact (named.append blank).append counted

theorem file_branch_shows (painter : Painter) {file : FileStats α} (plain : escape ∉ file.name.toList)
    (language : IsPaintable file.language) :
    ShowsBranch (fileBranch painter file) (fileBranch .plain file) := by
  have lines : IsWord (countWith file.total "line") := count_with_word _ (by decide)
  have label : escape ∉ (fileLabel file).toList := by
    unfold fileLabel
    -- Without its definition, for else simp would work the name out from the path.
    generalize file.name = name at plain ⊢
    simp +decide [plain, lines.plain, count_unescaped]
  have described := gray_shows painter (describe_paintable language)
  exact Branch.branch_shows (Style.shows_itself_cut label) (.cons described .nil) .nil

theorem dir_branches_eq_map (painter : Painter) (showFiles : Bool) (directories : List (DirStats α)) :
    dirBranches painter showFiles directories = directories.map (dirBranch painter showFiles) := by
  induction directories with
  | nil => rfl
  | cons dir rest ih => rw [dirBranches, ih, List.map_cons]

theorem dir_branch_shows (painter : Painter) (showFiles : Bool) {dir : DirStats α} (plain : dir.IsPlain) :
    ShowsBranch (dirBranch painter showFiles dir) (dirBranch .plain showFiles dir) := by
  induction dir using DirStats.induction with
  | node path files directories ih =>
      have here := plain.directories _ ((DirStats.mem_nodes_iff _ _).mpr (.inl rfl))
      have own : ∀ file ∈ files, file ∈ (DirStats.mk path files directories).allFiles :=
        fun file held => List.mem_append_left _ held
      have shownFiles : List.Forall₂ ShowsBranch (files.map (fileBranch painter))
          (files.map (fileBranch .plain)) := by
        rw [List.forall₂_map_left_iff, List.forall₂_map_right_iff, List.forall₂_same]
        intro file held
        exact file_branch_shows painter (plain.files file (own file held))
          (plain.languages file (own file held))
      have shownDirectories : List.Forall₂ ShowsBranch
          (dirBranches painter showFiles directories) (dirBranches .plain showFiles directories) := by
        rw [dir_branches_eq_map, dir_branches_eq_map, List.forall₂_map_left_iff,
          List.forall₂_map_right_iff, List.forall₂_same]
        intro dir listed
        exact ih dir listed (DirStats.plain_inside plain dir listed)
      rw [dirBranch, dirBranch]
      apply Branch.branch_shows (dir_label_shows painter here) .nil
      cases showFiles with
      | true => exact List.rel_append shownFiles shownDirectories
      | false => exact shownDirectories

theorem drawn_tree_shows (painter : Painter) (showFiles : Bool) {dir : DirStats α}
    (plain : dir.IsPlain) :
    Shows (drawnTree painter showFiles dir).toList (drawnTree .plain showFiles dir).toList := by
  rw [drawnTree, drawnTree, String.toList_ofList, String.toList_ofList]
  exact (Branch.draw_shows (dir_branch_shows painter showFiles plain)).cut

/-! ### Lines of a report -/

def ShowsLines (styled shown : List String) : Prop :=
  List.Forall₂ (fun line other => Shows line.toList other.toList) styled shown

theorem intercalate_shows {separator : String} (plain : escape ∉ separator.toList)
    {styled shown : List String} (each : ShowsLines styled shown) :
    Shows (separator.intercalate styled).toList (separator.intercalate shown).toList := by
  induction each with
  | nil => exact .nil
  | @cons line other rest others shows later ih =>
      cases later with
      | nil => exact shows
      | cons next later =>
          have separated := (shows.append (Style.shows_itself plain)).append ih
          rw [String.intercalate_cons_cons, String.intercalate_cons_cons, String.toList_append,
            String.toList_append, String.toList_append, String.toList_append]
          exact separated

theorem lines_show_themselves {lines : List String} (plain : ∀ line ∈ lines, escape ∉ line.toList) :
    ShowsLines lines lines :=
  List.forall₂_same.mpr fun line member => Style.shows_itself (plain line member)

def headings : List String :=
  ["📊 linestat - Project Analysis", "📈 Summary", scriptHeading, "📝 Markdown", "🗂  Languages",
    "📊 linestat - Quick Summary"]

theorem headings_are_words : ∀ heading ∈ headings, IsWord heading := by
  simp [headings, scriptHeading, isWord_iff, isPaintable_iff, Text.isBlank, escape]

theorem headed_shows (painter : Painter) {heading : String} (listed : heading ∈ headings)
    {lines : List String} (plain : ∀ line ∈ lines, escape ∉ line.toList) :
    ShowsLines (painter.paint [.bold] heading :: lines) (Painter.plain.paint [.bold] heading :: lines) := by
  have bold : ∀ style ∈ [Style.bold], style.IsCoded := by simp [Style.bold_coded]
  have paintable := (headings_are_words heading listed).toIsPaintable
  have shows := painter.paint_shows (List.cons_ne_nil _ _) bold paintable
  exact .cons shows.whole (lines_show_themselves plain)

theorem rule_unescaped (n : Nat) {c : Char} (plain : escape ≠ c) :
    escape ∉ (String.ofList (List.replicate n c)).toList := by
  rw [String.toList_ofList]
  exact fun inside => plain (List.eq_of_mem_replicate inside)

theorem wide_rule_unescaped : escape ∉ wideRule.toList := rule_unescaped 60 (by decide)

theorem narrow_rule_unescaped : escape ∉ narrowRule.toList := rule_unescaped 40 (by decide)

theorem header_shows (painter : Painter) {project : String} (plain : escape ∉ project.toList) :
    ShowsLines (header painter project) (header .plain project) := by
  apply headed_shows painter (by decide)
  have named : escape ∉ ("📁 Project: " ++ project).toList := by simp +decide [plain]
  simp only [List.forall_mem_cons]
  exact ⟨wide_rule_unescaped, named, wide_rule_unescaped, by decide, List.forall_mem_nil _⟩

theorem totals_section_shows (painter : Painter) (dir : DirStats α) :
    ShowsLines (totalsSection painter dir) (totalsSection .plain dir) := by
  refine .cons (Style.shows_itself wide_rule_unescaped)
    (headed_shows painter (by decide) ?_)
  rw [List.forall_mem_cons]
  refine ⟨wide_rule_unescaped, ?_⟩
  simp +decide [count_unescaped, percent_unescaped]

theorem script_section_shows (painter : Painter) (summary : ScriptSummary α) :
    ShowsLines (scriptSection painter summary) (scriptSection .plain summary) := by
  unfold scriptSection
  split
  · exact .nil
  · apply headed_shows painter (by decide)
    simp +decide [count_unescaped]

theorem level_list_unescaped (details : MarkdownDetails α) :
    ∀ level ∈ levelList details, escape ∉ level.toList := by
  intro level listed
  obtain ⟨⟨n, index⟩, -, written⟩ := List.mem_filterMap.mp listed
  dsimp only at written
  split at written
  · cases written
    simp +decide [bare_unescaped]
  · cases written

theorem markdown_section_shows (painter : Painter) (summary : MarkdownSummary α) :
    ShowsLines (markdownSection painter summary) (markdownSection .plain summary) := by
  unfold markdownSection
  split
  · exact .nil
  · apply headed_shows painter (by decide)
    have plain : escape ∉ (", ".intercalate (levelList summary.totals)).toList :=
      unescaped_intercalate (by decide) (level_list_unescaped summary.totals)
    generalize ", ".intercalate (levelList summary.totals) = levels at plain ⊢
    by_cases empty : levels = ""
    · simp +decide [count_unescaped, empty]
    · simp +decide [count_unescaped, empty, plain]

theorem language_section_shows (painter : Painter) (lines : α)
    {languages : List (String × LanguageTotals α)}
    (plain : ∀ entry ∈ languages, escape ∉ entry.1.toList) :
    ShowsLines (languageSection painter lines languages) (languageSection .plain lines languages) := by
  unfold languageSection
  split
  · exact .nil
  · apply headed_shows painter (by decide)
    refine List.forall_mem_append.mpr ⟨List.forall_mem_map.mpr ?_, by decide⟩
    intro (language, totals) listed
    have files : IsWord (countWith totals.files "file") := count_with_word _ (by decide)
    have totalLines : IsWord (countWith totals.lines "line") := count_with_word _ (by decide)
    have padded (size : Nat) : escape ∉ (Text.padEnd language size).toList := by
      have named := plain _ listed
      simp +decide [Text.padEnd, named]
    simp +decide [padded, files.plain, totalLines.plain, percent_unescaped]

theorem summary_sections_show (painter : Painter) {dir : DirStats α} (plain : dir.IsPlain) :
    ShowsLines (summarySections painter dir) (summarySections .plain dir) := by
  have totals := totals_section_shows painter dir
  have scripts := script_section_shows painter dir.scriptSummary
  have documents := markdown_section_shows painter dir.markdownSummary
  have languages := language_section_shows painter dir.totalLines (DirStats.languages_plain plain)
  have rule : ShowsLines [wideRule] [wideRule] := .cons (Style.shows_itself wide_rule_unescaped) .nil
  exact List.rel_append (List.rel_append (List.rel_append (List.rel_append totals scripts) documents)
    languages) rule

theorem compact_lines_show (painter : Painter) {project : String} (plain : escape ∉ project.toList)
    (dir : DirStats α) :
    ShowsLines (compactLines painter project dir) (compactLines .plain project dir) := by
  have scripts : ∀ line ∈ (if dir.scriptSummary.files == 0 then []
      else [scriptHeading ++ ": " ++ countWith dir.scriptSummary.files "file" ++ ", "
        ++ countOf dir.scriptSummary.classes "class" "classes" ++ ", "
        ++ countWith dir.scriptSummary.functions "function"]), escape ∉ line.toList := by
    have files : IsWord (countWith dir.scriptSummary.files "file") := count_with_word _ (by decide)
    have functions : IsWord (countWith dir.scriptSummary.functions "function") :=
      count_with_word _ (by decide)
    split
    · exact List.forall_mem_nil _
    · simp +decide [files.plain, functions.plain, (classes_word _).plain]
  have figures : ∀ line ∈ [narrowRule, "Project: " ++ project,
      "Files: " ++ count dir.fileCount ++ " | Lines: " ++ count dir.totalLines,
      "Code: " ++ percent (dirShares dir).code ++ " | Comments: " ++ percent (dirShares dir).comment
        ++ " | Blank: " ++ percent (dirShares dir).blank], escape ∉ line.toList := by
    rw [List.forall_mem_cons]
    refine ⟨narrow_rule_unescaped, ?_⟩
    simp +decide [plain, count_unescaped, percent_unescaped]
  apply headed_shows painter (by decide)
  exact List.forall_mem_append.mpr ⟨List.forall_mem_append.mpr ⟨figures, scripts⟩,
    List.forall_mem_singleton.mpr narrow_rule_unescaped⟩

/-- Without the codes of its colours, the report is the one in no colours. -/
theorem console_without_codes (painter : Painter) (mode : Mode) (project : String)
    (plainProject : escape ∉ project.toList) (dir : DirStats α) (plain : dir.IsPlain) :
    Style.withoutCodes (console painter mode project dir) = console .plain mode project dir := by
  have tree (showFiles : Bool) : ShowsLines [drawnTree painter showFiles dir, ""]
      [drawnTree .plain showFiles dir, ""] :=
    .cons (drawn_tree_shows painter showFiles plain) (.cons .nil .nil)
  have long (showFiles : Bool) := List.rel_append (List.rel_append (header_shows painter plainProject)
    (tree showFiles)) (summary_sections_show painter plain)
  have shows : Shows (console painter mode project dir).toList (console .plain mode project dir).toList := by
    cases mode with
    | full => exact intercalate_shows (by decide) (long true)
    | directories => exact intercalate_shows (by decide) (long false)
    | compact => exact intercalate_shows (by decide) (compact_lines_show painter plainProject dir)
  rw [Style.withoutCodes, shows.uncoded_eq, String.ofList_toList]

/-- A tree with a language that is written on two lines and one without a name. -/
def oddLanguages : DirStats Nat :=
  .mk "" [.ofFigures "notes" "plain\ntext" 3 1 0 none]
    [.mk "src" [.ofFigures "src/main" "" 2 0 1 none] []]

theorem odd_languages_without_codes :
    escape ∉ "/home/p".toList ∧ oddLanguages.IsPlain ∧
      Style.withoutCodes (console ⟨true⟩ .full "/home/p" oddLanguages) =
        console .plain .full "/home/p" oddLanguages := by
  have project : escape ∉ "/home/p".toList := by decide
  have plain : oddLanguages.IsPlain := {
    directories := by decide +kernel
    files := by decide +kernel
    languages := by
      simp [oddLanguages, DirStats.allFiles, DirStats.allFilesIn, FileStats.ofFigures, isPaintable_iff,
        Text.isBlank, escape] }
  exact ⟨project, plain, console_without_codes ⟨true⟩ .full "/home/p" project oddLanguages plain⟩

end Report

end LineCensus
