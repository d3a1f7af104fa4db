import LineCensus.Proofs.Numerals
import LineCensus.Proofs.Selection
import LineCensus.Report.Extensions
import Mathlib

/-!
The list of extensions as rows. A row is a list of extensions before it is written on a line, so that
commas in an extension make no difference. Every extension stands in one row: in that of its family, or
in one of six if it is of no family. Nothing else could be listed: what the rows have to hold leaves no
choice.
-/

namespace LineCensus.Report

set_option autoImplicit false

open LineCensus.Language (Registry)

/-! ### Rows of equal length -/

section Rows

variable {α : Type} (more : Nat)

theorem flatten_rows_of (members : List α) : (rowsOf more members).flatten = members := by
  fun_induction rowsOf more members with
  | case1 => rfl
  | case2 first rest ih =>
      rw [List.flatten_cons, ih, List.cons_append, List.take_append_drop]

theorem rows_of_eq_nil_iff (members : List α) : rowsOf more members = [] ↔ members = [] := by
  cases members <;> simp [rowsOf]

/-- Whether rows are filled one after another: all but the last hold as many members as they can, and
the last one holds some. -/
structure FilledInTurn (size : Nat) (rows : List (List α)) : Prop where
  full : ∀ row ∈ rows.dropLast, row.length = size
  last : ∀ row, rows.getLast? = some row → 1 ≤ row.length ∧ row.length ≤ size

theorem filled_single_iff (size : Nat) (row : List α) :
    FilledInTurn size [row] ↔ 1 ≤ row.length ∧ row.length ≤ size := by
  constructor
  · intro filled
    exact filled.last row rfl
  · intro sizes
    refine ⟨by simp, ?_⟩
    rintro _ ⟨⟩
    exact sizes

theorem filled_cons_iff (size : Nat) (row : List α) {rest : List (List α)} (someRow : rest ≠ []) :
    FilledInTurn size (row :: rest) ↔ row.length = size ∧ FilledInTurn size rest := by
  constructor
  · rintro ⟨full, last⟩
    rw [List.dropLast_cons_of_ne_nil someRow, List.forall_mem_cons] at full
    rw [List.getLast?_cons_of_ne_nil someRow] at last
    exact ⟨full.1, full.2, last⟩
  · rintro ⟨here, full, last⟩
    refine ⟨?_, by rwa [List.getLast?_cons_of_ne_nil someRow]⟩
    rw [List.dropLast_cons_of_ne_nil someRow]
    exact List.forall_mem_cons.mpr ⟨here, full⟩

theorem rows_of_filled (members : List α) : FilledInTurn (more + 1) (rowsOf more members) := by
  fun_induction rowsOf more members with
  | case1 => exact ⟨by simp, by simp⟩
  | case2 first rest ih =>
      by_cases isLast : rest.drop more = []
      · rw [(rows_of_eq_nil_iff more _).mpr isLast, filled_single_iff, List.length_cons,
          List.length_take]
        omega
      · have long : more < rest.length := by simpa using isLast
        rw [filled_cons_iff _ _ (mt (rows_of_eq_nil_iff more _).mp isLast), List.length_cons,
          List.length_take, Nat.min_eq_left (Nat.le_of_lt long)]
        exact ⟨rfl, ih⟩

/-- Rows that are filled one after another are those that their members are cut into. -/
theorem rows_of_flatten {rows : List (List α)} (filled : FilledInTurn (more + 1) rows) :
    rowsOf more rows.flatten = rows := by
  induction rows with
  | nil => rw [List.flatten_nil, rowsOf]
  | cons row rest ih =>
      by_cases isLast : rest = []
      · subst isLast
        obtain ⟨some, few⟩ := (filled_single_iff _ _).mp filled
        obtain ⟨first, behind, rfl⟩ := List.exists_cons_of_length_pos some
        have short : behind.length ≤ more := Nat.le_of_succ_le_succ few
        rw [List.flatten_singleton, rowsOf, List.take_of_length_le short,
          List.drop_of_length_le short, rowsOf]
      · obtain ⟨full, later⟩ := (filled_cons_iff _ _ isLast).mp filled
        obtain ⟨first, behind, rfl⟩ := List.exists_cons_of_length_eq_add_one full
        have exact : behind.length = more := Nat.succ.inj full
        rw [List.flatten_cons, List.cons_append, rowsOf, List.take_left' exact,
          List.drop_left' exact, ih later]

section Once

variable {rows : List (List α)} (once : rows.flatten.Nodup)

include once

theorem rows_apart {first second : Nat} (less : first < second) {row other : List α}
    (there : rows[first]? = some row) (otherThere : rows[second]? = some other) :
    row.Disjoint other := by
  obtain ⟨bound, rfl⟩ := List.getElem?_eq_some_iff.mp there
  obtain ⟨otherBound, rfl⟩ := List.getElem?_eq_some_iff.mp otherThere
  exact List.pairwise_iff_getElem.mp (List.nodup_flatten.mp once).2 first second bound otherBound less

/-- What is listed once in some rows stands in one of them only. -/
theorem row_unique {member : α} (listed : member ∈ rows.flatten) :
    ∃! number : Nat, ∃ row, rows[number]? = some row ∧ member ∈ row := by
  obtain ⟨row, isRow, inRow⟩ := List.mem_flatten.mp listed
  obtain ⟨number, there⟩ := List.mem_iff_getElem?.mp isRow
  refine ⟨number, ⟨row, there, inRow⟩, ?_⟩
  rintro other ⟨otherRow, otherThere, inOther⟩
  rcases Nat.lt_trichotomy other number with before | same | behind
  · exact absurd inRow (rows_apart once before otherThere there inOther)
  · exact same
  · exact absurd inOther (rows_apart once behind there otherThere inRow)

end Once

end Rows

/-! ### Listings -/

/-- A list of extensions in rows. -/
@[ext]
structure Listing where
  /-- The families that are named, each with the row under its name. -/
  groups : List (String × List String)
  /-- The rows under "Other languages". -/
  others : List (List String)
  /-- The number on the last line. -/
  total : Nat

namespace Listing

def rows (listing : Listing) : List (List String) := listing.groups.map Prod.snd ++ listing.others

def listed (listing : Listing) : List String := listing.rows.flatten

/-- A listing in writing: the extensions of a row stand on one line behind two blanks, with commas
between them. -/
def text (listing : Listing) : String :=
  let rule := String.ofList (List.replicate 40 '═')
  "\n".intercalate <|
    ["📋 Supported extensions", rule]
      ++ (listing.groups.flatMap fun group =>
        ["", group.1 ++ ":", "  " ++ ", ".intercalate group.2])
      ++ (if listing.others.isEmpty then []
        else ["", "Other languages:"] ++ listing.others.map fun row => "  " ++ ", ".intercalate row)
      ++ ["", "Total: " ++ bare listing.total ++ " supported extensions", rule]

/-- Whether a listing shows each of some extensions once: in the row of its family, or else in a row of
six. -/
structure ShowsOnce (listing : Listing) (extensions : List String) : Prop where
  complete : listing.listed.Perm extensions
  in_one_row : ∀ extension ∈ extensions,
    ∃! number : Nat, ∃ row, listing.rows[number]? = some row ∧ extension ∈ row
  /-- Families are named at most once and in their order. -/
  named : (listing.groups.map Prod.fst).Sublist (families.map Prod.fst)
  /-- Under the name of a family stand some extensions, and they are of that family. -/
  grouped : ∀ group ∈ listing.groups, group.2 ≠ [] ∧
    ∃ family ∈ families, group.1 = family.1 ∧ ∀ extension ∈ group.2, extension ∈ family.2
  /-- An extension of a family stands nowhere else. -/
  only_grouped : ∀ family ∈ families, ∀ extension ∈ family.2,
    (∀ group ∈ listing.groups, extension ∈ group.2 → group.1 = family.1) ∧
      ∀ row ∈ listing.others, extension ∉ row
  groups_increase : ∀ group ∈ listing.groups,
    group.2.Pairwise fun a b => Text.units a < Text.units b
  others_increase : listing.others.flatten.Pairwise fun a b => Text.units a < Text.units b
  others_filled : FilledInTurn 6 listing.others
  counted : listing.total = listing.listed.length

/-! ### One listing only -/

theorem families_told_by_name :
    ∀ family ∈ families, ∀ other ∈ families, family.1 = other.1 → family = other := by
  decide

theorem families_apart : families.Pairwise fun family other => family.2.Disjoint other.2 := by
  have apart : families.Pairwise fun family other => ∀ extension ∈ family.2, extension ∉ other.2 := by
    decide
  exact apart

theorem family_names_ordered : (families.map Prod.fst).Pairwise fun a b =>
    (families.map Prod.fst).idxOf a < (families.map Prod.fst).idxOf b := by
  decide

namespace ShowsOnce

variable {listing other : Listing} {extensions : List String}

theorem mem_iff (shown : listing.ShowsOnce extensions) (extension : String) :
    extension ∈ extensions ↔
      (∃ group ∈ listing.groups, extension ∈ group.2) ∨ extension ∈ listing.others.flatten := by
  rw [← shown.complete.mem_iff, listed, rows, List.flatten_append, List.mem_append, ← List.flatMap_def,
    List.mem_flatMap]

theorem groups_told_by_name (shown : listing.ShowsOnce extensions) {group second : String × List String}
    (firstThere : group ∈ listing.groups) (secondThere : second ∈ listing.groups)
    (same : group.1 = second.1) : group = second := by
  have names : (families.map Prod.fst).Nodup := by decide
  exact List.inj_on_of_nodup_map (shown.named.nodup names) firstThere secondThere same

theorem group_of_family (shown : listing.ShowsOnce extensions) {family : String × List String}
    (known : family ∈ families) {extension : String} (inAll : extension ∈ extensions)
    (inFamily : extension ∈ family.2) :
    ∃ group ∈ listing.groups, group.1 = family.1 ∧ extension ∈ group.2 := by
  obtain ⟨onlyThere, noOther⟩ := shown.only_grouped family known extension inFamily
  rcases (shown.mem_iff extension).mp inAll with ⟨group, there, inGroup⟩ | inOthers
  · exact ⟨group, there, onlyThere group there inGroup, inGroup⟩
  · obtain ⟨row, isRow, inRow⟩ := List.mem_flatten.mp inOthers
    exact absurd inRow (noOther row isRow)

/-- Under the name of a family stand all extensions of it. -/
theorem mem_group_iff (shown : listing.ShowsOnce extensions) {group : String × List String}
    (there : group ∈ listing.groups) {family : String × List String} (known : family ∈ families)
    (same : group.1 = family.1) (extension : String) :
    extension ∈ group.2 ↔ extension ∈ extensions ∧ extension ∈ family.2 := by
  constructor
  · intro inGroup
    obtain ⟨-, named, isFamily, sameName, ofFamily⟩ := shown.grouped group there
    obtain rfl := families_told_by_name family known named isFamily (same.symm.trans sameName)
    exact ⟨(shown.mem_iff extension).mpr (.inl ⟨group, there, inGroup⟩), ofFamily extension inGroup⟩
  · rintro ⟨inAll, inFamily⟩
    obtain ⟨second, secondThere, secondName, inSecond⟩ := shown.group_of_family known inAll inFamily
    rwa [shown.groups_told_by_name there secondThere (same.trans secondName.symm)]

theorem mem_others_iff (shown : listing.ShowsOnce extensions) (extension : String) :
    extension ∈ listing.others.flatten ↔
      extension ∈ extensions ∧ ∀ family ∈ families, extension ∉ family.2 := by
  constructor
  · intro inOthers
    refine ⟨(shown.mem_iff extension).mpr (.inr inOthers), ?_⟩
    intro family known inFamily
    obtain ⟨row, isRow, inRow⟩ := List.mem_flatten.mp inOthers
    exact (shown.only_grouped family known extension inFamily).2 row isRow inRow
  · rintro ⟨inAll, noFamily⟩
    rcases (shown.mem_iff extension).mp inAll with ⟨group, there, inGroup⟩ | inOthers
    · obtain ⟨-, family, known, -, ofFamily⟩ := shown.grouped group there
      exact absurd (ofFamily extension inGroup) (noFamily family known)
    · exact inOthers

/-- A family that is named in one listing is named in any other, with the same row. -/
theorem mem_groups_of_mem (shown : listing.ShowsOnce extensions) (shownToo : other.ShowsOnce extensions)
    (group : String × List String) (there : group ∈ listing.groups) : group ∈ other.groups := by
  obtain ⟨filled, family, known, sameName, ofFamily⟩ := shown.grouped group there
  obtain ⟨extension, inGroup⟩ := List.exists_mem_of_ne_nil _ filled
  have inAll := (shown.mem_iff extension).mpr (.inl ⟨group, there, inGroup⟩)
  obtain ⟨second, secondThere, secondName, -⟩ :=
    shownToo.group_of_family known inAll (ofFamily extension inGroup)
  have sameRow : group.2 = second.2 := by
    apply List.Pairwise.eq_of_mem_iff (shown.groups_increase group there)
      (shownToo.groups_increase second secondThere)
    intro member
    rw [shown.mem_group_iff there known sameName, shownToo.mem_group_iff secondThere known secondName]
  rwa [Prod.ext (sameName.trans secondName.symm) sameRow]

theorem groups_in_order (shown : listing.ShowsOnce extensions) : listing.groups.Pairwise fun a b =>
    (families.map Prod.fst).idxOf a.1 < (families.map Prod.fst).idxOf b.1 := by
  have names := family_names_ordered.sublist shown.named
  rwa [List.pairwise_map] at names

/-- There is only one way to show some extensions. -/
theorem unique (shown : listing.ShowsOnce extensions) (shownToo : other.ShowsOnce extensions) :
    listing = other := by
  have groups : listing.groups = other.groups := by
    apply List.Pairwise.eq_of_mem_iff shown.groups_in_order shownToo.groups_in_order
    intro group
    exact ⟨shown.mem_groups_of_mem shownToo group, shownToo.mem_groups_of_mem shown group⟩
  have others : listing.others = other.others := by
    have sameMembers : listing.others.flatten = other.others.flatten := by
      apply List.Pairwise.eq_of_mem_iff shown.others_increase shownToo.others_increase
      intro extension
      rw [shown.mem_others_iff, shownToo.mem_others_iff]
    rw [← rows_of_flatten 5 shown.others_filled, sameMembers, rows_of_flatten 5 shownToo.others_filled]
  have total : listing.total = other.total := by
    rw [shown.counted, shown.complete.length_eq, shownToo.counted, shownToo.complete.length_eq]
  exact Listing.ext groups others total

end ShowsOnce

/-! ### The listing that is printed -/

def ofExtensions (extensions : List String) : Listing where
  groups := (families.map fun family => (family.1, familyMembers extensions family)).filter
    fun group => !group.2.isEmpty
  others := rowsOf (columns - 1) (otherExtensions extensions)
  total := extensions.length

section

variable (extensions : List String)

theorem text_of_extensions :
    (ofExtensions extensions).text =
      "\n".intercalate (["📋 Supported extensions", listRule] ++ familyLines extensions
        ++ otherLines extensions
        ++ ["", "Total: " ++ bare extensions.length ++ " supported extensions", listRule]) := by
  have groups : ((ofExtensions extensions).groups.flatMap fun group =>
      ["", group.1 ++ ":", "  " ++ ", ".intercalate group.2]) = familyLines extensions := by
    simp only [ofExtensions, familyLines, row]
    induction families with
    | nil => rfl
    | cons family rest ih =>
        rw [List.map_cons, List.flatMap_cons, ← ih, List.filter_cons]
        cases (familyMembers extensions family).isEmpty <;> simp
  have others : (if (ofExtensions extensions).others.isEmpty then []
      else ["", "Other languages:"] ++
        (ofExtensions extensions).others.map fun row => "  " ++ ", ".intercalate row) =
        otherLines extensions := by
    have empty := rows_of_eq_nil_iff (columns - 1) (otherExtensions extensions)
    rw [ofExtensions, otherLines]
    simp only [List.isEmpty_iff, empty]
    rfl
  simp only [text, groups, others]
  rfl

theorem mem_family_members (family : String × List String) (extension : String) :
    extension ∈ familyMembers extensions family ↔ extension ∈ extensions ∧ extension ∈ family.2 := by
  rw [familyMembers, List.mem_filter, List.contains_iff_mem]

theorem mem_other_extensions (extension : String) :
    extension ∈ otherExtensions extensions ↔
      extension ∈ extensions ∧ ∀ family ∈ families, extension ∉ family.2 := by
  simp [otherExtensions]

theorem mem_groups_of_extensions (group : String × List String) :
    group ∈ (ofExtensions extensions).groups ↔
      group.2 ≠ [] ∧ ∃ family ∈ families, (family.1, familyMembers extensions family) = group := by
  rw [ofExtensions, List.mem_filter, List.mem_map, and_comm]
  simp

theorem others_of_extensions :
    (ofExtensions extensions).others.flatten = otherExtensions extensions := flatten_rows_of _ _

theorem groups_of_extensions_apart : ((ofExtensions extensions).groups.map Prod.snd).Pairwise
    List.Disjoint := by
  rw [List.pairwise_map, ofExtensions]
  apply List.Pairwise.filter
  rw [List.pairwise_map]
  refine families_apart.imp ?_
  intro family other apart extension inFamily inOther
  exact apart ((mem_family_members extensions family extension).mp inFamily).2
    ((mem_family_members extensions other extension).mp inOther).2

variable {extensions}

theorem listed_once (once : extensions.Nodup) : (ofExtensions extensions).listed.Nodup := by
  rw [listed, rows, List.flatten_append, others_of_extensions, List.nodup_append']
  refine ⟨List.nodup_flatten.mpr ⟨?_, groups_of_extensions_apart extensions⟩, once.filter _, ?_⟩
  · intro members isRow
    obtain ⟨group, there, rfl⟩ := List.mem_map.mp isRow
    obtain ⟨-, family, -, rfl⟩ := (mem_groups_of_extensions extensions group).mp there
    exact once.filter _
  · intro extension inGroups inOthers
    rw [← List.flatMap_def, List.mem_flatMap] at inGroups
    obtain ⟨group, there, inGroup⟩ := inGroups
    obtain ⟨-, family, known, rfl⟩ := (mem_groups_of_extensions extensions group).mp there
    exact ((mem_other_extensions extensions extension).mp inOthers).2 family known
      ((mem_family_members extensions family extension).mp inGroup).2

theorem mem_listed (extension : String) :
    extension ∈ (ofExtensions extensions).listed ↔ extension ∈ extensions := by
  rw [listed, rows, List.flatten_append, List.mem_append, others_of_extensions, ← List.flatMap_def,
    List.mem_flatMap, mem_other_extensions]
  constructor
  · rintro (⟨group, there, inGroup⟩ | ⟨inAll, -⟩)
    · obtain ⟨-, family, -, rfl⟩ := (mem_groups_of_extensions extensions group).mp there
      exact ((mem_family_members extensions family extension).mp inGroup).1
    · exact inAll
  · intro inAll
    by_cases inFamily : ∃ family ∈ families, extension ∈ family.2
    · obtain ⟨family, known, isMember⟩ := inFamily
      have inRow := (mem_family_members extensions family extension).mpr ⟨inAll, isMember⟩
      refine .inl ⟨_, (mem_groups_of_extensions extensions _).mpr ⟨?_, family, known, rfl⟩, inRow⟩
      exact List.ne_nil_of_mem inRow
    · exact .inr ⟨inAll, by simpa using inFamily⟩

theorem listed_perm (once : extensions.Nodup) : (ofExtensions extensions).listed.Perm extensions :=
  (List.perm_ext_iff_of_nodup (listed_once once) once).mpr mem_listed

/-- Extensions in increasing order are shown as they should be. -/
theorem of_extensions_shows
    (increasing : extensions.Pairwise fun a b => Text.units a < Text.units b) :
    (ofExtensions extensions).ShowsOnce extensions := by
  have once : extensions.Nodup := by
    apply increasing.imp
    rintro a _ less rfl
    exact lt_irrefl _ less
  have perm := listed_perm once
  refine
    { complete := perm
      in_one_row := ?in_one_row
      named := ?named
      grouped := ?grouped
      only_grouped := ?only_grouped
      groups_increase := ?groups_increase
      others_increase := ?others_increase
      others_filled := rows_of_filled 5 _
      counted := perm.length_eq.symm }
  case in_one_row =>
    intro extension inAll
    exact row_unique (listed_once once) ((mem_listed extension).mpr inAll)
  case named =>
    have kept : ((ofExtensions extensions).groups).Sublist
        (families.map fun family => (family.1, familyMembers extensions family)) := List.filter_sublist
    have names := kept.map Prod.fst
    rwa [List.map_map] at names
  case grouped =>
    intro group there
    obtain ⟨filled, family, known, rfl⟩ := (mem_groups_of_extensions extensions group).mp there
    refine ⟨filled, family, known, rfl, ?_⟩
    intro extension inGroup
    exact ((mem_family_members extensions family extension).mp inGroup).2
  case only_grouped =>
    intro family known extension isMember
    constructor
    · intro group there inGroup
      obtain ⟨-, second, secondKnown, rfl⟩ := (mem_groups_of_extensions extensions group).mp there
      have inSecond := ((mem_family_members extensions second extension).mp inGroup).2
      by_contra different
      have apart : second ≠ family := fun same => different (by rw [same])
      have symmetric : Std.Symm fun family other : String × List String => family.2.Disjoint other.2 :=
        ⟨fun _ _ disjoint => disjoint.symm⟩
      exact families_apart.forall secondKnown known apart inSecond isMember
    · intro row isRow inRow
      have inOthers : extension ∈ otherExtensions extensions := by
        rw [← others_of_extensions]
        exact List.mem_flatten_of_mem isRow inRow
      exact ((mem_other_extensions extensions extension).mp inOthers).2 family known isMember
  case groups_increase =>
    intro group there
    obtain ⟨-, family, -, rfl⟩ := (mem_groups_of_extensions extensions group).mp there
    exact increasing.filter _
  case others_increase =>
    rw [others_of_extensions]
    exact increasing.filter _

end

end Listing

/-- Every extension of a file that is analyzed is shown once, in just the way in which that can be
done. -/
theorem extension_list_shows_all_once (registry : Registry) :
    ∃ listing : Listing, extensionList registry = listing.text ∧
      listing.ShowsOnce (analyzableExtensions registry) ∧
      (∀ other : Listing, other.ShowsOnce (analyzableExtensions registry) → other = listing) ∧
      (listing.total < 2 ^ 53 → bare listing.total = toString listing.total) := by
  have shown := Listing.of_extensions_shows (analyzable_increase registry)
  exact ⟨.ofExtensions (analyzableExtensions registry), (Listing.text_of_extensions _).symm, shown,
    fun other shownToo => shownToo.unique shown, bare_of_small⟩

/-- Seven languages of no family, one of which has an extension that looks like two. -/
def oddRegistry : Registry where
  byExtension := [(".py", "Python"), (".zig", "Zig"), (".go", "Go"), (".a, .b", "Odd"), (".rs", "Rust"),
    (".rb", "Ruby"), (".lua", "Lua"), (".sh", "Shell")]
  byLanguage := []

def oddListing : Listing where
  groups := [
    ("TypeScript / JavaScript", [".cjs", ".cts", ".js", ".jsx", ".mjs", ".mts", ".ts", ".tsx"]),
    ("Python", [".py"]),
    ("Markdown", [".markdown", ".md"])]
  others := [[".a, .b", ".go", ".lua", ".rb", ".rs", ".sh"], [".zig"]]
  total := 18

theorem odd_extensions : analyzableExtensions oddRegistry =
    [".a, .b", ".cjs", ".cts", ".go", ".js", ".jsx", ".lua", ".markdown", ".md", ".mjs", ".mts", ".py",
      ".rb", ".rs", ".sh", ".ts", ".tsx", ".zig"] := by
  have same : (Script.extensions ++ Markdown.extensions ++ oddRegistry.byExtension.map Prod.fst).Perm
      [".a, .b", ".cjs", ".cts", ".go", ".js", ".jsx", ".lua", ".markdown", ".md", ".mjs", ".mts", ".py",
        ".rb", ".rs", ".sh", ".ts", ".tsx", ".zig"] := by decide +kernel
  apply List.Pairwise.eq_of_mem_iff (analyzable_increase oddRegistry) (by decide +kernel)
  intro extension
  rw [mem_analyzable_iff, Registry.extensions, Text.mem_sort, ← same.mem_iff, List.mem_append,
    List.mem_append, or_assoc]

theorem odd_extensions_shown_once :
    oddListing.ShowsOnce (analyzableExtensions oddRegistry) ∧ oddListing.total < 2 ^ 53 ∧
      extensionList oddRegistry = oddListing.text ∧ bare oddListing.total = toString 18 := by
  have perm : oddListing.listed.Perm (analyzableExtensions oddRegistry) := by
    rw [odd_extensions]
    decide +kernel
  have once : oddListing.listed.Nodup := by decide +kernel
  have shown : oddListing.ShowsOnce (analyzableExtensions oddRegistry) :=
    { complete := perm
      in_one_row := fun extension inAll => row_unique once (perm.mem_iff.mpr inAll)
      named := by decide
      grouped := by decide
      only_grouped := by decide
      groups_increase := by decide +kernel
      others_increase := by decide +kernel
      others_filled := ⟨by decide, by rintro row ⟨⟩; decide⟩
      counted := by decide }
  have few : oddListing.total < 2 ^ 53 := by decide
  obtain ⟨listing, written, -, only, digits⟩ := extension_list_shows_all_once oddRegistry
  obtain rfl := only oddListing shown
  exact ⟨shown, few, written, digits few⟩

end LineCensus.Report
