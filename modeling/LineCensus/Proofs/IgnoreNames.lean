import LineCensus.Ignore
import LineCensus.Proofs.TextOrder
import LineCensus.Proofs.Trimming

/-!
Names of directories to leave out, as they are plainly written. A bare name means itself, whether it is
given as a pattern or stands on a line of an ignore file; so what is left out depends only on which
names there are, and not on where, in which order or how often they are given.
-/

namespace LineCensus

set_option autoImplicit false

namespace Ignore

/-! ### Plain names -/

/-- What no plain name holds: slashes of both kinds, and the signs of patterns. -/
def patternSigns : List Char := ['/', '\\', '*', '?', '[', ']', '\x7b', '\x7d', '!']

theorem mem_pattern_signs_iff (c : Char) : c ∈ patternSigns ↔ isSpecial c = true ∨ c = '\\' := by
  rw [isSpecial, List.contains_iff_mem]
  simp only [patternSigns, String.reduceToList, List.mem_cons, List.not_mem_nil, or_false]
  tauto

/-- Whether a name is one that a pattern can stand for: not empty, without blanks around it and without any
signs of patterns. -/
structure IsPlainName (name : String) : Prop where
  filled : name ≠ ""
  first_visible : ∀ c, name.toList.head? = some c → Text.isBlank c = false
  last_visible : ∀ c, name.toList.getLast? = some c → Text.isBlank c = false
  unsigned : ∀ c ∈ name.toList, c ∉ patternSigns

variable {name : String}

theorem IsPlainName.ne_nil (plain : IsPlainName name) : name.toList ≠ [] := by
  have filled := plain.filled
  simpa using filled

theorem IsPlainName.trimmed (plain : IsPlainName name) :
    Text.trimChars name.toList = name.toList :=
  Text.trim_chars_of_visible plain.first_visible plain.last_visible

theorem IsPlainName.no_slash (plain : IsPlainName name) : '/' ∉ name.toList :=
  fun member => plain.unsigned _ member (by decide)

theorem drop_slashes_behind_append {front : List Char}
    (last : ∀ c, front.getLast? = some c → c ≠ '/') (count : Nat) :
    dropSlashesBehind (front ++ List.replicate count '/') = front := by
  have slashes : ∀ c ∈ List.replicate count '/', (c == '/') = true := by simp
  rw [dropSlashesBehind, List.reverse_append, List.reverse_replicate,
    List.dropWhile_append_of_pos slashes]
  cases reversed : front.reverse with
  | nil => simpa using reversed.symm
  | cons c rest =>
      have atEnd : front.getLast? = some c := by
        rw [← List.head?_reverse, reversed]
        rfl
      rw [List.dropWhile_cons_of_neg (by simpa using last c atEnd), ← reversed,
        List.reverse_reverse]

section

variable {pattern : List Char} (noSlash : '/' ∉ pattern)

include noSlash

theorem drop_here_of_no_slash : dropHere pattern = pattern := by
  unfold dropHere
  split
  · exact absurd (List.mem_cons_of_mem _ List.mem_cons_self) noSlash
  · rfl

theorem drop_slash_of_no_slash : dropSlash pattern = pattern := by
  unfold dropSlash
  split
  · exact absurd List.mem_cons_self noSlash
  · rfl

theorem drop_anywhere_of_no_slash : dropAnywhere pattern = pattern := by
  unfold dropAnywhere
  split
  · exact absurd (by simp) noSlash
  · rfl

theorem drop_slashes_behind_of_no_slash : dropSlashesBehind pattern = pattern := by
  have last : ∀ c, pattern.getLast? = some c → c ≠ '/' :=
    fun c atEnd same => noSlash (same ▸ List.mem_of_getLast? atEnd)
  have dropped := drop_slashes_behind_append last 0
  rwa [List.replicate_zero, List.append_nil] at dropped

end

theorem unify_slashes_of_none {pattern : List Char} (noBackslash : '\\' ∉ pattern) :
    unifySlashes pattern = pattern := by
  have unchanged : ∀ c ∈ pattern, (if c == '\\' then '/' else c) = id c := by
    intro c member
    have different : (c == '\\') = false := by
      rw [beq_eq_false_iff_ne]
      exact fun same => noBackslash (same ▸ member)
    rw [different]
    rfl
  rw [unifySlashes, List.map_congr_left unchanged, List.map_id]

/-- As a pattern, what holds no signs reduces to what is left without the blanks around it, if anything
is. -/
theorem name_chars_of_unsigned {chars : List Char} (unsigned : ∀ c ∈ chars, c ∉ patternSigns) :
    nameChars chars = (some (Text.trimChars chars)).filter (!·.isEmpty) := by
  have inside : ∀ c ∈ Text.trimChars chars, c ∉ patternSigns := fun c member =>
    unsigned c ((Text.trim_chars_inside chars).subset member)
  have noSlash : '/' ∉ Text.trimChars chars := fun member => inside _ member (by decide)
  have noBackslash : '\\' ∉ Text.trimChars chars := fun member => inside _ member (by decide)
  have plain : (Text.trimChars chars).any isSpecial = false := by
    rw [List.any_eq_false]
    intro c member special
    exact inside c member ((mem_pattern_signs_iff c).mpr (.inl special))
  have normal : normalize chars = Text.trimChars chars := by
    rw [normalize, unify_slashes_of_none noBackslash, drop_here_of_no_slash noSlash,
      drop_slash_of_no_slash noSlash, Text.trim_chars_twice]
  rw [nameChars, normal, drop_slashes_behind_of_no_slash noSlash,
    drop_anywhere_of_no_slash noSlash, Option.filter_some]
  simp only [plain, Bool.or_false]
  cases (Text.trimChars chars).isEmpty <;> rfl

/-- A plain name is the name that it reduces to as a pattern. -/
theorem name_chars_of_plain (plain : IsPlainName name) :
    nameChars name.toList = some name.toList := by
  have filled : name.toList.isEmpty = false := List.isEmpty_eq_false_iff.mpr plain.ne_nil
  rw [name_chars_of_unsigned plain.unsigned, plain.trimmed, Option.filter_some, filled]
  rfl

theorem name_of_plain (plain : IsPlainName name) : nameOf name = some name := by
  rw [nameOf, name_chars_of_plain plain, Option.map_some, String.ofList_toList]

/-! ### Bare names -/

/-- What no bare name holds: slashes of both kinds, line breaks, and the signs of patterns. -/
def signs : List Char := ['/', '\\', '\n', '\r', '*', '?', '[', ']', '\x7b', '\x7d', '!']

/-- Whether a name is as plain as can be. -/
structure IsBare (name : String) : Prop where
  filled : name ≠ ""
  first_visible : ∀ c, name.toList.head? = some c → Text.isBlank c = false
  last_visible : ∀ c, name.toList.getLast? = some c → Text.isBlank c = false
  no_remark : name.toList.head? ≠ some '#'
  plain : ∀ c ∈ name.toList, c ∉ signs

-- Characters are gone through in the name only, and not one after another as all that there are.
instance (name : String) : Decidable (IsBare name) :=
  decidable_of_iff (name ≠ "" ∧ name.toList.head?.all (!Text.isBlank ·) = true ∧
      name.toList.getLast?.all (!Text.isBlank ·) = true ∧ name.toList.head? ≠ some '#' ∧
      name.toList.all (!signs.contains ·) = true)
    ⟨fun parts => {
        filled := parts.1
        first_visible := by simpa [Option.all_eq_true] using parts.2.1
        last_visible := by simpa [Option.all_eq_true] using parts.2.2.1
        no_remark := parts.2.2.2.1
        plain := by simpa using parts.2.2.2.2 },
      fun bare => ⟨bare.filled, by simpa [Option.all_eq_true] using bare.first_visible,
        by simpa [Option.all_eq_true] using bare.last_visible, bare.no_remark,
        by simpa using bare.plain⟩⟩

theorem IsBare.is_plain_name (bare : IsBare name) : IsPlainName name where
  filled := bare.filled
  first_visible := bare.first_visible
  last_visible := bare.last_visible
  unsigned := by
    intro c member sign
    have among : ∀ d ∈ patternSigns, d ∈ signs := by simp [patternSigns, signs]
    exact bare.plain c member (among c sign)

/-- Names all stay if each of them is reduced to itself. -/
theorem filter_map_of_kept {names : List String} {reduce : String → Option String}
    (keeps : ∀ name ∈ names, reduce name = some name) : names.filterMap reduce = names :=
  (List.filterMap_congr keeps).trans List.filterMap_some

/-! ### Ignore files -/

/-- Whether a text lists names, each on a line of its own, blanks around it not counted; lines of
blanks and lines that begin with a hash may stand between them. -/
def Lists (text : String) (names : List String) : Prop :=
  ((text.toList.splitOn '\n').map Text.trimChars).filter
    (fun line => !line.isEmpty && line.head? != some '#') = names.map String.toList

instance (text : String) (names : List String) : Decidable (Lists text names) :=
  inferInstanceAs (Decidable (_ = _))

/-- Whether a file that need not be there lists names. -/
def ListedIn (file : Option String) (names : List String) : Prop :=
  match file with
  | some text => Lists text names
  | none => names = []

theorem modify_head_nil (lines : List (List Char)) :
    lines.modifyHead (([] : List Char).reverse ++ ·) = lines := by
  cases lines <;> rfl

/-- Apart from blanks around them, the lines of an ignore file are what stands between its line feeds. -/
theorem trimmed_file_lines (line chars : List Char) :
    (fileLines line chars).map Text.trimChars =
      ((chars.splitOn '\n').modifyHead (line.reverse ++ ·)).map Text.trimChars := by
  fun_induction fileLines line chars with
  | case1 line => simp
  | case2 line rest ih =>
      -- The carriage return is left at the end of the line and is a blank there.
      have lines : ('\r' :: '\n' :: rest).splitOn '\n' = ['\r'] :: rest.splitOn '\n' := by
        simp [List.splitOn, List.splitOnP_cons_eq_if_modifyHead]
      have cut := Text.trim_chars_concat_blank line.reverse (show Text.isBlank '\r' = true by decide)
      rw [lines, List.modifyHead_cons, List.map_cons, List.map_cons, cut, ih, modify_head_nil]
  | case3 line c rest notReturn isFeed ih =>
      rw [List.splitOn, List.splitOnP_cons_eq_if_modifyHead, if_pos isFeed, List.modifyHead_cons,
        List.map_cons, List.map_cons, List.append_nil, ih, modify_head_nil]
      rfl
  | case4 line c rest notReturn notFeed ih =>
      rw [List.splitOn, List.splitOnP_cons_eq_if_modifyHead, if_neg notFeed,
        List.modifyHead_modifyHead, ih, List.reverse_cons]
      simp [Function.comp_def, List.splitOn]

def ofTrimmed (line : List Char) : Option String :=
  if line.isEmpty || line.head? == some '#' then none else (nameChars line).map String.ofList

theorem parse_eq (text : String) :
    parse text = ((text.toList.splitOn '\n').map Text.trimChars).filterMap ofTrimmed := by
  have lines := trimmed_file_lines [] text.toList
  rw [modify_head_nil] at lines
  rw [← lines, List.filterMap_map]
  rfl

theorem of_trimmed_of_bare (bare : IsBare name) : ofTrimmed name.toList = some name := by
  have filled : name.toList.isEmpty = false := List.isEmpty_eq_false_iff.mpr bare.is_plain_name.ne_nil
  have noRemark : (name.toList.head? == some '#') = false :=
    beq_eq_false_iff_ne.mpr bare.no_remark
  rw [ofTrimmed, filled, noRemark, name_chars_of_plain bare.is_plain_name]
  simp

theorem parse_of_lists {text : String} {names : List String} (lists : Lists text names)
    (bare : ∀ name ∈ names, IsBare name) : parse text = names := by
  have counted (lines : List (List Char)) : lines.filterMap ofTrimmed =
      (lines.filter fun line => !line.isEmpty && line.head? != some '#').filterMap ofTrimmed := by
    rw [List.filterMap_filter]
    congr 1
    funext line
    rw [ofTrimmed]
    cases empty : line.isEmpty <;> cases remark : line.head? == some '#' <;> simp [remark, bne]
  rw [parse_eq, counted, lists, List.filterMap_map]
  apply filter_map_of_kept
  intro name member
  exact of_trimmed_of_bare (bare name member)

/-! ### Names to leave out -/

theorem mem_collect_iff {names : List String} (bare : ∀ name ∈ names, IsBare name) :
    name ∈ collect names ↔ name ∈ names := by
  have trimmed : (names.map Text.trim).filter (!·.isEmpty) = names := by
    have unchanged : ∀ name ∈ names, Text.trim name = id name := by
      intro name member
      exact (Text.trim_eq_iff name).mpr (bare name member).is_plain_name.trimmed
    rw [List.map_congr_left unchanged, List.map_id, List.filter_eq_self]
    intro name member
    have filled := (bare name member).filled
    simpa using filled
  rw [collect, Text.mem_distinct, trimmed]

/-- From an ignore file and from patterns together come the bare names that they give. -/
theorem mem_names_iff {file : Option String} {listed extra : List String}
    (inFile : ListedIn file listed) (bare : ∀ name ∈ listed ++ extra, IsBare name) :
    name ∈ names file extra ↔ name ∈ listed ++ extra := by
  have fromFile : (file.map parse).getD [] = listed := by
    cases file with
    | none => exact inFile.symm
    | some text =>
        exact parse_of_lists inFile fun name member => bare name (List.mem_append_left _ member)
  have fromExtra : extra.filterMap nameOf = extra :=
    filter_map_of_kept fun name member =>
      name_of_plain (bare name (List.mem_append_right _ member)).is_plain_name
  rw [names, fromFile, fromExtra, mem_collect_iff bare]

theorem skips_congr {first second : List String}
    (same : ∀ name, name ∈ first ↔ name ∈ second) : skips first = skips second := by
  funext name
  have contained : first.contains name = second.contains name := by
    rw [Bool.eq_iff_iff, List.contains_iff_mem, List.contains_iff_mem]
    exact same name
  rw [skips, skips, contained]

theorem skips_of_mem {names : List String} (member : name ∈ names) : skips names name = true := by
  have contained : names.contains name = true := List.contains_iff_mem.mpr member
  rw [skips, contained]
  simp

end Ignore

end LineCensus
