import LineCensus.Proofs.Keyed
import LineCensus.Proofs.NumberText
import Mathlib

/-!
JSON in writing is read back, on one line or indented. The writing of a value is read up to its end,
whatever follows, as long as what follows cannot belong to a number. Texts in quotes, items and fields are
each shown to be read that way, and from them the whole value, by induction over its parts.
-/

namespace LineCensus

set_option autoImplicit false

open Numeric

namespace Json

/-! ### Values in writing -/

mutual

/-- What the writing of a value says: numbers that are not finite are missing, and zero has no sign. -/
def asWritten : Json → Json
  | number n => if n.isFinite then number (if n.isZero then Binary64.zero false else n) else null
  | array items => array (itemsAsWritten items)
  | object fields => object (fieldsAsWritten fields)
  | value => value

def itemsAsWritten : List Json → List Json
  | [] => []
  | item :: rest => item.asWritten :: itemsAsWritten rest

def fieldsAsWritten : List (String × Json) → List (String × Json)
  | [] => []
  | (name, value) :: rest => (name, value.asWritten) :: fieldsAsWritten rest

end

theorem items_as_written_eq (items : List Json) : itemsAsWritten items = items.map asWritten := by
  induction items with
  | nil => rfl
  | cons item rest ih => rw [itemsAsWritten, ih, List.map_cons]

theorem fields_as_written_eq (fields : List (String × Json)) :
    fieldsAsWritten fields = fields.map fun field => (field.1, field.2.asWritten) := by
  induction fields with
  | nil => rfl
  | cons field rest ih => rw [fieldsAsWritten, ih, List.map_cons]

/-- Whether the numbers in a value are proper ones and the fields of its objects have different names and
their order. -/
inductive IsProper : Json → Prop where
  | null : IsProper null
  | bool (value : Bool) : IsProper (bool value)
  | number {n : Binary64} (proper : n.IsProper) : IsProper (number n)
  | string (text : String) : IsProper (string text)
  | array {items : List Json} (members : ∀ item ∈ items, IsProper item) : IsProper (array items)
  | object {fields : List (String × Json)} (distinct : (fields.map Prod.fst).Nodup)
      (ordered : fields.Pairwise fun a b => fieldPrecedes a b = true)
      (members : ∀ field ∈ fields, IsProper field.2) : IsProper (object fields)

/-! ### White space -/

def IsSpaces (spaces : List Char) : Prop := ∀ c ∈ spaces, isSpace c = true

theorem skip_spaces {spaces : List Char} (blank : IsSpaces spaces) (chars : List Char) :
    skipSpace (spaces ++ chars) = skipSpace chars :=
  List.dropWhile_append_of_pos blank

theorem skip_space_of_start {first : Char} (solid : isSpace first = false) (chars : List Char) :
    skipSpace (first :: chars) = first :: chars :=
  List.dropWhile_cons_of_neg (Bool.eq_false_iff.mp solid)

theorem skip_spaces_before {spaces : List Char} (blank : IsSpaces spaces) {first : Char}
    (solid : isSpace first = false) (chars : List Char) :
    skipSpace (spaces ++ first :: chars) = first :: chars := by
  rw [skip_spaces blank, skip_space_of_start solid]

theorem read_value_behind_spaces {spaces : List Char} (blank : IsSpaces spaces) (bound : Nat)
    (chars : List Char) : readValue bound (spaces ++ chars) = readValue bound chars := by
  cases bound with
  | zero => rfl
  | succ bound => rw [readValue, readValue, skip_spaces blank]

theorem ends_number_of_start {first : Char} (isDigit : isDigit first = false)
    (isMark : first ≠ '.' ∧ first ≠ 'e' ∧ first ≠ 'E') (rest : List Char) :
    EndsNumber (first :: rest) := by
  rintro c ⟨⟩
  exact ⟨isDigit, isMark⟩

/-- No number goes on behind white space. -/
theorem ends_number_of_spaces {spaces rest : List Char} (blank : IsSpaces spaces)
    (ends : EndsNumber rest) : EndsNumber (spaces ++ rest) := by
  cases spaces with
  | nil => exact ends
  | cons first spaces =>
      have space := blank first List.mem_cons_self
      simp only [isSpace, Bool.or_eq_true, beq_iff_eq] at space
      rcases space with ((rfl | rfl) | rfl) | rfl <;>
        exact ends_number_of_start rfl (by decide) _

/-! ### Texts -/

theorem hex_value_of_digit {n : Nat} (digit : n < 16) : hexValue (hexDigit n) = some n := by
  interval_cases n <;> rfl

theorem read_unit_of_control {c : Char} (control : c.toNat < 0x20) (rest : List Char) :
    readUnit ('0' :: '0' :: hexDigit (c.toNat / 16) :: hexDigit (c.toNat % 16) :: rest) =
      some (c.toNat, rest) := by
  have value : c.toNat / 16 * 16 + c.toNat % 16 = c.toNat := Nat.div_add_mod' c.toNat 16
  have zero : hexValue '0' = some 0 := rfl
  rw [readUnit, zero, hex_value_of_digit (by omega), hex_value_of_digit (by omega)]
  simp [value]

theorem read_unit_escape_of_control {c : Char} (control : c.toNat < 0x20) (rest : List Char) :
    readUnitEscape
        ('0' :: '0' :: hexDigit (c.toNat / 16) :: hexDigit (c.toNat % 16) :: rest) =
      some (c, rest) := by
  have lead : isLeadUnit c.toNat = false := by
    rw [isLeadUnit, Bool.and_eq_false_iff]
    exact .inl (decide_eq_false (by omega))
  have trail : isTrailUnit c.toNat = false := by
    rw [isTrailUnit, Bool.and_eq_false_iff]
    exact .inl (decide_eq_false (by omega))
  rw [readUnitEscape, read_unit_of_control control]
  simp [lead, trail]

/-- What stands for a character inside quotes is read as that character. -/
theorem read_text_escape (bound : Nat) (done : List Char) (c : Char) (rest : List Char) :
    readTextFrom (bound + 1) done (escape c ++ rest) = readTextFrom bound (c :: done) rest := by
  by_cases named : c ∈ ['"', '\\', '\n', '\r', '\t', '\x08', '\x0c']
  · fin_cases named <;> rfl
  · simp only [List.mem_cons, List.not_mem_nil, or_false, not_or] at named
    obtain ⟨quote, backslash, newLine, returned, tab, back, feed⟩ := named
    by_cases control : c.toNat < 0x20
    · have escaped : escape c = ['\\', 'u', '0', '0', hexDigit (c.toNat / 16),
          hexDigit (c.toNat % 16)] := by
        simp [escape, quote, backslash, newLine, returned, tab, back, feed, control]
      rw [escaped]
      simp [readTextFrom, readEscape, read_unit_escape_of_control control]
    · have itself : escape c = [c] := by
        simp [escape, quote, backslash, newLine, returned, tab, back, feed, control]
      rw [itself]
      simp [readTextFrom, quote, backslash, control]

theorem read_text_quoted (chars rest : List Char) {bound : Nat} (enough : chars.length < bound)
    (done : List Char) :
    readTextFrom bound done (chars.flatMap escape ++ '"' :: rest) =
      some (String.ofList (done.reverse ++ chars), rest) := by
  induction chars generalizing bound done with
  | nil =>
      obtain ⟨bound, rfl⟩ := Nat.exists_eq_succ_of_ne_zero (Nat.ne_zero_of_lt enough)
      simp [readTextFrom]
  | cons c chars ih =>
      obtain ⟨bound, rfl⟩ := Nat.exists_eq_succ_of_ne_zero (Nat.ne_zero_of_lt enough)
      rw [List.flatMap_cons, List.append_assoc, read_text_escape,
        ih (Nat.lt_of_succ_lt_succ enough), List.reverse_cons, List.append_assoc,
        List.singleton_append]

theorem length_le_escaped (chars : List Char) : chars.length ≤ (chars.flatMap escape).length := by
  induction chars with
  | nil => exact Nat.le_refl _
  | cons c chars ih =>
      have some : 1 ≤ (escape c).length := by
        rw [escape]
        repeat' split
        all_goals simp
      rw [List.flatMap_cons, List.length_append, List.length_cons]
      omega

/-! ### Members -/

/-- Whether some text is read as a value, whatever follows it. -/
def IsReadAs (chars : List Char) (value : Json) : Prop :=
  ∀ bound rest, 2 * chars.length < bound → EndsNumber rest →
    readValue bound (chars ++ rest) = some (value, rest)

theorem IsReadAs.behind_spaces {spaces chars : List Char} {value : Json} (blank : IsSpaces spaces)
    (read : IsReadAs chars value) : IsReadAs (spaces ++ chars) value := by
  intro bound rest enough ends
  rw [List.length_append] at enough
  rw [List.append_assoc, read_value_behind_spaces blank]
  exact read bound rest (by omega) ends

inductive IsReadAsField : List Char → String × Json → Prop where
  | intro {before chars : List Char} {name : String} {value : Json} (blank : IsSpaces before)
      (read : IsReadAs chars value) :
      IsReadAsField (before ++ '"' :: (name.toList.flatMap escape ++ '"' :: ':' :: chars)) (name, value)

/-- Reading members one by one: each is read, and what follows it is a comma, if there is another one, or
the closing bracket. -/
theorem read_members {Member : Type} {read : Nat → List Member → List Char → Option (Json × List Char)}
    {IsRead : List Char → Member → Prop} {closer : Char} {finish : List Member → Json}
    (isClosing : isDigit closer = false ∧ closer ≠ '.' ∧ closer ≠ 'e' ∧ closer ≠ 'E')
    (next : ∀ {chars member}, IsRead chars member → ∀ bound done rest, 2 * chars.length < bound →
      EndsNumber (',' :: rest) →
      read (bound + 1) done (chars ++ ',' :: rest) = read bound (member :: done) rest)
    (last : ∀ {chars member}, IsRead chars member → ∀ bound done spaces rest, 2 * chars.length < bound →
      IsSpaces spaces → EndsNumber (spaces ++ closer :: rest) →
      read (bound + 1) done (chars ++ (spaces ++ closer :: rest)) =
        some (finish (member :: done).reverse, rest))
    {texts : List (List Char)} {members : List Member} (isRead : List.Forall₂ IsRead texts members)
    (filled : texts ≠ []) {spaces : List Char} (blank : IsSpaces spaces) (rest : List Char)
    {bound : Nat} (enough : 2 * ([','].intercalate texts).length + 1 < bound) (done : List Member) :
    read bound done ([','].intercalate texts ++ (spaces ++ closer :: rest)) =
      some (finish (done.reverse ++ members), rest) := by
  induction isRead generalizing bound done with
  | nil => exact absurd rfl filled
  | @cons chars member texts members first others ih =>
      obtain ⟨bound, rfl⟩ := Nat.exists_eq_succ_of_ne_zero (Nat.ne_zero_of_lt enough)
      cases others with
      | nil =>
          rw [List.intercalate_singleton] at enough ⊢
          rw [last first bound done spaces rest (by omega) blank, List.reverse_cons]
          exact ends_number_of_spaces blank (ends_number_of_start isClosing.1 isClosing.2 rest)
      | cons second others =>
          rw [List.intercalate_cons_cons] at enough ⊢
          simp only [List.length_append, List.length_singleton] at enough
          rw [List.append_assoc, List.append_assoc, List.singleton_append,
            next first bound done _ (by omega) (ends_number_of_start rfl (by decide) _),
            ih (List.cons_ne_nil _ _) (by omega), List.reverse_cons, List.append_assoc,
            List.singleton_append]

theorem read_items_joined {texts : List (List Char)} {items : List Json}
    (isRead : List.Forall₂ IsReadAs texts items) (filled : texts ≠ []) {spaces : List Char}
    (blank : IsSpaces spaces) (rest : List Char) {bound : Nat}
    (enough : 2 * ([','].intercalate texts).length + 1 < bound) :
    readItems bound [] ([','].intercalate texts ++ (spaces ++ ']' :: rest)) =
      some (array items, rest) := by
  refine read_members (by decide) ?next ?last isRead filled blank rest enough []
  case next =>
    intro chars item read bound done rest enough ends
    simp [readItems, read bound _ enough ends, skipSpace, isSpace]
  case last =>
    intro chars item read bound done spaces rest enough blank ends
    have closing := skip_spaces_before blank (show isSpace ']' = false from rfl) rest
    simp [readItems, read bound _ enough ends, closing]

theorem read_field {chars : List Char} {field : String × Json} (isRead : IsReadAsField chars field)
    (bound : Nat) (done : List (String × Json)) {rest : List Char} (enough : 2 * chars.length < bound)
    (ends : EndsNumber rest) :
    readFields (bound + 1) done (chars ++ rest) =
      match skipSpace rest with
      | ',' :: rest => readFields bound (field :: done) rest
      | '}' :: rest => some (ofFields (field :: done).reverse, rest)
      | _ => none := by
  obtain @⟨before, chars, name, value, blank, read⟩ := isRead
  simp only [List.length_append, List.length_cons] at enough
  have shorter := length_le_escaped name.toList
  have opening := skip_spaces_before blank (show isSpace '"' = false from rfl)
    (name.toList.flatMap escape ++ '"' :: ':' :: (chars ++ rest))
  have nameShort : name.toList.length < bound := by omega
  have nameRead := read_text_quoted name.toList (':' :: (chars ++ rest)) nameShort []
  have colon := skip_space_of_start (show isSpace ':' = false from rfl) (chars ++ rest)
  have valueRead := read bound rest (by omega) ends
  rw [readFields]
  simp only [List.append_assoc, List.cons_append, opening, nameRead, colon, valueRead,
    Option.bind_eq_bind, Option.bind_some, List.reverse_nil, List.nil_append, String.ofList_toList]
  rfl

theorem read_fields_joined {texts : List (List Char)} {fields : List (String × Json)}
    (isRead : List.Forall₂ IsReadAsField texts fields) (filled : texts ≠ []) {spaces : List Char}
    (blank : IsSpaces spaces) (rest : List Char) {bound : Nat}
    (enough : 2 * ([','].intercalate texts).length + 1 < bound) :
    readFields bound [] ([','].intercalate texts ++ (spaces ++ '}' :: rest)) =
      some (ofFields fields, rest) := by
  refine read_members (by decide) ?next ?last isRead filled blank rest enough []
  case next =>
    intro chars field isRead bound done rest enough ends
    rw [read_field isRead bound done enough ends]
    rfl
  case last =>
    intro chars field isRead bound done spaces rest enough blank ends
    rw [read_field isRead bound done enough ends,
      skip_spaces_before blank (show isSpace '}' = false from rfl)]
    rfl

/-! ### Fields -/

/-- Fields that have different names and their order are an object as they are. -/
theorem of_fields_of_ordered {fields : List (String × Json)}
    (distinct : (fields.map Prod.fst).Nodup)
    (ordered : fields.Pairwise fun a b => fieldPrecedes a b = true) :
    ofFields fields = object fields := by
  rw [ofFields, Keyed.of_list_of_distinct distinct, List.mergeSort_of_pairwise ordered]

theorem of_fields_as_written {fields : List (String × Json)}
    (distinct : (fields.map Prod.fst).Nodup)
    (ordered : fields.Pairwise fun a b => fieldPrecedes a b = true) :
    ofFields (fieldsAsWritten fields) = object (fieldsAsWritten fields) := by
  rw [fields_as_written_eq]
  apply of_fields_of_ordered
  · rwa [List.map_map]
  · rwa [List.pairwise_map]

/-! ### Whole values -/

/-- What is read as a number begins like one. -/
theorem start_of_number {chars : List Char} {result : Json × List Char}
    (read : readNumber chars = some result) :
    ∃ first behind, chars = first :: behind ∧ (first = '-' ∨ isDigit first = true) := by
  cases chars with
  | nil => cases read
  | cons first behind =>
      refine ⟨first, behind, rfl, ?_⟩
      by_contra neither
      rw [not_or, Bool.not_eq_true] at neither
      have none : readWhole (first :: behind) = none := by
        rw [readWhole.eq_def]
        split
        case h_1 same =>
          cases same
          cases neither.2
        case h_2 => rw [readDigits, List.takeWhile_cons, neither.2]; rfl
      rw [readNumber.eq_def] at read
      split at read
      case _ same =>
        split at same
        case h_1 more dash => exact neither.1 (List.cons.inj dash).1
        case h_2 =>
          cases same
          simp [none] at read

theorem read_value_of_number {chars : List Char} {result : Json × List Char}
    (read : readNumber chars = some result) (bound : Nat) :
    readValue (bound + 1) chars = some result := by
  obtain ⟨first, behind, rfl, start⟩ := start_of_number read
  rcases start with rfl | digit
  · exact read
  · have solid : isSpace first = false := by
      rw [Bool.eq_false_iff]
      intro space
      simp only [isSpace, Bool.or_eq_true, beq_iff_eq] at space
      rcases space with ((rfl | rfl) | rfl) | rfl <;> cases digit
    rw [readValue, skip_space_of_start solid]
    split
    case h_7 => exact read
    all_goals
      rename_i same
      cases same
      cases digit

theorem read_value_of_items {bound : Nat} {chars : List Char} {result : Json × List Char}
    (read : readItems bound [] chars = some result) :
    readValue (bound + 1) ('[' :: chars) = some result := by
  rw [readValue, skip_space_of_start rfl]
  simp only
  split
  case h_1 rest closed =>
    cases bound with
    | zero => cases read
    | succ bound =>
        have nothing : readValue bound chars = none := by
          cases bound with
          | zero => rfl
          | succ bound =>
              rw [readValue, closed]
              rfl
        rw [readItems, nothing] at read
        cases read
  case h_2 => exact read

theorem read_value_of_fields {bound : Nat} {chars : List Char} {result : Json × List Char}
    (read : readFields bound [] chars = some result) :
    readValue (bound + 1) ('{' :: chars) = some result := by
  rw [readValue, skip_space_of_start rfl]
  simp only
  split
  case h_1 rest closed =>
    cases bound with
    | zero => cases read
    | succ bound =>
        rw [readFields, closed] at read
        cases read
  case h_2 => exact read

theorem read_value_of_text (text : String) : IsReadAs (quote text).toList (string text) := by
  intro bound rest enough ends
  obtain ⟨bound, rfl⟩ := Nat.exists_eq_succ_of_ne_zero (Nat.ne_zero_of_lt enough)
  have shorter := length_le_escaped text.toList
  simp only [quote, String.toList_ofList, List.cons_append, List.length_cons, List.length_append] at enough
  have short : text.toList.length < bound := by omega
  have read := read_text_quoted text.toList rest short []
  rw [List.reverse_nil, List.nil_append, String.ofList_toList] at read
  have opened : (quote text).toList ++ rest =
      '"' :: (text.toList.flatMap escape ++ '"' :: rest) := by
    simp [quote]
  rw [opened, readValue, skip_space_of_start rfl]
  simp only [read, Option.map_some]

theorem after_word_append (word : String) (rest : List Char) :
    afterWord word (word.toList ++ rest) = some rest := by
  rw [afterWord, if_pos (List.isPrefixOf_iff_prefix.mpr (List.prefix_append _ _)), List.drop_left]

theorem read_null : IsReadAs "null".toList null := by
  intro bound rest enough ends
  obtain ⟨bound, rfl⟩ := Nat.exists_eq_succ_of_ne_zero (Nat.ne_zero_of_lt enough)
  exact congrArg (Option.map _) (after_word_append "ull" rest)

theorem read_true : IsReadAs "true".toList (bool true) := by
  intro bound rest enough ends
  obtain ⟨bound, rfl⟩ := Nat.exists_eq_succ_of_ne_zero (Nat.ne_zero_of_lt enough)
  exact congrArg (Option.map _) (after_word_append "rue" rest)

theorem read_false : IsReadAs "false".toList (bool false) := by
  intro bound rest enough ends
  obtain ⟨bound, rfl⟩ := Nat.exists_eq_succ_of_ne_zero (Nat.ne_zero_of_lt enough)
  exact congrArg (Option.map _) (after_word_append "alse" rest)

theorem read_rendered_number {n : Binary64} (proper : n.IsProper) :
    IsReadAs (renderNumber n).toList (number n).asWritten := by
  cases n with
  | nan => exact read_null
  | infinite negative => exact read_null
  | finite negative significand exponent =>
      intro bound rest enough ends
      obtain ⟨bound, rfl⟩ := Nat.exists_eq_succ_of_ne_zero (Nat.ne_zero_of_lt enough)
      apply read_value_of_number
      rcases Nat.eq_zero_or_pos significand with rfl | something
      · have written : renderNumber (.finite negative 0 exponent) = "0" := rfl
        have value : (number (.finite negative 0 exponent)).asWritten =
            number (Binary64.zero false) := by
          simp [asWritten, Binary64.isFinite, Binary64.isZero]
        rw [written, value]
        exact read_number_zero ends
      · have itself : (number (.finite negative significand exponent)).asWritten =
            number (.finite negative significand exponent) := by
          simp [asWritten, Binary64.isFinite, Binary64.isZero, something.ne']
        rw [itself]
        exact read_number_render negative proper something ends

/-! ### Layouts -/

/-- Layouts in which nothing but white space stands around members. -/
structure Layout.IsSpaced (layout : Layout) : Prop where
  beforeMember : ∀ depth, IsSpaces (layout.beforeMember depth).toList
  beforeClosing : ∀ depth, IsSpaces (layout.beforeClosing depth).toList
  afterName : ∃ spaces, layout.afterName.toList = ':' :: spaces ∧ IsSpaces spaces

theorem new_line_is_spaces (depth : Nat) : IsSpaces (newLine depth).toList := by
  intro c member
  rw [newLine, String.toList_append, List.mem_append] at member
  rcases member with first | blank
  · rw [List.mem_singleton.mp first]
    rfl
  · rw [String.toList_ofList] at blank
    rw [List.eq_of_mem_replicate blank]
    rfl

theorem indented_spaced : Layout.indented.IsSpaced :=
  ⟨fun depth => new_line_is_spaces (depth + 1), new_line_is_spaces, [' '], rfl,
    List.forall_mem_singleton.mpr rfl⟩

theorem render_items_eq (layout : Layout) (depth : Nat) (items : List Json) :
    renderItems layout depth items = items.map (renderAt layout depth) := by
  induction items with
  | nil => rfl
  | cons item rest ih => rw [renderItems, ih, List.map_cons]

theorem render_fields_eq (layout : Layout) (depth : Nat) (fields : List (String × Json)) :
    renderFields layout depth fields =
      fields.map fun field => quote field.1 ++ layout.afterName ++ renderAt layout depth field.2 := by
  induction fields with
  | nil => rfl
  | cons field rest ih => rw [renderFields, ih, List.map_cons]

theorem enclose_of_filled (layout : Layout) (depth : Nat) (opener closer : String)
    {members : List String} (filled : members ≠ []) :
    (layout.enclose depth opener closer members).toList =
      opener.toList ++
        ([','].intercalate
            (members.map fun member => (layout.beforeMember depth).toList ++ member.toList) ++
          ((layout.beforeClosing depth).toList ++ closer.toList)) := by
  have texts : (members.map (layout.beforeMember depth ++ ·)).map String.toList =
      members.map fun member => (layout.beforeMember depth).toList ++ member.toList := by
    rw [List.map_map]
    exact List.map_congr_left fun member _ => String.toList_append
  rw [Layout.enclose, if_neg (by simpa using filled)]
  simp only [String.toList_append, String.toList_intercalate, texts, List.append_assoc]
  rfl

section

variable {layout : Layout} (spaced : layout.IsSpaced) {depth : Nat}

include spaced

theorem read_rendered_items {items : List Json}
    (read : ∀ item ∈ items, IsReadAs (renderAt layout (depth + 1) item).toList item.asWritten) :
    IsReadAs (renderAt layout depth (array items)).toList (array items).asWritten := by
  intro bound rest enough ends
  obtain ⟨bound, rfl⟩ := Nat.exists_eq_succ_of_ne_zero (Nat.ne_zero_of_lt enough)
  rw [renderAt, render_items_eq] at enough ⊢
  by_cases empty : items = []
  · have opened : (layout.enclose depth "[" "]" (items.map (renderAt layout (depth + 1)))).toList =
        ['[', ']'] := by
      rw [empty, List.map_nil, Layout.enclose, if_pos List.isEmpty_nil]
      rfl
    rw [opened, empty, asWritten]
    rfl
  · have isRead : List.Forall₂ IsReadAs
        ((items.map (renderAt layout (depth + 1))).map fun member =>
          (layout.beforeMember depth).toList ++ member.toList)
        (items.map asWritten) := by
      rw [List.map_map, List.forall₂_map_left_iff, List.forall₂_map_right_iff, List.forall₂_same]
      exact fun item member => (read item member).behind_spaces (spaced.beforeMember depth)
    have brackets : "[".toList = ['['] ∧ "]".toList = [']'] := ⟨rfl, rfl⟩
    rw [enclose_of_filled layout depth "[" "]" (by simpa using empty), brackets.1, brackets.2]
      at enough ⊢
    simp only [List.length_append, List.length_singleton] at enough
    have joined := read_items_joined isRead (by simpa using empty) (spaced.beforeClosing depth) rest
      (show _ < bound by omega)
    rw [asWritten, items_as_written_eq]
    rw [List.append_assoc, List.append_assoc, List.append_assoc]
    exact read_value_of_items joined

theorem read_rendered_fields {fields : List (String × Json)}
    (distinct : (fields.map Prod.fst).Nodup)
    (ordered : fields.Pairwise fun a b => fieldPrecedes a b = true)
    (read : ∀ field ∈ fields,
      IsReadAs (renderAt layout (depth + 1) field.2).toList field.2.asWritten) :
    IsReadAs (renderAt layout depth (object fields)).toList (object fields).asWritten := by
  intro bound rest enough ends
  obtain ⟨bound, rfl⟩ := Nat.exists_eq_succ_of_ne_zero (Nat.ne_zero_of_lt enough)
  rw [renderAt, render_fields_eq] at enough ⊢
  rw [asWritten]
  generalize shown : (fun field : String × Json =>
    quote field.1 ++ layout.afterName ++ renderAt layout (depth + 1) field.2) = write at enough ⊢
  by_cases empty : fields = []
  · have opened : (layout.enclose depth "\x7b" "\x7d" (fields.map write)).toList = ['{', '}'] := by
      rw [empty, List.map_nil, Layout.enclose, if_pos List.isEmpty_nil]
      rfl
    rw [opened, empty]
    rfl
  · have isRead : List.Forall₂ IsReadAsField
        ((fields.map write).map fun member =>
          (layout.beforeMember depth).toList ++ member.toList)
        (fields.map fun field => (field.1, field.2.asWritten)) := by
      rw [List.map_map, List.forall₂_map_left_iff, List.forall₂_map_right_iff, List.forall₂_same]
      intro field member
      obtain ⟨spaces, colon, blank⟩ := spaced.afterName
      have written : (write field).toList = '"' :: (field.1.toList.flatMap escape ++
          '"' :: ':' :: (spaces ++ (renderAt layout (depth + 1) field.2).toList)) := by
        rw [← shown]
        simp [quote, colon]
      rw [Function.comp_apply, written]
      exact .intro (spaced.beforeMember depth) ((read field member).behind_spaces blank)
    have brackets : "\x7b".toList = ['{'] ∧ "\x7d".toList = ['}'] := ⟨rfl, rfl⟩
    rw [enclose_of_filled layout depth _ _ (by simpa using empty), brackets.1, brackets.2]
      at enough ⊢
    simp only [List.length_append, List.length_singleton] at enough
    have joined := read_fields_joined isRead (by simpa using empty) (spaced.beforeClosing depth) rest
      (show _ < bound by omega)
    rw [← of_fields_as_written distinct ordered, fields_as_written_eq, List.append_assoc,
      List.append_assoc, List.append_assoc]
    exact read_value_of_fields joined

/-- The writing of a value is read as what it says. -/
theorem read_rendered {value : Json} (proper : value.IsProper) (depth : Nat) :
    IsReadAs (renderAt layout depth value).toList value.asWritten := by
  induction proper generalizing depth with
  | null => exact read_null
  | bool value =>
      cases value with
      | true => exact read_true
      | false => exact read_false
  | number proper => exact read_rendered_number proper
  | string text => exact read_value_of_text text
  | array members ih => exact read_rendered_items spaced fun item member => ih item member _
  | object distinct ordered members ih =>
      exact read_rendered_fields spaced distinct ordered fun field member => ih field member _

/-- The writing of a value is JSON, and says what the value says. -/
theorem parse_rendered {value : Json} (proper : value.IsProper) (depth : Nat) :
    parse? (renderAt layout depth value) = some value.asWritten := by
  have read := read_rendered spaced proper depth (2 * (renderAt layout depth value).toList.length + 2)
    [] (by omega) (fun c none => by cases none)
  rw [List.append_nil] at read
  simp only [parse?, read, Option.bind_eq_bind, Option.bind_some]
  rfl

end

end Json

end LineCensus
