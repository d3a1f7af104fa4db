import LineCensus.Paint
import LineCensus.Proofs.Trimming

/-!
Styled text with the codes taken out again. A painted text shows the text that was painted, and so does
any text that is put together from painted and plain parts. Blanks at the end can be cut off before the
codes are taken out or after that, as long as codes stand at the end only behind something visible.
-/

namespace LineCensus

set_option autoImplicit false

open LineCensus.Text (isBlank trimRight)

/-! ### Codes in text -/

namespace Style

/-- How many characters make up the code that some characters begin with. A code is the escape character
and a bracket, then digits, and then the letter `m`. -/
def codeLength : List Char → Nat
  | '\x1b' :: '[' :: rest =>
    let digits := rest.takeWhile Char.isDigit
    if !digits.isEmpty && (rest.drop digits.length).head? == some 'm' then digits.length + 3 else 0
  | _ => 0

/-- Characters without the codes among them; `skip` says how many characters of a code are still to
come. -/
def uncoded (skip : Nat) : List Char → List Char
  | [] => []
  | c :: rest =>
    match skip with
    | skip + 1 => uncoded skip rest
    | 0 =>
      match codeLength (c :: rest) with
      | 0 => c :: uncoded 0 rest
      | skip + 1 => uncoded skip rest

def withoutCodes (text : String) : String := String.ofList (uncoded 0 text.toList)

inductive IsCode : List Char → Prop
  | mk {digits : List Char} (filled : digits ≠ []) (numeric : ∀ d ∈ digits, d.isDigit = true) :
      IsCode (escape :: '[' :: (digits ++ ['m']))

structure IsCoded (style : Style) : Prop where
  on : IsCode style.on.toList
  off : IsCode style.off.toList

theorem is_code_of_number {number : String} (filled : number.toList ≠ [])
    (numeric : ∀ d ∈ number.toList, d.isDigit = true) : IsCode (code number).toList := by
  rw [code, String.toList_ofList]
  exact .mk filled numeric

theorem coded_of_numbers {on off : String} (filled : on.toList ≠ [] ∧ off.toList ≠ [])
    (numeric : ∀ d ∈ on.toList ++ off.toList, d.isDigit = true) :
    IsCoded ⟨code on, code off⟩ where
  on := is_code_of_number filled.1 fun d member => numeric d (List.mem_append_left _ member)
  off := is_code_of_number filled.2 fun d member => numeric d (List.mem_append_right _ member)

theorem bold_coded : bold.IsCoded := coded_of_numbers (by decide) (by simp)

theorem blue_coded : blue.IsCoded := coded_of_numbers (by decide) (by simp)

theorem gray_coded : gray.IsCoded := coded_of_numbers (by decide) (by simp)

theorem IsCode.last {code : List Char} (isCode : IsCode code) : code.getLast? = some 'm' := by
  cases isCode
  rw [← List.cons_append, ← List.cons_append, List.getLast?_concat]

theorem IsCode.length_append {code : List Char} (isCode : IsCode code) (rest : List Char) :
    codeLength (code ++ rest) = code.length := by
  cases isCode with
  | @mk digits filled numeric =>
      have taken : (digits ++ 'm' :: rest).takeWhile Char.isDigit = digits := by
        rw [List.takeWhile_append_of_pos numeric, List.takeWhile_cons_of_neg (by decide), List.append_nil]
      rw [List.cons_append, List.cons_append, List.append_assoc, List.singleton_append, escape, codeLength,
        taken, List.drop_left]
      simp [filled]

theorem length_of_no_escape {c : Char} (plain : c ≠ escape) (rest : List Char) :
    codeLength (c :: rest) = 0 := by
  unfold codeLength
  split
  · rename_i same
    exact absurd (List.cons.inj same).1 plain
  · rfl

theorem uncoded_skip (front rest : List Char) :
    uncoded front.length (front ++ rest) = uncoded 0 rest := by
  induction front with
  | nil => rfl
  | cons c front ih => exact ih

theorem uncoded_code {code : List Char} (isCode : IsCode code) (rest : List Char) :
    uncoded 0 (code ++ rest) = uncoded 0 rest := by
  have length := isCode.length_append rest
  cases code with
  | nil => cases isCode
  | cons c front =>
      rw [List.cons_append, List.length_cons] at length
      rw [List.cons_append, uncoded, length]
      exact uncoded_skip front rest

theorem uncoded_cons {c : Char} (plain : c ≠ escape) (rest : List Char) :
    uncoded 0 (c :: rest) = c :: uncoded 0 rest := by
  rw [uncoded, length_of_no_escape plain]

/-! ### What characters show -/

/-- What styled characters show: codes show nothing, and all others show themselves. -/
inductive Shows : List Char → List Char → Prop
  | nil : Shows [] []
  | cons {c : Char} {styled shown : List Char} (plain : c ≠ escape) (rest : Shows styled shown) :
      Shows (c :: styled) (c :: shown)
  | code {code styled shown : List Char} (isCode : IsCode code) (rest : Shows styled shown) :
      Shows (code ++ styled) shown

variable {styled shown moreStyled moreShown : List Char}

theorem Shows.uncoded_eq (shows : Shows styled shown) : uncoded 0 styled = shown := by
  induction shows with
  | nil => rfl
  | cons plain _ ih => rw [uncoded_cons plain, ih]
  | code isCode _ ih => rw [uncoded_code isCode, ih]

theorem Shows.append (first : Shows styled shown) (second : Shows moreStyled moreShown) :
    Shows (styled ++ moreStyled) (shown ++ moreShown) := by
  induction first with
  | nil => exact second
  | cons plain _ ih => exact .cons plain ih
  | code isCode _ ih =>
      rw [List.append_assoc]
      exact .code isCode ih

theorem shows_itself {chars : List Char} (plain : escape ∉ chars) : Shows chars chars := by
  induction chars with
  | nil => exact .nil
  | cons c rest ih =>
      rw [List.mem_cons, not_or] at plain
      exact .cons (Ne.symm plain.1) (ih plain.2)

theorem codes_show_nothing {codes : List (List Char)} (areCodes : ∀ code ∈ codes, IsCode code) :
    Shows codes.flatten [] := by
  induction codes with
  | nil => exact .nil
  | cons code rest ih =>
      rw [List.forall_mem_cons] at areCodes
      rw [List.flatten_cons]
      exact .code areCodes.1 (ih areCodes.2)

theorem shows_nothing_of_nil (shows : Shows [] shown) : shown = [] := by
  rw [← shows.uncoded_eq, uncoded]

/-! ### Cutting blanks off -/

/-- What styled characters show before and after blanks at the end are cut off. -/
structure ShowsCut (styled shown : List Char) : Prop where
  whole : Shows styled shown
  cut : Shows (trimRight styled) (trimRight shown)
  nothing : trimRight shown = [] → trimRight styled = []

theorem ShowsCut.nil : ShowsCut [] [] := ⟨.nil, .nil, id⟩

theorem shows_itself_cut {chars : List Char} (plain : escape ∉ chars) : ShowsCut chars chars where
  whole := shows_itself plain
  cut := by
    obtain ⟨after, -, parts⟩ := Text.trim_right_parts chars
    apply shows_itself
    intro inside
    rw [parts] at plain
    exact plain (List.mem_append_left _ inside)
  nothing := id

theorem ShowsCut.append (first : ShowsCut styled shown) (second : ShowsCut moreStyled moreShown) :
    ShowsCut (styled ++ moreStyled) (shown ++ moreShown) := by
  have whole := first.whole.append second.whole
  -- The blanks at the end reach into the first part only if there is nothing else in the second one.
  by_cases blank : trimRight moreShown = []
  · have styledBlank := second.nothing blank
    refine ⟨whole, ?_, ?_⟩
    · rw [Text.trim_right_append_blank styledBlank, Text.trim_right_append_blank blank]
      exact first.cut
    · rw [Text.trim_right_append_blank styledBlank, Text.trim_right_append_blank blank]
      exact first.nothing
  · have styledVisible : trimRight moreStyled ≠ [] := by
      intro styledBlank
      have cut := second.cut
      rw [styledBlank] at cut
      exact blank (shows_nothing_of_nil cut)
    refine ⟨whole, ?_, ?_⟩
    · rw [Text.trim_right_append_visible styledVisible, Text.trim_right_append_visible blank]
      exact first.whole.append second.cut
    · rw [Text.trim_right_append_visible blank]
      intro empty
      exact absurd (List.append_eq_nil_iff.mp empty).2 blank

end Style

/-! ### Painted text -/

/-- Whether a text has no codes of its own, and no blank at its end. -/
@[mk_iff]
structure IsPaintable (text : String) : Prop where
  plain : Style.escape ∉ text.toList
  visible : ∀ c ∈ text.toList.getLast?, isBlank c = false

/-- Whether a text that can be painted is not empty either, so that it ends with something visible. -/
@[mk_iff]
structure IsWord (text : String) : Prop extends IsPaintable text where
  filled : text ≠ ""

theorem unescaped_append {front behind : String} (first : Style.escape ∉ front.toList)
    (second : Style.escape ∉ behind.toList) : Style.escape ∉ (front ++ behind).toList := by
  rw [String.toList_append, List.mem_append, not_or]
  exact ⟨first, second⟩

theorem word_append {front behind : String} (plain : Style.escape ∉ front.toList) (word : IsWord behind) :
    IsWord (front ++ behind) where
  plain := unescaped_append plain word.plain
  visible := by
    have filled := mt String.toList_eq_nil_iff.mp word.filled
    rw [String.toList_append, List.getLast?_append_of_ne_nil _ filled]
    exact word.visible
  filled := by
    intro empty
    exact word.filled (String.append_eq_empty_iff.mp empty).2

theorem unescaped_intercalate {separator : String} (plain : Style.escape ∉ separator.toList)
    {parts : List String} (each : ∀ part ∈ parts, Style.escape ∉ part.toList) :
    Style.escape ∉ (separator.intercalate parts).toList := by
  induction parts with
  | nil => exact List.not_mem_nil
  | cons part rest ih =>
      rw [List.forall_mem_cons] at each
      cases rest with
      | nil => exact each.1
      | cons next rest =>
          rw [String.intercalate_cons_cons]
          exact unescaped_append (unescaped_append each.1 plain) (ih each.2)

theorem word_intercalate {separator : String} (plain : Style.escape ∉ separator.toList)
    {front : List String} (each : ∀ part ∈ front, Style.escape ∉ part.toList) {last : String}
    (word : IsWord last) : IsWord (separator.intercalate (front ++ [last])) := by
  induction front with
  | nil => exact word
  | cons part rest ih =>
      rw [List.forall_mem_cons] at each
      have behind := word_append (unescaped_append each.1 plain) (ih each.2)
      cases rest with
      | nil => exact behind
      | cons next rest =>
          rw [List.cons_append, List.cons_append, String.intercalate_cons_cons]
          exact behind

namespace Painter

open Style (escape IsCode Shows ShowsCut)

theorem plain_paint (styles : List Style) (text : String) : plain.paint styles text = text := rfl

theorem add_behind_nothing {part added chars : List Char} (isCode : IsCode part)
    (plain : escape ∉ chars) : addBehind part added 0 chars = chars := by
  induction chars with
  | nil => rfl
  | cons c rest ih =>
      rw [List.mem_cons, not_or] at plain
      have apart : part.isPrefixOf (c :: rest) = false := by
        cases isCode
        rw [List.isPrefixOf, beq_false_of_ne plain.1, Bool.false_and]
      rw [addBehind, apart, if_neg Bool.false_ne_true, ih plain.2]

theorem kept_eq {styles : List Style} (coded : ∀ style ∈ styles, style.IsCoded) {chars : List Char}
    (plain : escape ∉ chars) :
    styles.foldl (fun chars style => addBehind style.off.toList style.on.toList 0 chars) chars =
      chars := by
  induction styles with
  | nil => rfl
  | cons style rest ih =>
      rw [List.forall_mem_cons] at coded
      rw [List.foldl_cons, add_behind_nothing coded.1.off plain]
      exact ih coded.2

theorem wrap_breaks_shows {before behind chars : List Char} (beforeNothing : Shows before [])
    (behindNothing : Shows behind []) (plain : escape ∉ chars) :
    Shows (wrapBreaks before behind chars) chars := by
  fun_induction wrapBreaks before behind chars with
  | case1 => exact .nil
  | case2 rest ih =>
      rw [List.mem_cons, List.mem_cons, not_or, not_or] at plain
      have wrapped : Shows ('\r' :: '\n' :: behind) ['\r', '\n'] :=
        .cons (by decide) (.cons (by decide) behindNothing)
      exact (beforeNothing.append wrapped).append (ih plain.2.2)
  | case3 c rest _ isFeed ih =>
      rw [List.mem_cons, not_or] at plain
      have wrapped : Shows ('\n' :: behind) ['\n'] := .cons (by decide) behindNothing
      rw [beq_iff_eq.mp isFeed]
      exact (beforeNothing.append wrapped).append (ih plain.2)
  | case4 c rest _ _ ih =>
      rw [List.mem_cons, not_or] at plain
      exact .cons (Ne.symm plain.1) (ih plain.2)

theorem codes_shown {styles : List Style} {side : Style → String}
    (coded : ∀ style ∈ styles, IsCode (side style).toList) :
    Shows (styles.flatMap fun style => (side style).toList) [] := by
  rw [List.flatMap_def]
  apply Style.codes_show_nothing
  intro code member
  obtain ⟨style, listed, rfl⟩ := List.mem_map.mp member
  exact coded style listed

theorem codes_last {styles : List Style} (coded : ∀ style ∈ styles, style.IsCoded) (c : Char)
    (last : (styles.flatMap fun style => style.off.toList).getLast? = some c) : c = 'm' := by
  rw [List.getLast?_flatMap] at last
  obtain ⟨style, member, ends⟩ := List.exists_of_findSome?_eq_some last
  rw [(coded style (List.mem_reverse.mp member)).off.last] at ends
  exact (Option.some.inj ends).symm

/-- A painted text shows the text, and no blanks can be cut off its end. -/
theorem paint_shows (painter : Painter) {styles : List Style} (styled : styles ≠ [])
    (coded : ∀ style ∈ styles, style.IsCoded) {text : String} (paintable : IsPaintable text) :
    ShowsCut (painter.paint styles text).toList (plain.paint styles text).toList := by
  obtain ⟨plain, last⟩ := paintable
  rw [plain_paint, paint]
  split
  case isTrue => exact Style.shows_itself_cut plain
  case isFalse painted =>
    rw [Bool.or_eq_true, not_or, String.isEmpty_iff] at painted
    have reversed : ∀ style ∈ styles.reverse, style.IsCoded := fun style member =>
      coded style (List.mem_reverse.mp member)
    have on : Shows (styles.flatMap (·.on.toList)) [] :=
      codes_shown fun style member => (coded style member).on
    have off : Shows (styles.reverse.flatMap (·.off.toList)) [] :=
      codes_shown fun style member => (reversed style member).off
    have filled : styles.reverse.flatMap (·.off.toList) ≠ [] := by
      intro empty
      obtain ⟨style, listed⟩ := List.exists_mem_of_ne_nil styles styled
      have none := List.flatMap_eq_nil_iff.mp empty style (List.mem_reverse.mpr listed)
      have isCode := (coded style listed).off
      rw [none] at isCode
      cases isCode
    simp only [String.toList_ofList, kept_eq reversed plain]
    have whole := (on.append (wrap_breaks_shows off on plain)).append off
    rw [List.nil_append, List.append_nil] at whole
    refine ⟨whole, ?_, ?_⟩
    -- Nothing is cut off, for the last code ends with a letter.
    · rw [Text.trim_right_of_visible last, Text.trim_right_of_visible]
      · exact whole
      · intro c ends
        rw [List.getLast?_append_of_ne_nil _ filled] at ends
        rw [codes_last reversed c ends]
        decide
    · rw [Text.trim_right_of_visible last]
      intro empty
      exact absurd (String.toList_eq_nil_iff.mp empty) painted.2

end Painter

end LineCensus
