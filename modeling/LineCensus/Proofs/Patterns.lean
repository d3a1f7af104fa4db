import LineCensus.Proofs.IgnoreNames

/-!
What patterns reduce to. A plain name may be spelled in many ways, with blanks, with `./` and slashes in
front of it and with slashes behind; all of them reduce to it, and what a pattern reduces to stands in
it and holds none of the signs of patterns. Blanks are removed before the slashes at the end and a `**/`
are, though; so blanks that these had in front of them or behind them are left at the name, which then
reduces to another one.
-/

namespace LineCensus.Ignore

set_option autoImplicit false

open Text (isBlank trimChars AllBlank)

/-! ### Steps of the reduction -/

/-- A pattern reduces to a name if that is what is left of it in the end, and a name at all. -/
theorem name_chars_eq_some_iff {pattern chars : List Char} :
    nameChars pattern = some chars ↔ dropAnywhere (dropSlashesBehind (normalize pattern)) = chars ∧
      chars ≠ [] ∧ ∀ c ∈ chars, isSpecial c = false := by
  simp only [nameChars, Option.ite_none_left_eq_some, Bool.or_eq_true, List.isEmpty_iff,
    Option.some.injEq, not_or, List.any_eq_true, not_exists, not_and, Bool.not_eq_true]
  constructor
  · rintro ⟨⟨filled, plain⟩, rfl⟩
    exact ⟨rfl, filled, plain⟩
  · rintro ⟨rfl, filled, plain⟩
    exact ⟨⟨filled, plain⟩, rfl⟩

theorem name_of_eq_some_iff {pattern name : String} :
    nameOf pattern = some name ↔ nameChars pattern.toList = some name.toList := by
  rw [nameOf, Option.map_eq_some_iff]
  constructor
  · rintro ⟨chars, reduced, rfl⟩
    rw [String.toList_ofList, reduced]
  · intro reduced
    exact ⟨name.toList, reduced, String.ofList_toList⟩

theorem is_blank_of_unified (c : Char) : isBlank (if c == '\\' then '/' else c) = isBlank c := by
  cases backslash : c == '\\' with
  | false => rfl
  | true =>
      rw [beq_iff_eq] at backslash
      rw [backslash]
      rfl

theorem trim_unify_slashes (pattern : List Char) :
    trimChars (unifySlashes pattern) = unifySlashes (trimChars pattern) :=
  Text.trim_chars_map is_blank_of_unified pattern

/-- Only slashes are dropped at the end, and all of them. -/
theorem drop_slashes_behind_parts (pattern : List Char) :
    ∃ count, pattern = dropSlashesBehind pattern ++ List.replicate count '/' := by
  have slashes : ∀ c ∈ pattern.reverse.takeWhile (· == '/'), c = '/' := by
    intro c member
    have kept := List.mem_takeWhile_imp (p := (· == '/')) member
    exact beq_iff_eq.mp kept
  refine ⟨(pattern.reverse.takeWhile (· == '/')).length, ?_⟩
  calc
    pattern = (pattern.reverse.takeWhile (· == '/') ++ pattern.reverse.dropWhile (· == '/')).reverse := by
      rw [List.takeWhile_append_dropWhile, List.reverse_reverse]
    _ = dropSlashesBehind pattern ++ (pattern.reverse.takeWhile (· == '/')).reverse := by
      rw [List.reverse_append, dropSlashesBehind]
    _ = _ := by
      rw [← List.reverse_replicate, ← List.eq_replicate_of_mem slashes]

theorem drop_here_suffix (pattern : List Char) : dropHere pattern <:+ pattern := by
  fun_induction dropHere pattern with
  | case1 rest ih => exact ih.trans ((List.suffix_cons _ _).trans (List.suffix_cons _ _))
  | case2 pattern => exact List.suffix_refl pattern

theorem drop_slash_suffix (pattern : List Char) : dropSlash pattern <:+ pattern := by
  unfold dropSlash
  split
  · exact List.suffix_cons _ _
  · exact List.suffix_refl _

theorem drop_anywhere_suffix (pattern : List Char) : dropAnywhere pattern <:+ pattern := by
  unfold dropAnywhere
  split
  · exact List.suffix_append ['*', '*', '/'] _
  · exact List.suffix_refl _

theorem drop_slashes_behind_begins (pattern : List Char) : dropSlashesBehind pattern <+: pattern := by
  obtain ⟨count, parts⟩ := drop_slashes_behind_parts pattern
  exact ⟨_, parts.symm⟩

/-! ### Spellings -/

def optional (present : Bool) (sign : List Char) : List Char := if present then sign else []

/-- What stands around a name in a pattern that means the name. -/
structure Spelling where
  before : List Char
  /-- How many `./` there are in front. -/
  here : Nat
  rooted : Bool
  /-- Whether there is a `**/` in front. -/
  anywhere : Bool
  /-- How many slashes there are behind. -/
  slashes : Nat
  after : List Char
  blank_before : AllBlank before
  blank_after : AllBlank after

namespace Spelling

variable (spelling : Spelling)

def lead : List Char :=
  (List.replicate spelling.here ['.', '/']).flatten ++
    (optional spelling.rooted ['/'] ++ optional spelling.anywhere ['*', '*', '/'])

def around (name : List Char) : List Char :=
  spelling.before ++
    (spelling.lead ++ (name ++ List.replicate spelling.slashes '/') ++ spelling.after)

/-- A name with the slashes behind it, and with `**/` in front if that is there. -/
def close (name : List Char) : List Char :=
  optional spelling.anywhere ['*', '*', '/'] ++ (name ++ List.replicate spelling.slashes '/')

theorem lead_signs : ∀ c ∈ spelling.lead, c ∈ ['.', '/', '*'] := by
  intro c member
  cases rooted : spelling.rooted <;> cases anywhere : spelling.anywhere <;>
    simp [lead, optional, rooted, anywhere] at member <;> simp <;> tauto

theorem lead_visible : ∀ c ∈ spelling.lead, isBlank c = false := by
  intro c member
  have sign := spelling.lead_signs c member
  simp only [List.mem_cons, List.not_mem_nil, or_false] at sign
  rcases sign with rfl | rfl | rfl <;> rfl

end Spelling

/-- Whether a pattern is another one with a backslash for some of its slashes. -/
def IsSlashedAs (plain written : List Char) : Prop :=
  List.Forall₂ (fun c d => d = c ∨ c = '/' ∧ d = '\\') plain written

theorem unify_slashes_of_slashed {plain written : List Char} (noBackslash : '\\' ∉ plain)
    (slashed : IsSlashedAs plain written) : unifySlashes written = plain := by
  induction slashed with
  | nil => rfl
  | @cons c d plain written here later ih =>
      rw [List.mem_cons, not_or] at noBackslash
      have first : (if d == '\\' then '/' else d) = c := by
        rcases here with rfl | ⟨rfl, rfl⟩
        · exact if_neg (by simpa using Ne.symm noBackslash.1)
        · rfl
      rw [unifySlashes, List.map_cons, first]
      exact congrArg _ (ih noBackslash.2)

theorem drop_slash_of_other {c : Char} (different : c ≠ '/') (rest : List Char) :
    dropSlash (c :: rest) = c :: rest := by
  unfold dropSlash
  split
  case h_1 same => exact absurd (List.cons.inj same).1 different
  case h_2 => rfl

theorem drop_here_of_other {c : Char} {rest : List Char}
    (different : ¬(c = '.' ∧ rest.head? = some '/')) : dropHere (c :: rest) = c :: rest := by
  unfold dropHere
  split
  case h_1 same =>
      obtain ⟨isDot, rfl⟩ := List.cons.inj same
      exact absurd ⟨isDot, rfl⟩ different
  case h_2 => rfl

theorem drop_here_replicate (count : Nat) {rest : List Char} (kept : dropHere rest = rest) :
    dropHere ((List.replicate count ['.', '/']).flatten ++ rest) = rest := by
  induction count with
  | zero => exact kept
  | succ count ih => exact ih

section

variable {name : String} (plain : IsPlainName name) (spelling : Spelling)

include plain

theorem trim_before_name {front : List Char} (visible : ∀ c ∈ front, isBlank c = false) (count : Nat) :
    trimChars (front ++ (name.toList ++ List.replicate count '/')) =
      front ++ (name.toList ++ List.replicate count '/') := by
  apply Text.trim_chars_of_visible
  · intro c first
    rw [List.head?_append, List.head?_append_of_ne_nil _ plain.ne_nil, Option.or_eq_some_iff] at first
    rcases first with inFront | ⟨-, inName⟩
    · exact visible c (List.mem_of_mem_head? inFront)
    · exact plain.first_visible c inName
  · intro c last
    have filled : name.toList ++ List.replicate count '/' ≠ [] :=
      List.append_ne_nil_of_left_ne_nil plain.ne_nil _
    rw [List.getLast?_append_of_ne_nil _ filled, List.getLast?_append, Option.or_eq_some_iff] at last
    rcases last with inSlashes | ⟨-, inName⟩
    · have isSlash := List.eq_of_mem_replicate (List.mem_of_getLast? inSlashes)
      rw [isSlash]
      rfl
    · exact plain.last_visible c inName

theorem drop_anywhere_optional (present : Bool) :
    dropAnywhere (optional present ['*', '*', '/'] ++ name.toList) = name.toList := by
  cases present with
  | false => exact drop_anywhere_of_no_slash plain.no_slash
  | true => rfl

/-- Without what may stand in front of it, a name begins neither with a slash nor with `./`. -/
theorem close_begins (notHere : name ≠ ".") : ∃ c rest, spelling.close name.toList = c :: rest ∧
    c ≠ '/' ∧ ¬(c = '.' ∧ rest.head? = some '/') := by
  rw [Spelling.close]
  cases spelling.anywhere with
  | true => exact ⟨'*', _, rfl, by decide, fun parts => absurd parts.1 (by decide)⟩
  | false =>
      have noSlash := plain.no_slash
      cases chars : name.toList with
      | nil => exact absurd chars plain.ne_nil
      | cons c rest =>
          rw [chars, List.mem_cons, not_or] at noSlash
          refine ⟨c, rest ++ List.replicate spelling.slashes '/', rfl, Ne.symm noSlash.1, ?_⟩
          rintro ⟨rfl, second⟩
          cases rest with
          | nil => exact notHere (String.toList_injective chars)
          | cons d rest =>
              rw [List.cons_append, List.head?_cons, Option.some.injEq] at second
              exact noSlash.2 (second ▸ List.mem_cons_self)

theorem around_no_backslash : '\\' ∉ spelling.around name.toList := by
  have visible : ¬isBlank '\\' = true := by decide
  rw [Spelling.around, List.mem_append, List.mem_append, List.mem_append, List.mem_append]
  rintro (before | (lead | name | slashes) | after)
  · exact visible (spelling.blank_before _ before)
  · exact absurd (spelling.lead_signs _ lead) (by decide)
  · exact plain.unsigned _ name (by decide)
  · exact absurd (List.eq_of_mem_replicate slashes) (by decide)
  · exact visible (spelling.blank_after _ after)

/-- What does not change the meaning in front of a name is taken away, and the blanks. -/
theorem normalize_around (notHere : name ≠ ".") {pattern : List Char}
    (slashed : IsSlashedAs (spelling.around name.toList) pattern) :
    normalize pattern = spelling.close name.toList := by
  have trimmed : trimChars (spelling.around name.toList) =
      (List.replicate spelling.here ['.', '/']).flatten ++
        (optional spelling.rooted ['/'] ++ spelling.close name.toList) := by
    rw [Spelling.around, Text.trim_chars_between spelling.blank_before spelling.blank_after,
      trim_before_name plain spelling.lead_visible]
    simp only [Spelling.lead, Spelling.close, List.append_assoc]
  obtain ⟨c, rest, close, notSlash, notDot⟩ := close_begins plain spelling notHere
  have withoutHere : dropHere (optional spelling.rooted ['/'] ++ spelling.close name.toList) =
      optional spelling.rooted ['/'] ++ spelling.close name.toList := by
    cases spelling.rooted with
    | true => rfl
    | false =>
        rw [close]
        exact drop_here_of_other notDot
  have withoutSlash : dropSlash (optional spelling.rooted ['/'] ++ spelling.close name.toList) =
      spelling.close name.toList := by
    cases spelling.rooted with
    | true => rfl
    | false =>
        rw [close]
        exact drop_slash_of_other notSlash rest
  have visible : ∀ c ∈ optional spelling.anywhere ['*', '*', '/'], isBlank c = false := by
    intro c member
    exact spelling.lead_visible c (List.mem_append_right _ (List.mem_append_right _ member))
  rw [normalize, ← trim_unify_slashes,
    unify_slashes_of_slashed (around_no_backslash plain spelling) slashed, trimmed,
    drop_here_replicate spelling.here withoutHere, withoutSlash]
  exact trim_before_name plain visible spelling.slashes

/-- However a plain name is spelled, it is what the pattern reduces to. -/
theorem name_of_spelling (notHere : name ≠ ".") {pattern : String}
    (slashed : IsSlashedAs (spelling.around name.toList) pattern.toList) :
    nameOf pattern = some name := by
  have notSpecial : ∀ c ∈ name.toList, isSpecial c = false := by
    intro c member
    exact Bool.eq_false_iff.mpr fun special =>
      plain.unsigned c member ((mem_pattern_signs_iff c).mpr (.inl special))
  have last : ∀ c, (optional spelling.anywhere ['*', '*', '/'] ++ name.toList).getLast? = some c →
      c ≠ '/' := by
    rintro c last rfl
    rw [List.getLast?_append_of_ne_nil _ plain.ne_nil] at last
    exact plain.no_slash (List.mem_of_getLast? last)
  have cut := drop_slashes_behind_append last spelling.slashes
  rw [List.append_assoc] at cut
  rw [name_of_eq_some_iff, name_chars_eq_some_iff, normalize_around plain spelling notHere slashed,
    Spelling.close, cut, drop_anywhere_optional plain]
  exact ⟨rfl, plain.ne_nil, notSpecial⟩

end

/-! ### Names in patterns -/

/-- What a pattern reduces to stands in it once its slashes are all of one kind. -/
theorem reduced_inside (pattern : List Char) :
    dropAnywhere (dropSlashesBehind (normalize pattern)) <:+: unifySlashes pattern :=
  calc
    dropAnywhere (dropSlashesBehind (normalize pattern)) <:+: dropSlashesBehind (normalize pattern) :=
      (drop_anywhere_suffix _).isInfix
    _ <:+: normalize pattern := (drop_slashes_behind_begins _).isInfix
    _ <:+: dropSlash (dropHere (unifySlashes (trimChars pattern))) := Text.trim_chars_inside _
    _ <:+: dropHere (unifySlashes (trimChars pattern)) := (drop_slash_suffix _).isInfix
    _ <:+: unifySlashes (trimChars pattern) := (drop_here_suffix _).isInfix
    _ <:+: unifySlashes pattern := (Text.trim_chars_inside pattern).map _

theorem infix_of_unified {pattern chars : List Char} (noSlash : '/' ∉ chars)
    (inside : chars <:+: unifySlashes pattern) : chars <:+: pattern := by
  obtain ⟨written, inPattern, rfl⟩ := List.infix_map_iff.mp inside
  have noBackslash : '\\' ∉ written := fun member => noSlash (List.mem_map.mpr ⟨_, member, rfl⟩)
  have unchanged : unifySlashes written = written := unify_slashes_of_none noBackslash
  rw [unifySlashes] at unchanged
  rw [unchanged]
  exact inPattern

theorem no_backslash_of_unified (pattern : List Char) : '\\' ∉ unifySlashes pattern := by
  intro member
  obtain ⟨c, -, exchanged⟩ := List.mem_map.mp member
  cases backslash : c == '\\' with
  | true => simp [backslash] at exchanged
  | false => simp [backslash] at exchanged; simp [exchanged] at backslash

/-- A name that a pattern reduces to holds no signs and stands in the pattern as it is. -/
theorem name_chars_reduced {pattern chars : List Char} (reduced : nameChars pattern = some chars) :
    (∀ c ∈ chars, c ∉ patternSigns) ∧ chars <:+: pattern := by
  obtain ⟨left, -, notSpecial⟩ := name_chars_eq_some_iff.mp reduced
  have inside := reduced_inside pattern
  rw [left] at inside
  have unsigned : ∀ c ∈ chars, c ∉ patternSigns := by
    intro c member sign
    rcases (mem_pattern_signs_iff c).mp sign with special | rfl
    · exact Bool.noConfusion ((notSpecial c member).symm.trans special)
    · exact no_backslash_of_unified pattern (inside.subset member)
  exact ⟨unsigned, infix_of_unified (fun member => unsigned _ member (by decide)) inside⟩

/-- Every spelling of a plain name reduces to it; and what any pattern reduces to is not empty, stands in
it as it is, and holds none of the signs of patterns. -/
theorem spellings_reduce_to_names :
    (∀ name, IsPlainName name → name ≠ "." → ∀ (spelling : Spelling) (pattern : String),
      IsSlashedAs (spelling.around name.toList) pattern.toList → nameOf pattern = some name) ∧
    ∀ pattern name, nameOf pattern = some name →
      name ≠ "" ∧ name.toList <:+: pattern.toList ∧ ∀ c ∈ name.toList, c ∉ patternSigns := by
  constructor
  · intro name plain notHere spelling pattern slashed
    exact name_of_spelling plain spelling notHere slashed
  · intro pattern name reduced
    rw [name_of_eq_some_iff] at reduced
    obtain ⟨-, filled, -⟩ := name_chars_eq_some_iff.mp reduced
    obtain ⟨unsigned, inside⟩ := name_chars_reduced reduced
    exact ⟨fun empty => filled (String.toList_eq_nil_iff.mpr empty), inside, unsigned⟩

def fullDress : Spelling where
  before := [' ', '\t']
  here := 2
  rooted := true
  anywhere := true
  slashes := 2
  after := ['\u3000']
  blank_before := by simp [AllBlank, isBlank]
  blank_after := by simp [AllBlank, isBlank]

theorem dressed_name_reduced :
    IsPlainName "old code" ∧ "old code" ≠ "." ∧
    IsSlashedAs (fullDress.around "old code".toList) " \t./.\\/**\\old code/\\\u3000".toList ∧
    nameOf " \t./.\\/**\\old code/\\\u3000" = some "old code" ∧
    "old code".toList <:+: " \t./.\\/**\\old code/\\\u3000".toList := by
  have bare : IsBare "old code" := by decide
  have slashed : IsSlashedAs (fullDress.around "old code".toList)
      " \t./.\\/**\\old code/\\\u3000".toList := by
    simp [IsSlashedAs, fullDress, Spelling.around, Spelling.lead, optional]
  have reduced := spellings_reduce_to_names.1 "old code" bare.is_plain_name (by decide) fullDress _ slashed
  exact ⟨bare.is_plain_name, by decide, slashed, reduced, (spellings_reduce_to_names.2 _ _ reduced).2.1⟩

/-! ### Names reduced again -/

theorem drop_anywhere_parts (pattern : List Char) :
    ∃ anywhere, pattern = optional anywhere ['*', '*', '/'] ++ dropAnywhere pattern := by
  unfold dropAnywhere
  split
  · exact ⟨true, rfl⟩
  · exact ⟨false, rfl⟩

theorem normal_parts {pattern chars : List Char} (reduced : nameChars pattern = some chars) :
    ∃ anywhere count, normalize pattern =
      optional anywhere ['*', '*', '/'] ++ (chars ++ List.replicate count '/') := by
  obtain ⟨left, -, -⟩ := name_chars_eq_some_iff.mp reduced
  obtain ⟨count, cut⟩ := drop_slashes_behind_parts (normalize pattern)
  obtain ⟨anywhere, front⟩ := drop_anywhere_parts (dropSlashesBehind (normalize pattern))
  rw [left] at front
  refine ⟨anywhere, count, ?_⟩
  rw [← List.append_assoc, ← front]
  exact cut

/-- Whether a pattern has blanks behind the `**/` that it begins with, or before the slashes that it ends
with, once all else is taken away. -/
def LeavesBlanks (pattern : List Char) : Prop :=
  ∃ c, isBlank c = true ∧ (['*', '*', '/', c] <+: normalize pattern ∨
    ∃ count, c :: List.replicate (count + 1) '/' <:+ normalize pattern)

section

variable {pattern chars : List Char} (reduced : nameChars pattern = some chars)

include reduced

theorem first_of_left_blank {c : Char} (left : ['*', '*', '/', c] <+: normalize pattern) :
    chars.head? = some c := by
  obtain ⟨anywhere, count, normal⟩ := normal_parts reduced
  obtain ⟨-, filled, notSpecial⟩ := name_chars_eq_some_iff.mp reduced
  rw [normal] at left
  cases chars with
  | nil => exact absurd rfl filled
  | cons d rest =>
      cases anywhere with
      | false =>
          have isStar := (List.cons_prefix_cons.mp left).1
          exact absurd (notSpecial d List.mem_cons_self) (by rw [← isStar]; decide)
      | true =>
          have behind : [c] <+: d :: (rest ++ List.replicate count '/') := by
            simpa [optional] using left
          rw [(List.cons_prefix_cons.mp behind).1]
          rfl

theorem last_of_left_blank {c : Char} (blank : isBlank c = true) {count : Nat}
    (left : c :: List.replicate count '/' <:+ normalize pattern) : chars.getLast? = some c := by
  obtain ⟨anywhere, slashes, normal⟩ := normal_parts reduced
  obtain ⟨-, filled, notSpecial⟩ := name_chars_eq_some_iff.mp reduced
  obtain ⟨front, split⟩ := left
  have notSlash : ∀ d, (optional anywhere ['*', '*', '/'] ++ chars).getLast? = some d → d ≠ '/' := by
    rintro d last rfl
    rw [List.getLast?_append_of_ne_nil _ filled] at last
    exact absurd (notSpecial _ (List.mem_of_getLast? last)) (by decide)
  have visible : ∀ d, (front ++ [c]).getLast? = some d → d ≠ '/' := by
    rintro d last rfl
    rw [List.getLast?_concat, Option.some.injEq] at last
    exact absurd blank (by rw [last]; decide)
  have same : front ++ [c] = optional anywhere ['*', '*', '/'] ++ chars := by
    rw [← drop_slashes_behind_append visible count, ← drop_slashes_behind_append notSlash slashes,
      List.append_assoc, List.append_assoc, ← normal, ← split]
    rfl
  rw [← List.getLast?_append_of_ne_nil (optional anywhere ['*', '*', '/']) filled, ← same,
    List.getLast?_concat]

theorem leaves_blanks_of_first {c : Char} (blank : isBlank c = true)
    (first : chars.head? = some c) : LeavesBlanks pattern := by
  obtain ⟨anywhere, count, normal⟩ := normal_parts reduced
  obtain ⟨rest, rfl⟩ := List.head?_eq_some_iff.mp first
  refine ⟨c, blank, .inl ?_⟩
  cases anywhere with
  | true =>
      rw [normal]
      exact List.prefix_append _ _
  | false =>
      have begins : (normalize pattern).head? = some c := by
        rw [normal]
        rfl
      have visible := Text.trim_chars_head _ c begins
      exact Bool.noConfusion (visible.symm.trans blank)

theorem leaves_blanks_of_last {c : Char} (blank : isBlank c = true)
    (last : chars.getLast? = some c) : LeavesBlanks pattern := by
  obtain ⟨anywhere, count, normal⟩ := normal_parts reduced
  obtain ⟨front, rfl⟩ := List.getLast?_eq_some_iff.mp last
  rw [List.append_assoc, ← List.append_assoc] at normal
  cases count with
  | zero =>
      have ends : (normalize pattern).getLast? = some c := by
        rw [normal, List.replicate_zero, List.append_nil, List.getLast?_concat]
      have visible := Text.trim_chars_last _ c ends
      exact Bool.noConfusion (visible.symm.trans blank)
  | succ count => exact ⟨c, blank, .inr ⟨count, _, normal.symm⟩⟩

/-- A name has blanks around it exactly if the pattern that it was reduced from leaves them there. -/
theorem trimmed_iff_no_blanks_left : trimChars chars = chars ↔ ¬LeavesBlanks pattern := by
  rw [Text.trim_chars_eq_iff]
  constructor
  · rintro ⟨first, last⟩ ⟨c, blank, front | ⟨count, behind⟩⟩
    · have visible := first c (first_of_left_blank reduced front)
      exact Bool.noConfusion (visible.symm.trans blank)
    · have visible := last c (last_of_left_blank reduced blank behind)
      exact Bool.noConfusion (visible.symm.trans blank)
  · intro noneLeft
    constructor
    · intro c first
      exact Bool.eq_false_iff.mpr fun blank => noneLeft (leaves_blanks_of_first reduced blank first)
    · intro c last
      exact Bool.eq_false_iff.mpr fun blank => noneLeft (leaves_blanks_of_last reduced blank last)

end

/-- Reducing a name once more removes the blanks that have been left around it, and nothing else. -/
theorem name_of_reduced {pattern name : String} (reduced : nameOf pattern = some name) :
    nameOf name = (some (Text.trim name)).filter (!·.isEmpty) := by
  rw [name_of_eq_some_iff] at reduced
  have empty (chars : List Char) : (String.ofList chars).isEmpty = chars.isEmpty := by
    rw [Bool.eq_iff_iff, String.isEmpty_iff, String.ofList_eq_empty_iff, List.isEmpty_iff]
  rw [nameOf, name_chars_of_unsigned (name_chars_reduced reduced).1, Option.filter_some,
    Option.filter_some, Text.trim, empty]
  cases (trimChars name.toList).isEmpty <;> rfl

theorem stays_iff_trimmed {pattern name : String} (reduced : nameOf pattern = some name) :
    nameOf name = some name ↔ Text.trim name = name := by
  have filled : (!name.isEmpty) = true := by
    have notEmpty := (name_chars_eq_some_iff.mp (name_of_eq_some_iff.mp reduced)).2.1
    simpa using notEmpty
  rw [name_of_reduced reduced, Option.filter_eq_some_iff, Option.some.injEq]
  exact and_iff_left filled

/-! ### Lines of an ignore file -/

/-- The lines of an ignore file that are no remarks. Of a line that ends with CR LF the CR is a blank at its
end. -/
def patternLines (text : String) : List String :=
  ((text.toList.splitOn '\n').map String.ofList).filter fun line =>
    (Text.trim line).toList.head? != some '#'

theorem name_chars_trim (pattern : List Char) : nameChars (trimChars pattern) = nameChars pattern := by
  rw [nameChars, nameChars, normalize, normalize, Text.trim_chars_twice]

theorem of_trimmed_trim (line : List Char) : ofTrimmed (trimChars line) =
    if (trimChars line).head? != some '#' then nameOf (String.ofList line) else none := by
  rw [ofTrimmed, nameOf, String.toList_ofList, ← name_chars_trim line]
  cases trimChars line with
  | nil => rfl
  | cons c rest =>
      by_cases remark : c = '#'
      · simp [remark]
      · simp [remark]

theorem parse_eq_filter_map (text : String) : parse text = (patternLines text).filterMap nameOf := by
  rw [parse_eq, patternLines, List.filterMap_filter, List.filterMap_map, List.filterMap_map]
  apply List.filterMap_congr
  intro line _
  rw [Function.comp_apply, Function.comp_apply, of_trimmed_trim, Text.trim, String.toList_ofList,
    String.toList_ofList]

/-- A name that a pattern reduces to stays when it is reduced again, unless the pattern leaves blanks around
it; then only these are removed. So it is with the names that an ignore file lists. -/
theorem names_stay_without_blanks (pattern name text : String) :
    (nameOf pattern = some name →
      (nameOf name = some name ↔ ¬LeavesBlanks pattern.toList) ∧
      (Text.trim name = name ↔ ¬LeavesBlanks pattern.toList) ∧
      nameOf name = (some (Text.trim name)).filter (!·.isEmpty)) ∧
    (name ∈ parse text → ∃ line ∈ patternLines text, nameOf line = some name ∧
      (Text.trim name = name ↔ ¬LeavesBlanks line.toList)) := by
  have left (pattern : String) (reduced : nameOf pattern = some name) :
      Text.trim name = name ↔ ¬LeavesBlanks pattern.toList := by
    rw [Text.trim_eq_iff]
    exact trimmed_iff_no_blanks_left (name_of_eq_some_iff.mp reduced)
  constructor
  · intro reduced
    exact ⟨(stays_iff_trimmed reduced).trans (left pattern reduced), left pattern reduced,
      name_of_reduced reduced⟩
  · intro member
    rw [parse_eq_filter_map, List.mem_filterMap] at member
    obtain ⟨line, inText, reduced⟩ := member
    exact ⟨line, inText, reduced, left line reduced⟩

theorem tight_and_loose_names_reduced_again :
    nameOf "**/vendor/" = some "vendor" ∧ ¬LeavesBlanks "**/vendor/".toList ∧
    nameOf "vendor" = some "vendor" ∧
    nameOf "**/ vendor /" = some " vendor " ∧ LeavesBlanks "**/ vendor /".toList ∧
    nameOf " vendor " = some "vendor" ∧
    " vendor " ∈ parse "# vendored /\n**\\ vendor /\r\n" ∧
    ∃ line ∈ patternLines "# vendored /\n**\\ vendor /\r\n", nameOf line = some " vendor " := by
  have tight : nameOf "**/vendor/" = some "vendor" := by decide +kernel
  have loose : nameOf "**/ vendor /" = some " vendor " := by decide +kernel
  have listed : " vendor " ∈ parse "# vendored /\n**\\ vendor /\r\n" := by decide +kernel
  obtain ⟨stays, trimmed, -⟩ := (names_stay_without_blanks _ _ "").1 tight
  have noneLeft := trimmed.mp (by decide +kernel)
  obtain ⟨looseOnes, listedOnes⟩ :=
    names_stay_without_blanks "**/ vendor /" " vendor " "# vendored /\n**\\ vendor /\r\n"
  obtain ⟨-, untrimmed, again⟩ := looseOnes loose
  obtain ⟨line, inText, reduced, -⟩ := listedOnes listed
  refine ⟨tight, noneLeft, stays.mpr noneLeft, loose, ?_, ?_, listed, line, inText, reduced⟩
  · have changed : Text.trim " vendor " ≠ " vendor " := by decide +kernel
    exact not_not.mp fun noneLeft => changed (untrimmed.mpr noneLeft)
  · rw [again]
    decide +kernel

/-- Whether names stay as they are when they are reduced again, and those that an ignore file lists have no
blanks around them. -/
def NamesStay : Prop :=
  (∀ pattern name, nameOf pattern = some name → nameOf name = some name) ∧
    ∀ text, ∀ name ∈ parse text, Text.trim name = name

theorem blank_before_slash_stays_at_name :
    nameOf "vendor /" = some "vendor " ∧ nameOf "vendor " = some "vendor" ∧
    parse "vendor /" = ["vendor "] ∧ Text.trim "vendor " ≠ "vendor " ∧ ¬NamesStay := by
  have reduced : nameOf "vendor /" = some "vendor " := by decide +kernel
  have again : nameOf "vendor " = some "vendor" := by decide +kernel
  refine ⟨reduced, again, by decide +kernel, by decide +kernel, ?_⟩
  intro stays
  have same := stays.1 _ _ reduced
  rw [again] at same
  exact absurd same (by decide)

end LineCensus.Ignore
