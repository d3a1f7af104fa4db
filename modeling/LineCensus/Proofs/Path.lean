import LineCensus.Path
import Mathlib

/-!
Absolute paths as lists of names. The names that a directory can hold stand for themselves in a path:
joining adds exactly one of them behind the others, and a resolved path is always the path of some
list of them. Two lists of such names never share a path.
-/

namespace LineCensus.Path

set_option autoImplicit false

/-- The names of entries in a directory: neither empty nor one of the two dot names, and without a
slash. -/
def IsPlain (name : List Char) : Prop :=
  name ≠ [] ∧ name ≠ ['.'] ∧ name ≠ ['.', '.'] ∧ '/' ∉ name

instance (name : List Char) : Decidable (IsPlain name) :=
  inferInstanceAs (Decidable (_ ∧ _ ∧ _ ∧ _))

/-- The absolute path that leads from the root through the given names. -/
def absolute (names : List String) : String :=
  String.ofList ('/' :: glue (names.map String.toList))

/-! ### Cutting and gluing -/

theorem cut_of_no_slash (part : List Char) (clean : '/' ∉ part) : cut part = [part] := by
  induction part with
  | nil => rfl
  | cons c rest ih =>
      have head : (c == '/') = false := by
        simp only [beq_eq_false_iff_ne]
        intro same
        exact clean (by simp [same])
      have tail : '/' ∉ rest := fun member => clean (List.mem_cons_of_mem c member)
      simp [cut, head, ih tail]

theorem cut_ne_nil (path : List Char) : cut path ≠ [] := by
  cases path with
  | nil => simp [cut]
  | cons c rest =>
      cases pieces : cut rest <;> by_cases slash : c = '/' <;> simp [cut, slash, pieces]

/-- A slash between two paths keeps their pieces apart. -/
theorem cut_append_slash (first second : List Char) :
    cut (first ++ '/' :: second) = cut first ++ cut second := by
  induction first with
  | nil => simp [cut]
  | cons c rest ih =>
      by_cases slash : c = '/'
      · simp [cut, slash, ih]
      · obtain ⟨part, parts, pieces⟩ := List.exists_cons_of_ne_nil (cut_ne_nil rest)
        simp [cut, slash, ih, pieces]

theorem cut_no_slash (path : List Char) : ∀ part ∈ cut path, '/' ∉ part := by
  induction path with
  | nil => simp [cut]
  | cons c rest ih =>
      by_cases slash : c = '/'
      · subst slash
        simpa [cut] using ih
      · have head : (c == '/') = false := by simpa using slash
        cases pieces : cut rest with
        | nil => simp [cut, head, pieces, Ne.symm slash]
        | cons part parts =>
            rw [pieces] at ih
            simpa [cut, head, pieces, Ne.symm slash] using ih

theorem glue_cons_cons (first second : List Char) (rest : List (List Char)) :
    glue (first :: second :: rest) = first ++ '/' :: glue (second :: rest) := by
  simp [glue, List.intercalate]

theorem cut_glue (first : List Char) (rest : List (List Char))
    (clean : ∀ part ∈ first :: rest, '/' ∉ part) : cut (glue (first :: rest)) = first :: rest := by
  induction rest generalizing first with
  | nil => simpa [glue, List.intercalate] using cut_of_no_slash first (clean first (by simp))
  | cons second rest ih =>
      rw [glue_cons_cons, cut_append_slash, cut_of_no_slash first (clean first (by simp)),
        ih second (fun part member => clean part (List.mem_cons_of_mem first member))]
      rfl

/-- The parts of an absolute path are the names it was made of. -/
theorem parts_slash_glue (names : List (List Char)) (plain : ∀ name ∈ names, IsPlain name) :
    parts ('/' :: glue names) = names := by
  have cutRest : parts ('/' :: glue names) = (cut (glue names)).filter (!·.isEmpty) := by
    simp [parts, cut]
  rw [cutRest]
  cases names with
  | nil => simp [glue, List.intercalate, cut]
  | cons first rest =>
      rw [cut_glue first rest (fun part member => (plain part member).2.2.2)]
      apply List.filter_eq_self.mpr
      intro part member
      simpa using (plain part member).1

/-! ### Working out dots -/

theorem push_plain (isRooted : Bool) (done : List (List Char)) (name : List Char)
    (plain : IsPlain name) : push isRooted done name = name :: done := by
  simp [push, plain.2.1, plain.2.2.1]

/-- Below the root two dots never stay: what is done consists of plain names only. -/
theorem push_keeps_plain (done : List (List Char)) (part : List Char)
    (plain : ∀ name ∈ done, IsPlain name) (filled : part ≠ []) (clean : '/' ∉ part) :
    ∀ name ∈ push true done part, IsPlain name := by
  unfold push
  by_cases here : part = ['.']
  · simpa [here] using plain
  · by_cases up : part = ['.', '.']
    · cases done with
      | nil => simp [up]
      | cons last rest =>
          have lastPlain := plain last (by simp)
          have restPlain : ∀ name ∈ rest, IsPlain name :=
            fun name member => plain name (List.mem_cons_of_mem last member)
          simpa [up, lastPlain.2.2.1] using restPlain
    · simp only [beq_iff_eq, here, up, if_false]
      intro name member
      rcases List.mem_cons.mp member with rfl | earlier
      · exact ⟨filled, here, up, clean⟩
      · exact plain name earlier

theorem foldl_push_of_plain (isRooted : Bool) (names done : List (List Char))
    (plain : ∀ name ∈ names, IsPlain name) :
    names.foldl (push isRooted) done = names.reverse ++ done := by
  induction names generalizing done with
  | nil => rfl
  | cons name rest ih =>
      rw [List.foldl_cons, push_plain _ _ _ (plain name (by simp)),
        ih (name :: done) (fun other member => plain other (List.mem_cons_of_mem name member))]
      simp

theorem foldl_push_keeps_plain (pieces done : List (List Char))
    (plain : ∀ name ∈ done, IsPlain name) (filled : ∀ part ∈ pieces, part ≠ [])
    (clean : ∀ part ∈ pieces, '/' ∉ part) :
    ∀ name ∈ pieces.foldl (push true) done, IsPlain name := by
  induction pieces generalizing done with
  | nil => simpa using plain
  | cons part rest ih =>
      rw [List.foldl_cons]
      apply ih
      · exact push_keeps_plain done part plain (filled part (by simp)) (clean part (by simp))
      · exact fun other member => filled other (List.mem_cons_of_mem part member)
      · exact fun other member => clean other (List.mem_cons_of_mem part member)

theorem normal_parts_slash_glue (names : List (List Char)) (plain : ∀ name ∈ names, IsPlain name) :
    normalParts ('/' :: glue names) = names := by
  simp [normalParts, parts_slash_glue names plain, foldl_push_of_plain _ names [] plain]

theorem normal_parts_plain (path : List Char) : ∀ name ∈ normalParts ('/' :: path), IsPlain name := by
  intro name member
  have pieces : ∀ part ∈ parts ('/' :: path), part ≠ [] ∧ '/' ∉ part := by
    intro part found
    obtain ⟨inCut, filled⟩ := List.mem_filter.mp found
    exact ⟨by simpa using filled, cut_no_slash _ part inCut⟩
  apply foldl_push_keeps_plain (parts ('/' :: path)) [] (by simp)
    (fun part found => (pieces part found).1) (fun part found => (pieces part found).2)
  simpa [normalParts, isAbsolute] using member

/-! ### Absolute paths -/

/-- A resolved path is the path of some plain names. -/
theorem resolve_eq_absolute (directory path : String) :
    ∃ names : List String, (∀ name ∈ names, IsPlain name.toList) ∧
      resolve directory path = absolute names := by
  obtain ⟨whole, resolved⟩ : ∃ whole : List Char,
      resolve directory path = String.ofList ('/' :: glue (normalParts ('/' :: whole))) :=
    ⟨_, rfl⟩
  refine ⟨(normalParts ('/' :: whole)).map String.ofList, ?_, ?_⟩
  · intro name member
    obtain ⟨part, found, rfl⟩ := List.mem_map.mp member
    simpa using normal_parts_plain whole part found
  · rw [resolved, absolute, List.map_map]
    simp [Function.comp_def]

/-- The path of some plain names is resolved as it is, in whichever directory. -/
theorem resolve_absolute (directory : String) (names : List String)
    (plain : ∀ name ∈ names, IsPlain name.toList) :
    resolve directory (absolute names) = absolute names := by
  have spelled : (absolute names).toList = '/' :: glue (names.map String.toList) := by
    rw [absolute, String.toList_ofList]
  have pieces : parts ('/' :: '/' :: glue (names.map String.toList)) = names.map String.toList := by
    have once := parts_slash_glue (names.map String.toList) (by simpa using plain)
    simpa [parts, cut] using once
  have worked : normalParts ('/' :: '/' :: glue (names.map String.toList)) =
      names.map String.toList := by
    rw [normalParts, pieces, foldl_push_of_plain _ _ _ (by simpa using plain)]
    simp
  rw [resolve, spelled]
  simp only [isAbsolute, List.head?_cons, beq_self_eq_true, if_true]
  rw [worked, absolute]

theorem parts_append_slash (first second : List Char) :
    parts (first ++ '/' :: second) = parts first ++ parts second := by
  rw [parts, cut_append_slash, List.filter_append]
  rfl

theorem parts_of_plain (name : List Char) (plain : IsPlain name) : parts name = [name] := by
  simp [parts, cut_of_no_slash name plain.2.2.2, plain.1]

theorem glue_ne_nil (names : List (List Char)) (some : names ≠ [])
    (plain : ∀ name ∈ names, IsPlain name) : glue names ≠ [] := by
  intro empty
  obtain ⟨first, rest, rfl⟩ := List.exists_cons_of_ne_nil some
  have pieces := cut_glue first rest (fun part member => (plain part member).2.2.2)
  rw [empty] at pieces
  have firstEmpty : [] = first := (List.cons.inj pieces).1
  exact (plain first (by simp)).1 firstEmpty.symm

theorem no_slash_behind (front name : List Char) (plain : IsPlain name) :
    (front ++ name).getLast? ≠ some '/' := by
  intro behind
  rw [List.getLast?_append_of_ne_nil _ plain.1] at behind
  exact plain.2.2.2 (List.mem_of_getLast? behind)

/-- Joining puts one name behind the others. -/
theorem join_absolute (names : List String) (name : String)
    (plain : ∀ other ∈ names, IsPlain other.toList) (last : IsPlain name.toList) :
    join (absolute names) name = absolute (names ++ [name]) := by
  have allPlain : ∀ part ∈ names.map String.toList ++ [name.toList], IsPlain part := by
    intro part member
    rcases List.mem_append.mp member with earlier | new
    · obtain ⟨other, found, rfl⟩ := List.mem_map.mp earlier
      exact plain other found
    · rw [List.mem_singleton.mp new]
      exact last
  have glued : glue ([(absolute names).toList, name.toList].filter (!·.isEmpty)) =
      '/' :: glue (names.map String.toList) ++ '/' :: name.toList := by
    simp [absolute, last.1, glue, List.intercalate]
  have parted : normalParts ('/' :: glue (names.map String.toList) ++ '/' :: name.toList) =
      names.map String.toList ++ [name.toList] := by
    have front := parts_slash_glue (names.map String.toList)
      (fun part member => allPlain part (List.mem_append_left _ member))
    rw [normalParts, parts_append_slash, front, parts_of_plain _ last,
      foldl_push_of_plain _ _ _ allPlain]
    simp
  have noSlashBehind : ('/' :: glue (names.map String.toList) ++ '/' :: name.toList).getLast? ≠
      some '/' := by
    rw [List.append_cons]
    exact no_slash_behind _ _ last
  have rooted : isAbsolute ('/' :: glue (names.map String.toList) ++ '/' :: name.toList) = true :=
    rfl
  have body := glue_ne_nil _ (by simp) allPlain
  rw [join, glued]
  unfold normalizeChars
  rw [parted, rooted, beq_eq_false_iff_ne.mpr noSlashBehind]
  simp [body, absolute]

/-- The last part of a path is what stands behind its last slash. -/
theorem base_chars_append (front name : List Char) (plain : IsPlain name) :
    baseChars (front ++ '/' :: name) = name := by
  have clean : ∀ c ∈ name.reverse, (c != '/') = true := by
    intro c member
    have inName := List.mem_reverse.mp member
    simpa using fun slash : c = '/' => plain.2.2.2 (slash ▸ inName)
  have spelled : (front ++ '/' :: name).reverse = name.reverse ++ '/' :: front.reverse := by simp
  have kept : (name.reverse ++ '/' :: front.reverse).dropWhile (· == '/') =
      name.reverse ++ '/' :: front.reverse := by
    obtain ⟨c, rest, chars⟩ := List.exists_cons_of_ne_nil (List.reverse_ne_nil_iff.mpr plain.1)
    have first := clean c (by simp [chars])
    have notSlash : (c == '/') = false := by simpa using first
    rw [chars, List.cons_append, List.dropWhile_cons, notSlash]
    rfl
  rw [baseChars, spelled, kept, List.takeWhile_append_of_pos clean]
  simp

/-- Glued parts end in the last of them, with a slash before it. -/
theorem slash_glue_concat (before : List (List Char)) (name : List Char) :
    ∃ front, '/' :: glue (before ++ [name]) = front ++ '/' :: name := by
  induction before with
  | nil => exact ⟨[], by simp [glue, List.intercalate]⟩
  | cons first rest ih =>
      obtain ⟨front, same⟩ := ih
      obtain ⟨second, more, pieces⟩ := List.exists_cons_of_ne_nil
        (show rest ++ [name] ≠ [] by simp)
      refine ⟨'/' :: first ++ front, ?_⟩
      rw [List.cons_append, pieces, glue_cons_cons, ← pieces, same]
      simp

theorem base_absolute (names : List String) (name : String) (plain : IsPlain name.toList) :
    base (absolute (names ++ [name])) = name := by
  obtain ⟨front, same⟩ := slash_glue_concat (names.map String.toList) name.toList
  rw [base, absolute, String.toList_ofList, List.map_append, List.map_singleton, same,
    base_chars_append front _ plain, String.ofList_toList]

theorem absolute_injective (left right : List String)
    (leftPlain : ∀ name ∈ left, IsPlain name.toList)
    (rightPlain : ∀ name ∈ right, IsPlain name.toList)
    (same : absolute left = absolute right) : left = right := by
  have chars : '/' :: glue (left.map String.toList) = '/' :: glue (right.map String.toList) := by
    exact String.ofList_injective same
  have names := congrArg normalParts chars
  rw [normal_parts_slash_glue _ (by simpa using leftPlain),
    normal_parts_slash_glue _ (by simpa using rightPlain)] at names
  exact List.map_injective_iff.mpr (fun _ _ => String.toList_injective) names

theorem glue_ends (before : List (List Char)) (name : List Char) : name <:+ glue (before ++ [name]) := by
  obtain ⟨front, same⟩ := slash_glue_concat before name
  cases front with
  | nil => exact ⟨[], (List.cons.inj same).2.symm⟩
  | cons first rest =>
      have spelled : glue (before ++ [name]) = rest ++ '/' :: name := (List.cons.inj same).2
      rw [spelled, List.append_cons]
      exact List.suffix_append _ _

/-- A plain name at the end of a path stays at its end when the dots are worked out. -/
theorem normalize_ends {front name : List Char} (plain : IsPlain name) {before : List (List Char)}
    (parted : parts (front ++ name) = before ++ [name]) : name <:+ normalizeChars (front ++ name) := by
  have worked : normalParts (front ++ name) =
      (before.foldl (push (isAbsolute (front ++ name))) []).reverse ++ [name] := by
    rw [normalParts, parted, List.foldl_append, List.foldl_cons, List.foldl_nil,
      push_plain _ _ _ plain, List.reverse_cons]
  have inBody : name <:+ glue (normalParts (front ++ name)) := by
    rw [worked]
    exact glue_ends _ _
  have filled : (front ++ name).isEmpty = false := by simp [plain.1]
  have bodyFilled : (glue (normalParts (front ++ name))).isEmpty = false := by
    rw [List.isEmpty_eq_false_iff]
    intro nothing
    rw [nothing, List.suffix_nil] at inBody
    exact plain.1 inBody
  have noSlash : ((front ++ name).getLast? == some '/') = false :=
    beq_eq_false_iff_ne.mpr (no_slash_behind front _ plain)
  simp only [normalizeChars, filled, noSlash, bodyFilled, Bool.false_eq_true, if_false, List.append_nil]
  split
  · exact inBody.trans (List.suffix_cons _ _)
  · exact inBody

/-- Whatever a name is joined to, the path ends in it. -/
theorem join_ends (directory name : String) (plain : IsPlain name.toList) :
    name.toList <:+ (join directory name).toList := by
  have alone := parts_of_plain _ plain
  rw [join, String.toList_ofList]
  by_cases empty : directory.toList = []
  · have given : glue ([directory.toList, name.toList].filter (!·.isEmpty)) = [] ++ name.toList := by
      simp [empty, plain.1, glue, List.intercalate]
    rw [given]
    exact normalize_ends plain (by rw [List.nil_append, alone, List.nil_append])
  · have given : glue ([directory.toList, name.toList].filter (!·.isEmpty)) =
        (directory.toList ++ ['/']) ++ name.toList := by
      simp [empty, plain.1, glue, List.intercalate]
    rw [given]
    apply normalize_ends plain
    rw [List.append_assoc, List.singleton_append, parts_append_slash, alone]

theorem plain_append {front behind : List String}
    (frontPlain : ∀ name ∈ front, IsPlain name.toList)
    (behindPlain : ∀ name ∈ behind, IsPlain name.toList) :
    ∀ name ∈ front ++ behind, IsPlain name.toList := by
  intro name member
  rcases List.mem_append.mp member with inFront | inBehind
  · exact frontPlain name inFront
  · exact behindPlain name inBehind

theorem plain_concat {names : List String} {last : String}
    (plain : ∀ name ∈ names, IsPlain name.toList) (lastPlain : IsPlain last.toList) :
    ∀ name ∈ names ++ [last], IsPlain name.toList :=
  plain_append plain (by simpa using lastPlain)

/-- Paths that go on from one directory are the same only if they go on by the same names. -/
theorem absolute_append_injective {front left right : List String}
    (plain : ∀ name ∈ front, IsPlain name.toList) (leftPlain : ∀ name ∈ left, IsPlain name.toList)
    (rightPlain : ∀ name ∈ right, IsPlain name.toList)
    (same : absolute (front ++ left) = absolute (front ++ right)) : left = right :=
  List.append_cancel_left (absolute_injective _ _ (plain_append plain leftPlain)
    (plain_append plain rightPlain) same)

end LineCensus.Path
