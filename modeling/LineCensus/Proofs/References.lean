import LineCensus.Proofs.Documents

/-!
Links and images on a line. Brackets can stand inside one another, so links can begin at more places
than there are links that lie apart. Counting takes the first one, goes on behind it and takes the next.
None that begins later ends earlier; so no other choice takes in more of them.
-/

namespace LineCensus.Markdown

set_option autoImplicit false

/-! ### Spans that lie apart -/

structure Span where
  start : Nat
  stop : Nat

namespace Span

def Apart (first second : Span) : Prop := first.stop ≤ second.start ∨ second.stop ≤ first.start

variable (occurs : Span → Prop)

/-- Whether as many spans as given, and no more, can be chosen so that they lie apart. -/
structure IsMost (count : Nat) : Prop where
  reached : ∃ spans : List Span, (∀ span ∈ spans, occurs span) ∧ spans.Pairwise Apart ∧
    spans.length = count
  bound : ∀ spans : List Span, (∀ span ∈ spans, occurs span) → spans.Pairwise Apart →
    spans.length ≤ count

/-- How many spans are found from a position on, up to the size of the text, by taking each one where
it begins and going on behind it. -/
inductive FoundFrom (size : Nat) : Nat → Nat → Prop
  | done : FoundFrom size size 0
  | taken (start stop count : Nat) (here : occurs ⟨start, stop⟩)
      (later : FoundFrom size stop count) : FoundFrom size start (count + 1)
  | passed (start count : Nat) (inside : start < size) (nowhere : ∀ stop, ¬occurs ⟨start, stop⟩)
      (later : FoundFrom size (start + 1) count) : FoundFrom size start count

/-- Whether spans take something in, and end in the order in which they begin. -/
structure InOrder (size : Nat) : Prop where
  filled : ∀ span, occurs span → span.start < span.stop
  inside : ∀ span, occurs span → span.stop ≤ size
  ordered : ∀ first second, occurs first → occurs second → first.start ≤ second.start →
    first.stop ≤ second.stop

variable {occurs} {size start count : Nat}

theorem found_reached (inOrder : InOrder occurs size) (found : FoundFrom occurs size start count) :
    ∃ spans : List Span, (∀ span ∈ spans, occurs span ∧ start ≤ span.start) ∧
      spans.Pairwise Apart ∧ spans.length = count := by
  induction found with
  | done => exact ⟨[], by simp, .nil, rfl⟩
  | taken start stop count here later ih =>
      obtain ⟨spans, behind, apart, size⟩ := ih
      have filled : start < stop := inOrder.filled _ here
      refine ⟨⟨start, stop⟩ :: spans, ?_, ?_, by rw [List.length_cons, size]⟩
      · intro span member
        rcases List.mem_cons.mp member with rfl | inRest
        · exact ⟨here, Nat.le_refl _⟩
        · have bounds := behind span inRest
          exact ⟨bounds.1, by omega⟩
      · apply List.Pairwise.cons
        · intro span inRest
          exact .inl (behind span inRest).2
        · exact apart
  | passed start count inside nowhere later ih =>
      obtain ⟨spans, behind, rest⟩ := ih
      refine ⟨spans, ?_, rest⟩
      intro span member
      have bounds := behind span member
      exact ⟨bounds.1, by omega⟩

/-- Of spans that lie apart only one can begin before the first span to be taken has ended. -/
theorem begun_before_le_one (inOrder : InOrder occurs size) {stop : Nat}
    (here : occurs ⟨start, stop⟩) {spans : List Span}
    (behind : ∀ span ∈ spans, occurs span ∧ start ≤ span.start) (apart : spans.Pairwise Apart) :
    (spans.filter fun span => span.start < stop).length ≤ 1 := by
  -- Two that both begin in it would both reach its end, and so would overlap there.
  have reaching : ∀ span ∈ spans, stop ≤ span.stop := fun span member =>
    inOrder.ordered _ _ here (behind span member).1 (behind span member).2
  cases begun : spans.filter fun span => span.start < stop with
  | nil => simp
  | cons first rest =>
      cases rest with
      | nil => simp
      | cons second others =>
          have members : ∀ span ∈ first :: second :: others, span ∈ spans ∧ span.start < stop := by
            intro span member
            rw [← begun, List.mem_filter, decide_eq_true_eq] at member
            exact member
          have firstBegun := members first (by simp)
          have secondBegun := members second (by simp)
          have two : Apart first second := by
            have kept := apart.filter fun span => span.start < stop
            rw [begun] at kept
            exact List.rel_of_pairwise_cons kept (by simp)
          have firstEnd := reaching first firstBegun.1
          have secondEnd := reaching second secondBegun.1
          rcases two with before | after <;> omega

theorem found_bound (inOrder : InOrder occurs size) (found : FoundFrom occurs size start count)
    (spans : List Span) (behind : ∀ span ∈ spans, occurs span ∧ start ≤ span.start)
    (apart : spans.Pairwise Apart) : spans.length ≤ count := by
  induction found generalizing spans with
  | done =>
      have none_left : spans = [] := by
        apply List.eq_nil_iff_forall_not_mem.mpr
        intro span member
        have occurring := behind span member
        have filled := inOrder.filled span occurring.1
        have inside := inOrder.inside span occurring.1
        omega
      rw [none_left, List.length_nil]
  | taken start stop count here later ih =>
      -- At most one of the spans begins in the one that is taken. The others are left for behind it.
      have begun := begun_before_le_one inOrder here behind apart
      have others := ih (spans.filter fun span => !decide (span.start < stop)) (by
        intro span member
        rw [List.mem_filter, Bool.not_eq_true', decide_eq_false_iff_not] at member
        exact ⟨(behind span member.1).1, by omega⟩) (apart.filter _)
      have parts := List.length_eq_length_filter_add (l := spans) fun span => span.start < stop
      omega
  | passed start count inside nowhere later ih =>
      apply ih spans
      · intro span member
        have bounds := behind span member
        have other : span.start ≠ start := by
          rintro rfl
          exact nowhere span.stop bounds.1
        exact ⟨bounds.1, by omega⟩
      · exact apart

theorem found_is_most (inOrder : InOrder occurs size) (found : FoundFrom occurs size 0 count) :
    IsMost occurs count where
  reached := by
    obtain ⟨spans, behind, rest⟩ := found_reached inOrder found
    exact ⟨spans, fun span member => (behind span member).1, rest⟩
  bound := by
    intro spans members apart
    apply found_bound inOrder found spans _ apart
    exact fun span member => ⟨members span member, Nat.zero_le _⟩

end Span

/-! ### Links and images -/

/-- A text in brackets, with a target in parentheses right behind it. Only the text may be empty, and
only where that is allowed. -/
def IsReference (emptyAllowed : Bool) (text : List Char) : Prop :=
  ∃ label target, text = '[' :: (label ++ ']' :: '(' :: (target ++ [')'])) ∧
    ']' ∉ label ∧ ')' ∉ target ∧ target ≠ [] ∧ (label = [] → emptyAllowed = true)

/-- Whether a text is a link behind another one: an exclamation mark would make it an image. -/
def IsLink (before text : List Char) : Prop :=
  before.getLast? ≠ some '!' ∧ IsReference false text

def IsImage (_ text : List Char) : Prop :=
  ∃ reference, text = '!' :: reference ∧ IsReference true reference

/-- Whether a span of some characters takes in a text that is what `IsWhole` says behind the characters
before it. -/
def TakesIn (IsWhole : List Char → List Char → Prop) (chars : List Char) (span : Span) : Prop :=
  ∃ before text after, chars = before ++ (text ++ after) ∧ IsWhole before text ∧
    span.start = before.length ∧ span.stop = (before ++ text).length

/-! ### Order -/

/-- Whether a text goes up to the first bracket that closes, and from there to the first parenthesis that
closes. -/
def ClosesTwice (text : List Char) : Prop :=
  ∃ front back, text = front ++ ']' :: (back ++ [')']) ∧ ']' ∉ front ∧ ')' ∉ back

theorem IsReference.closes {emptyAllowed : Bool} {text : List Char}
    (reference : IsReference emptyAllowed text) : ClosesTwice text := by
  obtain ⟨label, target, rfl, labelFree, targetFree, -⟩ := reference
  exact ⟨'[' :: label, '(' :: target, rfl, by simpa using labelFree, by simpa using targetFree⟩

theorem IsImage.closes {before text : List Char} (image : IsImage before text) :
    ClosesTwice text := by
  obtain ⟨reference, rfl, isReference⟩ := image
  obtain ⟨front, back, rfl, frontFree, backFree⟩ := isReference.closes
  exact ⟨'!' :: front, back, rfl, by simpa using frontFree, backFree⟩

theorem suffix_behind_first {closer : Char} {front rest behind : List Char} (before : List Char)
    (free : closer ∉ front) (same : front ++ closer :: rest = before ++ closer :: behind) :
    behind <:+ rest := by
  rcases List.append_eq_append_iff.mp same with ⟨gap, rfl, later⟩ | ⟨gap, rfl, later⟩
  · cases gap with
    | nil =>
        rw [List.nil_append, List.cons.injEq] at later
        rw [later.2]
    | cons first gap =>
        rw [List.cons_append, List.cons.injEq] at later
        rw [later.2]
        exact ⟨gap ++ [closer], by simp⟩
  · cases gap with
    | nil =>
        rw [List.nil_append, List.cons.injEq] at later
        rw [later.2]
    | cons first gap =>
        rw [List.cons_append, List.cons.injEq] at later
        exact absurd (by simp [later.1]) free

theorem ClosesTwice.suffix {text other after behind : List Char} (closes : ClosesTwice text)
    (otherCloses : ClosesTwice other) (later : other ++ behind <:+ text ++ after) :
    behind <:+ after := by
  obtain ⟨front, back, rfl, frontFree, backFree⟩ := closes
  obtain ⟨otherFront, otherBack, rfl, -, -⟩ := otherCloses
  obtain ⟨gap, same⟩ := later
  -- The first bracket that closes is not behind the other one's, nor is the first parenthesis then.
  have brackets : otherBack ++ ')' :: behind <:+ back ++ ')' :: after := by
    apply suffix_behind_first (gap ++ otherFront) frontFree
    simpa using same.symm
  obtain ⟨between, samePart⟩ := brackets
  apply suffix_behind_first (between ++ otherBack) backFree
  simpa using samePart.symm

theorem takes_in_order {IsWhole : List Char → List Char → Prop}
    (closes : ∀ before text, IsWhole before text → ClosesTwice text) (chars : List Char) :
    Span.InOrder (TakesIn IsWhole chars) chars.length where
  filled := by
    rintro ⟨_, _⟩ ⟨before, text, after, -, whole, rfl, rfl⟩
    obtain ⟨front, back, rfl, -⟩ := closes before text whole
    simp
  inside := by
    rintro ⟨_, _⟩ ⟨before, text, after, rfl, -, rfl, rfl⟩
    simp
  ordered := by
    rintro ⟨_, _⟩ ⟨_, _⟩ ⟨before, text, after, rfl, whole, rfl, rfl⟩
      ⟨otherBefore, other, behind, same, otherWhole, rfl, rfl⟩
      (begins : before.length ≤ otherBefore.length)
    have later : other ++ behind <:+ text ++ after := by
      have inSame : other ++ behind <:+ before ++ (text ++ after) := same ▸ List.suffix_append _ _
      apply List.suffix_of_suffix_length_le inSame (List.suffix_append _ _)
      have sizes := congrArg List.length same
      simp only [List.length_append] at sizes ⊢
      omega
    have shorter := ((closes _ _ whole).suffix (closes _ _ otherWhole) later).length_le
    have sizes := congrArg List.length same
    simp only [List.length_append] at sizes ⊢
    omega

/-! ### Reading references -/

theorem after_text_eq_some_iff (emptyAllowed : Bool) (closer : Char) (chars rest : List Char) :
    afterText emptyAllowed closer chars = some rest ↔
      ∃ text, chars = text ++ closer :: rest ∧ closer ∉ text ∧ (text = [] → emptyAllowed = true) := by
  constructor
  · intro found
    have parts : chars.takeWhile (· != closer) ++ chars.dropWhile (· != closer) = chars :=
      List.takeWhile_append_dropWhile
    rw [afterText] at found
    split at found
    · cases found
    · rename_i other behind dropped
      split at found
      · cases found
      · rename_i allowed
        rw [dropped] at parts
        cases found
        have isCloser : other = closer := by
          have stopped := List.head_dropWhile_not (· != closer) (l := chars) (by simp [dropped])
          simpa [dropped] using stopped
        subst isCloser
        refine ⟨chars.takeWhile (· != other), parts.symm, ?_, ?_⟩
        · intro member
          simpa using List.mem_takeWhile_imp member
        · intro empty
          rw [empty, List.nil_append] at parts
          rw [← parts] at allowed
          simpa using allowed
  · rintro ⟨text, rfl, free, allowed⟩
    have dropped : (text ++ closer :: rest).dropWhile (· != closer) = closer :: rest := by
      rw [List.dropWhile_append_of_pos, List.dropWhile_cons_of_neg (by simp)]
      intro c member
      have other : c ≠ closer := by
        rintro rfl
        exact free member
      simpa using other
    rw [afterText, dropped]
    cases text with
    | nil => simp [allowed rfl]
    | cons first text =>
        have other : first ≠ closer := fun same => free (by simp [same])
        simp [other]

theorem after_reference_eq_some_iff (emptyAllowed : Bool) (chars rest : List Char) :
    afterReference emptyAllowed chars = some rest ↔
      ∃ text, '[' :: chars = text ++ rest ∧ IsReference emptyAllowed text := by
  rw [afterReference]
  constructor
  · intro found
    split at found
    · rename_i behind labelled
      obtain ⟨label, rfl, labelFree, allowed⟩ := (after_text_eq_some_iff _ _ _ _).mp labelled
      obtain ⟨target, rfl, targetFree, filled⟩ := (after_text_eq_some_iff _ _ _ _).mp found
      refine ⟨'[' :: (label ++ ']' :: '(' :: (target ++ [')'])), by simp, label, target, rfl, labelFree,
        targetFree, ?_, allowed⟩
      intro empty
      cases filled empty
    · cases found
  · rintro ⟨_, same, label, target, rfl, labelFree, targetFree, filled, allowed⟩
    have parts : chars = label ++ ']' :: '(' :: (target ++ ')' :: rest) := by simpa using same
    have labelled := (after_text_eq_some_iff emptyAllowed ']' chars _).mpr
      ⟨label, parts, labelFree, allowed⟩
    have targeted := (after_text_eq_some_iff false ')' _ rest).mpr
      ⟨target, rfl, targetFree, fun empty => absurd empty filled⟩
    rw [labelled]
    exact targeted

theorem after_link_eq_some_iff (chars rest : List Char) :
    afterLink chars = some rest ↔ ∃ text, chars = text ++ rest ∧ IsReference false text := by
  constructor
  · intro found
    unfold afterLink at found
    split at found
    · exact (after_reference_eq_some_iff _ _ _).mp found
    · cases found
  · rintro ⟨text, rfl, reference⟩
    have found := reference
    obtain ⟨label, target, rfl, -⟩ := reference
    exact (after_reference_eq_some_iff false _ rest).mpr ⟨_, rfl, found⟩

theorem after_image_eq_some_iff (before chars rest : List Char) :
    afterImage chars = some rest ↔ ∃ text, chars = text ++ rest ∧ IsImage before text := by
  constructor
  · intro found
    unfold afterImage at found
    split at found
    · obtain ⟨text, same, reference⟩ := (after_reference_eq_some_iff _ _ _).mp found
      exact ⟨'!' :: text, by rw [same, List.cons_append], text, rfl, reference⟩
    · cases found
  · rintro ⟨_, rfl, reference, rfl, isReference⟩
    have found := isReference
    obtain ⟨label, target, rfl, -⟩ := isReference
    exact (after_reference_eq_some_iff true _ rest).mpr ⟨_, rfl, found⟩

/-! ### Counting -/

/-- How many wholes are found in the rest of a text behind what stands before it. -/
def FindsBehind (IsWhole : List Char → List Char → Prop) (before rest : List Char) (count : Nat) :
    Prop :=
  Span.FoundFrom (TakesIn IsWhole (before ++ rest)) (before ++ rest).length before.length count

section Steps

variable {IsWhole : List Char → List Char → Prop} {before : List Char}

theorem finds_at_end : FindsBehind IsWhole before [] 0 := by
  rw [FindsBehind, List.append_nil]
  exact .done

theorem finds_taken {text after : List Char} {count : Nat} (whole : IsWhole before text)
    (later : FindsBehind IsWhole (before ++ text) after count) :
    FindsBehind IsWhole before (text ++ after) (count + 1) := by
  rw [FindsBehind, List.append_assoc] at later
  exact .taken _ _ _ ⟨before, text, after, rfl, whole, rfl, rfl⟩ later

theorem finds_passed {c : Char} {rest : List Char} {count : Nat}
    (none : ∀ text after, c :: rest = text ++ after → ¬IsWhole before text)
    (later : FindsBehind IsWhole (before ++ [c]) rest count) :
    FindsBehind IsWhole before (c :: rest) count := by
  have next : (before ++ [c]).length = before.length + 1 := List.length_append
  rw [FindsBehind, List.append_assoc, next] at later
  apply Span.FoundFrom.passed _ _ (by simp) _ later
  rintro stop ⟨other, text, after, same, whole, starts, -⟩
  obtain ⟨rfl, rest⟩ := List.append_inj same starts
  exact none text after rest whole

end Steps

theorem ClosesTwice.shorter {text after : List Char} {bound : Nat} (closes : ClosesTwice text)
    (enough : (text ++ after).length ≤ bound + 1) : after.length ≤ bound := by
  obtain ⟨front, back, rfl, -⟩ := closes
  simp only [List.length_append, List.length_cons] at enough
  omega

theorem images_found (bound : Nat) (before rest : List Char) (enough : rest.length ≤ bound) :
    FindsBehind IsImage before rest (imagesFrom bound rest) := by
  induction bound generalizing before rest with
  | zero =>
      obtain rfl := List.length_eq_zero_iff.mp (Nat.le_zero.mp enough)
      exact finds_at_end
  | succ bound ih =>
      cases rest with
      | nil => exact finds_at_end
      | cons c rest =>
          rw [imagesFrom]
          cases found : afterImage (c :: rest) with
          | some after =>
              obtain ⟨text, same, image⟩ := (after_image_eq_some_iff before _ _).mp found
              rw [same] at enough ⊢
              exact finds_taken image (ih _ after (image.closes.shorter enough))
          | none =>
              apply finds_passed
              · intro text after same image
                cases found.symm.trans ((after_image_eq_some_iff before _ _).mpr ⟨text, same, image⟩)
              · exact ih _ rest (Nat.le_of_succ_le_succ enough)

theorem IsReference.last {emptyAllowed : Bool} {text : List Char}
    (reference : IsReference emptyAllowed text) (before : List Char) :
    (before ++ text).getLast? = some ')' := by
  obtain ⟨label, target, rfl, -⟩ := reference
  have parts : before ++ '[' :: (label ++ ']' :: '(' :: (target ++ [')'])) =
      before ++ '[' :: (label ++ ']' :: '(' :: target) ++ [')'] := by simp
  rw [parts, List.getLast?_concat]

theorem links_found (bound : Nat) (before rest : List Char) (enough : rest.length ≤ bound) :
    FindsBehind IsLink before rest (linksFrom bound (before.getLast?.getD ' ') rest) := by
  induction bound generalizing before rest with
  | zero =>
      obtain rfl := List.length_eq_zero_iff.mp (Nat.le_zero.mp enough)
      exact finds_at_end
  | succ bound ih =>
      cases rest with
      | nil => exact finds_at_end
      | cons c rest =>
          rw [linksFrom]
          have marked : (before.getLast?.getD ' ' == '!') = true ↔ before.getLast? = some '!' := by
            cases before.getLast? <;> simp
          split
          · rename_i after found
            split at found
            · cases found
            · rename_i noMark
              have unmarked := mt marked.mpr noMark
              obtain ⟨text, same, reference⟩ := (after_link_eq_some_iff _ _).mp found
              have later := ih (before ++ text) after
              rw [reference.last before] at later
              rw [same] at enough ⊢
              exact finds_taken ⟨unmarked, reference⟩ (later (reference.closes.shorter enough))
          · rename_i found
            apply finds_passed
            · rintro text after same ⟨unmarked, reference⟩
              rw [if_neg (mt marked.mp unmarked)] at found
              cases found.symm.trans ((after_link_eq_some_iff _ _).mpr ⟨text, same, reference⟩)
            · have later := ih (before ++ [c]) rest (Nat.le_of_succ_le_succ enough)
              rw [List.getLast?_concat] at later
              exact later

/-! ### Lines -/

/-- Whether a number of wholes is what taking the first one, then the first one behind it, and so on, gives
for some characters, and is the most of them that lie apart. -/
structure IsBestCount (IsWhole : List Char → List Char → Prop) (chars : List Char) (count : Nat) :
    Prop where
  leftmost : Span.FoundFrom (TakesIn IsWhole chars) chars.length 0 count
  most : Span.IsMost (TakesIn IsWhole chars) count

theorem is_best_count {IsWhole : List Char → List Char → Prop}
    (closes : ∀ before text, IsWhole before text → ClosesTwice text) {chars : List Char} {count : Nat}
    (found : FindsBehind IsWhole [] chars count) : IsBestCount IsWhole chars count :=
  ⟨found, Span.found_is_most (takes_in_order closes chars) found⟩

/-- A document has as many links and images as its inspected lines hold, and each of these holds as many
as can be chosen on it so that they lie apart. -/
theorem references_counted_best (lines : List String) :
    (details lines).links = ((inspected lines).map fun (line, _) => countLinks line).sum ∧
    (details lines).images = ((inspected lines).map fun (line, _) => countImages line).sum ∧
    ∀ line : String, IsBestCount IsLink line.toList (countLinks line) ∧
      IsBestCount IsImage line.toList (countImages line) := by
  have described := details_describe lines
  refine ⟨described.links, described.images, fun line => ⟨?_, ?_⟩⟩
  · apply is_best_count fun before text link => link.2.closes
    exact links_found _ [] line.toList (Nat.le_refl _)
  · apply is_best_count fun before text image => image.closes
    exact images_found _ [] line.toList (Nat.le_refl _)

/-- Two links begin here, and both end at the end of the line. -/
example : countLinks "[a]([b](c)" = 1 := by decide +kernel

end LineCensus.Markdown
