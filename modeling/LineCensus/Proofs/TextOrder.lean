import LineCensus.Text.Units
import Mathlib

/-!
Texts in order. The order by units puts any two different texts in an order of their own, although
characters of one unit and of two are mixed in it; so what is sorted by texts that are all different
increases from each member to the next.
-/

namespace LineCensus.Text

set_option autoImplicit false

/-! ### Order by units -/

/-- What begins with the units of a character begins with no other character. -/
theorem units_of_append_inj {c d : Char} {left right : List Nat}
    (same : unitsOf c ++ left = unitsOf d ++ right) : c = d ∧ left = right := by
  -- A unit of a longer character is never a character of its own.
  have alone (e : Char) : ¬(0xd800 ≤ e.toNat ∧ e.toNat < 0xe000) := by
    have valid := e.valid
    simp only [UInt32.isValidChar, Nat.isValidChar] at valid
    change ¬(0xd800 ≤ e.val.toNat ∧ e.val.toNat < 0xe000)
    omega
  have bounded (e : Char) : e.toNat < 0x110000 := by
    have valid := e.valid
    simp only [UInt32.isValidChar, Nat.isValidChar] at valid
    change e.val.toNat < 0x110000
    omega
  have leftAlone := alone c
  have rightAlone := alone d
  have leftBound := bounded c
  have rightBound := bounded d
  have number (codes : c.toNat = d.toNat) : c = d := Char.toNat_inj.mp codes
  unfold unitsOf at same
  split at same <;> split at same <;>
    simp only [List.cons_append, List.nil_append, List.cons.injEq] at same
  · exact ⟨number same.1, same.2⟩
  · omega
  · omega
  · exact ⟨number (by omega), same.2.2⟩

theorem units_injective : Function.Injective units := by
  have chars (left right : List Char) (same : left.flatMap unitsOf = right.flatMap unitsOf) :
      left = right := by
    have filled (c : Char) : unitsOf c ≠ [] := by
      unfold unitsOf
      split <;> simp
    induction left generalizing right with
    | nil =>
        cases right with
        | nil => rfl
        | cons d rest => simp [filled] at same
    | cons c left ih =>
        cases right with
        | nil => simp [filled] at same
        | cons d right =>
            rw [List.flatMap_cons, List.flatMap_cons] at same
            obtain ⟨rfl, rest⟩ := units_of_append_inj same
            rw [ih right rest]
  intro left right same
  exact String.toList_injective (chars _ _ same)

theorem is_before_iff (a b : String) : isBefore a b = true ↔ units a < units b := by
  rw [isBefore, decide_eq_true_eq]

theorem is_before_irrefl (a : String) : isBefore a a = false := by
  simp [isBefore]

theorem is_before_asymm {a b : String} (before : isBefore a b = true) : isBefore b a = false := by
  rw [is_before_iff] at before
  simpa [isBefore] using List.lt_asymm before

theorem is_before_of_ne {a b : String} (different : a ≠ b) (notAfter : isBefore b a = false) :
    isBefore a b = true := by
  rw [isBefore, decide_eq_false_iff_not] at notAfter
  rcases Std.lt_trichotomy (units a) (units b) with before | same | behind
  · exact (is_before_iff a b).mpr before
  · exact absurd (units_injective same) different
  · exact absurd behind notAfter

/-! ### Sorting -/

/-- Members under different texts increase when they are sorted by these. -/
theorem sorted_by_increases {α : Type} (key : α → String) {members : List α}
    (distinct : (members.map key).Nodup) :
    (members.mergeSort fun a b => !isBefore (key b) (key a)).Pairwise
      fun a b => isBefore (key a) (key b) = true := by
  have ordered : (members.mergeSort fun a b => !isBefore (key b) (key a)).Pairwise
      fun a b => (!isBefore (key b) (key a)) = true := by
    apply List.pairwise_mergeSort
    · intro a b c ab bc
      simp only [isBefore, Bool.not_eq_true', decide_eq_false_iff_not, List.not_lt] at ab bc ⊢
      exact List.le_trans ab bc
    · intro a b
      simp only [isBefore, Bool.or_eq_true, Bool.not_eq_true', decide_eq_false_iff_not, List.not_lt]
      exact List.le_total _ _
  have apart : (members.mergeSort fun a b => !isBefore (key b) (key a)).Pairwise
      fun a b => key a ≠ key b :=
    List.pairwise_map.mp (((List.mergeSort_perm members _).map key).nodup_iff.mpr distinct)
  refine (ordered.and apart).imp ?_
  rintro a b ⟨notAfter, different⟩
  exact is_before_of_ne different (by simpa using notAfter)

theorem mem_sort (texts : List String) (text : String) : text ∈ sort texts ↔ text ∈ texts :=
  (List.mergeSort_perm texts _).mem_iff

theorem sort_increases {texts : List String} (distinct : texts.Nodup) :
    (sort texts).Pairwise fun a b => isBefore a b = true := by
  apply sorted_by_increases id
  rwa [List.map_id]

/-! ### Members once -/

section

variable {α : Type} [BEq α]

theorem distinct_concat (members : List α) (last : α) : distinct (members ++ [last]) =
    if (distinct members).contains last then distinct members else distinct members ++ [last] := by
  rw [distinct, List.foldl_append, List.foldl_cons, List.foldl_nil, distinct, List.contains_reverse]
  split
  · rfl
  · rw [List.reverse_cons]

variable [LawfulBEq α]

theorem mem_distinct (members : List α) (member : α) :
    member ∈ distinct members ↔ member ∈ members := by
  induction members using List.reverseRecOn with
  | nil => rfl
  | append_singleton members last ih =>
      rw [distinct_concat, List.mem_append, List.mem_singleton]
      split
      case isTrue there =>
        rw [List.contains_iff_mem] at there
        constructor
        · intro kept
          exact .inl (ih.mp kept)
        · rintro (inside | rfl)
          · exact ih.mpr inside
          · exact there
      case isFalse => rw [List.mem_append, List.mem_singleton, ih]

theorem distinct_concat_of_mem {members : List α} {last : α} (there : last ∈ members) :
    distinct (members ++ [last]) = distinct members := by
  rw [distinct_concat, if_pos (List.contains_iff_mem.mpr ((mem_distinct members last).mpr there))]

theorem distinct_concat_of_not_mem {members : List α} {last : α} (new : last ∉ members) :
    distinct (members ++ [last]) = distinct members ++ [last] := by
  have absent : ¬(distinct members).contains last = true := by
    rw [List.contains_iff_mem, mem_distinct]
    exact new
  rw [distinct_concat, if_neg absent]

/-- Members stay in the order in which they occur first. -/
theorem distinct_in_order (members : List α) :
    (distinct members).Pairwise fun a b => members.idxOf a < members.idxOf b := by
  induction members using List.reverseRecOn with
  | nil => exact .nil
  | append_singleton members last ih =>
      have before {a : α} (kept : a ∈ distinct members) :
          (members ++ [last]).idxOf a = members.idxOf a :=
        List.idxOf_append_of_mem ((mem_distinct members a).mp kept)
      have early := ih.imp_of_mem (S := fun a b =>
        (members ++ [last]).idxOf a < (members ++ [last]).idxOf b) fun first second less => by
          rwa [before first, before second]
      by_cases there : last ∈ members
      · rw [distinct_concat_of_mem there]
        exact early
      · rw [distinct_concat_of_not_mem there, List.pairwise_append]
        refine ⟨early, List.pairwise_singleton _ _, ?_⟩
        intro a kept b isLast
        rw [List.mem_singleton.mp isLast, before kept, List.idxOf_append_of_notMem there]
        exact Nat.lt_add_right _ (List.idxOf_lt_length_of_mem ((mem_distinct members a).mp kept))

theorem distinct_nodup (members : List α) : (distinct members).Nodup := by
  apply (distinct_in_order members).imp
  rintro a _ less rfl
  exact lt_irrefl _ less

theorem distinct_of_nodup {members : List α} (once : members.Nodup) : distinct members = members := by
  induction members using List.reverseRecOn with
  | nil => rfl
  | append_singleton members last ih =>
      obtain ⟨front, -, apart⟩ := List.nodup_append.mp once
      have new : last ∉ members := fun there => apart last there last List.mem_cons_self rfl
      rw [distinct_concat_of_not_mem new, ih front]

theorem distinct_append (first second : List α) : distinct (first ++ second) =
    distinct first ++ (distinct second).filter fun member => !first.contains member := by
  induction second using List.reverseRecOn with
  | nil => simp [distinct]
  | append_singleton second last ih =>
      rw [← List.append_assoc]
      by_cases inSecond : last ∈ second
      · rw [distinct_concat_of_mem (List.mem_append_right _ inSecond),
          distinct_concat_of_mem inSecond, ih]
      · rw [distinct_concat_of_not_mem inSecond, List.filter_append, ← List.append_assoc, ← ih]
        by_cases inFirst : last ∈ first
        · rw [distinct_concat_of_mem (List.mem_append_left _ inFirst)]
          simp [inFirst]
        · rw [distinct_concat_of_not_mem (by simp [inFirst, inSecond])]
          simp [inFirst]

/-- Members that come from some others and are added to these once more change nothing. -/
theorem distinct_append_again (first second : List α) :
    distinct (first ++ distinct (first ++ second)) = distinct (first ++ second) := by
  have early : (distinct first).filter (fun member => !first.contains member) = [] := by
    rw [List.filter_eq_nil_iff]
    intro member kept
    simpa [mem_distinct] using kept
  rw [distinct_append, distinct_of_nodup (distinct_nodup _), distinct_append, List.filter_append,
    early, List.nil_append, List.filter_filter]
  simp only [Bool.and_self]

end

end LineCensus.Text
