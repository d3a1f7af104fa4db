import Mathlib

/-!
What sorting keeps. Members can be taken out before or after sorting, and those that are tied stay in the
order in which they were; so what holds between members and those behind them goes on to hold where sorting
does not decide. Two sorted lists of the same members differ among tied members only.
-/

namespace LineCensus

set_option autoImplicit false

section

variable {α : Type} {le : α → α → Bool}

/-- There is one place to cut a list in front of the first member without a property. -/
theorem cut_unique {q : α → Bool} {left right left' right' : List α}
    (same : left ++ right = left' ++ right') (inLeft : ∀ a ∈ left, q a = true)
    (stops : ∀ a, right.head? = some a → q a = false) (inLeft' : ∀ a ∈ left', q a = true)
    (stops' : ∀ a, right'.head? = some a → q a = false) : left = left' ∧ right = right' := by
  have front {left right : List α} (inLeft : ∀ a ∈ left, q a = true)
      (stops : ∀ a, right.head? = some a → q a = false) : (left ++ right).takeWhile q = left := by
    rw [List.takeWhile_append_of_pos inLeft]
    cases right with
    | nil => simp
    | cons a rest => simp [stops a rfl]
  have fronts : left = left' := by
    rw [← front inLeft stops, same, front inLeft' stops']
  subst fronts
  exact ⟨rfl, List.append_cancel_left same⟩

variable (trans : ∀ a b c, le a b = true → le b c = true → le a c = true)
  (total : ∀ a b, (le a b || le b a) = true)

include trans total

/-- Sorting is stable enough to be done before or after members are taken out. -/
theorem filter_merge_sort (p : α → Bool) (members : List α) :
    (members.mergeSort le).filter p = (members.filter p).mergeSort le := by
  have behind {a : α} {before rest all : List α} (sorted : all.mergeSort le = before ++ a :: rest) :
      ∀ b ∈ rest, (!le a b) = false := by
    have ordered := List.pairwise_mergeSort trans total all
    rw [sorted] at ordered
    intro b member
    simpa using List.rel_of_pairwise_cons (List.pairwise_append.mp ordered).2.1 member
  induction members with
  | nil => simp
  | cons a members ih =>
      -- The first member comes to stand behind those that have to be before it and before all others,
      -- whether some of these are taken out or not.
      obtain ⟨before, rest, sorted, others, larger⟩ := List.mergeSort_cons trans total a members
      by_cases kept : p a = true
      · obtain ⟨before', rest', sorted', others', larger'⟩ :=
          List.mergeSort_cons trans total a (members.filter p)
        have same : before.filter p ++ rest.filter p = before' ++ rest' := by
          rw [← List.filter_append, ← others, ih, others']
        obtain ⟨fronts, backs⟩ := cut_unique same
          (fun b member => larger b (List.mem_of_mem_filter member))
          (fun b first => behind sorted b (List.mem_of_mem_filter (List.mem_of_mem_head? first)))
          larger' (fun b first => behind sorted' b (List.mem_of_mem_head? first))
        rw [sorted, List.filter_append, List.filter_cons_of_pos kept,
          List.filter_cons_of_pos kept, sorted', fronts, backs]
      · rw [sorted, List.filter_append, List.filter_cons_of_neg kept,
          List.filter_cons_of_neg kept, ← List.filter_append, ← others, ih]

/-- Members of one rank stay in the order in which they were. -/
theorem merge_sort_ties (p : α → Bool) (members : List α)
    (tied : ∀ a b, p a = true → p b = true → le a b = true) :
    (members.mergeSort le).filter p = members.filter p := by
  rw [filter_merge_sort trans total]
  apply List.mergeSort_of_pairwise
  apply List.pairwise_of_forall_mem_list
  intro a inFirst b inSecond
  exact tied a b (List.mem_filter.mp inFirst).2 (List.mem_filter.mp inSecond).2

theorem merge_sort_stable {before : α → α → Prop} {members : List α}
    (ordered : members.Pairwise before) :
    (members.mergeSort le).Pairwise fun a b => le a b = true ∧ (le b a = true → before a b) := by
  have sorted := List.pairwise_mergeSort trans total members
  rw [List.pairwise_iff_forall_sublist] at sorted ordered ⊢
  intro a b inOrder
  have forth := sorted inOrder
  refine ⟨forth, fun back => ordered ?_⟩
  -- Members that are tied with the first one are tied with each other, so they have not moved.
  have reflexive : le a a = true := by simpa using total a a
  have ofRank := inOrder.filter fun other => le a other && le other a
  rw [merge_sort_ties trans total] at ofRank
  · rw [List.filter_cons_of_pos (by simp [reflexive]), List.filter_cons_of_pos (by simp [forth, back]),
      List.filter_nil] at ofRank
    exact ofRank.trans List.filter_sublist
  · intro first second isFirst isSecond
    rw [Bool.and_eq_true] at isFirst isSecond
    exact trans _ _ _ isFirst.2 isSecond.1

/-- What stands at a place of a sorted list does not come behind what stands there in another one. -/
theorem le_at_of_perm {sorted other : List α} (perm : sorted.Perm other)
    (isSorted : sorted.Pairwise fun a b => le a b = true)
    (otherSorted : other.Pairwise fun a b => le a b = true) (number : Nat)
    (inside : number < sorted.length) (alsoInside : number < other.length) :
    le sorted[number] other[number] = true := by
  by_contra behind
  have reflexive : ∀ a, le a a = true := fun a => by simpa using total a a
  -- Members that have to stand before the one in the first list: too few of them here, too many there.
  let early : α → Bool := fun a => !le sorted[number] a
  have few : sorted.countP early ≤ number := by
    have rest : (sorted.drop number).countP early = 0 := by
      have ordered := isSorted.drop (i := number)
      rw [List.drop_eq_getElem_cons inside] at ordered ⊢
      rw [List.countP_eq_zero]
      intro a member
      rcases List.mem_cons.mp member with rfl | later
      · simp [early, reflexive]
      · simp [early, List.rel_of_pairwise_cons ordered later]
    have front : (sorted.take number).countP early ≤ number :=
      List.countP_le_length.trans (List.length_take_le _ _)
    rw [← List.take_append_drop number sorted, List.countP_append, rest]
    exact front
  have many : number + 1 ≤ other.countP early := by
    have front : (other.take (number + 1)).countP early = number + 1 := by
      have ordered := otherSorted.take (i := number + 1)
      have size : (other.take (number + 1)).length = number + 1 := by
        rw [List.length_take]
        omega
      rw [← List.take_append_getElem alsoInside] at ordered size ⊢
      rw [← size, List.countP_eq_length]
      intro a member
      have before : le a other[number] = true := by
        rcases List.mem_append.mp member with earlier | last
        · exact (List.pairwise_append.mp ordered).2.2 a earlier _ (List.mem_singleton_self _)
        · rw [List.mem_singleton.mp last]
          exact reflexive _
      have apart : le sorted[number] a ≠ true := fun forth => behind (trans _ _ _ forth before)
      simpa [early] using apart
    rw [← front]
    exact (List.take_sublist _ _).countP_le
  rw [perm.countP_eq] at few
  omega

theorem tied_of_perm {sorted other : List α} (perm : sorted.Perm other)
    (isSorted : sorted.Pairwise fun a b => le a b = true)
    (otherSorted : other.Pairwise fun a b => le a b = true) :
    List.Forall₂ (fun a b => le a b = true ∧ le b a = true) sorted other := by
  rw [List.forall₂_iff_get]
  refine ⟨perm.length_eq, fun number inside alsoInside => ⟨?_, ?_⟩⟩
  · exact le_at_of_perm trans total perm isSorted otherSorted number inside alsoInside
  · exact le_at_of_perm trans total perm.symm otherSorted isSorted number alsoInside inside

end

end LineCensus
