import LineCensus.Keyed
import Mathlib

/-!
Lists of values under keys of which each is there once. Looking a key up gives the one value that is
under it, in whatever order the entries stand; a change of one value changes no other, and adds to the
sum of all what it adds to the one.
-/

namespace LineCensus.Keyed

set_option autoImplicit false

variable {κ α : Type} [BEq κ] [LawfulBEq κ]

/-! ### Looking keys up -/

theorem lookup_eq_some_iff_mem {entries : List (κ × α)} (distinct : (entries.map Prod.fst).Nodup)
    (key : κ) (value : α) : entries.lookup key = some value ↔ (key, value) ∈ entries := by
  constructor
  · intro found
    obtain ⟨before, behind, same, _⟩ := List.lookup_eq_some_iff.mp found
    simp [same]
  · intro member
    obtain ⟨before, behind, rfl⟩ := List.append_of_mem member
    apply List.lookup_eq_some_iff.mpr
    refine ⟨before, behind, rfl, fun entry earlier => ?_⟩
    rw [List.map_append, List.nodup_append] at distinct
    have apart := distinct.2.2 entry.1 (List.mem_map_of_mem earlier) key (by simp)
    simpa using apart.symm

theorem lookup_eq_of_perm {entries others : List (κ × α)} (perm : entries.Perm others)
    (distinct : (entries.map Prod.fst).Nodup) (key : κ) :
    entries.lookup key = others.lookup key := by
  have othersDistinct := (perm.map Prod.fst).nodup distinct
  apply Option.ext
  intro value
  rw [lookup_eq_some_iff_mem distinct, lookup_eq_some_iff_mem othersDistinct, perm.mem_iff]

/-! ### Changing values -/

theorem update_cons_same (change : Option α → α) (key : κ) (value : α) (rest : List (κ × α)) :
    update key change ((key, value) :: rest) = (key, change (some value)) :: rest := by
  simp [update]

theorem update_cons_other {key : κ} {entry : κ × α} (other : entry.1 ≠ key)
    (change : Option α → α) (rest : List (κ × α)) :
    update key change (entry :: rest) = entry :: update key change rest := by
  simp [update, other]

theorem update_of_new {entries : List (κ × α)} {key : κ} (change : Option α → α)
    (new : key ∉ entries.map Prod.fst) :
    update key change entries = entries ++ [(key, change none)] := by
  induction entries with
  | nil => rfl
  | cons entry rest ih =>
      rw [List.map_cons, List.mem_cons, not_or] at new
      rw [update_cons_other (Ne.symm new.1), ih new.2, List.cons_append]

theorem keys_update (key : κ) (change : Option α → α) (entries : List (κ × α)) :
    (update key change entries).map Prod.fst =
      if key ∈ entries.map Prod.fst then entries.map Prod.fst
      else entries.map Prod.fst ++ [key] := by
  induction entries with
  | nil => rfl
  | cons entry rest ih =>
      by_cases here : entry.1 = key
      · subst here
        simp [update]
      · rw [update_cons_other here, List.map_cons, ih]
        by_cases later : key ∈ rest.map Prod.fst <;> simp [later, Ne.symm here]

theorem update_distinct (key : κ) (change : Option α → α) {entries : List (κ × α)}
    (distinct : (entries.map Prod.fst).Nodup) :
    ((update key change entries).map Prod.fst).Nodup := by
  rw [keys_update]
  split
  case isTrue there => exact distinct
  case isFalse new =>
    rw [List.nodup_append]
    refine ⟨distinct, by simp, ?_⟩
    intro other member last inLast same
    rw [List.mem_singleton] at inLast
    exact new (inLast ▸ same ▸ member)

theorem lookup_update (key : κ) (change : Option α → α) (entries : List (κ × α)) (other : κ) :
    (update key change entries).lookup other =
      if other == key then some (change (entries.lookup key)) else entries.lookup other := by
  induction entries with
  | nil => cases same : other == key <;> simp [update, List.lookup_cons, same]
  | cons entry rest ih =>
      obtain ⟨first, value⟩ := entry
      by_cases here : first = key
      · subst here
        rw [update_cons_same]
        cases same : other == first <;> simp [List.lookup_cons, same]
      · have different : (key == first) = false := beq_eq_false_iff_ne.mpr (Ne.symm here)
        rw [update_cons_other here, List.lookup_cons, ih, List.lookup_cons, List.lookup_cons,
          different]
        cases same : other == key with
        | true => simp [beq_iff_eq.mp same, different]
        | false => simp

theorem mem_of_mem_update {key : κ} {change : Option α → α} {entries : List (κ × α)}
    {entry : κ × α} (member : entry ∈ update key change entries) :
    entry ∈ entries ∨ entry.1 = key ∧ ∃ before, entry.2 = change before := by
  induction entries with
  | nil =>
      rw [update, List.mem_singleton] at member
      exact .inr ⟨by rw [member], none, by rw [member]⟩
  | cons first rest ih =>
      by_cases here : first.1 = key
      · subst here
        rw [update_cons_same, List.mem_cons] at member
        rcases member with changed | later
        · exact .inr ⟨by rw [changed], _, by rw [changed]⟩
        · exact .inl (List.mem_cons_of_mem _ later)
      · rw [update_cons_other here, List.mem_cons] at member
        rcases member with same | later
        · exact .inl (same ▸ List.mem_cons_self)
        · rcases ih later with kept | changed
          · exact .inl (List.mem_cons_of_mem _ kept)
          · exact .inr changed

omit [LawfulBEq κ] in
theorem sum_update {M : Type} [AddCommMonoid M] (key : κ) (more : M) (entries : List (κ × M)) :
    ((update key (fun before => before.getD 0 + more) entries).map Prod.snd).sum =
      (entries.map Prod.snd).sum + more := by
  induction entries with
  | nil => simp [update]
  | cons entry rest ih =>
      rw [update]
      split
      · simp only [List.map_cons, List.sum_cons, Option.getD_some]
        exact add_right_comm _ _ _
      · rw [List.map_cons, List.map_cons, List.sum_cons, List.sum_cons, ih, add_assoc]

/-! ### Entries given one after another -/

theorem mem_of_mem_of_list {entries : List (κ × α)} {entry : κ × α}
    (member : entry ∈ ofList entries) : entry ∈ entries := by
  induction entries using List.reverseRecOn with
  | nil => exact member
  | append_singleton front last ih =>
      rw [ofList, List.foldl_append] at member
      rcases mem_of_mem_update member with kept | ⟨sameKey, _, sameValue⟩
      · exact List.mem_append_left _ (ih kept)
      · have same : entry = last := Prod.ext sameKey sameValue
        exact List.mem_append_right _ (List.mem_singleton.mpr same)

omit [LawfulBEq κ] in
theorem of_list_concat (front : List (κ × α)) (last : κ × α) :
    ofList (front ++ [last]) = update last.1 (fun _ => last.2) (ofList front) := by
  rw [ofList, List.foldl_append]
  rfl

/-- Entries with different keys all count, in the order in which they are given. -/
theorem of_list_of_distinct {entries : List (κ × α)} (distinct : (entries.map Prod.fst).Nodup) :
    ofList entries = entries := by
  induction entries using List.reverseRecOn with
  | nil => rfl
  | append_singleton front last ih =>
      rw [List.map_append, List.nodup_append] at distinct
      have new : last.1 ∉ front.map Prod.fst := fun member =>
        distinct.2.2 _ member last.1 (by simp) rfl
      rw [of_list_concat, ih distinct.1, update_of_new _ new]

theorem of_list_distinct (entries : List (κ × α)) : ((ofList entries).map Prod.fst).Nodup := by
  induction entries using List.reverseRecOn with
  | nil => exact .nil
  | append_singleton front last ih =>
      rw [of_list_concat]
      exact update_distinct _ _ ih

/-- What is under a key is what the last entry with that key gives. -/
theorem lookup_of_list_eq_some_iff (entries : List (κ × α)) (key : κ) (value : α) :
    (ofList entries).lookup key = some value ↔
      ∃ before behind, entries = before ++ (key, value) :: behind ∧
        ∀ entry ∈ behind, entry.1 ≠ key := by
  induction entries using List.reverseRecOn with
  | nil => simp [ofList]
  | append_singleton front last ih =>
      rw [of_list_concat, lookup_update]
      by_cases same : key = last.1
      · rw [if_pos (beq_iff_eq.mpr same), Option.some.injEq]
        constructor
        · rintro rfl
          exact ⟨front, [], by rw [same], by simp⟩
        · rintro ⟨before, behind, split, later⟩
          rcases List.eq_nil_or_concat' behind with rfl | ⟨others, final, rfl⟩
          · rw [List.append_singleton_inj] at split
            rw [split.2]
          · rw [← List.cons_append, ← List.append_assoc, List.append_singleton_inj] at split
            have different := later final (by simp)
            exact absurd (split.2 ▸ same.symm) different
      · rw [if_neg (by simpa using same), ih]
        constructor
        · rintro ⟨before, behind, rfl, later⟩
          refine ⟨before, behind ++ [last], by simp, ?_⟩
          intro entry member
          rcases List.mem_append.mp member with early | final
          · exact later entry early
          · rw [List.mem_singleton.mp final]
            exact Ne.symm same
        · rintro ⟨before, behind, split, later⟩
          rcases List.eq_nil_or_concat' behind with rfl | ⟨others, final, rfl⟩
          · rw [List.append_singleton_inj] at split
            exact absurd (by rw [split.2]) same
          · rw [← List.cons_append, ← List.append_assoc, List.append_singleton_inj] at split
            refine ⟨before, others, split.1, ?_⟩
            intro entry member
            exact later entry (List.mem_append_left _ member)

end LineCensus.Keyed
