import LineCensus.Text.Casing
import Mathlib

/-!
A text in lower case stays as it is. Whatever the table leads to is its own lower-case form; so a second
step to lower case changes nothing, whatever the text is. A capital sigma does not survive the first
step, and for other characters it makes no difference what stands around them; so an ending that is ASCII
in lower case is that of the whole text in lower case.
-/

namespace LineCensus.Text

set_option autoImplicit false

open CasingTable (Run)

/-! ### The table -/

/-- Where a run leads from a code. -/
def CasingTable.Run.target (run : Run) (code : Nat) : Nat := Int.toNat (code + run.shift)

def CasingTable.Run.codes (run : Run) : List Nat :=
  (List.range ((run.last - run.first) / run.step + 1)).map fun number => run.first + number * run.step

/-- A search ends with the character itself or with what a run of the table makes of it. -/
theorem lower_by_runs_cases (runs : Array Run) (c : Char) (low high : Nat) :
    lowerByRuns runs c low high = c ∨
      ∃ run ∈ runs, c.toNat ∈ run.codes ∧
        lowerByRuns runs c low high = Char.ofNat (run.target c.toNat) := by
  fun_induction lowerByRuns runs c low high with
  | case1 => exact .inl rfl
  | case2 low high _ middle run found before ih => exact ih
  | case3 low high _ middle run found _ behind ih => exact ih
  | case4 low high _ middle run found notBefore notBehind onStep =>
      refine .inr ⟨run, Array.mem_of_getElem? found, ?_, rfl⟩
      have within : (c.toNat - run.first) / run.step ≤ (run.last - run.first) / run.step :=
        Nat.div_le_div_right (by omega)
      have stepped := Nat.div_mul_cancel (Nat.dvd_of_mod_eq_zero (beq_iff_eq.mp onStep))
      refine List.mem_map.mpr ⟨(c.toNat - run.first) / run.step, ?_, by omega⟩
      exact List.mem_range.mpr (by omega)
  | case5 => exact .inl rfl
  | case6 => exact .inl rfl

def isSettled (c : Char) : Bool := lowerChar c == [c]

theorem is_settled_iff (c : Char) : isSettled c = true ↔ lowerChar c = [c] := beq_iff_eq

/-- No character that the table leads to is led any further. -/
theorem targets_settled : ∀ run ∈ CasingTable.lower, ∀ code ∈ run.codes,
    isSettled (Char.ofNat (run.target code)) = true := by
  decide +kernel

/-! ### Characters -/

theorem ascii_lowered (c : Char) (ascii : c.toNat < 128) :
    c.toLower.toNat < 128 ∧ c.toLower.toLower = c.toLower := by
  have checked : ∀ code < 128, (Char.ofNat code).toLower.toNat < 128 ∧
      (Char.ofNat code).toLower.toLower = (Char.ofNat code).toLower := by decide +kernel
  have spelled := checked c.toNat ascii
  rwa [Char.ofNat_toNat] at spelled

/-- Every character in a lower-case form is its own lower-case form. -/
theorem lower_char_of_lowered {c small : Char} (lowered : small ∈ lowerChar c) :
    lowerChar small = [small] := by
  by_cases ascii : c.toNat < 128
  · rw [lowerChar, if_pos ascii, List.mem_singleton] at lowered
    obtain ⟨stillAscii, settled⟩ := ascii_lowered c ascii
    rw [lowered, lowerChar, if_pos stillAscii, settled]
  by_cases isDotted : (c == dottedCapitalI) = true
  · rw [lowerChar, if_neg ascii, if_pos isDotted] at lowered
    simp only [List.mem_cons, List.not_mem_nil, or_false] at lowered
    rcases lowered with rfl | rfl
    · decide
    · cbv
  rw [lowerChar, if_neg ascii, if_neg isDotted, List.mem_singleton] at lowered
  rcases lower_by_runs_cases CasingTable.lower c 0 CasingTable.lower.size with
    same | ⟨run, inTable, listed, leads⟩
  · rw [lowered, same, lowerChar, if_neg ascii, if_neg isDotted, same]
  · rw [lowered, leads]
    exact (is_settled_iff _).mp (targets_settled run inTable _ listed)

theorem lower_char_of_final_sigma : lowerChar finalSigma = [finalSigma] := by
  cbv

theorem lower_char_of_capital_sigma : lowerChar capitalSigma = ['\u03c3'] := by
  cbv

/-! ### Texts -/

theorem settled_in_lower_from (before chars : List Char) :
    ∀ c ∈ lowerFrom before chars, lowerChar c = [c] := by
  induction chars generalizing before with
  | nil =>
      intro c member
      cases member
  | cons first rest ih =>
      intro c member
      rw [lowerFrom, List.mem_append] at member
      rcases member with here | later
      · split at here
        · rw [List.mem_singleton.mp here]
          exact lower_char_of_final_sigma
        · exact lower_char_of_lowered here
      · exact ih (first :: before) c later

theorem lower_from_of_settled (before chars : List Char) (settled : ∀ c ∈ chars, lowerChar c = [c]) :
    lowerFrom before chars = chars := by
  induction chars generalizing before with
  | nil => rfl
  | cons first rest ih =>
      have here := settled first List.mem_cons_self
      have noCapital : (first == capitalSigma) = false := by
        apply beq_eq_false_iff_ne.mpr
        rintro rfl
        rw [lower_char_of_capital_sigma] at here
        exact absurd here (by decide)
      have later := ih (first :: before) fun c member => settled c (List.mem_cons_of_mem _ member)
      rw [lowerFrom, later]
      simp [noCapital, here]

/-- A text in lower case is its own lower-case form. -/
theorem lower_lower (text : String) : lower (lower text) = lower text := by
  apply String.toList_inj.mp
  rw [lower, String.toList_ofList]
  apply lower_from_of_settled
  rw [lower, String.toList_ofList]
  exact settled_in_lower_from [] text.toList

/-! ### The end of a text -/

theorem lower_from_append (before front behind : List Char) :
    lowerFrom (front.reverse ++ before) behind <:+ lowerFrom before (front ++ behind) := by
  induction front generalizing before with
  | nil => exact List.suffix_rfl
  | cons first rest ih =>
      have later := ih (first :: before)
      rw [List.reverse_cons, List.append_assoc, List.singleton_append, List.cons_append, lowerFrom]
      exact later.trans (List.suffix_append _ _)

/-- Where nothing but ASCII comes out there has been no capital sigma, and so it makes no difference what
stands before. -/
theorem lower_from_of_ascii (before other chars : List Char)
    (ascii : ∀ c ∈ lowerFrom before chars, c.toNat < 128) :
    lowerFrom other chars = lowerFrom before chars := by
  induction chars generalizing before other with
  | nil => rfl
  | cons first rest ih =>
      rw [lowerFrom] at ascii ⊢
      have noCapital : (first == capitalSigma) = false := by
        apply beq_eq_false_iff_ne.mpr
        rintro rfl
        have sigma : ∃ small ∈ (if (capitalSigma == capitalSigma && casedFirst before &&
            !casedFirst rest) = true then [finalSigma] else lowerChar capitalSigma),
            ¬ small.toNat < 128 := by
          split
          · exact ⟨finalSigma, List.mem_singleton_self _, by decide⟩
          · rw [lower_char_of_capital_sigma]
            exact ⟨'\u03c3', List.mem_singleton_self _, by decide⟩
        obtain ⟨small, there, beyond⟩ := sigma
        exact beyond (ascii small (List.mem_append_left _ there))
      have later := ih (first :: before) (first :: other) fun c member =>
        ascii c (List.mem_append_right _ member)
      rw [lowerFrom, later]
      simp [noCapital]

/-- The end of a text has its own lower-case form at the end of that of the text, if it is ASCII. -/
theorem lower_ends {ending text : String} (ends : ending.toList <:+ text.toList)
    (ascii : ∀ c ∈ (lower ending).toList, c.toNat < 128) :
    (lower ending).toList <:+ (lower text).toList := by
  obtain ⟨front, spelled⟩ := ends
  rw [lower, String.toList_ofList] at ascii ⊢
  rw [lower, String.toList_ofList, ← spelled, ← lower_from_of_ascii [] (front.reverse ++ []) _ ascii]
  exact lower_from_append [] front ending.toList

end LineCensus.Text
