import LineCensus.Json.Parser
import LineCensus.Json.Printer
import LineCensus.Proofs.Shortest
import Mathlib

/-!
Numbers in writing are read back. Each way of writing a number gives the digits of its shortest decimal,
perhaps with zeros around them, and a point and an exponent that make up for where they stand. So what is
read is a decimal in the range of the number. Only zero loses its sign.
-/

namespace LineCensus.Json

set_option autoImplicit false

open Numeric
open Decimal (text)

/-! ### Digits -/

theorem is_digit_eq (c : Char) : isDigit c = c.isDigit := by
  rw [isDigit, Char.isDigit]
  rfl

theorem digits_value_eq (digits : List Char) : digitsValue digits = Nat.ofDigitChars 10 digits 0 := by
  rw [digitsValue, Nat.ofDigitChars]
  congr
  funext total c
  rw [Nat.mul_comm]

theorem digits_value_text (n : Nat) : digitsValue (text n) = n := by
  rw [digits_value_eq, text, Nat.ofDigitChars_ten_toDigits]

theorem digits_value_before_zeros (digits : List Char) (count : Nat) :
    digitsValue (digits ++ zeros count) = digitsValue digits * 10 ^ count := by
  rw [digits_value_eq, digits_value_eq, Nat.ofDigitChars_append, zeros,
    Nat.ofDigitChars_replicate_zero, Nat.mul_comm]

theorem digits_value_behind_zeros (count : Nat) (digits : List Char) :
    digitsValue (zeros count ++ digits) = digitsValue digits := by
  rw [digits_value_eq, digits_value_eq, Nat.ofDigitChars_append, zeros,
    Nat.ofDigitChars_replicate_zero, Nat.mul_zero]

theorem digits_of_text (n : Nat) : ∀ c ∈ text n, isDigit c = true := by
  intro c member
  rw [is_digit_eq]
  exact Nat.isDigit_of_mem_toDigits (by decide) (by decide) member

theorem digits_of_zeros (count : Nat) : ∀ c ∈ zeros count, isDigit c = true := by
  intro c member
  rw [List.eq_of_mem_replicate member]
  rfl

/-- The digits of a positive number do not begin with a zero. -/
theorem text_starts (n : Nat) (positive : 0 < n) :
    ∃ first rest, text n = first :: rest ∧ first ≠ '0' := by
  induction n using Nat.strongRecOn with
  | ind n ih =>
      rw [text, Nat.toDigits_eq_if (by decide)]
      split
      case isTrue small =>
        refine ⟨_, [], rfl, ?_⟩
        interval_cases n <;> decide
      case isFalse =>
        obtain ⟨first, rest, starts, nonzero⟩ := ih (n / 10) (by omega) (by omega)
        refine ⟨first, rest ++ [(n % 10).digitChar], ?_, nonzero⟩
        rw [text] at starts
        rw [starts, List.cons_append]

/-! ### Reading the parts -/

/-- Whether a number ends where some text begins. -/
def EndsNumber (rest : List Char) : Prop :=
  ∀ c ∈ rest.head?, isDigit c = false ∧ c ≠ '.' ∧ c ≠ 'e' ∧ c ≠ 'E'

theorem read_digits_append {digits rest : List Char} (filled : digits ≠ [])
    (allDigits : ∀ c ∈ digits, isDigit c = true) (ends : ∀ c ∈ rest.head?, isDigit c = false) :
    readDigits (digits ++ rest) = some (digits, rest) := by
  have taken : rest.takeWhile isDigit = [] := by
    cases rest with
    | nil => rfl
    | cons c rest => rw [List.takeWhile_cons, ends c rfl]; rfl
  have left : rest.dropWhile isDigit = rest := by
    cases rest with
    | nil => rfl
    | cons c rest => rw [List.dropWhile_cons, ends c rfl]; rfl
  rw [readDigits, List.takeWhile_append_of_pos allDigits, List.dropWhile_append_of_pos allDigits,
    taken, left, List.append_nil]
  simp [filled]

/-- Whether digits can stand before the point. -/
structure IsWhole (whole : List Char) : Prop where
  filled : whole ≠ []
  allDigits : ∀ c ∈ whole, isDigit c = true
  noZero : whole.head? = some '0' → whole = ['0']

theorem read_whole_append {whole rest : List Char} (isWhole : IsWhole whole)
    (ends : ∀ c ∈ rest.head?, isDigit c = false) :
    readWhole (whole ++ rest) = some (whole, rest) := by
  obtain ⟨filled, allDigits, noZero⟩ := isWhole
  rw [readWhole.eq_def]
  split
  case h_1 more same =>
    cases whole with
    | nil => exact absurd rfl filled
    | cons first digits =>
        rw [List.cons_append, List.cons.injEq] at same
        obtain ⟨rfl, rfl⟩ := same
        rw [noZero rfl]
        have alone : digits = [] := (List.cons.inj (noZero rfl)).2
        rw [alone, List.nil_append]
  case h_2 => exact read_digits_append filled allDigits ends

/-- The places behind the point; no point stands in front of none. -/
def fraction (places : List Char) : List Char := if places.isEmpty then [] else '.' :: places

theorem read_places_append {places rest : List Char} (allDigits : ∀ c ∈ places, isDigit c = true)
    (ends : ∀ c ∈ rest.head?, isDigit c = false ∧ c ≠ '.') :
    readPlaces (fraction places ++ rest) = some (places, rest) := by
  cases places with
  | nil =>
      rw [fraction]
      cases rest with
      | nil => rfl
      | cons c rest =>
          rw [readPlaces.eq_def]
          split
          case h_1 same =>
            simp only [List.isEmpty_nil, if_true, List.nil_append, List.cons.injEq] at same
            exact absurd same.1 (ends c rfl).2
          case h_2 => rfl
  | cons first places =>
      exact read_digits_append (List.cons_ne_nil _ _) allDigits fun c head => (ends c head).1

def power (exponent : Int) : List Char :=
  'e' :: (if exponent < 0 then '-' else '+') :: text exponent.natAbs

theorem read_exponent_append (exponent : Int) {rest : List Char}
    (ends : ∀ c ∈ rest.head?, isDigit c = false) :
    readExponent (power exponent ++ rest) = some (exponent, rest) := by
  have filled : text exponent.natAbs ≠ [] := List.ne_nil_of_length_pos Nat.length_toDigits_pos
  have read := read_digits_append filled (digits_of_text exponent.natAbs) ends
  rw [power, List.cons_append, List.cons_append, readExponent]
  split
  case isTrue down =>
    have size : (-1 : Int) * exponent.natAbs = exponent := by omega
    simp only [read, Option.map_some, digits_value_text, size]
  case isFalse up =>
    have size : (1 : Int) * exponent.natAbs = exponent := by omega
    simp only [read, Option.map_some, digits_value_text, size]

theorem read_no_exponent {rest : List Char} (ends : ∀ c ∈ rest.head?, c ≠ 'e' ∧ c ≠ 'E') :
    readExponent rest = some (0, rest) := by
  rw [readExponent.eq_def]
  dsimp only
  split
  case h_1 => exact absurd rfl (ends _ rfl).1
  case h_2 => exact absurd rfl (ends _ rfl).2
  case h_3 => rfl

theorem read_number_of_parts (negative : Bool) {whole places behind rest : List Char} {exponent : Int}
    (isWhole : IsWhole whole) (allDigits : ∀ c ∈ places, isDigit c = true)
    (ends : ∀ c ∈ behind.head?, isDigit c = false ∧ c ≠ '.')
    (exponentRead : readExponent behind = some (exponent, rest)) :
    readNumber (sign negative ++ whole ++ fraction places ++ behind) =
      some (number (Binary64.ofDecimal negative (digitsValue (whole ++ places))
        (exponent - places.length)), rest) := by
  have point : ∀ c ∈ (fraction places ++ behind).head?, isDigit c = false := by
    cases places with
    | nil => exact fun c head => (ends c head).1
    | cons first places =>
        rintro c ⟨⟩
        rfl
  have wholeRead := read_whole_append isWhole point
  have placesRead := read_places_append allDigits ends
  have signed : readNumber (sign negative ++ (whole ++ (fraction places ++ behind))) =
      (readWhole (whole ++ (fraction places ++ behind))).bind fun whole =>
        (readPlaces whole.2).bind fun places =>
          (readExponent places.2).bind fun exponent =>
            some (number (Binary64.ofDecimal negative (digitsValue (whole.1 ++ places.1))
              (exponent.1 - places.1.length)), exponent.2) := by
    cases negative with
    | true => rfl
    | false =>
        cases whole with
        | nil => exact absurd rfl isWhole.filled
        | cons first more =>
            have digit := isWhole.allDigits first List.mem_cons_self
            rw [readNumber.eq_def]
            dsimp only [sign]
            split
            case h_1 same =>
              cases same
              cases digit
            case h_2 => rfl
  rw [List.append_assoc, List.append_assoc, signed]
  simp only [wholeRead, placesRead, exponentRead, Option.bind_some]

/-! ### Writing -/

/-- Whether digits around a point, times a power of ten, are a value. -/
structure Writes (whole places : List Char) (exponent : Int) (value : ℚ) : Prop where
  isWhole : IsWhole whole
  allDigits : ∀ c ∈ places, isDigit c = true
  value_eq : (digitsValue (whole ++ places) : ℚ) * 10 ^ (exponent - places.length) = value

theorem zero_is_whole : IsWhole ['0'] :=
  ⟨List.cons_ne_nil _ _, List.forall_mem_singleton.mpr rfl, fun _ => rfl⟩

section

variable {digits : Nat} {first : Char} {more : List Char} (shown : text digits = first :: more)
  (nonzero : first ≠ '0') (place : Int)

include shown

theorem more_digits : ∀ c ∈ more, isDigit c = true := by
  have allDigits := digits_of_text digits
  rw [shown] at allDigits
  exact (List.forall_mem_cons.mp allDigits).2

theorem digits_value_shown : digitsValue (first :: more) = digits := by
  rw [← shown, digits_value_text]

/-- Digits behind the point, with zeros in front of them. -/
theorem small_writes (small : ((first :: more).length : Int) + place ≤ 0) :
    Writes ['0'] (zeros (((first :: more).length : Int) + place).natAbs ++ first :: more) 0
      (digits * 10 ^ place) := by
  generalize missing : (((first :: more).length : Int) + place).natAbs = count
  refine ⟨zero_is_whole, ?_, ?_⟩
  · intro c member
    rcases List.mem_append.mp member with zero | inside
    · exact digits_of_zeros _ c zero
    · exact digits_of_text digits c (shown ▸ inside)
  · have behind : (0 : Int) - (zeros count ++ first :: more).length = place := by
      rw [List.length_append, zeros, List.length_replicate]
      omega
    have read : digitsValue (['0'] ++ (zeros count ++ first :: more)) = digits :=
      (digits_value_behind_zeros (count + 1) (first :: more)).trans (digits_value_shown shown)
    rw [behind, read]

include nonzero

theorem whole_of_start {behind : List Char} (allDigits : ∀ c ∈ behind, isDigit c = true) :
    IsWhole (first :: behind) := by
  refine ⟨List.cons_ne_nil _ _, ?_, fun zero => absurd (Option.some.inj zero) nonzero⟩
  have isDigit := digits_of_text digits first (shown ▸ List.mem_cons_self)
  exact List.forall_mem_cons.mpr ⟨isDigit, allDigits⟩

/-- Digits in front of the point, with zeros behind them. -/
theorem whole_writes (isNat : ¬place < 0) :
    Writes (first :: (more ++ zeros place.toNat)) [] 0 (digits * 10 ^ place) := by
  refine ⟨?_, fun c none => absurd none List.not_mem_nil, ?_⟩
  · apply whole_of_start shown nonzero
    intro c member
    rcases List.mem_append.mp member with inside | zero
    · exact more_digits shown c inside
    · exact digits_of_zeros _ c zero
  · have read : digitsValue (first :: (more ++ zeros place.toNat) ++ []) =
        digits * 10 ^ place.toNat := by
      rw [List.append_nil, ← List.cons_append, digits_value_before_zeros, digits_value_shown shown]
    rw [read, zpow_of_not_neg 10 isNat]
    simp

/-- Digits on both sides of the point. -/
theorem parted_writes {count : Nat} (within : count ≤ more.length)
    (size : (count : Int) = more.length + place) :
    Writes (first :: more.take count) (more.drop count) 0 (digits * 10 ^ place) := by
  refine ⟨?_, ?_, ?_⟩
  · apply whole_of_start shown nonzero
    exact fun c member => more_digits shown c (List.mem_of_mem_take member)
  · exact fun c member => more_digits shown c (List.mem_of_mem_drop member)
  · have behind : (0 : Int) - (more.drop count).length = place := by
      rw [List.length_drop]
      omega
    rw [behind, List.cons_append, List.take_append_drop, digits_value_shown shown]

/-- A decimal written in full has its own value. -/
theorem positional_writes :
    ∃ whole places,
      positional (first :: more) ((first :: more).length + place) = whole ++ fraction places ∧
        Writes whole places 0 (digits * 10 ^ place) := by
  rw [positional]
  split
  case isTrue small =>
    refine ⟨_, _, ?_, small_writes shown place small⟩
    rw [fraction, if_neg (by simp)]
    rfl
  case isFalse large =>
    dsimp only
    split
    case isTrue whole =>
      have isNat : ¬place < 0 := by omega
      have size : ((first :: more).length + place).toNat - (first :: more).length = place.toNat := by
        omega
      refine ⟨_, _, ?_, whole_writes shown nonzero place isNat⟩
      rw [size]
      simp [fraction]
    case isFalse parts =>
      obtain ⟨count, size⟩ : ∃ count, ((first :: more).length + place).toNat = count + 1 :=
        ⟨((first :: more).length + place).toNat - 1, by omega⟩
      rw [size] at parts ⊢
      rw [List.length_cons] at parts size
      have within : count ≤ more.length := by omega
      refine ⟨_, _, ?_, parted_writes shown nonzero place within (by omega)⟩
      rw [fraction, if_neg (by simp; omega)]
      rfl

/-- A decimal written with an exponent has its own value. -/
theorem scientific_writes :
    ∃ whole places,
      scientific (first :: more) ((first :: more).length + place - 1) =
          whole ++ fraction places ++ power ((first :: more).length + place - 1) ∧
        Writes whole places ((first :: more).length + place - 1) (digits * 10 ^ place) := by
  refine ⟨[first], more, ?_, whole_of_start shown nonzero (by simp), more_digits shown, ?_⟩
  · cases more <;> simp [scientific, fraction, power]
  · have behind : ((first :: more).length : Int) + place - 1 - more.length = place := by
      rw [List.length_cons]
      omega
    rw [behind, List.singleton_append, digits_value_shown shown]

end

/-- A number that is not zero is read back as it is. -/
theorem read_number_render (negative : Bool) {significand : Nat} {exponent : Int}
    (canonical : Binary64.IsCanonical significand exponent) (something : 0 < significand)
    {rest : List Char} (ends : EndsNumber rest) :
    readNumber ((render (.finite negative significand exponent)).toList ++ rest) =
      some (number (.finite negative significand exponent), rest) := by
  have within := Decimal.shortest_in_range canonical something negative
  have nonzero : (significand == 0) = false := beq_eq_false_iff_ne.mpr something.ne'
  obtain ⟨first, more, shown, notZero⟩ :=
    text_starts _ (Decimal.shortest_digits_pos canonical something negative)
  rw [render]
  simp only [nonzero, Bool.false_eq_true, if_false, String.toList_ofList]
  generalize Decimal.shortest _ = decimal at within shown ⊢
  rw [Decimal.value] at within
  have finish {whole places behind : List Char} {shift : Int}
      (writes : Writes whole places shift (decimal.digits * 10 ^ decimal.exponent))
      (point : ∀ c ∈ (behind ++ rest).head?, isDigit c = false ∧ c ≠ '.')
      (exponentRead : readExponent (behind ++ rest) = some (shift, rest)) :
      readNumber (sign negative ++ (whole ++ fraction places ++ behind) ++ rest) =
        some (number (.finite negative significand exponent), rest) := by
    obtain ⟨isWhole, allDigits, value⟩ := writes
    have read := read_number_of_parts negative isWhole allDigits point exponentRead
    rw [← value] at within
    rw [Binary64.of_decimal_of_in_range negative canonical something within] at read
    rw [← read]
    simp only [List.append_assoc]
  rw [shown]
  split
  case isTrue inFull =>
    obtain ⟨whole, places, written, writes⟩ := positional_writes shown notZero decimal.exponent
    rw [written, ← List.append_nil (whole ++ fraction places)]
    apply finish writes
    · exact fun c head => ⟨(ends c head).1, (ends c head).2.1⟩
    · exact read_no_exponent fun c head => (ends c head).2.2
  case isFalse short =>
    obtain ⟨whole, places, written, writes⟩ := scientific_writes shown notZero decimal.exponent
    rw [written]
    apply finish writes
    · rintro c ⟨⟩
      exact ⟨rfl, by decide⟩
    · exact read_exponent_append _ fun c head => (ends c head).1

theorem read_number_zero {rest : List Char} (ends : EndsNumber rest) :
    readNumber ('0' :: rest) = some (number (Binary64.zero false), rest) := by
  have read := read_number_of_parts false zero_is_whole
    (fun c none => absurd none List.not_mem_nil)
    (fun c head => ⟨(ends c head).1, (ends c head).2.1⟩)
    (read_no_exponent fun c head => (ends c head).2.2)
  exact read

end LineCensus.Json
