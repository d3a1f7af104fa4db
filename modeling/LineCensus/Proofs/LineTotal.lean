import LineCensus.Analysis
import LineCensus.Proofs.Decoding
import LineCensus.Proofs.Lines

/-!
The number of lines of a file, told from its bytes. Line breaks are single bytes below 0x80, and in
UTF-8 no such byte is part of a longer character; so the breaks of a text are those of its bytes, and
it makes no difference for the number of lines which encoding the bytes are read in. This is about the
breaks of plain text: the two separators that break the lines of scripts as well take three bytes each.
-/

namespace LineCensus.Text

set_option autoImplicit false

/-- How many line breaks there are: CR LF is one, and so is every other CR and every other LF. -/
def breakCount : List Nat → Nat
  | [] => 0
  | 0x0d :: 0x0a :: rest => breakCount rest + 1
  | code :: rest =>
    if code == 0x0d || code == 0x0a then breakCount rest + 1 else breakCount rest

/-- Whether there is something behind the last line break. -/
def endsOpen (codes : List Nat) : Bool := codes.getLast?.any fun code => code != 0x0d && code != 0x0a

/-- The number of lines that bytes, or the codes of characters, make up. -/
def lineTotal (codes : List Nat) : Nat := breakCount codes + if endsOpen codes then 1 else 0

/-! ### Breaks one by one -/

/-- The break that CR LF is counts where the LF stands. -/
theorem break_count_cons (code : Nat) (rest : List Nat) :
    breakCount (code :: rest) =
      breakCount rest + if code = 0x0a ∨ code = 0x0d ∧ rest.head? ≠ some 0x0a then 1 else 0 := by
  have oneBreak (rest : List Nat) : breakCount (0x0a :: rest) = breakCount rest + 1 := by
    rw [breakCount]
    · rfl
    · intro behind impossible
      cases impossible
  by_cases isCR : code = 0x0d
  · subst isCR
    cases rest with
    | nil => rfl
    | cons next behind =>
        by_cases isLF : next = 0x0a
        · subst isLF
          rw [breakCount, oneBreak]
          rfl
        · rw [breakCount]
          · simp [isLF]
          · intro later _ same
            cases same
            exact isLF rfl
  · rw [breakCount]
    · simp only [isCR, false_and, or_false, beq_iff_eq, Bool.or_eq_true, false_or]
      split <;> rfl
    · intro later same
      exact absurd same isCR

theorem break_count_append_high (codes behind : List Nat) (high : ∀ code ∈ codes, 0x80 ≤ code) :
    breakCount (codes ++ behind) = breakCount behind := by
  induction codes with
  | nil => rfl
  | cons code rest ih =>
      have first := high code List.mem_cons_self
      rw [List.cons_append, break_count_cons, if_neg (by omega), Nat.add_zero]
      apply ih
      intro other member
      exact high other (List.mem_cons_of_mem _ member)

theorem ends_open_concat (codes : List Nat) (last : Nat) :
    endsOpen (codes ++ [last]) = (last != 0x0d && last != 0x0a) := by
  rw [endsOpen, List.getLast?_concat, Option.any_some]

theorem ends_open_append (codes : List Nat) (code : Nat) (behind : List Nat)
    (isBreak : code = 0x0d ∨ code = 0x0a) :
    endsOpen (codes ++ code :: behind) = endsOpen behind := by
  cases behind with
  | nil =>
      rcases isBreak with rfl | rfl <;> simp [endsOpen]
  | cons next later =>
      have last : (codes ++ code :: next :: later).getLast? = (next :: later).getLast? := by
        rw [List.getLast?_append_cons, List.getLast?_cons_cons]
      rw [endsOpen, last, endsOpen]

/-! ### Lines of a text -/

def codesOf (chars : List Char) : List Nat := chars.map Char.toNat

theorem breaks_iff (c : Char) : LineBreaks.text.contains c = true ↔ c.toNat = 0x0d ∨ c.toNat = 0x0a := by
  have lineFeed : c = '\n' ↔ c.toNat = 0x0a := Char.toNat_inj.symm
  have carriageReturn : c = '\r' ↔ c.toNat = 0x0d := Char.toNat_inj.symm
  simp [LineBreaks.contains, lineFeed, carriageReturn, or_comm]

theorem length_pieces_from (line chars : List Char) :
    (piecesFrom .text line chars).length = breakCount (codesOf chars) + 1 := by
  fun_induction piecesFrom .text line chars with
  | case1 line => rfl
  | case2 line rest ih =>
      rw [List.length_cons, ih]
      rfl
  | case3 line c rest single isBreak ih =>
      rw [breaks_iff] at isBreak
      have counted : c.toNat = 0x0a ∨ c.toNat = 0x0d ∧ (codesOf rest).head? ≠ some 0x0a := by
        by_cases isLF : c.toNat = 0x0a
        · exact .inl isLF
        · have isCR : c.toNat = 0x0d := by omega
          refine .inr ⟨isCR, ?_⟩
          cases rest with
          | nil => simp [codesOf]
          | cons next later =>
              intro nextIsLF
              rw [codesOf, List.map_cons, List.head?_cons, Option.some.injEq] at nextIsLF
              have isLF : next = '\n' := Char.toNat_inj.mp nextIsLF
              exact single later (Char.toNat_inj.mp isCR) (by rw [isLF])
      have codes : codesOf (c :: rest) = c.toNat :: codesOf rest := rfl
      rw [List.length_cons, ih, codes, break_count_cons, if_pos counted]
  | case4 line c rest single noBreak ih =>
      rw [breaks_iff] at noBreak
      have codes : codesOf (c :: rest) = c.toNat :: codesOf rest := rfl
      rw [ih, codes, break_count_cons, if_neg (by omega)]

/-- The last piece holds what is behind the last break. The piece that is being passed has none in it. -/
theorem last_piece_from (line chars : List Char)
    (passed : ∀ c ∈ line, LineBreaks.text.contains c = false) :
    (piecesFrom .text line chars).getLast? = some [] ↔
      endsOpen (codesOf (line.reverse ++ chars)) = false := by
  have kept (first : List Char) {pieces : List (List Char)} (more : pieces ≠ []) :
      (first :: pieces).getLast? = pieces.getLast? := by
    rw [List.getLast?_cons]
    simp [List.getLast?_eq_some_getLast more]
  have filled (chars : List Char) : piecesFrom .text [] chars ≠ [] := by
    apply List.ne_nil_of_length_pos
    rw [length_pieces_from]
    omega
  have dropped (line rest : List Char) (c : Char) (isBreak : c.toNat = 0x0d ∨ c.toNat = 0x0a) :
      endsOpen (codesOf (line.reverse ++ c :: rest)) = endsOpen (codesOf rest) := by
    rw [codesOf, List.map_append, List.map_cons]
    exact ends_open_append _ _ _ isBreak
  -- The piece that is being passed is kept in reverse, in front of what is still to come.
  fun_induction piecesFrom .text line chars with
  | case1 line =>
      cases line with
      | nil => simp [codesOf, endsOpen]
      | cons c before =>
          have noBreak := passed c List.mem_cons_self
          rw [Bool.eq_false_iff, ne_eq, breaks_iff] at noBreak
          rw [List.append_nil, List.reverse_cons, codesOf, List.map_append, List.map_singleton,
            ends_open_concat]
          simp
          omega
  | case2 line rest ih =>
      rw [kept _ (filled rest), dropped line _ '\r' (.inl rfl)]
      refine (ih (by simp)).trans ?_
      exact iff_of_eq (congrArg (· = false) (dropped [] rest '\n' (.inr rfl)).symm)
  | case3 line c rest single isBreak ih =>
      rw [kept _ (filled rest), dropped line rest c ((breaks_iff c).mp isBreak)]
      exact ih (by simp)
  | case4 line c rest single noBreak ih =>
      have passedToo : ∀ other ∈ c :: line, LineBreaks.text.contains other = false := by
        intro other member
        rcases List.mem_cons.mp member with rfl | earlier
        · exact Bool.eq_false_iff.mpr noBreak
        · exact passed other earlier
      refine (ih passedToo).trans ?_
      rw [List.reverse_cons, List.append_assoc, List.singleton_append]

theorem length_split_lines (text : String) :
    (splitLines .text text).length = lineTotal (codesOf text.toList) := by
  have size := length_pieces_from [] text.toList
  have last := last_piece_from [] text.toList (by simp)
  rw [List.reverse_nil, List.nil_append] at last
  rw [splitLines, List.length_map, dropEmptyLast, lineTotal]
  by_cases closed : endsOpen (codesOf text.toList) = false
  · rw [if_pos (beq_iff_eq.mpr (last.mpr closed)), List.length_dropLast, size, closed]
    rfl
  · rw [if_neg (fun empty => closed (last.mp (beq_iff_eq.mp empty))), size, if_pos (by simpa using closed)]

/-! ### Lines of bytes -/

/-- Either a character is a byte of its own, or no byte of it is below 0x80. -/
theorem encode_char_cases (c : Char) :
    encodeChar c = [c.toNat] ∨
      0x80 ≤ c.toNat ∧ encodeChar c ≠ [] ∧ ∀ byte ∈ encodeChar c, 0x80 ≤ byte := by
  rw [encode_char_eq]
  split
  · exact .inl rfl
  refine .inr ⟨by omega, ?_⟩
  split
  · simp
    omega
  split
  · simp
    omega
  · simp
    omega

theorem head_encoded (chars : List Char) :
    (chars.flatMap encodeChar).head? = some 0x0a ↔ (codesOf chars).head? = some 0x0a := by
  cases chars with
  | nil => rfl
  | cons c rest =>
      rw [List.flatMap_cons, codesOf, List.map_cons, List.head?_cons]
      rcases encode_char_cases c with single | ⟨high, filled, bytesHigh⟩
      · rw [single]
        rfl
      · obtain ⟨first, later, bytes⟩ := List.exists_cons_of_ne_nil filled
        have firstHigh := bytesHigh first (by simp [bytes])
        rw [bytes, List.cons_append, List.head?_cons, Option.some.injEq, Option.some.injEq]
        omega

theorem break_count_encoded (chars : List Char) :
    breakCount (chars.flatMap encodeChar) = breakCount (codesOf chars) := by
  induction chars with
  | nil => rfl
  | cons c rest ih =>
      rw [List.flatMap_cons, codesOf, List.map_cons, break_count_cons, ← codesOf, ← ih]
      rcases encode_char_cases c with single | ⟨high, _, bytesHigh⟩
      · rw [single, List.singleton_append, break_count_cons]
        simp only [ne_eq, head_encoded]
      · rw [break_count_append_high _ _ bytesHigh, if_neg (by omega)]
        rfl

theorem ends_open_encoded (chars : List Char) :
    endsOpen (chars.flatMap encodeChar) = endsOpen (codesOf chars) := by
  induction chars using List.reverseRecOn with
  | nil => rfl
  | append_singleton front c _ =>
      rw [List.flatMap_append, List.flatMap_singleton, codesOf, List.map_append, List.map_singleton]
      rcases encode_char_cases c with single | ⟨high, filled, bytesHigh⟩
      · rw [single, ends_open_concat, ends_open_concat]
      · obtain ⟨before, last, bytes⟩ := (List.eq_nil_or_concat' _).resolve_left filled
        have lastHigh := bytesHigh last (by simp [bytes])
        rw [bytes, ← List.append_assoc, ends_open_concat, ends_open_concat]
        apply Bool.eq_iff_iff.mpr
        simp
        omega

theorem line_total_encoded (chars : List Char) :
    lineTotal (chars.flatMap encodeChar) = lineTotal (codesOf chars) := by
  rw [lineTotal, lineTotal, break_count_encoded, ends_open_encoded]

theorem codes_bytewise (bytes : List UInt8) :
    codesOf (decodeBytewise (bytes.map UInt8.toNat)).toList = bytes.map UInt8.toNat := by
  rw [decodeBytewise, String.toList_ofList, codesOf, List.map_map, List.map_congr_left, List.map_id]
  intro byte member
  have small := bytes_bounded bytes byte member
  exact to_nat_of_scalar (by omega) (by omega)

/-- Bytes have as many lines as their breaks tell, in whichever encoding they are read; and well-formed
bytes without a mark in front have no other number of lines when they are read byte by byte. -/
theorem decoding_keeps_line_total (bytes : List UInt8) :
    (WellFormed (bytes.map UInt8.toNat) →
      (splitLines .text (decode (bytes.map UInt8.toNat)).1).length =
        lineTotal (withoutMark (bytes.map UInt8.toNat))) ∧
    (¬WellFormed (bytes.map UInt8.toNat) →
      (splitLines .text (decode (bytes.map UInt8.toNat)).1).length =
        lineTotal (bytes.map UInt8.toNat)) ∧
    (WellFormed (bytes.map UInt8.toNat) → ¬[0xef, 0xbb, 0xbf] <+: bytes.map UInt8.toNat →
      ∀ (method : Method), method.lineBreaks = .text → ∀ registry path,
        (method.analyze registry path (decodeBytewise (bytes.map UInt8.toNat))).total =
          (method.analyze registry path (decode (bytes.map UInt8.toNat)).1).total) := by
  generalize same : bytes.map UInt8.toNat = codes
  have encoded (formed : WellFormed codes) :
      (splitLines .text (decode codes).1).length = lineTotal (withoutMark codes) := by
    obtain ⟨chars, rfl⟩ := (well_formed_iff codes).mp formed
    rw [decode, (decode_strict_iff _ _).mpr ⟨chars, rfl, rfl⟩, length_split_lines, String.toList_ofList,
      without_mark_flat_map, line_total_encoded]
  have bytewise : (splitLines .text (decodeBytewise codes)).length = lineTotal codes := by
    rw [length_split_lines, ← same, codes_bytewise]
  refine ⟨encoded, ?malformed, ?unmarked⟩
  case malformed =>
    intro malformed
    rw [decode, (decode_strict_eq_none_iff codes).mpr malformed, bytewise]
  case unmarked =>
    intro formed unmarked method plain registry path
    have kept : withoutMark codes = codes := by
      rw [withoutMark]
      rintro rest rfl
      exact unmarked (by simp)
    have lines := encoded formed
    rw [kept, ← bytewise] at lines
    cases method with
    | script => cases plain
    | markdown => exact lines.symm
    | markers language => exact lines.symm

/-- A mark in front of two lines; a byte that opens no character, with an empty line between CR and
CR LF; and a line behind a letter of two bytes. -/
theorem marked_broken_and_plain_bytes_keep_line_total :
    WellFormed [0xef, 0xbb, 0xbf, 0x61, 0x0d, 0x0a, 0x62] ∧
    (splitLines .text (decode [0xef, 0xbb, 0xbf, 0x61, 0x0d, 0x0a, 0x62]).1).length =
      lineTotal [0x61, 0x0d, 0x0a, 0x62] ∧
    ¬WellFormed [0xe8, 0x0d, 0x0d, 0x0a] ∧
    (splitLines .text (decode [0xe8, 0x0d, 0x0d, 0x0a]).1).length =
      lineTotal [0xe8, 0x0d, 0x0d, 0x0a] ∧
    WellFormed [0xc3, 0xa8, 0x0a, 0x62] ∧ ¬[0xef, 0xbb, 0xbf] <+: [0xc3, 0xa8, 0x0a, 0x62] ∧
    Method.markdown.lineBreaks = .text ∧
    (Method.markdown.analyze Language.builtinRegistry "a.md"
        (decodeBytewise [0xc3, 0xa8, 0x0a, 0x62])).total =
      (Method.markdown.analyze Language.builtinRegistry "a.md"
        (decode [0xc3, 0xa8, 0x0a, 0x62]).1).total := by
  have marked : WellFormed [0xef, 0xbb, 0xbf, 0x61, 0x0d, 0x0a, 0x62] :=
    (well_formed_iff _).mpr ⟨[byteOrderMark, 'a', '\r', '\n', 'b'], by decide⟩
  have plain : WellFormed [0xc3, 0xa8, 0x0a, 0x62] :=
    (well_formed_iff _).mpr ⟨['è', '\n', 'b'], by decide⟩
  have refused : decodeStrict [0xe8, 0x0d, 0x0d, 0x0a] = none := by cbv
  have broken : ¬WellFormed [0xe8, 0x0d, 0x0d, 0x0a] := (decode_strict_eq_none_iff _).mp refused
  have unmarked : ¬[0xef, 0xbb, 0xbf] <+: [0xc3, 0xa8, 0x0a, 0x62] := by decide
  have first := decoding_keeps_line_total [0xef, 0xbb, 0xbf, 0x61, 0x0d, 0x0a, 0x62]
  have second := decoding_keeps_line_total [0xe8, 0x0d, 0x0d, 0x0a]
  have third := decoding_keeps_line_total [0xc3, 0xa8, 0x0a, 0x62]
  exact ⟨marked, first.1 marked, broken, second.2.1 broken, plain, unmarked, rfl,
    third.2.2 plain unmarked .markdown rfl Language.builtinRegistry "a.md"⟩

end LineCensus.Text
