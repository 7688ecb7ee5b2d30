import Blockwork.Proofs.Json.Numerals
import Blockwork.Proofs.Json.StringSpelling

/-!
# Tokens of written text

What is written as one text or one number is read as one token.  A number is a run of
numeric characters, so it ends where a character comes that is none, or at the end of
the text.
-/

namespace Blockwork.Json

open Blockwork.Decimal (maxDigits digitCount)
open Blockwork.Text (dropLiteral?)

theorem tokensFrom?_skip (cs rest : List Char) :
    tokensFrom? cs.length (cs ++ rest) = tokensFrom? 0 rest := by
  induction cs with
  | nil => rfl
  | cons c cs ih => exact ih

/-- A token that takes some characters is followed by the tokens behind them. -/
theorem tokensFrom?_token {c : Char} {cs rest : List Char} {t : Token} (hc : isGap c = false)
    (h : nextToken? c (cs ++ rest) = some (t, (c :: cs).length)) :
    tokensFrom? 0 (c :: cs ++ rest) = (tokensFrom? 0 rest).map (t :: ·) := by
  rw [List.cons_append, tokensFrom?, if_neg (by simp [hc]), h]
  exact congrArg (Option.map (t :: ·)) (tokensFrom?_skip cs rest)

theorem tokensFrom?_mark {c : Char} {t : Token} (hc : isGap c = false) (h : mark? c = some t)
    (rest : List Char) : tokensFrom? 0 (c :: rest) = (tokensFrom? 0 rest).map (t :: ·) := by
  have hnext : nextToken? c rest = some (t, [c].length) := by
    rw [nextToken?, h]
    rfl
  exact @tokensFrom?_token c [] rest t hc hnext

/-- A written text is one token. -/
theorem tokensFrom?_writeText (s : String) (rest : List Char) :
    tokensFrom? 0 ((writeText s).toList ++ rest) =
      (tokensFrom? 0 rest).map (.text s :: ·) := by
  have hunits := textUnits?_flatMap s.toList rest
  have hnext : nextToken? (Char.ofNat 0x22) ((s.toList.flatMap writeChar ++ [Char.ofNat 0x22]) ++
      rest) = some (.text s,
        (Char.ofNat 0x22 :: (s.toList.flatMap writeChar ++ [Char.ofNat 0x22])).length) := by
    have hmark : mark? (Char.ofNat 0x22) = none := rfl
    rw [nextToken?, hmark]
    simp only [if_true, List.append_assoc, List.cons_append, List.nil_append, hunits,
      Option.map_some, joinUnits_flatMap, String.ofList_toList]
    simp
  have htext : (writeText s).toList =
      Char.ofNat 0x22 :: (s.toList.flatMap writeChar ++ [Char.ofNat 0x22]) := by
    rw [writeText, String.toList_ofList]
    rfl
  rw [htext]
  exact tokensFrom?_token rfl hnext

theorem ne_of_isNumeric {c d : Char} (hc : isNumeric c = true) (hd : isNumeric d = false) :
    c ≠ d := by
  rintro rfl
  cases hc.symm.trans hd

theorem mark?_of_isNumeric {c : Char} (h : isNumeric c = true) : mark? c = none := by
  have hne {d : Char} (hd : isNumeric d = false) : c ≠ d := ne_of_isNumeric h hd
  rw [mark?, if_neg (hne rfl), if_neg (hne rfl), if_neg (hne rfl), if_neg (hne rfl),
    if_neg (hne rfl), if_neg (hne rfl)]

theorem isGap_of_isNumeric {c : Char} (h : isNumeric c = true) : isGap c = false := by
  have hne {d : Char} (hd : isNumeric d = false) : c ≠ d := ne_of_isNumeric h hd
  simp [isGap, hne (rfl : isNumeric ' ' = false), hne (rfl : isNumeric '\t' = false),
    hne (rfl : isNumeric '\n' = false), hne (rfl : isNumeric '\r' = false)]

/-- No word begins with a digit, or with a sign and a digit. -/
theorem find?_words {c : Char} {cs : List Char} (hc : isNumeric c = true)
    (hfirst : c.isDigit = true ∨ c = '-' ∧ ∃ d ds, cs = d :: ds ∧ d.isDigit = true) :
    (words.find? fun w => (dropLiteral? w.1 (c :: cs)).isSome) = none := by
  have hletter {l : Char} (hl : isNumeric l = false) (ls : List Char) :
      ¬ (dropLiteral? (l :: ls) (c :: cs)).isSome = true := by
    have hne : l ≠ c := (ne_of_isNumeric hc hl).symm
    simp [dropLiteral?, hne]
  have hminus (ls : List Char) : ¬ (dropLiteral? ('-' :: 'I' :: ls) (c :: cs)).isSome = true := by
    rcases hfirst with hdigit | ⟨rfl, d, ds, rfl, hdigit⟩
    · have hne : '-' ≠ c := by
        rintro rfl
        cases hdigit
      simp [dropLiteral?, hne]
    · have hne : 'I' ≠ d := by
        rintro rfl
        cases hdigit
      simp [dropLiteral?, hne]
  rw [List.find?_eq_none]
  intro w hw
  simp only [words, List.mem_cons, List.not_mem_nil, or_false] at hw
  rcases hw with rfl | rfl | rfl | rfl | rfl | rfl
  exacts [hletter rfl _, hletter rfl _, hletter rfl _, hletter rfl _, hletter rfl _, hminus _]

theorem nextToken?_number {c : Char} {cs rest : List Char} {v : Json}
    (hrun : ∀ d ∈ c :: cs, isNumeric d = true) (hrest : EndsBefore isNumeric rest)
    (hfirst : c.isDigit = true ∨ c = '-' ∧ ∃ d ds, cs = d :: ds ∧ d.isDigit = true)
    (hv : number? (c :: cs) = some v) :
    nextToken? c (cs ++ rest) = some (.atom v, (c :: cs).length) := by
  have hc : isNumeric c = true := hrun c (List.mem_cons_self ..)
  have hquote : c ≠ Char.ofNat 0x22 := ne_of_isNumeric hc rfl
  have hword : c.isDigit = true ∨ c = '-' ∧ ∃ d ds, cs ++ rest = d :: ds ∧ d.isDigit = true := by
    rcases hfirst with h | ⟨hm, d, ds, rfl, hd⟩
    · exact .inl h
    · exact .inr ⟨hm, d, ds ++ rest, rfl, hd⟩
  have htaken : (c :: (cs ++ rest)).takeWhile isNumeric = c :: cs := by
    rw [← List.cons_append, List.takeWhile_append_of_pos hrun]
    cases rest with
    | nil => simp
    | cons d rest => simp [endsBefore_cons.1 hrest]
  rw [nextToken?, mark?_of_isNumeric hc, if_neg hquote, find?_words hc hword]
  simp only [htaken, hv, Option.map_some]

/-- A written number is one token. -/
theorem Numeral.tokensFrom?_chars {n : Numeral} {v : Json} {rest : List Char} (h : n.Proper)
    (hv : n.value? = some v) (hrest : EndsBefore isNumeric rest) :
    tokensFrom? 0 (n.chars ++ rest) = (tokensFrom? 0 rest).map (.atom v :: ·) := by
  obtain ⟨c, cs, hcs, hc⟩ := exists_unsignedChars h
  have hrun := isNumeric_of_mem_chars h
  have hnumber := (number?_chars h).trans hv
  have hgap : isGap c = false := isGap_of_isNumeric (isNumeric_of_isDigit hc)
  cases hn : n.negative with
  | true =>
    have hchars : n.chars = '-' :: c :: cs := by rw [chars, hn, if_pos rfl, hcs]
    rw [hchars] at hrun hnumber ⊢
    exact tokensFrom?_token rfl (nextToken?_number hrun hrest (.inr ⟨rfl, c, cs, rfl, hc⟩) hnumber)
  | false =>
    have hchars : n.chars = c :: cs := by rw [chars, hn, if_neg Bool.false_ne_true, hcs]
    rw [hchars] at hrun hnumber ⊢
    exact tokensFrom?_token hgap (nextToken?_number hrun hrest (.inl hc) hnumber)

/-- A whole number that can be written is one token. -/
theorem tokensFrom?_int {n : Int} {rest : List Char} (h : digitCount n.natAbs ≤ maxDigits)
    (hrest : EndsBefore isNumeric rest) :
    tokensFrom? 0 ((toString n).toList ++ rest) =
      (tokensFrom? 0 rest).map (.atom (.int n) :: ·) := by
  rw [← Numeral.chars_ofInt]
  exact Numeral.tokensFrom?_chars (Numeral.proper_ofInt n) (Numeral.value?_ofInt h) hrest

end Blockwork.Json
