import Mathlib.Data.Nat.Digits.Defs
import Blockwork.Json.Lexer
import Blockwork.Json.Writer

/-!
# Numbers as they are written

`Numeral` is a number as it is written, in its parts: a sign, digits, and perhaps a
fraction and an exponent.  Whole numbers and doubles are both written in this way, and
a number is read as the value of its parts.
-/

namespace Blockwork.Json

open Blockwork.Decimal (ofDecimal ofDigits maxDigits digitCount)

/-! ## Digits -/

/-- A text that does not go on with a character of some kind. -/
def EndsBefore (p : Char → Bool) (rest : List Char) : Prop := ∀ c ∈ rest.head?, p c = false

@[simp] theorem endsBefore_nil (p : Char → Bool) : EndsBefore p [] := nofun

@[simp] theorem endsBefore_cons {p : Char → Bool} {c : Char} {rest : List Char} :
    EndsBefore p (c :: rest) ↔ p c = false := by simp [EndsBefore]

/-- The numbers that digits stand for. -/
def digitValues (cs : List Char) : List Nat := cs.map fun c => c.toNat - '0'.toNat

theorem takeAscii_append {ds rest : List Char} (hd : ∀ c ∈ ds, c.isDigit = true)
    (hr : EndsBefore Char.isDigit rest) : takeAscii (ds ++ rest) = (digitValues ds, rest) := by
  induction ds with
  | nil =>
    cases rest with
    | nil => rfl
    | cons c rest =>
      have hc : c.isDigit = false := endsBefore_cons.1 hr
      simp [takeAscii, asciiDigit?, hc, digitValues]
  | cons c ds ih =>
    have hc : c.isDigit = true := hd c (List.mem_cons_self ..)
    have hrest := ih fun x hx => hd x (List.mem_cons_of_mem _ hx)
    simp [takeAscii, asciiDigit?, hc, hrest, digitValues]

theorem ofDigits_digitValues (cs : List Char) :
    ofDigits (digitValues cs) = Nat.ofDigitChars 10 cs 0 := by
  rw [ofDigits, digitValues, List.foldl_map, Nat.ofDigitChars_eq_foldl]

theorem isDigit_of_mem_toDigits {n : Nat} {c : Char} (h : c ∈ Nat.toDigits 10 n) :
    c.isDigit = true := Nat.isDigit_of_mem_toDigits (by decide) (by decide) h

/-- The digits of a number do not start with a zero. -/
theorem head_toDigits {n : Nat} (h : 0 < n) : (Nat.toDigits 10 n).head? ≠ some '0' := by
  induction n using Nat.strongRecOn with
  | ind n ih =>
    by_cases hn : n < 10
    · have hne : n.digitChar ≠ '0' := by
        rw [Ne, Nat.digitChar_eq_zero]
        omega
      simpa [Nat.toDigits_of_lt_base hn] using hne
    · have hrest := ih (n / 10) (by omega) (by omega)
      obtain ⟨c, cs, hc⟩ := List.exists_cons_of_ne_nil (Nat.toDigits_ne_nil (b := 10) (n := n / 10))
      rw [hc] at hrest
      rw [Nat.toDigits_of_base_le (by decide) (Nat.not_lt.1 hn), hc]
      exact hrest

/-! ## Numbers as they are written -/

/-- A number as it is written.  There is no fraction when it has no digits. -/
structure Numeral where
  negative : Bool
  /-- The digits before the point. -/
  whole : List Char
  /-- The digits behind the point. -/
  fraction : List Char
  /-- Whether the exponent is negative, and its digits. -/
  exponent : Option (Bool × List Char)

namespace Numeral

/-- The exponent with its mark and its sign. -/
def exponentChars (n : Numeral) : List Char :=
  match n.exponent with
  | none => []
  | some (negative, ds) => 'e' :: (if negative then '-' else '+') :: ds

/-- The fraction with its point. -/
def fractionChars (n : Numeral) : List Char :=
  if n.fraction = [] then [] else '.' :: n.fraction

/-- What is behind the sign. -/
def unsignedChars (n : Numeral) : List Char := n.whole ++ (n.fractionChars ++ n.exponentChars)

/-- The characters of a number. -/
def chars (n : Numeral) : List Char :=
  if n.negative then '-' :: n.unsignedChars else n.unsignedChars

/-- The digits are digits, there is one before the point and one in an exponent, and the
first is a zero only where it stands alone. -/
structure Proper (n : Numeral) : Prop where
  whole : ∀ c ∈ n.whole, c.isDigit = true
  whole_ne_nil : n.whole ≠ []
  head : n.whole.head? = some '0' → n.whole = ['0']
  fraction : ∀ c ∈ n.fraction, c.isDigit = true
  exponent : ∀ e ∈ n.exponent, e.2 ≠ [] ∧ ∀ c ∈ e.2, c.isDigit = true

/-- The digits before and behind the point as one number. -/
def mantissa (n : Numeral) : Nat := Nat.ofDigitChars 10 (n.whole ++ n.fraction) 0

/-- The number that the exponent stands for. -/
def exponentValue? (n : Numeral) : Option Int :=
  n.exponent.map fun e =>
    let value := Int.ofNat (Nat.ofDigitChars 10 e.2 0)
    if e.1 then -value else value

/-- The power of ten that the mantissa is multiplied by. -/
def scale (n : Numeral) : Int := n.exponentValue?.getD 0 - Int.ofNat n.fraction.length

variable {n : Numeral}

theorem endsBefore_exponentChars (n : Numeral) : EndsBefore Char.isDigit n.exponentChars := by
  rw [exponentChars]
  split
  · exact endsBefore_nil _
  · exact endsBefore_cons.2 rfl

theorem endsBefore_fractionChars (n : Numeral) :
    EndsBefore Char.isDigit (n.fractionChars ++ n.exponentChars) := by
  rw [fractionChars]
  split
  · exact n.endsBefore_exponentChars
  · exact endsBefore_cons.2 rfl

/-- Only the digit zero stands for zero. -/
theorem digitValue_ne_zero {c : Char} (hd : c.isDigit = true) (h : c ≠ '0') :
    c.toNat - '0'.toNat ≠ 0 := by
  intro hz
  have hrange : '0'.toNat ≤ c.toNat ∧ c.toNat ≤ '9'.toNat := Char.isDigit_iff_toNat.1 hd
  have hc : c.toNat = '0'.toNat := by omega
  exact h (Char.toNat_inj.1 hc)

theorem wholePart?_chars (h : n.Proper) : wholePart? n.unsignedChars =
    some (digitValues n.whole, n.fractionChars ++ n.exponentChars) := by
  rw [wholePart?, unsignedChars, takeAscii_append h.whole n.endsBefore_fractionChars]
  have hhead := h.head
  have hdigits := h.whole
  cases hw : n.whole with
  | nil => exact absurd hw h.whole_ne_nil
  | cons c cs =>
    rw [hw] at hhead hdigits
    have hzero (d : Char) (ds : List Char) (hcs : cs = d :: ds) : c.toNat - '0'.toNat ≠ 0 := by
      refine digitValue_ne_zero (hdigits c (List.mem_cons_self ..)) ?_
      rintro rfl
      rw [hcs] at hhead
      cases hhead rfl
    simp only [digitValues, List.map_cons]
    split
    · next heq => cases heq
    · next heq =>
      obtain ⟨hc, hcs⟩ := List.cons.inj (Prod.mk.inj heq).1
      cases cs with
      | nil => cases hcs
      | cons d ds => exact absurd hc (hzero d ds rfl)
    · rfl

theorem fractionPart?_chars (h : n.Proper) : fractionPart? (n.fractionChars ++ n.exponentChars) =
    some (if n.fraction = [] then none else some (digitValues n.fraction), n.exponentChars) := by
  rw [fractionChars]
  split
  · have hpoint (cs : List Char) : n.exponentChars ≠ '.' :: cs := by
      rw [exponentChars]
      split <;> simp
    rw [List.nil_append, fractionPart?]
    exact hpoint
  · next hne =>
    obtain ⟨c, cs, hc⟩ := List.exists_cons_of_ne_nil hne
    have htaken := takeAscii_append h.fraction n.endsBefore_exponentChars
    rw [List.cons_append, fractionPart?, htaken, hc]
    rfl

theorem exponentPart?_chars (h : n.Proper) : exponentPart? n.exponentChars =
    some n.exponentValue? := by
  rw [exponentChars, exponentValue?]
  have hexponent := h.exponent
  cases he : n.exponent with
  | none => rfl
  | some e =>
    obtain ⟨negative, ds⟩ := e
    rw [he] at hexponent
    have hdigits : ∀ c ∈ ds, c.isDigit = true := (hexponent _ rfl).2
    have hne : ds ≠ [] := (hexponent _ rfl).1
    obtain ⟨c, cs, hc⟩ := List.exists_cons_of_ne_nil hne
    have htaken := takeAscii_append hdigits (endsBefore_nil _)
    rw [List.append_nil] at htaken
    have hsign : Decimal.takeSign ((if negative then '-' else '+') :: ds) = (negative, ds) := by
      cases negative <;> rfl
    have hvalue : ofDigits (digitValues ds) = Nat.ofDigitChars 10 ds 0 := ofDigits_digitValues ds
    simp only [exponentPart?, hsign, htaken, Option.map_some, ← hvalue]
    rw [hc]
    rfl

/-- The value of a number.  With a fraction or an exponent it is a double. -/
def value? (n : Numeral) : Option Json :=
  if n.fraction = [] ∧ n.exponent = none then
    if n.whole.length ≤ maxDigits then
      some (.int (if n.negative then -Int.ofNat n.mantissa else Int.ofNat n.mantissa))
    else none
  else some (.float (ofDecimal n.negative n.mantissa n.scale))

/-- A number is read as its value. -/
theorem number?_chars (h : n.Proper) : number? n.chars = n.value? := by
  have hminus (cs : List Char) : n.unsignedChars ≠ '-' :: cs := by
    intro heq
    obtain ⟨c, ds, hc⟩ := List.exists_cons_of_ne_nil h.whole_ne_nil
    rw [unsignedChars, hc] at heq
    cases heq
    cases h.whole '-' (hc ▸ List.mem_cons_self ..)
  have hlength : (digitValues n.whole).length = n.whole.length := List.length_map _
  have hmantissa : ofDigits (digitValues n.whole ++ digitValues n.fraction) = n.mantissa := by
    rw [digitValues, digitValues, ← List.map_append]
    exact ofDigits_digitValues _
  unfold number?
  split
  next negative cs hmatch =>
  have hsign : negative = n.negative ∧ cs = n.unsignedChars := by
    rw [chars] at hmatch
    cases hn : n.negative with
    | true =>
      rw [hn] at hmatch
      cases hmatch
      exact ⟨rfl, rfl⟩
    | false =>
      rw [hn] at hmatch
      split at hmatch
      · next heq => exact absurd heq (hminus _)
      · cases hmatch
        exact ⟨rfl, rfl⟩
  obtain ⟨rfl, rfl⟩ := hsign
  simp only [wholePart?_chars h, fractionPart?_chars h, exponentPart?_chars h, Option.bind_eq_bind,
    Option.bind_some]
  rw [value?]
  by_cases hf : n.fraction = []
  · have hwhole : digitValues n.fraction = [] := by
      rw [hf]
      rfl
    rw [hwhole, List.append_nil] at hmantissa
    cases he : n.exponent with
    | none => simp [hf, exponentValue?, he, hlength, hmantissa]
    | some e => simp [hf, exponentValue?, he, scale, hmantissa]
  · have hfraction : (digitValues n.fraction).length = n.fraction.length := List.length_map _
    simp [hf, scale, hmantissa, hfraction]

theorem exists_unsignedChars (h : n.Proper) :
    ∃ c cs, n.unsignedChars = c :: cs ∧ c.isDigit = true := by
  obtain ⟨c, cs, hc⟩ := List.exists_cons_of_ne_nil h.whole_ne_nil
  exact ⟨c, _, by rw [unsignedChars, hc]; rfl, h.whole c (hc ▸ List.mem_cons_self ..)⟩

theorem isNumeric_of_isDigit {c : Char} (h : c.isDigit = true) : isNumeric c = true := by
  simp [isNumeric, h]

theorem isNumeric_of_mem_chars (h : n.Proper) : ∀ c ∈ n.chars, isNumeric c = true := by
  have hfraction : ∀ c ∈ n.fractionChars, isNumeric c = true := by
    rw [fractionChars]
    split
    · exact nofun
    · exact List.forall_mem_cons.2 ⟨rfl, fun c hc => isNumeric_of_isDigit (h.fraction c hc)⟩
  have hexponent : ∀ c ∈ n.exponentChars, isNumeric c = true := by
    rw [exponentChars]
    split
    · exact nofun
    · next negative ds he =>
      have hsign : isNumeric (if negative then '-' else '+') = true := by cases negative <;> rfl
      have hdigits := (h.exponent _ he).2
      exact List.forall_mem_cons.2 ⟨rfl, List.forall_mem_cons.2
        ⟨hsign, fun c hc => isNumeric_of_isDigit (hdigits c hc)⟩⟩
  have hunsigned : ∀ c ∈ n.unsignedChars, isNumeric c = true := by
    rw [unsignedChars]
    exact List.forall_mem_append.2 ⟨fun c hc => isNumeric_of_isDigit (h.whole c hc),
      List.forall_mem_append.2 ⟨hfraction, hexponent⟩⟩
  rw [chars]
  split
  · exact List.forall_mem_cons.2 ⟨rfl, hunsigned⟩
  · exact hunsigned

end Numeral

/-! ## Whole numbers -/

/-- A whole number as it is written. -/
def Numeral.ofInt (n : Int) : Numeral where
  negative := decide (n < 0)
  whole := Nat.toDigits 10 n.natAbs
  fraction := []
  exponent := none

theorem Numeral.proper_ofInt (n : Int) : (ofInt n).Proper where
  whole _ hc := isDigit_of_mem_toDigits hc
  whole_ne_nil := Nat.toDigits_ne_nil
  head h := by
    by_contra hne
    refine head_toDigits (Nat.pos_of_ne_zero fun hz => hne ?_) h
    change Nat.toDigits 10 n.natAbs = ['0']
    rw [hz, Nat.toDigits_zero]
  fraction := nofun
  exponent := nofun

theorem Numeral.negative_ofInt_negSucc (m : Nat) : (ofInt (.negSucc m)).negative = true :=
  decide_eq_true (Int.negSucc_lt_zero m)

theorem Numeral.chars_ofInt (n : Int) : (ofInt n).chars = (toString n).toList := by
  have hchars : (ofInt n).unsignedChars = Nat.toDigits 10 n.natAbs := List.append_nil _
  have htext (m : Nat) : (Nat.repr m).toList = Nat.toDigits 10 m := by
    rw [Nat.repr_eq_ofList_toDigits, String.toList_ofList]
  rw [chars, hchars]
  cases n with
  | ofNat m => exact (htext m).symm
  | negSucc m =>
    have hrepr : (toString (Int.negSucc m)).toList = '-' :: Nat.toDigits 10 (m + 1) := by
      change ("-" ++ Nat.repr (m + 1)).toList = _
      rw [String.toList_append, htext]
      rfl
    rw [negative_ofInt_negSucc, if_pos rfl, hrepr]
    rfl

theorem Numeral.value?_ofInt {n : Int} (h : digitCount n.natAbs ≤ maxDigits) :
    (ofInt n).value? = some (.int n) := by
  have hmantissa : (ofInt n).mantissa = n.natAbs := by
    change Nat.ofDigitChars 10 (Nat.toDigits 10 n.natAbs ++ []) 0 = n.natAbs
    rw [List.append_nil, Nat.ofDigitChars_ten_toDigits]
  have hsigned : (if (ofInt n).negative then -Int.ofNat n.natAbs else Int.ofNat n.natAbs) = n := by
    cases n with
    | ofNat m => rfl
    | negSucc m =>
      rw [negative_ofInt_negSucc]
      rfl
  have hlength : (ofInt n).whole.length ≤ maxDigits := h
  rw [value?, if_pos ⟨rfl, rfl⟩, if_pos hlength, hmantissa, hsigned]

end Blockwork.Json
