import Blockwork.Proofs.Decimal.Rounding
import Blockwork.Proofs.Json.WrittenTokens

/-!
# The text of a double

A double is written as a number with a fraction or an exponent, or as a word.  The text
is read as a double again, and that is not a zero unless the first one was.
-/

namespace Blockwork.Json

open Blockwork.Decimal (Digits Decoded decode shortest positional ofDecimal)

/-- A number is written with a fraction or an exponent, and has a value. -/
structure Numeral.Writes (n : Numeral) (cs : List Char) (q : ℚ) : Prop where
  proper : n.Proper
  chars : n.unsignedChars = cs
  /-- There is a fraction or an exponent. -/
  double : ¬ (n.fraction = [] ∧ n.exponent = none)
  value : (n.mantissa : ℚ) * 10 ^ n.scale = q

variable {ds : List Char} {p : Int}

theorem ofDigitChars_zeros (k : Nat) (cs : List Char) :
    Nat.ofDigitChars 10 (List.replicate k '0' ++ cs) 0 = Nat.ofDigitChars 10 cs 0 := by
  rw [Nat.ofDigitChars_append, Nat.ofDigitChars_replicate_zero, Nat.mul_zero]

theorem isDigit_replicate_zero {k : Nat} {c : Char} (h : c ∈ List.replicate k '0') :
    c.isDigit = true := by
  rw [List.eq_of_mem_replicate h]
  rfl

/-- A number with a fraction and no exponent. -/
theorem Numeral.writes_point {negative : Bool} {whole fraction : List Char}
    (hw : ∀ c ∈ whole, c.isDigit = true) (hne : whole ≠ [])
    (hhead : whole.head? = some '0' → whole = ['0'])
    (hf : ∀ c ∈ fraction, c.isDigit = true) (hfne : fraction ≠ []) :
    Writes ⟨negative, whole, fraction, none⟩ (whole ++ '.' :: fraction)
      (Nat.ofDigitChars 10 (whole ++ fraction) 0 * 10 ^ (-(fraction.length : Int))) where
  proper := {
    whole := hw
    whole_ne_nil := hne
    head := hhead
    fraction := hf
    exponent := fun e he => absurd he (Option.not_mem_none e) }
  chars := by simp [unsignedChars, fractionChars, exponentChars, hfne]
  double h := hfne h.1
  value := by simp [mantissa, scale, exponentValue?]

section Positional

variable (negative : Bool) (hd : ∀ c ∈ ds, c.isDigit = true) (hne : ds ≠ [])
include hd hne

/-- Digits behind a zero, the point and more zeros. -/
theorem Numeral.writes_behind (k : Nat) :
    Writes ⟨negative, ['0'], List.replicate k '0' ++ ds, none⟩
      (['0', '.'] ++ List.replicate k '0' ++ ds)
      (Nat.ofDigitChars 10 ds 0 * 10 ^ (-((k : Int) + ds.length))) := by
  have hfraction : ∀ c ∈ List.replicate k '0' ++ ds, c.isDigit = true :=
    List.forall_mem_append.2 ⟨fun c hc => isDigit_replicate_zero hc, hd⟩
  have hwrites := @Numeral.writes_point negative ['0'] (List.replicate k '0' ++ ds)
    (List.forall_mem_singleton.2 rfl) (List.cons_ne_nil _ _) (fun _ => rfl) hfraction
    (List.append_ne_nil_of_right_ne_nil _ hne)
  have hmantissa : Nat.ofDigitChars 10 (['0'] ++ (List.replicate k '0' ++ ds)) 0 =
      Nat.ofDigitChars 10 ds 0 := by
    rw [← List.replicate_one, ofDigitChars_zeros, ofDigitChars_zeros]
  rwa [hmantissa, List.length_append, List.length_replicate, Nat.cast_add] at hwrites

variable (hhead : ds.head? ≠ some '0')
include hhead

/-- Digits that zeros fill up, with the point and a zero behind them. -/
theorem Numeral.writes_filled (k : Nat) :
    Writes ⟨negative, ds ++ List.replicate k '0', ['0'], none⟩
      (ds ++ List.replicate k '0' ++ ['.', '0'])
      (Nat.ofDigitChars 10 ds 0 * 10 ^ (k : Int)) := by
  obtain ⟨c, cs, hcs⟩ := List.exists_cons_of_ne_nil hne
  have hwhole : ∀ c ∈ ds ++ List.replicate k '0', c.isDigit = true :=
    List.forall_mem_append.2 ⟨hd, fun c hc => isDigit_replicate_zero hc⟩
  have hwrites := @Numeral.writes_point negative (ds ++ List.replicate k '0') ['0'] hwhole
    (List.append_ne_nil_of_left_ne_nil hne _) (fun h => absurd (by simpa [hcs] using h) hhead)
    (List.forall_mem_singleton.2 rfl) (List.cons_ne_nil _ _)
  have hmantissa : Nat.ofDigitChars 10 ((ds ++ List.replicate k '0') ++ ['0']) 0 =
      Nat.ofDigitChars 10 ds 0 * 10 ^ k * 10 := by
    rw [← List.replicate_one, Nat.ofDigitChars_append, Nat.ofDigitChars_append,
      Nat.ofDigitChars_replicate_zero, Nat.ofDigitChars_replicate_zero]
    ring
  -- The zero behind the point multiplies by ten, and its place divides by ten.
  have hvalue : (Nat.ofDigitChars 10 ((ds ++ List.replicate k '0') ++ ['0']) 0 : ℚ) *
      10 ^ (-((['0'].length : Nat) : Int)) = Nat.ofDigitChars 10 ds 0 * 10 ^ (k : Int) := by
    rw [hmantissa, zpow_natCast, List.length_singleton, Nat.cast_one, zpow_neg_one]
    push_cast
    rw [mul_assoc, mul_inv_cancel₀ (by norm_num), mul_one]
  rwa [hvalue] at hwrites

/-- Digits with the point between two of them. -/
theorem Numeral.writes_between {k : Nat} (hpos : 0 < k) (hk : k < ds.length) :
    Writes ⟨negative, ds.take k, ds.drop k, none⟩ (ds.take k ++ '.' :: ds.drop k)
      (Nat.ofDigitChars 10 ds 0 * 10 ^ ((k : Int) - ds.length)) := by
  obtain ⟨c, cs, hcs⟩ := List.exists_cons_of_ne_nil hne
  obtain ⟨k, rfl⟩ := Nat.exists_eq_add_one.2 hpos
  have htake : ds.take (k + 1) ≠ [] := by simp [hne]
  have hdrop : ds.drop (k + 1) ≠ [] := by
    rw [Ne, List.drop_eq_nil_iff]
    omega
  have hwrites := @Numeral.writes_point negative (ds.take (k + 1)) (ds.drop (k + 1))
    (fun c hc => hd c (List.mem_of_mem_take hc)) htake
    (fun h => absurd (by simpa [hcs] using h) hhead)
    (fun c hc => hd c (List.mem_of_mem_drop hc)) hdrop
  have hscale : -((ds.drop (k + 1)).length : Int) = ((k + 1 : Nat) : Int) - ds.length := by
    rw [List.length_drop]
    omega
  rwa [List.take_append_drop, hscale] at hwrites

/-- Digits with the point where it belongs: behind a zero, behind zeros that fill the digits
up, or between the digits. -/
theorem exists_positional (p : Int) : ∃ n : Numeral, n.negative = negative ∧
    n.Writes (positional ds p) (Nat.ofDigitChars 10 ds 0 * 10 ^ (p + 1 - ds.length)) := by
  have hlength : 0 < ds.length := List.length_pos_iff.2 hne
  rw [positional]
  split
  · next hp =>
    have hscale : p + 1 - ds.length = -((((-p).toNat - 1 : Nat) : Int) + ds.length) := by omega
    rw [hscale]
    exact ⟨_, rfl, Numeral.writes_behind negative hd hne _⟩
  · next hp =>
    dsimp only
    split
    · next hlong =>
      have hscale : p + 1 - ds.length = ((p.toNat + 1 - ds.length : Nat) : Int) := by omega
      rw [hscale]
      exact ⟨_, rfl, Numeral.writes_filled negative hd hne hhead _⟩
    · next hshort =>
      have hscale : p + 1 - ds.length = ((p.toNat + 1 : Nat) : Int) - ds.length := by omega
      rw [hscale]
      exact ⟨_, rfl, Numeral.writes_between negative hd hne hhead (Nat.succ_pos _) (by omega)⟩

end Positional

/-- Digits with the point behind the first of them and an exponent. -/
theorem exists_scientific (negative : Bool) (hd : ∀ c ∈ ds, c.isDigit = true) (hne : ds ≠ [])
    (p : Int) : ∃ n : Numeral, n.negative = negative ∧ n.Writes (floatLayout.scientific ds p)
      (Nat.ofDigitChars 10 ds 0 * 10 ^ (p + 1 - ds.length)) := by
  obtain ⟨c, cs, rfl⟩ := List.exists_cons_of_ne_nil hne
  let size := Nat.toDigits 10 p.natAbs
  let exponent := List.replicate (2 - size.length) '0' ++ size
  refine ⟨⟨negative, [c], cs, some (decide (p < 0), exponent)⟩, rfl, ?_, ?_, ?_, ?_⟩
  · exact {
      whole := List.forall_mem_singleton.2 (hd c (List.mem_cons_self ..))
      whole_ne_nil := by simp
      head := by simp
      fraction := fun d hc => hd d (List.mem_cons_of_mem c hc)
      exponent := by
        rintro _ ⟨⟩
        refine ⟨by simp [exponent, size, Nat.toDigits_ne_nil], List.forall_mem_append.2 ⟨?_, ?_⟩⟩
        · exact fun d hd => isDigit_replicate_zero hd
        · exact fun d hd => isDigit_of_mem_toDigits hd }
  · have hsign : (if decide (p < 0) = true then '-' else '+') = if p < 0 then '-' else '+' := by
      simp
    rw [Numeral.unsignedChars, Numeral.fractionChars, Numeral.exponentChars]
    cases cs with
    | nil => simp [Decimal.Layout.scientific, floatLayout, exponent, size]
    | cons d cs => simp [Decimal.Layout.scientific, floatLayout, exponent, size]
  · simp
  · have hexponent : Nat.ofDigitChars 10 exponent 0 = p.natAbs := by
      rw [ofDigitChars_zeros, Nat.ofDigitChars_ten_toDigits]
    have hscale : (⟨negative, [c], cs, some (decide (p < 0), exponent)⟩ : Numeral).scale =
        p + 1 - ((c :: cs).length : Int) := by
      have habs : (if p < 0 then -(p.natAbs : Int) else p.natAbs) = p := by split <;> omega
      simp only [Numeral.scale, Numeral.exponentValue?, Option.map_some, Option.getD_some,
        hexponent, Int.ofNat_eq_natCast, List.length_cons, decide_eq_true_eq, habs]
      omega
    rw [hscale]
    rfl

/-- The digits of a positive double are written as a number of their value. -/
theorem exists_digits (negative : Bool) {d : Digits} (hd : d.digits ≠ 0) :
    ∃ n : Numeral, n.negative = negative ∧ n.Writes (floatLayout.digits d) d.value := by
  let ds := Nat.toDigits 10 d.digits
  let p := d.exponent + Int.ofNat ds.length - 1
  have hdigits : ∀ c ∈ ds, c.isDigit = true := fun c hc => isDigit_of_mem_toDigits hc
  have hne : ds ≠ [] := Nat.toDigits_ne_nil
  have hvalue : (Nat.ofDigitChars 10 ds 0 : ℚ) * 10 ^ (p + 1 - ds.length) = d.value := by
    rw [Nat.ofDigitChars_ten_toDigits, Digits.value]
    congr 2
    simp only [p, Int.ofNat_eq_natCast]
    omega
  rw [Decimal.Layout.digits, ← hvalue]
  split
  · exact exists_positional negative hdigits hne (head_toDigits (Nat.pos_of_ne_zero hd)) p
  · exact exists_scientific negative hdigits hne p

/-- The double is read from the text, whatever comes behind it that is no part of a
number. -/
def ReadsAs (text : List Char) (y : Float) : Prop :=
  ∀ rest, EndsBefore isNumeric rest →
    tokensFrom? 0 (text ++ rest) = (tokensFrom? 0 rest).map (.atom (.float y) :: ·)

theorem Numeral.Writes.readsAs {n : Numeral} {text : List Char} {q : ℚ} (h : n.Writes text q) :
    ReadsAs (if n.negative then '-' :: text else text)
      (ofDecimal n.negative n.mantissa n.scale) := by
  intro rest hrest
  have hvalue : n.value? = some (.float (ofDecimal n.negative n.mantissa n.scale)) :=
    if_neg h.double
  rw [← h.chars]
  exact n.tokensFrom?_chars h.proper hvalue hrest

/-- The text of a double is read as a double, and that is not a zero unless it was. -/
theorem exists_readsAs (x : Float) :
    ∃ y, ReadsAs (write (.float x)).toList y ∧ ((x == 0.0) = false → (y == 0.0) = false) := by
  rw [write]
  cases hx : decode x with
  | nan => exact ⟨_, fun rest _ => rfl, fun _ => by decide⟩
  | infinite negative =>
    cases negative with
    | true => exact ⟨_, fun rest _ => rfl, fun _ => by decide⟩
    | false => exact ⟨_, fun rest _ => rfl, fun _ => by decide⟩
  | finite negative m e =>
    rw [Decimal.Layout.text, String.toList_ofList]
    by_cases hm : m = 0
    · subst hm
      simp only [if_true]
      have hzero : ∀ c ∈ ['0'], c.isDigit = true := List.forall_mem_singleton.2 rfl
      have hwrites := @Numeral.writes_point negative ['0'] ['0'] hzero (List.cons_ne_nil _ _)
        (fun _ => rfl) hzero (List.cons_ne_nil _ _)
      refine ⟨_, hwrites.readsAs, fun hne => ?_⟩
      cases (Decimal.beq_zero_of_decode hx).symm.trans hne
    · simp only [if_neg hm]
      have hlt := Decimal.lt_value_shortest (Nat.pos_of_ne_zero hm) (Decimal.le_of_decode hx)
      have hdigits : (shortest m e).digits ≠ 0 := by
        intro hzero
        rw [Digits.value, hzero, Nat.cast_zero, zero_mul] at hlt
        exact absurd hlt (not_lt.2 (by positivity))
      obtain ⟨n, rfl, hwrites⟩ := exists_digits negative hdigits
      refine ⟨_, hwrites.readsAs, fun _ => ?_⟩
      exact Decimal.ofDecimal_beq_zero _ (hwrites.value.symm ▸ hlt)

end Blockwork.Json
