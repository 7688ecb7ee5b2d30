import Mathlib.Data.Nat.Digits.Defs
import Blockwork.Json.Lexer
import Blockwork.Json.Writer

/-!
# How texts are spelled

A character of a written text stands for itself, or it is written with a backslash in
one of several ways.  Whichever way it is, the reader gets the code units of the
character in UTF-16, and the units make up the character again.
-/

namespace Blockwork.Json

open Blockwork.Text (hexDigits)

/-- The code units of a character in UTF-16. -/
def charUnits (c : Char) : List Nat :=
  if c.toNat < 0x10000 then [c.toNat]
  else [0xd800 + (c.toNat - 0x10000) / 0x400, 0xdc00 + (c.toNat - 0x10000) % 0x400]

theorem isHigh_iff {u : Nat} : isHigh u = true ↔ 0xd800 ≤ u ∧ u < 0xdc00 := by
  rw [isHigh, Bool.and_eq_true, decide_eq_true_iff, decide_eq_true_iff]

theorem isLow_iff {u : Nat} : isLow u = true ↔ 0xdc00 ≤ u ∧ u < 0xe000 := by
  rw [isLow, Bool.and_eq_true, decide_eq_true_iff, decide_eq_true_iff]

/-- A unit that is no surrogate is a character. -/
theorem joinUnits_plain {u : Nat} (h : u < 0xd800 ∨ 0xdfff < u) (us : List Nat) :
    joinUnits (u :: us) = Char.ofNat u :: joinUnits us := by
  have hhigh : isHigh u = false := by
    rw [← Bool.not_eq_true, isHigh_iff]
    omega
  have hlow : isLow u = false := by
    rw [← Bool.not_eq_true, isLow_iff]
    omega
  cases us with
  | nil => simp only [joinUnits, hhigh, hlow, Bool.or_self, Bool.false_eq_true, if_false]
  | cons v us =>
    simp only [joinUnits, hhigh, hlow, Bool.or_self, Bool.false_and, Bool.false_eq_true, if_false]

/-- Two units that are a surrogate pair are one character. -/
theorem joinUnits_pair {v : Nat} (h : v < 0x100000) (us : List Nat) :
    joinUnits ((0xd800 + v / 0x400) :: (0xdc00 + v % 0x400) :: us) =
      Char.ofNat (0x10000 + v) :: joinUnits us := by
  have hhigh : isHigh (0xd800 + v / 0x400) = true := isHigh_iff.2 (by omega)
  have hlow : isLow (0xdc00 + v % 0x400) = true := isLow_iff.2 (by omega)
  have hjoined : 0x10000 + (0xd800 + v / 0x400 - 0xd800) * 0x400 +
      (0xdc00 + v % 0x400 - 0xdc00) = 0x10000 + v := by omega
  simp only [joinUnits, hhigh, hlow, Bool.and_self, if_true, hjoined]

theorem joinUnits_charUnits (c : Char) (us : List Nat) :
    joinUnits (charUnits c ++ us) = c :: joinUnits us := by
  have hvalid : c.toNat < 0xd800 ∨ 0xdfff < c.toNat ∧ c.toNat < 0x110000 := c.valid
  rw [charUnits]
  split
  · have hplain : c.toNat < 0xd800 ∨ 0xdfff < c.toNat := by omega
    rw [List.cons_append, List.nil_append, joinUnits_plain hplain, Char.ofNat_toNat]
  · next hlong =>
    have hpair : c.toNat - 0x10000 < 0x100000 := by omega
    have hsum : 0x10000 + (c.toNat - 0x10000) = c.toNat := by omega
    rw [List.cons_append, List.cons_append, List.nil_append, joinUnits_pair hpair, hsum,
      Char.ofNat_toNat]

theorem joinUnits_flatMap (cs : List Char) : joinUnits (cs.flatMap charUnits) = cs := by
  induction cs with
  | nil => rfl
  | cons c cs ih => rw [List.flatMap_cons, joinUnits_charUnits, ih]

theorem hexDigits_one {u : Nat} (h : u < 16) : hexDigits 1 u = [u.digitChar] := by
  simp [hexDigits, Nat.toDigits_of_lt_base h]

theorem hexDigits_succ (w u : Nat) :
    hexDigits (w + 2) u = hexDigits (w + 1) (u / 16) ++ [(u % 16).digitChar] := by
  by_cases h : u < 16
  · have hu : u / 16 = 0 := Nat.div_eq_of_lt h
    simp [hexDigits, Nat.toDigits_of_lt_base h, hu, Nat.mod_eq_of_lt h, List.replicate_succ']
  · have hu := Nat.toDigits_of_base_le (b := 16) (by decide) (Nat.not_lt.1 h)
    simp [hexDigits, hu]

theorem hexDigit?_digitChar : ∀ {d : Nat}, d < 16 → hexDigit? d.digitChar = some d := by decide

/-- Four hexadecimal digits are read as the unit that they were written for. -/
theorem exists_hexDigits {u : Nat} (h : u < 0x10000) :
    ∃ a b c d, hexDigits 4 u = [a, b, c, d] ∧ hexUnit? a b c d = some u := by
  refine ⟨(u / 16 / 16 / 16).digitChar, (u / 16 / 16 % 16).digitChar, (u / 16 % 16).digitChar,
    (u % 16).digitChar, ?_, ?_⟩
  · have hlast : u / 16 / 16 / 16 < 16 := by omega
    simp [hexDigits_succ, hexDigits_one hlast]
  · have hfirst : u / 16 / 16 / 16 < 16 := by omega
    have hmod (n : Nat) : n % 16 < 16 := Nat.mod_lt n (by decide)
    have hvalue : ((u / 16 / 16 / 16 * 16 + u / 16 / 16 % 16) * 16 + u / 16 % 16) * 16 + u % 16 =
        u := by omega
    simp [hexUnit?, hexDigit?_digitChar hfirst, hexDigit?_digitChar (hmod _), hvalue]

theorem textUnits?_unitEscape {u : Nat} (h : u < 0x10000) (cs : List Char) :
    textUnits? (unitEscape u ++ cs) = (textUnits? cs).map fun (us, n) => (u :: us, n + 6) := by
  obtain ⟨a, b, c, d, hdigits, hunit⟩ := exists_hexDigits h
  rw [unitEscape, hdigits]
  simp only [List.cons_append, List.nil_append, textUnits?, hunit]

theorem length_unitEscape {u : Nat} (h : u < 0x10000) : (unitEscape u).length = 6 := by
  obtain ⟨a, b, c, d, hdigits, -⟩ := exists_hexDigits h
  rw [unitEscape, hdigits]
  rfl

theorem textUnits?_simpleEscape {e : Char} {u : Nat} (h : simpleEscape? e = some u)
    (cs : List Char) :
    textUnits? ('\\' :: e :: cs) = (textUnits? cs).map fun (us, n) => (u :: us, n + 2) := by
  have hu : e ≠ 'u' := by
    rintro rfl
    cases h
  rw [textUnits?]
  · rw [h]
  · exact fun _ _ _ _ _ he => absurd he hu

theorem textUnits?_plain {c : Char} (hq : c ≠ Char.ofNat 0x22) (hb : c ≠ '\\') (h : 0x20 ≤ c.toNat)
    (cs : List Char) :
    textUnits? (c :: cs) = (textUnits? cs).map fun (us, n) => (c.toNat :: us, n + 1) := by
  rw [textUnits?]
  · rw [if_neg hq, if_neg (Nat.not_lt.2 h)]
  · exact fun _ _ _ _ _ he => absurd he hb
  · exact fun _ _ he => absurd he hb

/-- However a character is written, it is read as its code units. -/
theorem textUnits?_writeChar (c : Char) (cs : List Char) :
    textUnits? (writeChar c ++ cs) =
      (textUnits? cs).map fun (us, n) => (charUnits c ++ us, n + (writeChar c).length) := by
  have hescape {e : Char} (hc : c.toNat < 0x10000) (he : simpleEscape? e = some c.toNat) :
      textUnits? (['\\', e] ++ cs) =
        (textUnits? cs).map fun (us, n) => (charUnits c ++ us, n + ['\\', e].length) := by
    rw [charUnits, if_pos hc]
    exact textUnits?_simpleEscape he cs
  rw [writeChar]
  split
  · next h =>
    have h : c = Char.ofNat 0x22 ∨ c = '\\' := by simpa using h
    rcases h with rfl | rfl <;> exact hescape (by decide) rfl
  split
  · next h => exact hescape (h ▸ by decide) (h ▸ rfl)
  split
  · next h => exact hescape (h ▸ by decide) (h ▸ rfl)
  split
  · next h => exact hescape (h ▸ by decide) (h ▸ rfl)
  split
  · next h => exact hescape (h ▸ by decide) (h ▸ rfl)
  split
  · next h => exact hescape (h ▸ by decide) (h ▸ rfl)
  split
  · next hq _ _ _ _ _ h =>
    have hq : c ≠ Char.ofNat 0x22 ∧ c ≠ '\\' := by simpa using hq
    have h : 0x20 ≤ c.toNat ∧ c.toNat < 0x7f := by simpa using h
    rw [charUnits, if_pos (by omega)]
    exact textUnits?_plain hq.1 hq.2 h.1 cs
  split
  · next h =>
    rw [textUnits?_unitEscape h, length_unitEscape h, charUnits, if_pos h]
    rfl
  · next h =>
    have hvalid : c.toNat < 0xd800 ∨ 0xdfff < c.toNat ∧ c.toNat < 0x110000 := c.valid
    have hhigh : 0xd800 + (c.toNat - 0x10000) / 0x400 < 0x10000 := by omega
    have hlow : 0xdc00 + (c.toNat - 0x10000) % 0x400 < 0x10000 := by omega
    dsimp only
    rw [List.append_assoc, textUnits?_unitEscape hhigh, textUnits?_unitEscape hlow, Option.map_map,
      List.length_append, length_unitEscape hhigh, length_unitEscape hlow, charUnits, if_neg h]
    rfl

/-- A written text up to its closing quote. -/
theorem textUnits?_flatMap (cs rest : List Char) :
    textUnits? (cs.flatMap writeChar ++ Char.ofNat 0x22 :: rest) =
      some (cs.flatMap charUnits, (cs.flatMap writeChar).length + 1) := by
  induction cs with
  | nil =>
    change textUnits? ('"' :: rest) = some ([], 1)
    rw [textUnits?] <;> simp
  | cons c cs ih =>
    rw [List.flatMap_cons, List.append_assoc, textUnits?_writeChar, ih, Option.map_some,
      List.flatMap_cons, List.length_append]
    simp only [Option.some.injEq, Prod.mk.injEq, true_and]
    omega

end Blockwork.Json
