import Mathlib.Data.List.Induction
import Mathlib.Data.Nat.Digits.Defs
import Blockwork.Json.Digits
import Blockwork.Json.Encoding
import Blockwork.Json.Number

/-!
# Values that have texts

A value has a text unless there is too long a whole number in it.  What is taken out of such a
value has a text again.  Whatever is read from JSON text has a text: the lexer refuses longer
whole numbers, so all tokens have texts, and each step of the reader keeps it so for the value
and for what is still open.  An index has a text if the value had one that it was read from.
-/

namespace Blockwork

/-! ## Short numbers -/

namespace Decimal

variable {n k : Nat} {ds : List Nat}

theorem digitCount_le (hk : 0 < k) (h : n < 10 ^ k) : digitCount n ≤ k :=
  Nat.toDigits_length 10 n k hk h

/-- A number is less than the power of ten with as many zeros as it has digits. -/
theorem ofDigits_lt (h : ∀ d ∈ ds, d < 10) : ofDigits ds < 10 ^ ds.length := by
  induction ds using List.reverseRecOn with
  | nil => decide
  | append_singleton ds d ih =>
    have hd : d < 10 := h d (by simp)
    have hds : ofDigits ds < 10 ^ ds.length := ih fun x hx => h x (List.mem_append_left _ hx)
    have hlast : ofDigits (ds ++ [d]) = 10 * ofDigits ds + d := by simp [ofDigits]
    rw [hlast, List.length_append, List.length_singleton, Nat.pow_succ]
    omega

/-- A number that is written with few enough digits has few enough. -/
theorem digitCount_ofDigits_le (h : ∀ d ∈ ds, d < 10) (hlen : ds.length ≤ maxDigits) :
    digitCount (ofDigits ds) ≤ maxDigits :=
  digitCount_le (by decide) ((ofDigits_lt h).trans_le (Nat.pow_le_pow_right (by decide) hlen))

theorem lt_of_mem_moreDigits {cs : List Char} : ∀ d ∈ (moreDigits cs).1, d < 10 := by
  fun_induction moreDigits cs with
  | case1 c cs d hd ds rest _ ih =>
    exact List.forall_mem_cons.2 ⟨Unicode.digitValue?_lt hd, by simp_all⟩
  | case3 c cs _ d hd ds rest _ ih =>
    exact List.forall_mem_cons.2 ⟨Unicode.digitValue?_lt hd, by simp_all⟩
  | _ => nofun

theorem lt_of_mem_takeDigits {cs : List Char} : ∀ d ∈ (takeDigits cs).1, d < 10 := by
  unfold takeDigits
  split
  · split
    · next hd => exact List.forall_mem_cons.2 ⟨Unicode.digitValue?_lt hd, lt_of_mem_moreDigits⟩
    · exact nofun
  · exact nofun

/-- A finite double is less than `2 ^ 1024`. -/
theorem lt_of_decodeBits {bits m : Nat} {negative : Bool} {e : Int}
    (h : decodeBits bits = .finite negative m e) : m < 2 ^ 53 ∧ e ≤ 971 := by
  have hfraction : bits % twoTo 52 < twoTo 52 := Nat.mod_lt _ (by decide)
  have hfield : bits / twoTo 52 % twoTo 11 < twoTo 11 := Nat.mod_lt _ (by decide)
  have h52 : twoTo 52 = 2 ^ 52 := rfl
  have h11 : twoTo 11 = 2048 := rfl
  unfold decodeBits at h
  extract_lets negative field fraction at h
  split at h
  · split at h <;> cases h
  · split at h
    · obtain ⟨-, rfl, rfl⟩ := Decoded.finite.inj h
      omega
    · obtain ⟨-, rfl, rfl⟩ := Decoded.finite.inj h
      rw [Int.ofNat_eq_natCast]
      omega

theorem mul_twoTo_lt {m a : Nat} (hm : m < 2 ^ n) (hk : n + a ≤ k) : m * twoTo a < 2 ^ k :=
  calc m * twoTo a
    _ < 2 ^ n * 2 ^ a := Nat.mul_lt_mul_of_pos_right hm (Nat.pow_pos (by decide))
    _ = 2 ^ (n + a) := (Nat.pow_add ..).symm
    _ ≤ 2 ^ k := Nat.pow_le_pow_right (by decide) hk

theorem natAbs_truncate?_lt {x : Float} {n : Int} (h : truncate? x = some n) :
    n.natAbs < 10 ^ maxDigits := by
  unfold truncate? at h
  split at h
  · next negative m e hd =>
    obtain ⟨hm, he⟩ := lt_of_decodeBits hd
    have hmax : maxDigits = 4300 := rfl
    have habs : n.natAbs = m * twoTo e.toNat / twoTo (-e).toNat := by
      cases h
      cases negative with
      | false => rfl
      | true => exact Int.natAbs_neg _
    calc n.natAbs
      _ ≤ m * twoTo e.toNat := habs.trans_le (Nat.div_le_self ..)
      _ < 2 ^ maxDigits := mul_twoTo_lt hm (by omega)
      _ ≤ 10 ^ maxDigits := Nat.pow_le_pow_left (by decide) _
  · cases h

end Decimal

namespace Json

open Decimal (digitCount maxDigits ofDigits)

variable {v w : Json} {vs : List Json} {members : List (String × Json)} {name : String}

/-! ## Parts of values -/

theorem areWritable_iff : areWritable vs = true ↔ ∀ v ∈ vs, v.isWritable = true := by
  induction vs with
  | nil => simp [areWritable]
  | cons v vs ih => simp [areWritable, ih]

theorem haveWritable_iff : haveWritable members = true ↔ ∀ m ∈ members, m.2.isWritable = true := by
  induction members with
  | nil => simp [haveWritable]
  | cons m members ih => simp [haveWritable, ih]

@[simp] theorem isWritable_str (s : String) : (Json.str s).isWritable = true := rfl

@[simp] theorem isWritable_arr : (arr vs).isWritable = true ↔ ∀ v ∈ vs, v.isWritable = true :=
  areWritable_iff

@[simp] theorem isWritable_obj :
    (obj members).isWritable = true ↔ ∀ m ∈ members, m.2.isWritable = true :=
  haveWritable_iff

theorem isWritable_of_member? (h : (obj members).isWritable = true)
    (hv : member? members name = some v) : v.isWritable = true :=
  isWritable_obj.1 h (name, v) (Table.mem_of_lookup hv)

theorem isWritable_getD (h : (obj members).isWritable = true) (name : String)
    (hv : v.isWritable = true) : ((member? members name).getD v).isWritable = true := by
  cases hm : member? members name with
  | none => exact hv
  | some w => exact isWritable_of_member? h hm

theorem isWritable_member (h : (obj members).isWritable = true) (name : String) :
    (member members name).isWritable = true := isWritable_getD h name rfl

theorem isWritable_orElse (hv : v.isWritable = true) (hw : w.isWritable = true) :
    (v.orElse w).isWritable = true := by
  rw [orElse]
  split <;> assumption

/-- What does not count as given has a text. -/
theorem isWritable_of_falsy (h : v.isTruthy = false) : v.isWritable = true := by
  cases v with
  | int n =>
    obtain rfl : n = 0 := by simpa [isTruthy] using h
    decide
  | arr items =>
    obtain rfl : items = [] := by simpa [isTruthy] using h
    rfl
  | obj members =>
    obtain rfl : members = [] := by simpa [isTruthy] using h
    rfl
  | null | bool _ | float _ | str _ => rfl

/-! ## Numbers -/

theorem isWritable_int_iff {n : Int} :
    (int n).isWritable = true ↔ digitCount n.natAbs ≤ maxDigits := decide_eq_true_iff

/-- The digits of a whole number, with a sign in front of them. -/
theorem isWritable_signed {n : Nat} (negative : Bool) (h : digitCount n ≤ maxDigits) :
    (int (if negative then -Int.ofNat n else Int.ofNat n)).isWritable = true := by
  rw [isWritable_int_iff]
  cases negative <;> simpa using h

theorem lt_of_mem_takeAscii {cs : List Char} : ∀ d ∈ (takeAscii cs).1, d < 10 := by
  induction cs with
  | nil => nofun
  | cons c cs ih =>
    rw [takeAscii]
    cases hd : asciiDigit? c with
    | none => exact nofun
    | some d =>
      refine List.forall_mem_cons.2 ⟨?_, ih⟩
      rw [asciiDigit?] at hd
      split at hd
      · next hc =>
        have hrange : '0'.toNat ≤ c.toNat ∧ c.toNat ≤ '9'.toNat := Char.isDigit_iff_toNat.1 hc
        have h9 : '9'.toNat = '0'.toNat + 9 := rfl
        cases hd
        omega
      · cases hd

theorem isWritable_number? {cs : List Char} (h : number? cs = some v) : v.isWritable = true := by
  unfold number? at h
  simp only [Option.bind_eq_bind, Option.bind_eq_some_iff] at h
  obtain ⟨⟨whole, rest⟩, hwhole, ⟨fraction, rest'⟩, -, exponent, -, h⟩ := h
  have hdigits : ∀ d ∈ whole, d < 10 := by
    unfold wholePart? at hwhole
    split at hwhole
    · cases hwhole
    · cases hwhole
    · have hfst : (takeAscii _).1 = whole := congrArg Prod.fst (Option.some.inj hwhole)
      rw [← hfst]
      exact lt_of_mem_takeAscii
  split at h
  · split at h
    · next hlen =>
      cases h
      exact isWritable_signed _ (Decimal.digitCount_ofDigits_le hdigits hlen)
    · cases h
  · cases h
    rfl

/-- The index that is read from a value has a text if the value has one. -/
theorem isWritable_of_toInt {n : Int} (hv : v.isWritable = true) (h : v.toInt = .ok n) :
    (int n).isWritable = true := by
  cases v with
  | bool b => cases b <;> cases h <;> decide
  | int m =>
    cases h
    exact hv
  | float x =>
    rw [toInt] at h
    split at h
    · cases h
    · cases h
    · next negative m e hd =>
      have hx : ∃ m, Decimal.truncate? x = some m := ⟨_, by rw [Decimal.truncate?, hd]⟩
      obtain ⟨m, hm⟩ := hx
      rw [hm] at h
      cases h
      exact isWritable_int_iff.2
        (Decimal.digitCount_le (by decide) (Decimal.natAbs_truncate?_lt hm))
  | str s =>
    have hread : Decimal.readInt? s = some n := by
      rw [toInt] at h
      split at h <;> cases h
      assumption
    rw [Decimal.readInt?] at hread
    dsimp only at hread
    split at hread
    · next d ds hds =>
      split at hread
      · next hlen =>
        have hfst : (Decimal.takeDigits _).1 = d :: ds := congrArg Prod.fst hds
        have hdigits : ∀ x ∈ d :: ds, x < 10 := by
          rw [← hfst]
          exact Decimal.lt_of_mem_takeDigits
        cases hread
        exact isWritable_signed _ (Decimal.digitCount_ofDigits_le hdigits hlen)
      · cases hread
    · cases hread
  | null | arr _ | obj _ => cases h

/-! ## Tokens -/

/-- A token whose value has a text. -/
def Token.isWritable : Token → Bool
  | .atom v => v.isWritable
  | _ => true

theorem isWritable_mark? {c : Char} {t : Token} (h : mark? c = some t) : t.isWritable = true := by
  unfold mark? at h
  split_ifs at h <;> cases h <;> rfl

theorem isWritable_words : ∀ w ∈ words, w.2.isWritable = true := by decide

theorem isWritable_nextToken? {c : Char} {cs : List Char} {t : Token} {n : Nat}
    (h : nextToken? c cs = some (t, n)) : t.isWritable = true := by
  unfold nextToken? at h
  split at h
  · next hm =>
    cases h
    exact isWritable_mark? hm
  · split at h
    · obtain ⟨_, -, he⟩ := Option.map_eq_some_iff.1 h
      cases he
      rfl
    · split at h
      · next hw =>
        cases h
        exact isWritable_words _ (List.mem_of_find?_eq_some hw)
      · obtain ⟨v, hv, he⟩ := Option.map_eq_some_iff.1 h
        cases he
        exact isWritable_number? hv

theorem isWritable_tokensFrom? {k : Nat} {cs : List Char} {ts : List Token}
    (h : tokensFrom? k cs = some ts) : ∀ t ∈ ts, t.isWritable = true := by
  induction cs generalizing k ts with
  | nil =>
    cases k <;> cases h <;> exact nofun
  | cons c cs ih =>
    cases k with
    | succ k => exact ih h
    | zero =>
      rw [tokensFrom?] at h
      split at h
      · exact ih h
      · split at h
        · next t n hnext =>
          obtain ⟨rest, hrest, rfl⟩ := Option.map_eq_some_iff.1 h
          exact List.forall_mem_cons.2 ⟨isWritable_nextToken? hnext, ih hrest⟩
        · cases h

/-! ## Reading -/

/-- What has been read of a list or an object that is still open has texts. -/
def Frame.isWritable : Frame → Bool
  | .items done => areWritable done
  | .members done | .valueOf done _ => haveWritable done

/-- All that has been read has texts. -/
structure Reading.Writable (r : Reading) : Prop where
  opened : ∀ f ∈ r.opened, f.isWritable = true
  value : ∀ v, r.expect = .nothing v → v.isWritable = true

variable {r r' : Reading} {opened : List Frame} {t : Token}

theorem writable_place (hv : v.isWritable = true) (ho : ∀ f ∈ opened, f.isWritable = true)
    (h : place v opened = some r) : r.Writable := by
  unfold place at h
  split at h
  · cases h
    refine ⟨nofun, fun w hw => ?_⟩
    cases hw
    exact hv
  · next done rest =>
    cases h
    obtain ⟨hdone, hrest⟩ := List.forall_mem_cons.1 ho
    refine ⟨List.forall_mem_cons.2 ⟨?_, hrest⟩, nofun⟩
    exact areWritable_iff.2 (List.forall_mem_cons.2 ⟨hv, areWritable_iff.1 hdone⟩)
  · next done name rest =>
    cases h
    obtain ⟨hdone, hrest⟩ := List.forall_mem_cons.1 ho
    refine ⟨List.forall_mem_cons.2 ⟨?_, hrest⟩, nofun⟩
    refine haveWritable_iff.2 fun m hm => ?_
    rcases Table.mem_set hm with rfl | hm
    · exact hv
    · exact haveWritable_iff.1 hdone m hm
  · cases h

theorem writable_readValue (ht : t.isWritable = true) (ho : ∀ f ∈ opened, f.isWritable = true)
    (h : readValue t opened = some r) : r.Writable := by
  cases t with
  | atom v => exact writable_place ht ho h
  | text s => exact writable_place rfl ho h
  | openList | openObject =>
    cases h
    exact ⟨List.forall_mem_cons.2 ⟨rfl, ho⟩, nofun⟩
  | _ => cases h

theorem writable_readName (ho : ∀ f ∈ opened, f.isWritable = true)
    (h : readName t opened = some r) : r.Writable := by
  unfold readName at h
  split at h
  · cases h
    obtain ⟨hdone, hrest⟩ := List.forall_mem_cons.1 ho
    exact ⟨List.forall_mem_cons.2 ⟨hdone, hrest⟩, nofun⟩
  · cases h

theorem writable_closeFrame (ho : ∀ f ∈ opened, f.isWritable = true)
    (h : closeFrame t opened = some r) : r.Writable := by
  unfold closeFrame at h
  split at h
  · obtain ⟨hdone, hrest⟩ := List.forall_mem_cons.1 ho
    refine writable_place (isWritable_arr.2 fun v hv => ?_) hrest h
    exact areWritable_iff.1 hdone v (List.mem_reverse.1 hv)
  · next done rest =>
    obtain ⟨hdone, hrest⟩ := List.forall_mem_cons.1 ho
    have hobj : (obj done).isWritable = true := hdone
    exact writable_place hobj hrest h
  · cases h

/-- One token keeps it so. -/
theorem writable_step (hr : r.Writable) (ht : t.isWritable = true) (h : r.step t = some r') :
    r'.Writable := by
  unfold Reading.step at h
  split at h
  · exact writable_readValue ht hr.opened h
  · split at h
    · exact writable_closeFrame hr.opened h
    · exact writable_readValue ht hr.opened h
  · exact writable_readName hr.opened h
  · split at h
    · exact writable_closeFrame hr.opened h
    · exact writable_readName hr.opened h
  · split at h
    · cases h
      exact ⟨hr.opened, nofun⟩
    · cases h
  · split at h
    · cases h
      exact ⟨hr.opened, nofun⟩
    · cases h
      exact ⟨hr.opened, nofun⟩
    · exact writable_closeFrame hr.opened h
  · cases h

/-- All tokens keep it so. -/
theorem isWritable_readTokens {ts : List Token} (hr : r.Writable)
    (hts : ∀ t ∈ ts, t.isWritable = true) (h : readTokens r ts = some v) :
    v.isWritable = true := by
  induction ts generalizing r with
  | nil =>
    unfold readTokens at h
    split at h
    · cases h
      exact hr.value _ rfl
    · cases h
    · next h' => cases h'
  | cons t ts ih =>
    obtain ⟨ht, hts⟩ := List.forall_mem_cons.1 hts
    rw [readTokens] at h
    split at h
    · next hstep => exact ih (writable_step hr ht hstep) hts h
    · cases h

/-- What is read from a JSON text has a text. -/
theorem isWritable_parse? {text : String} (h : parse? text = some v) : v.isWritable = true := by
  have hstart : Reading.Writable ⟨.value, []⟩ := ⟨nofun, nofun⟩
  obtain ⟨ts, hts, h⟩ := Option.bind_eq_some_iff.1 h
  exact isWritable_readTokens hstart (isWritable_tokensFrom? hts) h

theorem isWritable_parseBytes? {text : String} (h : parseBytes? text = some v) :
    v.isWritable = true := by
  unfold parseBytes? at h
  extract_lets bytes at h
  split at h
  · obtain ⟨cs, -, h⟩ := Option.bind_eq_some_iff.1 h
    exact isWritable_parse? h
  · exact isWritable_parse? h

end Json

end Blockwork
