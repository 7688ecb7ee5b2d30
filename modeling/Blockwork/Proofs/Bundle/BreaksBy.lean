import Blockwork.Fault

/-!
# Steps that break down

A step returns, or it is refused with a fault of the payload, or it breaks down.  `BreaksBy`
says in which ways it breaks down, exactly.  It goes along sequences of steps: the second
step breaks down only when the first has returned.  Asking for texts breaks down where one of
the values has none.
-/

namespace Blockwork.Bundle

variable {α β : Type}

/-- What does not return is refused by a fault of the payload, or it breaks down, in exactly
the given ways. -/
structure BreaksBy (x : Except Fault α) (B : Breakdown → Prop) : Prop where
  refused : ∀ f, x = .error f → (∃ cause, f = .payload cause) ∨ ∃ e, f = .breakdown e
  breaks : ∀ e, x = .error (.breakdown e) ↔ B e

/-- What never breaks down. -/
abbrev Sturdy (x : Except Fault α) : Prop := BreaksBy x fun _ => False

namespace BreaksBy

variable {x : Except Fault α} {f : α → Except Fault β} {B B' : Breakdown → Prop}
variable {C : α → Breakdown → Prop}

theorem ok (a : α) : Sturdy (.ok a) := ⟨nofun, fun _ => ⟨nofun, False.elim⟩⟩

theorem payload (cause : PayloadFault) : Sturdy (.error (.payload cause) : Except Fault α) :=
  ⟨fun _ h => .inl ⟨cause, (Except.error.inj h).symm⟩, fun _ => ⟨nofun, False.elim⟩⟩

theorem breakdown (e : Breakdown) :
    BreaksBy (.error (.breakdown e) : Except Fault α) fun e' => e' = e := by
  refine ⟨fun _ h => .inr ⟨e, (Except.error.inj h).symm⟩, fun e' => ⟨fun h => ?_, fun h => ?_⟩⟩
  · cases h
    rfl
  · rw [h]

theorem congr (h : BreaksBy x B) (hB : ∀ e, B e ↔ B' e) : BreaksBy x B' :=
  ⟨h.refused, fun e => (h.breaks e).trans (hB e)⟩

theorem bind (hx : BreaksBy x B) (hf : ∀ a, x = .ok a → BreaksBy (f a) (C a)) :
    BreaksBy (x >>= f) fun e => B e ∨ ∃ a, x = .ok a ∧ C a e := by
  cases x with
  | error g =>
    refine ⟨fun g' h => hx.refused g' (congrArg _ (Except.error.inj h)), fun e => ⟨fun h => ?_, ?_⟩⟩
    · exact .inl ((hx.breaks e).1 (congrArg _ (Except.error.inj h)))
    · rintro (h | ⟨a, ha, -⟩)
      · rw [(hx.breaks e).2 h]
        rfl
      · cases ha
  | ok a =>
    have h := hf a rfl
    refine ⟨h.refused, fun e => ⟨fun hrun => .inr ⟨a, rfl, (h.breaks e).1 hrun⟩, ?_⟩⟩
    rintro (he | ⟨a', ha, hC⟩)
    · cases (hx.breaks e).2 he
    · cases ha
      exact (h.breaks e).2 hC

theorem bind_sturdy (hx : Sturdy x) (hf : ∀ a, x = .ok a → BreaksBy (f a) (C a)) :
    BreaksBy (x >>= f) fun e => ∃ a, x = .ok a ∧ C a e :=
  (hx.bind hf).congr fun _ => ⟨fun h => h.resolve_left id, .inr⟩

theorem bind_of_sturdy (hx : BreaksBy x B) (hf : ∀ a, x = .ok a → Sturdy (f a)) :
    BreaksBy (x >>= f) B :=
  (hx.bind hf).congr fun _ => ⟨fun h => h.resolve_right fun ⟨_, _, hC⟩ => hC, .inl⟩

end BreaksBy

theorem sturdy_of_not {x : Except Fault α} {B : Breakdown → Prop} (h : Sturdy x)
    (hB : ∀ e, ¬ B e) : BreaksBy x B :=
  h.congr fun e => ⟨False.elim, hB e⟩

/-! ## Texts -/

/-- Some of the values has no text where the texts of all are asked for. -/
def Unwritten (vs : List Json) (e : Breakdown) : Prop :=
  e = .badValue ∧ ∃ v ∈ vs, v.isWritable = false

theorem breaksBy_demandTexts (vs : List Json) : BreaksBy (demandTexts vs) (Unwritten vs) := by
  rw [demandTexts]
  cases hall : vs.all Json.isWritable with
  | true =>
    refine sturdy_of_not (.ok ()) ?_
    rintro e ⟨-, v, hv, hno⟩
    rw [List.all_eq_true.1 hall v hv] at hno
    cases hno
  | false =>
    refine (BreaksBy.breakdown .badValue).congr fun e => (and_iff_left ?_).symm
    simpa using hall

theorem unwritten_singleton {v : Json} {e : Breakdown} :
    Unwritten [v] e ↔ e = .badValue ∧ v.isWritable = false := by
  simp [Unwritten]

/-- A step that comes after some values were found to have texts. -/
theorem BreaksBy.after_texts {vs : List Json} {f : Unit → Except Fault α} {C : Breakdown → Prop}
    (h : (∀ v ∈ vs, v.isWritable = true) → BreaksBy (f ()) C) :
    BreaksBy (demandTexts vs >>= f) fun e =>
      Unwritten vs e ∨ (∀ v ∈ vs, v.isWritable = true) ∧ C e := by
  have hall := (breaksBy_demandTexts vs).bind fun _ hvs => h (demandTexts_ok_iff.1 hvs)
  refine hall.congr fun e => ?_
  rw [← demandTexts_ok_iff]
  exact or_congr_right ⟨fun ⟨_, hvs, he⟩ => ⟨hvs, he⟩, fun ⟨hvs, he⟩ => ⟨(), hvs, he⟩⟩

/-- A fault of the payload that is to name a value without a text breaks down. -/
theorem breaksBy_naming (v : Json) (cause : PayloadFault) :
    BreaksBy (.error (.naming v (.payload cause)) : Except Fault α) fun e =>
      e = .badValue ∧ v.isWritable = false := by
  rw [Fault.naming]
  cases v.isWritable with
  | true => exact sturdy_of_not (.payload cause) fun e h => nomatch h.2
  | false => exact (BreaksBy.breakdown .badValue).congr fun e => (and_iff_left rfl).symm

end Blockwork.Bundle
