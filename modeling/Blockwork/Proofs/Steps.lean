/-!
# Steps that may fail

A step takes a state, may fail, and keeps what it did to the state before it failed.  A
step followed by another does what the first does, and then, unless that failed, what
the second does.
-/

namespace Blockwork

variable {ε S α β : Type} {m : ExceptT ε (StateM S) α} {f : α → ExceptT ε (StateM S) β} {s s' : S}

theorem eq_ok_of_toOption {e : Except ε α} {a : α} (h : e.toOption = some a) : e = .ok a := by
  cases e with
  | error _ => cases h
  | ok _ => exact congrArg Except.ok (Option.some.inj h)

theorem except_bind_eq_ok {x : Except ε α} {f : α → Except ε β} {b : β} :
    (x >>= f) = .ok b ↔ ∃ a, x = .ok a ∧ f a = .ok b := by
  cases x with
  | error e => exact ⟨(nomatch ·), fun ⟨_, h, _⟩ => nomatch h⟩
  | ok a => exact ⟨fun h => ⟨a, rfl, h⟩, fun ⟨_, h, hf⟩ => Except.ok.inj h ▸ hf⟩

theorem run_bind_ok {a : α} (h : m s = (.ok a, s')) : (m >>= f) s = f a s' := by
  change ExceptT.bindCont f (m s).1 (m s).2 = _
  rw [h]
  rfl

theorem run_bind_error {e : ε} (h : m s = (.error e, s')) : (m >>= f) s = (.error e, s') := by
  show ExceptT.bindCont f (m s).1 (m s).2 = _
  rw [h]
  rfl

theorem run_bind_eq_ok {b : β} : (m >>= f) s = (.ok b, s') ↔
    ∃ a s₁, m s = (.ok a, s₁) ∧ f a s₁ = (.ok b, s') := by
  rcases h : m s with ⟨e | a, s₁⟩
  · rw [run_bind_error h]
    constructor
    · intro hb
      cases hb
    · rintro ⟨_, _, ha, -⟩
      cases ha
  · rw [run_bind_ok h]
    constructor
    · intro hb
      exact ⟨a, s₁, rfl, hb⟩
    · rintro ⟨_, _, ha, hb⟩
      cases ha
      exact hb

/-- Two steps and what comes next do the same, when they do the same where they are run. -/
theorem run_bind_congr {m' : ExceptT ε (StateM S) α} {f' : α → ExceptT ε (StateM S) β}
    (hm : m s = m' s) (hf : ∀ a s', m s = (.ok a, s') → f a s' = f' a s') :
    (m >>= f) s = (m' >>= f') s := by
  rcases h : m s with ⟨e | a, s'⟩
  · rw [run_bind_error h, run_bind_error (hm.symm.trans h)]
  · rw [run_bind_ok h, run_bind_ok (hm.symm.trans h)]
    exact hf a s' h

/-- What is true of the state after a step and after what comes next is true after
both. -/
theorem run_bind {P : S → Prop} (hm : P (m s).2)
    (hf : ∀ a s', m s = (.ok a, s') → P s' → P (f a s').2) : P ((m >>= f) s).2 := by
  rcases h : m s with ⟨result, s'⟩
  rw [h] at hm
  cases result with
  | error e =>
    rw [run_bind_error h]
    exact hm
  | ok a =>
    rw [run_bind_ok h]
    exact hf a s' h hm

/-- The same when what is true between the two steps is more than what is asked for. -/
theorem run_bind_imp {P Q : S → Prop} (hm : P (m s).2) (himp : ∀ s, P s → Q s)
    (hf : ∀ a s', P s' → Q (f a s').2) : Q ((m >>= f) s).2 := by
  rcases h : m s with ⟨e | a, s'⟩
  · rw [h] at hm
    rw [run_bind_error h]
    exact himp s' hm
  · rw [h] at hm
    rw [run_bind_ok h]
    exact hf a s' hm

end Blockwork
