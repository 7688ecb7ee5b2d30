import Blockwork.Proofs.Workspace.Frames

/-!
# Faults with a message

A fault has a message unless it is a breakdown.  `Gives` says of a function that may fail
that it fails with a message only, and of what it returns that it meets a condition.  `Runs`
says the same of a step from a state, where the condition is about what is returned and the
state behind it.  Both go along sequences, so a step is taken apart at its binds.

The rules of attaching break down for no blocks at all, whether the edges are sound or not.
-/

namespace Blockwork

variable {S α β : Type}

/-- A fault that has a message. -/
def Fault.Told (f : Fault) : Prop := f.message?.isSome = true

/-- What is returned meets a condition, and a fault has a message. -/
inductive Gives : Except Fault α → (α → Prop) → Prop
  | ok {a : α} {Q : α → Prop} : Q a → Gives (.ok a) Q
  | error {f : Fault} {Q : α → Prop} : f.Told → Gives (.error f) Q

namespace Gives

variable {r : Except Fault α} {f : α → Except Fault β} {Q P : α → Prop} {R : β → Prop}

theorem bind (h : Gives r Q) (hf : ∀ a, Q a → Gives (f a) R) : Gives (r >>= f) R := by
  cases h with
  | ok h => exact hf _ h
  | error h => exact .error h

theorem mono (h : Gives r Q) (hQ : ∀ a, Q a → P a) : Gives r P := by
  cases h with
  | ok h => exact .ok (hQ _ h)
  | error h => exact .error h

/-- What is returned is what is returned. -/
theorem and_eq (h : Gives r Q) : Gives r fun a => r = .ok a ∧ Q a := by
  cases h with
  | ok h => exact .ok ⟨rfl, h⟩
  | error h => exact .error h

end Gives

/-- From the state the step returns something that meets a condition together with the state
behind it, or it fails with a message. -/
def Runs (m : ExceptT Fault (StateM S) α) (s : S) (Q : α → S → Prop) : Prop :=
  Gives (m s).1 fun a => Q a (m s).2

namespace Runs

variable {m : ExceptT Fault (StateM S) α} {f : α → ExceptT Fault (StateM S) β} {s s' : S}
variable {Q P : α → S → Prop} {R : β → S → Prop} {I : S → Prop}

theorem ok {a : α} (hrun : m s = (.ok a, s')) (h : Q a s') : Runs m s Q := by
  rw [Runs, hrun]
  exact .ok h

theorem error {e : Fault} (hrun : m s = (.error e, s')) (h : e.Told) : Runs m s Q := by
  rw [Runs, hrun]
  exact .error h

theorem bind (h : Runs m s Q) (hf : ∀ a s', Q a s' → Runs (f a) s' R) : Runs (m >>= f) s R := by
  unfold Runs at h ⊢
  rcases hrun : m s with ⟨e | a, s'⟩
  · rw [hrun] at h
    rw [run_bind_error hrun]
    cases h with
    | error h => exact .error h
  · rw [hrun] at h
    rw [run_bind_ok hrun]
    cases h with
    | ok h => exact hf a s' h

theorem mono (h : Runs m s Q) (hQ : ∀ a s', Q a s' → P a s') : Runs m s P :=
  Gives.mono h fun a ha => hQ a _ ha

/-- What is known of the state behind a step anyhow. -/
theorem and_state (h : Runs m s Q) (hI : I (m s).2) : Runs m s fun a s' => Q a s' ∧ I s' :=
  Gives.mono h fun _ ha => ⟨ha, hI⟩

/-- A step that only returns `r` leaves the state as it is. -/
theorem of_gives {r : Except Fault α} {Q : α → Prop} (h : Gives r Q) (hm : m s = (r, s)) :
    Runs m s fun a s' => s' = s ∧ Q a := by
  rw [Runs, hm]
  exact h.mono fun _ ha => ⟨rfl, ha⟩

theorem pure {a : α} (h : Q a s) : Runs (Pure.pure a) s Q := .ok rfl h

theorem throw {e : Fault} (h : e.Told) :
    Runs (MonadExcept.throw e : ExceptT Fault (StateM S) α) s Q := .error rfl h

theorem get : Runs (MonadState.get : ExceptT Fault (StateM S) S) s fun a s' => a = s ∧ s' = s :=
  .ok rfl ⟨rfl, rfl⟩

end Runs

/-! ## The rules of attaching -/

namespace Registry

variable {r : Registry} {child p id : BlockId} {slot : String}

theorem gives_require (r : Registry) (id : BlockId) :
    Gives (r.require id) fun b => r.get? id = some b := by
  rw [require]
  cases r.get? id with
  | none => exact .error rfl
  | some b => exact .ok rfl

theorem gives_demand (holds : Bool) (fault : AttachFault) :
    Gives (demand holds fault) fun _ => True := by
  cases holds with
  | true => exact .ok trivial
  | false => exact .error rfl

theorem gives_demandFree (id : BlockId) (b : Block) : Gives (demandFree id b) fun _ => True := by
  rw [demandFree]
  cases b.parent.id? with
  | none => exact .ok trivial
  | some p => exact .error rfl

/-- The last two rules, of which a move leaves out the first. -/
theorem gives_demandPlaced (r : Registry) (child target : BlockId) (moving : Bool) (b : Block) :
    Gives (if moving = true then r.demandAcyclic child target else do
      demandFree child b
      r.demandAcyclic child target) fun _ => True := by
  cases moving with
  | true => exact gives_demand _ _
  | false => exact (gives_demandFree child b).bind fun _ _ => gives_demand _ _

theorem gives_checkBody (r : Registry) (child container : BlockId) (moving : Bool) :
    Gives (r.checkBody child container moving) fun _ => True := by
  refine (gives_require r child).bind fun b _ => (gives_require r container).bind fun c _ => ?_
  exact (gives_demand _ _).bind fun _ _ => gives_demandPlaced r child container moving b

theorem gives_checkInput (r : Registry) (child parent : BlockId) (slot : String) (moving : Bool) :
    Gives (r.checkInput child parent slot moving) fun _ => True := by
  refine (gives_require r child).bind fun b _ => (gives_require r parent).bind fun p _ => ?_
  refine (gives_demand _ _).bind fun _ _ => ?_
  cases p.slot? slot with
  | none => exact .error rfl
  | some s =>
    dsimp only
    cases s.child with
    | none => exact gives_demandPlaced r child parent moving b
    | some other =>
      exact (gives_demand _ _).bind fun _ _ => gives_demandPlaced r child parent moving b

theorem gives_checkMove (r : Registry) (child parent : BlockId) (slot : Option String) :
    Gives (r.checkMove child parent slot) fun _ => True := by
  cases slot with
  | none => exact gives_checkBody r child parent true
  | some slot => exact gives_checkInput r child parent slot true

theorem gives_attachToBody (r : Registry) (child container : BlockId) :
    Gives (r.attachToBody child container) fun _ => True :=
  (gives_checkBody r child container false).bind fun _ _ => .ok trivial

theorem gives_attachToInput (r : Registry) (child parent : BlockId) (slot : String) :
    Gives (r.attachToInput child parent slot) fun _ => True :=
  (gives_checkInput r child parent slot false).bind fun _ _ => .ok trivial

end Registry

/-! ## Steps on a board -/

namespace Board

variable {σ : Type} {b : Board σ}

theorem runs_require (id : BlockId) (b : Board σ) :
    Runs (require id) b fun c b' => b' = b ∧ b.registry.get? id = some c :=
  .of_gives (Registry.gives_require b.registry id) rfl

theorem runs_blocks (b : Board σ) : Runs blocks b fun r b' => b' = b ∧ b.registry = r :=
  .ok rfl ⟨rfl, rfl⟩

variable [Geometry σ]

theorem runs_attachToBody (child container : BlockId) (b : Board σ) :
    Runs (attachToBody child container) b fun _ _ => True := by
  refine .bind (runs_blocks b) fun r b' _ => ?_
  refine .bind (.of_gives (Registry.gives_attachToBody r child container) rfl) fun r' b' _ => ?_
  exact .ok (notifyAll_run _ { b' with registry := r' }) trivial

theorem runs_attachToInput (child parent : BlockId) (slot : String) (b : Board σ) :
    Runs (attachToInput child parent slot) b fun _ _ => True := by
  refine .bind (runs_blocks b) fun r b' _ => ?_
  refine .bind (.of_gives (Registry.gives_attachToInput r child parent slot) rfl)
    fun r' b' _ => ?_
  exact .ok (notifyAll_run _ { b' with registry := r' }) trivial

end Board

end Blockwork
