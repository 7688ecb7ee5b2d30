import Blockwork.Board
import Blockwork.Proofs.Registry.Removal
import Blockwork.Proofs.Steps

/-!
# Giving notice

A notice leaves the blocks alone, whoever gets it and whether he takes it or not.  So
does telling that a block is gone, but when it fails the blocks behind that one are not
dropped.  A provider `Forgets` when it never fails there.

With a geometry every notice gets through.  A round of notices then comes down to
`noticed`, and dropping blocks to `withEdit`.
-/

namespace Blockwork

namespace Registry

@[simp] theorem eraseAll_nil (r : Registry) : r.eraseAll [] = r := by
  obtain ⟨entries, _⟩ := r
  simp [eraseAll, Table.keep]

theorem eraseAll_erase (r : Registry) (id : BlockId) (ids : List BlockId) :
    (r.erase id).eraseAll ids = r.eraseAll (id :: ids) := by
  simp only [erase, eraseAll, Table.keep, List.filter_filter, Registry.mk.injEq]
  refine List.filter_congr fun e _ => ?_
  simp [Bool.and_comm]

end Registry

/-- A provider that takes it when it is told that a block is gone. -/
class Provider.Forgets (σ : Type) [Provider σ] : Prop where
  forget_returns : ∀ (id : BlockId) (scene : Scene) (layout : σ),
    (Provider.forget id scene layout).1 = .ok ()

instance Geometry.forgets {σ : Type} [Geometry σ] : Provider.Forgets σ := ⟨fun _ _ _ => rfl⟩

namespace Board

variable {σ : Type}

/-! ## Whoever is told -/

theorem tell_eq (news : Query σ Unit) (b : Board σ) :
    tell news b = if b.measured then ask news b else (.ok (), b) := by
  change (if b.measured = true then ask news else pure ()) b = _
  split <;> rfl

theorem registry_tell (news : Query σ Unit) (b : Board σ) :
    (tell news b).2.registry = b.registry := by
  rw [tell_eq]
  split <;> rfl

/-- Telling what always gets through. -/
theorem tell_run (f : σ → σ) (b : Board σ) : tell (modify f : Query σ Unit) b =
    (.ok (), { b with layout := if b.measured then f b.layout else b.layout }) := by
  obtain ⟨registry, viewport, layout, measured, journal⟩ := b
  cases measured <;> rfl

section Provider

variable [Provider σ] {b b' : Board σ}

theorem registry_notify (id : BlockId) (b : Board σ) :
    (notify id b).2.registry = b.registry :=
  run_bind (P := fun b' : Board σ => b'.registry = b.registry) (registry_tell _ b) fun _ _ _ h => h

theorem registry_notifyAll (ids : List BlockId) (b : Board σ) :
    (notifyAll ids b).2.registry = b.registry := by
  induction ids generalizing b with
  | nil => rfl
  | cons id ids ih =>
    exact run_bind (P := fun b' : Board σ => b'.registry = b.registry) (registry_notify id b)
      fun _ b₁ _ h => (ih b₁).trans h

theorem notifyAll_append (ids ids' : List BlockId) (b : Board σ) :
    notifyAll (ids ++ ids') b = (notifyAll ids >>= fun _ => notifyAll ids') b := by
  induction ids generalizing b with
  | nil => rfl
  | cons id ids ih =>
    rw [List.cons_append, notifyAll, notifyAll, bind_assoc]
    exact run_bind_congr rfl fun _ b₁ _ => ih b₁

/-- Giving notice chain after chain.  The blocks stay as they are, so the chains are those
of the blocks at first. -/
theorem forIn_notifyChain (ids : List BlockId) (b : Board σ) :
    (forIn ids PUnit.unit fun x _ => do
      notifyChain x
      pure (ForInStep.yield PUnit.unit) : BoardM σ PUnit) b =
    notifyAll (ids.flatMap (chain b.registry)) b := by
  induction ids generalizing b with
  | nil => rfl
  | cons x ids ih =>
    have hx : notifyChain x b = notifyAll (chain b.registry x) b := rfl
    rw [List.forIn_cons, bind_assoc, List.flatMap_cons, notifyAll_append]
    refine run_bind_congr hx fun _ b₁ h => ?_
    have hr : b₁.registry = b.registry := by
      rw [← registry_notifyAll (chain b.registry x) b, ← hx, h]
    rw [← hr]
    exact ih b₁

theorem discardAll_cons (id : BlockId) (ids : List BlockId) (b : Board σ) :
    discardAll (id :: ids) b = (tell (Provider.forget id) >>= fun _ => discardAll ids)
      { b with registry := b.registry.erase id } := rfl

/-- Some blocks were dropped. -/
theorem registry_of_discardAll {ids : List BlockId} (h : discardAll ids b = (.ok (), b')) :
    b'.registry = b.registry.eraseAll ids := by
  induction ids generalizing b with
  | nil =>
    obtain rfl : b = b' := congrArg Prod.snd h
    exact (Registry.eraseAll_nil _).symm
  | cons id ids ih =>
    rw [discardAll_cons] at h
    obtain ⟨_, b₁, htold, h⟩ := run_bind_eq_ok.1 h
    have hr : b₁.registry = b.registry.erase id := by
      rw [show b₁ = _ from (congrArg Prod.snd htold).symm, registry_tell]
    rw [ih h, hr, Registry.eraseAll_erase]

/-- Dropping blocks succeeds when the provider takes it. -/
theorem discardAll_ok [Provider.Forgets σ] (ids : List BlockId) (b : Board σ) :
    ∃ b', discardAll ids b = (.ok (), b') := by
  induction ids generalizing b with
  | nil => exact ⟨b, rfl⟩
  | cons id ids ih =>
    have htold : ∀ b₁ : Board σ, ∃ b₂, tell (Provider.forget id) b₁ = (.ok (), b₂) := by
      intro b₁
      rw [tell_eq]
      split
      · have h := Provider.Forgets.forget_returns id ⟨b₁.registry, b₁.viewport⟩ b₁.layout
        exact ⟨_, Prod.ext h rfl⟩
      · exact ⟨b₁, rfl⟩
    obtain ⟨b₂, h₂⟩ := htold { b with registry := b.registry.erase id }
    obtain ⟨b₃, h₃⟩ := ih b₂
    exact ⟨b₃, by rw [discardAll_cons, run_bind_ok h₂, h₃]⟩

end Provider

/-! ## Geometries -/

section Geometry

variable [Geometry σ]

/-- A board after a notice. -/
def noticed (b : Board σ) (id : BlockId) : Board σ :=
  { b with
    layout := if b.measured then Geometry.childrenChanged id b.layout else b.layout
    journal := b.journal ++ [id] }

/-- A board with other blocks, after the geometry was told of those that are gone. -/
def withEdit (b : Board σ) (r : Registry) (gone : List BlockId) : Board σ :=
  { b with
    registry := r
    layout :=
      if b.measured then gone.foldl (fun l x => Geometry.forget x l) b.layout else b.layout }

/-- An edit of which the geometry is not told. -/
@[simp] theorem withEdit_nil (b : Board σ) (r : Registry) : b.withEdit r [] = { b with registry := r } := by
  obtain ⟨registry, viewport, layout, measured, journal⟩ := b
  cases measured <;> rfl

theorem notify_run (id : BlockId) (b : Board σ) : notify id b = (.ok (), b.noticed id) :=
  run_bind_ok (tell_run (Geometry.childrenChanged id) b)

theorem notifyAll_run (ids : List BlockId) (b : Board σ) :
    notifyAll ids b = (.ok (), ids.foldl noticed b) := by
  induction ids generalizing b with
  | nil => rfl
  | cons id ids ih => rw [notifyAll, run_bind_ok (notify_run id b), ih, List.foldl_cons]

/-- Every block with a body has heard. -/
theorem refresh_run (b : Board σ) : refresh b =
    (.ok (),
      ((b.registry.entries.filter fun e => e.2.kind.hasBody).map Prod.fst).foldl noticed b) :=
  notifyAll_run _ b

theorem registry_notices (ids : List BlockId) (b : Board σ) :
    (ids.foldl noticed b).registry = b.registry := by
  have h := registry_notifyAll ids b
  rwa [notifyAll_run] at h

theorem discardAll_run (gone : List BlockId) (b : Board σ) :
    discardAll gone b = (.ok (), b.withEdit (b.registry.eraseAll gone) gone) := by
  induction gone generalizing b with
  | nil => rw [withEdit_nil, Registry.eraseAll_nil, discardAll]; rfl
  | cons id ids ih =>
    have htold : tell (Provider.forget id) { b with registry := b.registry.erase id } = _ :=
      tell_run (Geometry.forget id) _
    rw [discardAll_cons, run_bind_ok htold, ih, Registry.eraseAll_erase]
    obtain ⟨registry, viewport, layout, measured, journal⟩ := b
    cases measured <;> rfl

end Geometry

end Board

end Blockwork
