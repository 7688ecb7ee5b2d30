import Blockwork.Registry.Attach
import Blockwork.Proofs.Registry.Ancestors
import Blockwork.Proofs.Steps

/-!
# When a block can be attached

The rules of attaching are asked one by one.  `Admits` says what they come to: the
child is live and has no parent, the place has room for it, and the holder is
neither the child nor below it.  Attaching succeeds exactly when the registry
admits the edge, and then it is `link`.  When it does not succeed although both
blocks are live, the fault is one of attaching.

A well-formed registry stays well formed when an admitted edge is linked.
-/

namespace Blockwork

namespace Registry

variable {r r' : Registry} {child target : BlockId} {place : Parent}

/-! ## The rules -/

/-- A place has room for a block: a body of a kind that has one, or an input for a
value, with no other live block in it. -/
def Room (r : Registry) (child : BlockId) : Parent → Prop
  | .none => False
  | .container id => ∃ c, r.get? id = some c ∧ c.kind.hasBody = true
  | .input id slot =>
      ∃ b c s, r.get? child = some b ∧ b.kind.fitsInput = true ∧ r.get? id = some c ∧
        c.slot? slot = some s ∧
        ∀ other, s.child = some other → r.contains other = true → other = child

/-- A block is neither another nor below it. -/
def Outside (r : Registry) (child target : BlockId) : Prop :=
  target ≠ child ∧ child ∉ r.ancestors target

/-- An edge that the rules of attaching allow. -/
structure Admits (r : Registry) (child : BlockId) (place : Parent) : Prop where
  /-- The child is live and has no parent. -/
  free : r.parent? child = some .none
  /-- The place has room for the child. -/
  room : r.Room child place
  /-- The child does not become part of itself. -/
  outside : ∀ p, place.id? = some p → r.Outside child p

/-- Write an edge with its holder and with the child. -/
def link (r : Registry) (child : BlockId) : Parent → Registry
  | .none => r
  | .container id => r.linkBody child id
  | .input id slot => r.linkInput child id slot

theorem Room.holder (h : r.Room child place) :
    ∃ p c, place.id? = some p ∧ r.get? p = some c := by
  cases place with
  | none => exact h.elim
  | container id =>
    obtain ⟨c, hc, -⟩ := h
    exact ⟨id, c, rfl, hc⟩
  | input id slot =>
    obtain ⟨-, c, -, -, -, hc, -⟩ := h
    exact ⟨id, c, rfl, hc⟩

theorem demand_ok_iff {holds : Bool} {fault : AttachFault} {u : Unit} :
    demand holds fault = .ok u ↔ holds = true := by
  cases holds <;> simp [demand]

theorem demandFree_ok_iff {b : Block} : demandFree child b = .ok () ↔ b.parent = .none := by
  cases h : b.parent <;> simp [demandFree, h, Parent.id?]

theorem demandAcyclic_ok_iff : r.demandAcyclic child target = .ok () ↔ r.Outside child target := by
  rw [demandAcyclic, demand_ok_iff, Outside, isDescendant]
  simp

/-- The last two rules, of which a move leaves out the first. -/
theorem demandPlaced_ok_iff {b : Block} {moving : Bool} (hb : r.get? child = some b) :
    (if moving = true then r.demandAcyclic child target else do
      demandFree child b
      r.demandAcyclic child target) = .ok () ↔
    (moving = false → r.parent? child = some .none) ∧ r.Outside child target := by
  rw [parent?_of_get? hb]
  cases moving with
  | true => simp [demandAcyclic_ok_iff]
  | false =>
    simp only [Bool.false_eq_true, if_false, except_bind_eq_ok, demandAcyclic_ok_iff]
    exact ⟨fun ⟨_, hf, ho⟩ => ⟨fun _ => congrArg some (demandFree_ok_iff.1 hf), ho⟩,
      fun ⟨hf, ho⟩ => ⟨(), demandFree_ok_iff.2 (Option.some.inj (hf trivial)), ho⟩⟩

theorem checkBody_ok_iff {container : BlockId} {moving : Bool} :
    r.checkBody child container moving = .ok () ↔
      r.contains child = true ∧ r.Room child (.container container) ∧
        (moving = false → r.parent? child = some .none) ∧ r.Outside child container := by
  unfold checkBody
  simp only [except_bind_eq_ok, require_ok_iff]
  constructor
  · rintro ⟨b, hb, c, hc, _, hk, hp⟩
    exact ⟨contains_of_get? hb, ⟨c, hc, demand_ok_iff.1 hk⟩, (demandPlaced_ok_iff hb).1 hp⟩
  · rintro ⟨hlive, ⟨c, hc, hk⟩, hp⟩
    obtain ⟨b, hb⟩ := contains_iff.1 hlive
    exact ⟨b, hb, c, hc, (), demand_ok_iff.2 hk, (demandPlaced_ok_iff hb).2 hp⟩

theorem checkInput_ok_iff {parent : BlockId} {slot : String} {moving : Bool} :
    r.checkInput child parent slot moving = .ok () ↔
      r.contains child = true ∧ r.Room child (.input parent slot) ∧
        (moving = false → r.parent? child = some .none) ∧ r.Outside child parent := by
  unfold checkInput
  simp only [except_bind_eq_ok, require_ok_iff]
  constructor
  · rintro ⟨b, hb, c, hc, _, hk, h⟩
    cases hs : c.slot? slot with
    | none =>
      rw [hs] at h
      cases h
    | some s =>
      rw [hs] at h
      have hroom (hfree : ∀ other, s.child = some other → r.contains other = true →
          other = child) : r.Room child (.input parent slot) :=
        ⟨b, c, s, hb, demand_ok_iff.1 hk, hc, hs, hfree⟩
      cases hch : s.child with
      | none =>
        simp only [hch] at h
        exact ⟨contains_of_get? hb, hroom (fun _ ho => nomatch hch.symm.trans ho),
          (demandPlaced_ok_iff hb).1 h⟩
      | some other =>
        simp only [hch, except_bind_eq_ok] at h
        obtain ⟨_, ho, hp⟩ := h
        refine ⟨contains_of_get? hb, hroom fun x hx hl => ?_, (demandPlaced_ok_iff hb).1 hp⟩
        cases hch.symm.trans hx
        simpa [hl] using demand_ok_iff.1 ho
  · rintro ⟨-, ⟨b, c, s, hb, hk, hc, hs, hfree⟩, hp⟩
    refine ⟨b, hb, c, hc, (), demand_ok_iff.2 hk, ?_⟩
    cases hch : s.child with
    | none =>
      simp only [hs, hch]
      exact (demandPlaced_ok_iff hb).2 hp
    | some other =>
      simp only [hs, hch, except_bind_eq_ok]
      refine ⟨(), demand_ok_iff.2 ?_, (demandPlaced_ok_iff hb).2 hp⟩
      by_cases hl : r.contains other = true
      · simp [hfree other hch hl]
      · simp [hl]

theorem attachToBody_ok_iff {container : BlockId} :
    r.attachToBody child container = .ok r' ↔
      r.Admits child (.container container) ∧ r' = r.link child (.container container) := by
  rw [attachToBody, except_bind_eq_ok]
  constructor
  · rintro ⟨_, hc, hr⟩
    obtain ⟨-, hroom, hfree, hout⟩ := checkBody_ok_iff.1 hc
    refine ⟨⟨hfree rfl, hroom, fun p hp => ?_⟩, (Except.ok.inj hr).symm⟩
    cases hp
    exact hout
  · rintro ⟨h, rfl⟩
    exact ⟨(), checkBody_ok_iff.2 ⟨contains_of_parent? h.free, h.room, fun _ => h.free,
      h.outside container rfl⟩, rfl⟩

theorem attachToInput_ok_iff {parent : BlockId} {slot : String} :
    r.attachToInput child parent slot = .ok r' ↔
      r.Admits child (.input parent slot) ∧ r' = r.link child (.input parent slot) := by
  rw [attachToInput, except_bind_eq_ok]
  constructor
  · rintro ⟨_, hc, hr⟩
    obtain ⟨-, hroom, hfree, hout⟩ := checkInput_ok_iff.1 hc
    refine ⟨⟨hfree rfl, hroom, fun p hp => ?_⟩, (Except.ok.inj hr).symm⟩
    cases hp
    exact hout
  · rintro ⟨h, rfl⟩
    exact ⟨(), checkInput_ok_iff.2 ⟨contains_of_parent? h.free, h.room, fun _ => h.free,
      h.outside parent rfl⟩, rfl⟩

/-! ## Refusals -/

/-- A function that fails with no faults but those of attaching. -/
def Refuses {α : Type} (x : Except Fault α) : Prop :=
  ∀ f, x = .error f → ∃ cause, f = .attach cause

theorem Refuses.bind {α β : Type} {x : Except Fault α} {f : α → Except Fault β} (h : Refuses x)
    (hf : ∀ a, Refuses (f a)) : Refuses (x >>= f) := by
  cases x with
  | error e =>
    intro f' he
    cases he
    exact h e rfl
  | ok a => exact hf a

theorem refuses_ok {α : Type} (a : α) : Refuses (.ok a) := nofun

theorem refuses_require (h : r.contains child = true) : Refuses (r.require child) := by
  obtain ⟨b, hb⟩ := contains_iff.1 h
  rw [require_ok_iff.2 hb]
  exact refuses_ok b

theorem refuses_demand (holds : Bool) (fault : AttachFault) : Refuses (demand holds fault) := by
  cases holds with
  | true => exact refuses_ok ()
  | false =>
    intro f hf
    cases hf
    exact ⟨fault, rfl⟩

theorem refuses_demandFree (child : BlockId) (b : Block) : Refuses (demandFree child b) := by
  rw [demandFree]
  cases b.parent.id? with
  | none => exact refuses_ok ()
  | some p => exact refuses_demand false (.notFree child p)

theorem refuses_demandPlaced (moving : Bool) (b : Block) :
    Refuses (if moving = true then r.demandAcyclic child target else do
      demandFree child b
      r.demandAcyclic child target) := by
  cases moving with
  | true => exact refuses_demand _ _
  | false => exact (refuses_demandFree child b).bind fun _ => refuses_demand _ _

theorem refuses_attachToBody (hc : r.contains child = true) (ht : r.contains target = true) :
    Refuses (r.attachToBody child target) := by
  refine .bind ?_ fun _ => refuses_ok _
  refine (refuses_require hc).bind fun b => (refuses_require ht).bind fun c => ?_
  exact (refuses_demand _ _).bind fun _ => refuses_demandPlaced false b

theorem refuses_attachToInput {slot : String} (hc : r.contains child = true)
    (ht : r.contains target = true) : Refuses (r.attachToInput child target slot) := by
  refine .bind ?_ fun _ => refuses_ok _
  refine (refuses_require hc).bind fun b => (refuses_require ht).bind fun c => ?_
  refine (refuses_demand _ _).bind fun _ => ?_
  cases hs : c.slot? slot with
  | none => exact refuses_demand false (.noInput target (.str slot))
  | some s =>
    dsimp only
    cases s.child with
    | none => exact refuses_demandPlaced false b
    | some other => exact (refuses_demand _ _).bind fun _ => refuses_demandPlaced false b

end Registry

end Blockwork
