import Blockwork.Proofs.Registry.AttachRules

/-!
# Names of body placeholders

A block of a kind with a body has a name for the placeholder that receives the body.  It
is the name that its definition gives, or a conventional one, and it counts as given in
either case.  Nothing that is done to a block later changes the name.
-/

namespace Blockwork

/-! ## Names that are inferred -/

theorem mem_conventionalNames {cs : List Char} {n : String} (h : firstConventional? cs = some n) :
    n ∈ conventionalNames := by
  induction cs with
  | nil => cases h
  | cons c cs ih =>
    rw [firstConventional?] at h
    split at h
    · split at h
      · next m hm =>
        cases h
        exact List.mem_of_find?_eq_some hm
      · exact ih h
    · exact ih h

theorem ne_empty_of_mem_conventionalNames : ∀ n ∈ conventionalNames, n ≠ "" := by decide

theorem Json.isTruthy_of_given? {v w : Json} (h : v.given? = some w) : w.isTruthy = true := by
  unfold given? at h
  split at h
  · next htruthy =>
    cases h
    exact htruthy
  · cases h

/-- A name that is given or inferred counts as given. -/
theorem isTruthy_of_inferContainerVar {templates : Templates} {explicit : Option Json} {v : Json}
    (h : inferContainerVar templates explicit = .ok v) : v.isTruthy = true := by
  unfold inferContainerVar at h
  split at h
  · next w hw =>
    cases h
    obtain ⟨e, -, he⟩ := Option.bind_eq_some_iff.1 hw
    exact Json.isTruthy_of_given? he
  · split at h
    · cases h
    · cases h
      cases hn : firstConventional? _ with
      | none => rfl
      | some n =>
        have hne : n ≠ "" := ne_empty_of_mem_conventionalNames n (mem_conventionalNames hn)
        simpa [Json.isTruthy] using hne

/-! ## Blocks -/

namespace Block

/-- If the block has a body, it has a name for the body placeholder. -/
def BodyNamed (b : Block) : Prop :=
  b.kind.hasBody = true → ∃ v, v.isTruthy = true ∧ b.containerVar = some v

variable {b c : Block}

theorem BodyNamed.congr (h : b.BodyNamed) (hk : c.kind = b.kind)
    (hv : c.containerVar = b.containerVar) : c.BodyNamed := by
  rw [BodyNamed, hk, hv]
  exact h

theorem bodyNamed_ofDefinition {d : Definition} {position : Point}
    (h : ofDefinition d position = .ok b) : b.BodyNamed := by
  obtain ⟨name, hname, hb⟩ := except_bind_eq_ok.1 h
  cases hb
  intro hk
  change d.kind.hasBody = true at hk
  rw [Definition.bodyVar, if_pos hk] at hname
  cases hv : inferContainerVar d.templates d.containerVar with
  | error cause =>
    rw [hv] at hname
    cases hname
  | ok v =>
    rw [hv] at hname
    cases hname
    exact ⟨v, isTruthy_of_inferContainerVar hv, rfl⟩

end Block

namespace Registry

/-- All blocks with a body have names for their body placeholders. -/
def BodiesNamed (r : Registry) : Prop := ∀ id b, r.get? id = some b → b.BodyNamed

variable {r r' : Registry} {id : BlockId} {b : Block}

theorem bodiesNamed_empty : empty.BodiesNamed := nofun

theorem BodiesNamed.insert (h : r.BodiesNamed) (hb : b.BodyNamed) :
    (r.insert id b).BodiesNamed := by
  intro x c hc
  rw [get?_insert] at hc
  split at hc
  · cases hc
    exact hb
  · exact h x c hc

/-- The names stay when no block is new and all keep their kinds and names. -/
theorem BodiesNamed.of_get? (h : r.BodiesNamed)
    (hget : ∀ {x c}, r'.get? x = some c →
      ∃ b, r.get? x = some b ∧ c.kind = b.kind ∧ c.containerVar = b.containerVar) :
    r'.BodiesNamed := by
  intro x c hc
  obtain ⟨b, hb, hk, hv⟩ := hget hc
  exact (h x b hb).congr hk hv

end Registry

end Blockwork
