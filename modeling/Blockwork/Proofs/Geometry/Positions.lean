import Blockwork.Proofs.Drop.TargetAdmitted
import Blockwork.Proofs.Geometry.Memory

/-!
# Positions

The position of a block is put together on the way down from the top level.  A block in
a body lies below its siblings, and one in an input lies where the label has the input.
`Located` says what the position comes to, and a block has at most one.

The walk for a position climbs, and it stops early when it runs out of steps or meets a
block again.  In a well-formed registry depth falls at each step and no block is above
itself, so neither happens.  Whatever is remembered, as long as it is right, the walk
answers the position of the block.
-/

namespace Blockwork

namespace Query

variable {σ α : Type} {scene : Scene} {I : σ → Prop} {q : Query σ α} {Q : α → Prop}

theorem Ensures.answers (hq : Ensures scene I q Q) (h : Returns scene q fun _ => True) :
    Answers scene I q Q := by
  intro l hl
  obtain ⟨a, l', ha, -⟩ := h l
  obtain ⟨hl', hQ⟩ := hq l hl
  rw [ha] at hl' hQ
  exact ⟨a, l', ha, hl', hQ a rfl⟩

end Query

namespace EstimatedLayout

open Query (Answers answers_pure answers_read)

variable {r : Registry} {scene : Scene} {id child p : BlockId} {name : String}

/-! ## Where a block lies -/

/-- The height of what is stacked above a child. -/
inductive Above (r : Registry) (child : BlockId) : List BlockId → Nat → Prop
  | nil : Above r child [] 0
  | here {rest : List BlockId} : Above r child (child :: rest) 0
  | sibling {c : BlockId} {rest : List BlockId} {e : Extent} {n : Nat} :
      c ≠ child → Sized r c e → Above r child rest n →
      Above r child (c :: rest) (e.height + stackGap + n)

/-- The place of an input within a block of a size. -/
def shift (b : Block) (e : Extent) (name : String) : Option Point :=
  if (b.slot? name).isNone then none
  else (slotShift name 10 (Label.parts b.label)).map fun x =>
    ⟨units x, if b.kind.hasBody then 8.0 else units e.height / 2.0 - 10.0⟩

/-- Where a block lies. -/
inductive Located (r : Registry) : BlockId → Point → Prop
  | root {id : BlockId} {b : Block} : r.get? id = some b → b.parent = .none →
      Located r id b.position
  | nested {id p : BlockId} {b c : Block} {o : Point} {n : Nat} :
      r.get? id = some b → b.parent = .container p → r.get? p = some c →
      Located r p o → Above r id c.nested n →
      Located r id ⟨o.x + units bodyInset, o.y + units headerHeight + 4.0 + units n⟩
  | embedded {id p : BlockId} {name : String} {b c : Block} {o : Point} {e : Extent} :
      r.get? id = some b → b.parent = .input p name → r.get? p = some c →
      Located r p o → Sized r p e → Located r id ((shift c e name).elim o o.add)

/-- The rectangle of a block. -/
def Boxed (r : Registry) (id : BlockId) (box : Rect) : Prop :=
  ∃ o e, Located r id o ∧ Sized r id e ∧ box = ⟨o.x, o.y, units e.width, units e.height⟩

theorem Above.unique {ids : List BlockId} {n m : Nat} (h : Above r child ids n)
    (h' : Above r child ids m) : n = m := by
  induction h generalizing m with
  | nil =>
    cases h'
    rfl
  | here =>
    cases h' with
    | here => rfl
    | sibling hne _ _ => exact absurd rfl hne
  | sibling hne he _ ih =>
    cases h' with
    | here => exact absurd rfl hne
    | sibling _ he' hrest =>
      cases he.unique he'
      rw [ih hrest]

/-- A block lies in one place. -/
theorem Located.unique {o o' : Point} (h : Located r id o) (h' : Located r id o') : o = o' := by
  induction h generalizing o' with
  | root hb hp =>
    cases h' with
    | root hb' _ =>
      cases hb.symm.trans hb'
      rfl
    | nested hb' hp' _ _ _ =>
      cases hb.symm.trans hb'
      cases hp.symm.trans hp'
    | embedded hb' hp' _ _ _ =>
      cases hb.symm.trans hb'
      cases hp.symm.trans hp'
  | nested hb hp hc _ habove ih =>
    cases h' with
    | root hb' hp' =>
      cases hb.symm.trans hb'
      cases hp.symm.trans hp'
    | nested hb' hp' hc' ho' habove' =>
      cases hb.symm.trans hb'
      cases hp.symm.trans hp'
      cases hc.symm.trans hc'
      rw [ih ho', habove.unique habove']
    | embedded hb' hp' _ _ _ =>
      cases hb.symm.trans hb'
      cases hp.symm.trans hp'
  | embedded hb hp hc _ he ih =>
    cases h' with
    | root hb' hp' =>
      cases hb.symm.trans hb'
      cases hp.symm.trans hp'
    | nested hb' hp' _ _ _ =>
      cases hb.symm.trans hb'
      cases hp.symm.trans hp'
    | embedded hb' hp' hc' ho' he' =>
      cases hb.symm.trans hb'
      cases hp.symm.trans hp'
      cases hc.symm.trans hc'
      rw [ih ho', he.unique he']

theorem Boxed.unique {box box' : Rect} (h : Boxed r id box) (h' : Boxed r id box') :
    box = box' := by
  obtain ⟨o, e, ho, he, rfl⟩ := h
  obtain ⟨o', e', ho', he', rfl⟩ := h'
  rw [ho.unique ho', he.unique he']

/-! ## What the walk answers -/

theorem answers_size (wf : scene.registry.WellFormed) (hid : scene.registry.contains id = true) :
    Answers scene (Coherent scene.registry) (size id) (Sized scene.registry id) :=
  (ensures_size id).answers (returns_size wf hid)

theorem answers_block {b : Block} (hb : scene.registry.get? id = some b) :
    Answers scene (Coherent scene.registry) (block id) (b = ·) := by
  refine .bind answers_read fun _ hs l hl => ?_
  subst hs
  refine ⟨b, l, ?_, hl, rfl⟩
  exact congrArg (·, l) (Registry.require_ok_iff.2 hb)

/-- A live block has a size. -/
theorem exists_sized (wf : r.WellFormed) (hid : r.contains id = true) : ∃ e, Sized r id e := by
  have hanswers : Answers ⟨r, {}⟩ (Coherent r) (size id) (Sized r id) := answers_size wf hid
  obtain ⟨e, -, -, -, he⟩ := hanswers {} (coherent_clear r {})
  exact ⟨e, he⟩

theorem answers_heightAbove (wf : scene.registry.WellFormed) (child : BlockId) :
    ∀ ids : List BlockId, (∀ c ∈ ids, scene.registry.contains c = true) →
      Answers scene (Coherent scene.registry) (heightAbove child ids)
        (Above scene.registry child ids)
  | [], _ => answers_pure .nil
  | c :: rest, hlive => by
    unfold heightAbove
    split
    · next hc =>
      subst hc
      exact answers_pure .here
    · next hc =>
      refine .bind answers_read fun _ hs => ?_
      subst hs
      have hsize := answers_size wf (hlive c (List.mem_cons_self ..))
      have hrest := answers_heightAbove wf child rest fun x hx =>
        hlive x (List.mem_cons_of_mem c hx)
      dsimp only
      rw [if_pos (hlive c (List.mem_cons_self ..))]
      refine .bind hsize fun e he => .bind (answers_pure rfl) fun own hown => ?_
      subst hown
      exact .bind hrest fun n hn => answers_pure (.sibling hc he hn)

theorem answers_slotOffset (wf : scene.registry.WellFormed) {c : Block}
    (hc : scene.registry.get? p = some c) (name : String) :
    Answers scene (Coherent scene.registry) (slotOffset p name) fun d =>
      ∃ e, Sized scene.registry p e ∧ d = shift c e name := by
  have hlive := Registry.contains_of_get? hc
  obtain ⟨e, he⟩ := exists_sized wf hlive
  refine .bind answers_read fun _ hs => ?_
  subst hs
  rw [hc]
  dsimp only
  split
  · next hnone => exact answers_pure ⟨e, he, by rw [shift, if_pos hnone]⟩
  · next hsome =>
    split
    · next hk =>
      refine .bind (answers_pure rfl) fun down hdown => ?_
      subst hdown
      exact answers_pure ⟨e, he, by rw [shift, if_neg hsome, if_pos hk]⟩
    · next hk =>
      refine .bind (answers_size wf hlive) fun e he => .bind (answers_pure rfl) fun down hdown => ?_
      subst hdown
      exact answers_pure ⟨e, he, by rw [shift, if_neg hsome, if_neg hk]⟩

/-- The walk climbs to the top level, if there are steps for it and nothing seen is met. -/
theorem answers_originWithin (wf : scene.registry.WellFormed) :
    ∀ (n : Nat) (seen : List BlockId) (id : BlockId), scene.registry.contains id = true →
      scene.registry.depth id ≤ n → (∀ x ∈ seen, scene.registry.Below x id) →
      Answers scene (Coherent scene.registry) (originWithin n seen id) (Located scene.registry id)
  | 0, seen, id, hid, hn, _ => by
    obtain ⟨b, hb⟩ := Registry.contains_iff.1 hid
    have hroot : b.parent = .none := by
      by_contra hne
      obtain ⟨p, hp, -⟩ := (wf.held (Registry.parent?_of_get? hb) hne).exists_id?
      have hdepth := wf.depth_of_under
        (Registry.under_iff.2 ⟨b.parent, Registry.parent?_of_get? hb, hp⟩)
      omega
    refine .bind (answers_block hb) fun b' hb' => ?_
    subst hb'
    exact answers_pure (.root hb hroot)
  | n + 1, seen, id, hid, hn, hseen => by
    obtain ⟨b, hb⟩ := Registry.contains_iff.1 hid
    have hnew : id ∉ seen := fun hm => wf.acyclic id (hseen id hm)
    have hclimb {p : BlockId} (hp : b.parent.id? = some p) :
        ∃ c, scene.registry.get? p = some c ∧
          Answers scene (Coherent scene.registry) (originWithin n (id :: seen) p)
            (Located scene.registry p) := by
      have hu : scene.registry.Under id p :=
        Registry.under_iff.2 ⟨b.parent, Registry.parent?_of_get? hb, hp⟩
      have hlive := wf.contains_of_under hu
      have hdepth := wf.depth_of_under hu
      obtain ⟨c, hc⟩ := Registry.contains_iff.1 hlive
      refine ⟨c, hc, answers_originWithin wf n (id :: seen) p hlive (by omega) fun x hx => ?_⟩
      rcases List.mem_cons.1 hx with rfl | hx
      · exact .single hu
      · exact (hseen x hx).tail hu
    refine .bind (answers_block hb) fun b' hb' => ?_
    subst hb'
    dsimp only
    rw [if_neg (by simp [hnew])]
    refine .bind answers_read fun _ hs => ?_
    subst hs
    cases hparent : b.parent with
    | none => exact answers_pure (.root hb hparent)
    | container p =>
      obtain ⟨c, hc, horigin⟩ := hclimb (by rw [hparent]; rfl)
      dsimp only
      rw [hc]
      have hlive (x : BlockId) (hx : x ∈ c.nested) : scene.registry.contains x = true :=
        (wf.under_of_mem_nested hc hx).contains
      refine .bind horigin fun o ho => .bind (answers_heightAbove wf id c.nested hlive) fun m hm => ?_
      exact answers_pure (.nested hb hparent hc ho hm)
    | input p name =>
      obtain ⟨c, hc, horigin⟩ := hclimb (by rw [hparent]; rfl)
      dsimp only
      rw [hc]
      refine .bind horigin fun o ho => .bind (answers_slotOffset wf hc name) fun d hd => ?_
      obtain ⟨e, he, rfl⟩ := hd
      exact answers_pure (.embedded hb hparent hc ho he)

theorem answers_origin (wf : scene.registry.WellFormed)
    (hid : scene.registry.contains id = true) :
    Answers scene (Coherent scene.registry) (origin id) (Located scene.registry id) := by
  refine .bind answers_read fun _ hs => ?_
  subst hs
  have hdepth := wf.depth_lt_size hid
  exact answers_originWithin wf _ [] id hid (by omega) nofun

/-- A live block has a rectangle, whatever is remembered. -/
theorem answers_boundingBox (wf : scene.registry.WellFormed)
    (hid : scene.registry.contains id = true) :
    Answers scene (Coherent scene.registry) (boundingBox id) (Boxed scene.registry id) :=
  .bind (answers_origin wf hid) fun o ho => .bind (answers_size wf hid) fun e he =>
    answers_pure ⟨o, e, ho, he, rfl⟩

end EstimatedLayout

end Blockwork
