import Blockwork.Proofs.Board.Changes
import Blockwork.Proofs.Registry.Descendants

/-!
# Where a drop lands is a place that can be taken

A geometry may fail to answer.  One that is `Answering` does not, as long as it is asked
about live blocks, and then the questions of a drop are answered as well.

Two walks have to agree.  The targets of a drop leave out the dragged block with
everything found by walking down from it, and the rules of attaching ask whether the
dragged block is found by walking up from its target.  In a well-formed registry both
walks find what is below the dragged block.  So whatever target is answered, the rules
of attaching allow it.
-/

namespace Blockwork

variable {σ α β : Type}

namespace Query

variable {scene : Scene} {I : σ → Prop} {q : Query σ α} {f : α → Query σ β}
variable {Q : α → Prop} {R : β → Prop}

/-- In every state that meets a condition a question has an answer, the answer meets
another condition, and the state keeps the first. -/
def Answers (scene : Scene) (I : σ → Prop) (q : Query σ α) (Q : α → Prop) : Prop :=
  ∀ l, I l → ∃ a l', q scene l = (.ok a, l') ∧ I l' ∧ Q a

theorem answers_pure {a : α} (h : Q a) : Answers scene I (pure a) Q :=
  fun l hl => ⟨a, l, rfl, hl, h⟩

theorem answers_read : Answers scene I read (scene = ·) := fun l hl => ⟨scene, l, rfl, hl, rfl⟩

theorem answers_get : Answers scene I get I := fun l hl => ⟨l, l, rfl, hl, hl⟩

theorem answers_ofExcept {a : α} (h : Q a) : Answers scene I (.ofExcept (.ok a)) Q :=
  answers_pure h

theorem Answers.bind (hq : Answers scene I q Q) (hf : ∀ a, Q a → Answers scene I (f a) R) :
    Answers scene I (q >>= f) R := by
  intro l hl
  obtain ⟨a, l', h, hl', ha⟩ := hq l hl
  obtain ⟨b, l'', h', hl'', hb⟩ := hf a ha l' hl'
  refine ⟨b, l'', ?_, hl'', hb⟩
  show (q scene >>= fun a => f a scene) l = _
  rw [run_bind_ok h, h']

theorem Answers.mono {Q' : α → Prop} (h : Answers scene I q Q) (hQ : ∀ a, Q a → Q' a) :
    Answers scene I q Q' := by
  intro l hl
  obtain ⟨a, l', hrun, hl', ha⟩ := h l hl
  exact ⟨a, l', hrun, hl', hQ a ha⟩

end Query

open Query (Answers answers_pure answers_read answers_ofExcept)

/-- A geometry answers, from states that meet a condition, every question about live
blocks and about the screen.  Giving a block a position keeps the condition. -/
structure Geometry.Answering [Geometry σ] (I : Scene → σ → Prop) : Prop where
  boundingBox : ∀ {scene id}, scene.registry.contains id = true →
    Answers scene (I scene) (Survey.boundingBox id) fun _ => True
  slotRect : ∀ {scene id} (name : String), scene.registry.contains id = true →
    Answers scene (I scene) (Survey.slotRect id name) fun _ => True
  bodyRect : ∀ {scene id}, scene.registry.contains id = true →
    Answers scene (I scene) (Survey.bodyRect id) fun _ => True
  screenPoint : ∀ {scene} (p : Point),
    Answers scene (I scene) (Survey.screenPoint p) fun _ => True
  workspacePoint : ∀ {scene} (p : Point),
    Answers scene (I scene) (Survey.workspacePoint p) fun _ => True
  workspaceRect : ∀ {scene}, Answers scene (I scene) Survey.workspaceRect fun _ => True
  deletionRect : ∀ {scene}, Answers scene (I scene) Survey.deletionRect fun _ => True
  placed : ∀ {scene l} (id : BlockId) (position : Point), I scene l →
    I { scene with registry := scene.registry.modify id fun b => { b with position } } l

namespace Target

variable {scene : Scene} {r : Registry} {dragged id : BlockId} {excluded : List BlockId}
variable {name : String}

/-! ## What is asked for -/

section Lists

variable {I : σ → Prop} {hit : α → Query σ Bool}

theorem answers_firstHit : ∀ {items : List α},
    (∀ a ∈ items, Answers scene I (hit a) fun _ => True) →
    Answers scene I (firstHit hit items) fun a? => ∀ a ∈ a?, a ∈ items
  | [], _ => answers_pure nofun
  | a :: items, h => by
    refine .bind (h a (List.mem_cons_self ..)) fun here _ => ?_
    cases here with
    | true =>
      refine answers_pure fun b hb => ?_
      cases hb
      exact List.mem_cons_self ..
    | false =>
      have hrest := answers_firstHit fun b hb => h b (List.mem_cons_of_mem a hb)
      intro l hl
      obtain ⟨b?, l', hb, hl', hmem⟩ := hrest l hl
      exact ⟨b?, l', hb, hl', fun b hb => List.mem_cons_of_mem a (hmem b hb)⟩

theorem answers_hits : ∀ {items : List α},
    (∀ a ∈ items, Answers scene I (hit a) fun _ => True) →
    Answers scene I (hits hit items) (· ⊆ items)
  | [], _ => answers_pure (List.Subset.refl [])
  | a :: items, h => by
    refine .bind (h a (List.mem_cons_self ..)) fun here _ => ?_
    refine .bind (answers_hits fun b hb => h b (List.mem_cons_of_mem a hb)) fun rest hrest => ?_
    cases here with
    | true => exact answers_pure (List.cons_subset_cons a hrest)
    | false => exact answers_pure (List.subset_cons_of_subset a hrest)

theorem mem_of_firstHeaviest {weight : α → Nat} {a : α} :
    ∀ {items : List α}, firstHeaviest weight items = some a → a ∈ items
  | b :: items, h => by
    rw [firstHeaviest] at h
    cases hrest : firstHeaviest weight items with
    | none =>
      rw [hrest] at h
      cases h
      exact List.mem_cons_self ..
    | some c =>
      rw [hrest] at h
      dsimp only at h
      split at h
      · cases h
        exact List.mem_cons_of_mem b (mem_of_firstHeaviest hrest)
      · cases h
        exact List.mem_cons_self ..

end Lists

theorem mem_openSlots_iff : (id, name) ∈ openSlots r excluded ↔
    id ∉ excluded ∧ ∃ b s, r.get? id = some b ∧ (name, s) ∈ b.slots ∧
      ∀ c, s.child = some c → r.contains c = false := by
  simp only [openSlots, List.mem_flatMap, List.mem_filter, List.mem_map, Prod.exists,
    Registry.get?_eq_some_iff]
  constructor
  · rintro ⟨x, b, ⟨hb, hx⟩, n, s, ⟨hs, hfree⟩, h⟩
    cases h
    refine ⟨by simpa using hx, b, s, hb, hs, fun c hc => ?_⟩
    simpa [hc] using hfree
  · rintro ⟨hx, b, s, hb, hs, hfree⟩
    refine ⟨id, b, ⟨hb, by simpa using hx⟩, name, s, ⟨hs, ?_⟩, rfl⟩
    cases hc : s.child with
    | none => rfl
    | some c => simp [hfree c hc]

theorem mem_openBodies_iff : id ∈ openBodies r excluded ↔
    id ∉ excluded ∧ ∃ b, r.get? id = some b ∧ b.kind.hasBody = true := by
  simp only [openBodies, List.mem_map, List.mem_filter, Prod.exists, Registry.get?_eq_some_iff]
  constructor
  · rintro ⟨x, b, ⟨hb, hx⟩, rfl⟩
    obtain ⟨hx, hk⟩ := Bool.and_eq_true_iff.1 hx
    exact ⟨by simpa using hx, b, hb, hk⟩
  · rintro ⟨hx, b, hb, hk⟩
    exact ⟨id, b, ⟨hb, by simpa [hk] using hx⟩, rfl⟩

theorem contains_of_mem_uppers (h : id ∈ uppers r excluded) : r.contains id = true := by
  obtain ⟨⟨x, b⟩, he, rfl⟩ := List.mem_map.1 h
  exact Registry.contains_of_get? (Registry.get?_eq_some_iff.2 (List.mem_of_mem_filter he))

/-! ## What is answered -/

/-- The place that a target gives to the block. -/
def place : Target → Parent
  | .nowhere | .below .. => .none
  | .input parent slot => .input parent slot
  | .body container => .container container

variable [Geometry σ] {I : Scene → σ → Prop}

theorem answers_screenRect (hg : Geometry.Answering I) (rect : Rect) :
    Answers scene (I scene) (Survey.screenRect rect) fun _ => True :=
  .bind (hg.screenPoint _) fun _ _ => .bind (hg.screenPoint _) fun _ _ => answers_pure trivial

theorem answers_inputAt? (hg : Geometry.Answering I) (pointer : Point) (excluded : List BlockId) :
    Answers scene (I scene) (inputAt? pointer excluded) fun s? =>
      ∀ s ∈ s?, s ∈ openSlots scene.registry excluded := by
  refine .bind answers_read fun _ hs => ?_
  subst hs
  refine answers_firstHit fun s hs => ?_
  obtain ⟨-, b, -, hb, -⟩ := mem_openSlots_iff.1 hs
  refine .bind (hg.slotRect s.2 (Registry.contains_of_get? hb)) fun rect _ => ?_
  cases rect with
  | none => exact answers_pure trivial
  | some rect => exact .bind (answers_screenRect hg rect) fun _ _ => answers_pure trivial

theorem answers_bodyAt? (hg : Geometry.Answering I) (pointer : Point) (excluded : List BlockId) :
    Answers scene (I scene) (bodyAt? pointer excluded) fun id? =>
      ∀ id ∈ id?, id ∈ openBodies scene.registry excluded := by
  refine .bind answers_read fun _ hs => ?_
  subst hs
  refine .bind (answers_hits fun id hid => ?_) fun near hnear => ?_
  · obtain ⟨-, b, hb, -⟩ := mem_openBodies_iff.1 hid
    refine .bind (hg.bodyRect (Registry.contains_of_get? hb)) fun rect _ => ?_
    cases rect with
    | none => exact answers_pure trivial
    | some rect => exact .bind (answers_screenRect hg rect) fun _ _ => answers_pure trivial
  · exact answers_pure fun id hid => hnear (mem_of_firstHeaviest hid)

theorem answers_upperAt? (hg : Geometry.Answering I) (release : Point) :
    ∀ ids : List BlockId, (∀ id ∈ ids, scene.registry.contains id = true) →
      Answers scene (I scene) (upperAt? release ids) fun _ => True
  | [], _ => answers_pure trivial
  | id :: ids, h => by
    refine .bind (hg.boundingBox (h id (List.mem_cons_self ..))) fun box _ => ?_
    split
    · exact answers_pure trivial
    · exact answers_upperAt? hg release ids fun x hx => h x (List.mem_cons_of_mem id hx)

theorem answers_deletes (hg : Geometry.Answering I) (pointer : Point) :
    Answers scene (I scene) (deletes pointer) fun _ => True := by
  refine .bind hg.workspaceRect fun rect _ => ?_
  split
  · exact answers_pure trivial
  · refine .bind hg.deletionRect fun trash _ => ?_
    cases trash with
    | none => exact answers_pure trivial
    | some trash => exact answers_pure trivial

/-- What walking down from a block leaves out, walking up does not meet. -/
theorem outside_of_not_excluded (wf : r.WellFormed)
    (h : id ∉ dragged :: r.descendants dragged) : r.Outside dragged id := by
  obtain ⟨hne, hnot⟩ := not_or.1 (List.mem_cons.not.1 h)
  refine ⟨hne, fun ha => hnot ?_⟩
  exact wf.mem_descendants_iff.2 (wf.mem_ancestors_iff.1 ha)

theorem admits_of_mem_openSlots (wf : r.WellFormed) (hfree : r.parent? dragged = some .none)
    {b : Block} (hb : r.get? dragged = some b) (hk : b.kind.fitsInput = true)
    (h : (id, name) ∈ openSlots r (dragged :: r.descendants dragged)) :
    r.Admits dragged (.input id name) := by
  obtain ⟨hid, c, s, hc, hs, hempty⟩ := mem_openSlots_iff.1 h
  refine ⟨hfree, ⟨b, c, s, hb, hk, hc, ?_, fun other ho hlive => ?_⟩, fun p hp => ?_⟩
  · exact Table.lookup_of_mem (wf.slots_nodup hc) hs
  · exact absurd hlive (by simp [hempty other ho])
  · cases hp
    exact outside_of_not_excluded wf hid

theorem admits_of_mem_openBodies (wf : r.WellFormed) (hfree : r.parent? dragged = some .none)
    (h : id ∈ openBodies r (dragged :: r.descendants dragged)) :
    r.Admits dragged (.container id) := by
  obtain ⟨hid, c, hc, hk⟩ := mem_openBodies_iff.1 h
  refine ⟨hfree, ⟨c, hc, hk⟩, fun p hp => ?_⟩
  cases hp
  exact outside_of_not_excluded wf hid

/-- The block may be attached to the target, as long as it has no parent. -/
def Allows (r : Registry) (dragged : BlockId) (target : Target) : Prop :=
  target.attaches = true → r.parent? dragged = some .none → r.Admits dragged target.place

/-- Below the inputs come the bodies, and below these the positions. -/
theorem answers_below_inputs (hg : Geometry.Answering I) (wf : scene.registry.WellFormed)
    (dragged : BlockId) (pointer release : Point) :
    Answers scene (I scene) (do
      match ← bodyAt? pointer (dragged :: scene.registry.descendants dragged) with
      | some container => return .body container
      | none =>
          match ← upperAt? release
            (uppers scene.registry (dragged :: scene.registry.descendants dragged)) with
          | some (id, box) => return .below id ⟨box.x, box.bottom + belowGap⟩
          | none => return .nowhere : Query σ Target) (Allows scene.registry dragged) := by
  refine .bind (answers_bodyAt? hg pointer _) fun body hbody => ?_
  cases body with
  | some c => exact answers_pure fun _ hfree => admits_of_mem_openBodies wf hfree (hbody c rfl)
  | none =>
    refine .bind (answers_upperAt? hg release _ fun _ => contains_of_mem_uppers) fun upper _ => ?_
    cases upper with
    | some u => exact answers_pure fun h => by cases h
    | none => exact answers_pure fun h => by cases h

/-- A target is answered for a live block, and if it attaches and the block has no parent,
the rules of attaching allow it. -/
theorem answers_resolve (hg : Geometry.Answering I) (wf : scene.registry.WellFormed)
    (hlive : scene.registry.contains dragged = true) (pointer release : Point) :
    Answers scene (I scene) (resolve dragged pointer (some release))
      (Allows scene.registry dragged) := by
  obtain ⟨b, hb⟩ := Registry.contains_iff.1 hlive
  have hrequire : Answers scene (I scene)
      (.ofExcept (scene.registry.require dragged) : Query σ Block) (· = b) := by
    rw [Registry.require_ok_iff.2 hb]
    exact answers_ofExcept rfl
  have hbodies := answers_below_inputs hg wf dragged pointer release
  refine .bind answers_read fun _ hs => ?_
  subst hs
  refine .bind hrequire fun _ hb' => .bind (answers_pure rfl) fun p hp => ?_
  subst hb' hp
  dsimp only
  split
  · next hk =>
    refine .bind (answers_inputAt? hg pointer _) fun slot hslot => ?_
    cases slot with
    | none => exact hbodies
    | some s =>
      exact answers_pure fun _ hfree => admits_of_mem_openSlots wf hfree hb hk (hslot s rfl)
  · exact .bind (Q := (· = none)) (answers_pure rfl) fun slot hslot => hslot ▸ hbodies

end Target

end Blockwork
