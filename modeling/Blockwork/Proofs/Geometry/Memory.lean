import Blockwork.Proofs.Board.Changes
import Blockwork.Proofs.Geometry.Queries
import Blockwork.Proofs.Geometry.Sizes

/-!
# What the estimated layout remembers

The layout is coherent when every size and every height it remembers is the one that
would be found without remembering anything.  A question answers from coherent memory
what it would answer without memory, and leaves the memory coherent.

`Query.Ensures` states such a property of a question, and is proved along the way the
question is put together.  `Query.Returns` says that a question has an answer.
-/

namespace Blockwork

/-! ## Questions that keep a condition -/

namespace Query

variable {σ α β : Type} {scene : Scene} {I : σ → Prop} {q : Query σ α} {f : α → Query σ β}
variable {Q : α → Prop} {R : β → Prop}

/-- A question keeps a condition on the state of the geometry, and when it has an
answer, the answer meets another. -/
def Ensures (scene : Scene) (I : σ → Prop) (q : Query σ α) (Q : α → Prop) : Prop :=
  ∀ l, I l → I (q scene l).2 ∧ ∀ a, (q scene l).1 = .ok a → Q a

/-- A question has an answer in every state of the geometry, and the answer meets a
condition. -/
def Returns (scene : Scene) (q : Query σ α) (Q : α → Prop) : Prop :=
  ∀ l, ∃ a l', q scene l = (.ok a, l') ∧ Q a

theorem ensures_pure {a : α} (h : Q a) : Ensures scene I (pure a) Q := by
  intro l hl
  refine ⟨hl, fun b hb => ?_⟩
  cases hb
  exact h

theorem ensures_ofExcept {r : Except Fault α} (h : ∀ a, r = .ok a → Q a) :
    Ensures scene I (.ofExcept r) Q := fun _ hl => ⟨hl, h⟩

theorem ensures_read : Ensures scene I read (· = scene) := by
  intro l hl
  refine ⟨hl, fun s hs => ?_⟩
  cases hs
  rfl

theorem ensures_get : Ensures scene I get I := by
  intro l hl
  refine ⟨hl, fun s hs => ?_⟩
  cases hs
  exact hl

theorem ensures_modify {g : σ → σ} (h : ∀ l, I l → I (g l)) :
    Ensures scene I (modify g) fun _ => True := fun l hl => ⟨h l hl, fun _ _ => trivial⟩

theorem Ensures.bind (hq : Ensures scene I q Q) (hf : ∀ a, Q a → Ensures scene I (f a) R) :
    Ensures scene I (q >>= f) R := by
  intro l hl
  obtain ⟨hstate, hanswer⟩ := hq l hl
  show I ((q scene >>= fun a => f a scene) l).2 ∧
    ∀ b, ((q scene >>= fun a => f a scene) l).1 = .ok b → R b
  rcases h : q scene l with ⟨e | a, l'⟩
  · rw [h] at hstate
    rw [run_bind_error h]
    exact ⟨hstate, nofun⟩
  · rw [h] at hstate hanswer
    rw [run_bind_ok h]
    exact hf a (hanswer a rfl) l' hstate

theorem Ensures.mono {Q' : α → Prop} (hq : Ensures scene I q Q) (h : ∀ a, Q a → Q' a) :
    Ensures scene I q Q' := fun l hl => ⟨(hq l hl).1, fun a ha => h a ((hq l hl).2 a ha)⟩

/-- Asking for every item of a list. -/
theorem ensures_mapM {q : α → Query σ β} {Q : α → β → Prop} :
    ∀ xs : List α, (∀ x ∈ xs, Ensures scene I (q x) (Q x)) →
      Ensures scene I (xs.mapM q) (List.Forall₂ Q xs)
  | [], _ => ensures_pure .nil
  | x :: xs, h => by
    rw [List.mapM_cons]
    refine .bind (h x (List.mem_cons_self ..)) fun y hy => ?_
    refine .bind (ensures_mapM xs fun x hx => h x (List.mem_cons_of_mem _ hx)) fun ys hys => ?_
    exact ensures_pure (.cons hy hys)

theorem returns_pure {a : α} (h : Q a) : Returns scene (pure a : Query σ α) Q :=
  fun l => ⟨a, l, rfl, h⟩

theorem returns_read : Returns scene (read : Query σ Scene) (· = scene) :=
  fun l => ⟨scene, l, rfl, rfl⟩

theorem returns_get : Returns scene (get : Query σ σ) fun _ => True :=
  fun l => ⟨l, l, rfl, trivial⟩

theorem returns_modify (g : σ → σ) : Returns scene (modify g : Query σ Unit) fun _ => True :=
  fun l => ⟨(), g l, rfl, trivial⟩

theorem Returns.bind (hq : Returns scene q Q) (hf : ∀ a, Q a → Returns scene (f a) R) :
    Returns scene (q >>= f) R := by
  intro l
  obtain ⟨a, l', h, ha⟩ := hq l
  obtain ⟨b, l'', h', hb⟩ := hf a ha l'
  refine ⟨b, l'', ?_, hb⟩
  show (q scene >>= fun a => f a scene) l = _
  rw [run_bind_ok h, h']

theorem returns_mapM {q : α → Query σ β} :
    ∀ xs : List α, (∀ x ∈ xs, Returns scene (q x) fun _ => True) →
      Returns scene (xs.mapM q) fun _ => True
  | [], _ => returns_pure trivial
  | x :: xs, h => by
    rw [List.mapM_cons]
    refine .bind (h x (List.mem_cons_self ..)) fun y _ => ?_
    refine .bind (returns_mapM xs fun x hx => h x (List.mem_cons_of_mem _ hx)) fun ys _ => ?_
    exact returns_pure trivial

end Query

namespace EstimatedLayout

open Query (Ensures Returns ensures_pure ensures_ofExcept ensures_read ensures_get ensures_modify
  ensures_mapM returns_pure returns_read returns_get returns_modify returns_mapM)

variable {r : Registry} {scene : Scene} {id : BlockId} {e : Extent} {h : Nat}

/-! ## Coherent memory -/

/-- What is remembered is what would be found. -/
structure Coherent (r : Registry) (l : EstimatedLayout) : Prop where
  /-- Every size that is remembered is the size of the block. -/
  sizes : ∀ {id e}, l.sizes.lookup id = some e → Sized r id e
  /-- Every height that is remembered is the height of the body. -/
  bodies : ∀ {id h}, l.bodyHeights.lookup id = some h → Stacked r id h

/-- Nothing remembered is coherent. -/
theorem coherent_clear (r : Registry) (l : EstimatedLayout) : Coherent r l.clear := ⟨nofun, nofun⟩

theorem Coherent.rememberSize {l : EstimatedLayout} (hl : Coherent r l) (he : Sized r id e) :
    Coherent r { l with sizes := (id, e) :: l.sizes } where
  sizes {x e'} hx := by
    by_cases hid : x = id
    · subst hid
      rw [List.lookup_cons_self] at hx
      cases hx
      exact he
    · rw [Table.lookup_cons_of_ne hid] at hx
      exact hl.sizes hx
  bodies := hl.bodies

theorem Coherent.rememberBody {l : EstimatedLayout} (hl : Coherent r l) (hh : Stacked r id h) :
    Coherent r { l with bodyHeights := (id, h) :: l.bodyHeights } where
  sizes := hl.sizes
  bodies {x h'} hx := by
    by_cases hid : x = id
    · subst hid
      rw [List.lookup_cons_self] at hx
      cases hx
      exact hh
    · rw [Table.lookup_cons_of_ne hid] at hx
      exact hl.bodies hx

/-! ## Sizes with memory -/

theorem ensures_block (I : EstimatedLayout → Prop) (id : BlockId) :
    Ensures scene I (block id) fun b => scene.registry.get? id = some b := by
  refine .bind ensures_read fun s hs => ensures_ofExcept fun b hb => ?_
  rw [← hs]
  exact Registry.require_ok_iff.1 hb

theorem ensures_bodyHeightBy {size : BlockId → Ask Extent}
    (hsize : ∀ c, Ensures scene (Coherent scene.registry) (size c) (Sized scene.registry c))
    (id : BlockId) :
    Ensures scene (Coherent scene.registry) (bodyHeightBy size id) (Stacked scene.registry id) := by
  refine .bind ensures_get fun l hl => ?_
  cases hlookup : l.bodyHeights.lookup id with
  | some h => exact ensures_pure (hl.bodies hlookup)
  | none =>
    refine .bind (ensures_block _ id) fun b hb => .bind ensures_read fun s hs => ?_
    subst hs
    refine .bind (ensures_mapM _ fun c _ => hsize c) fun es hes => ?_
    have hstacked := stacked_of_sized hb hes
    exact .bind (ensures_modify fun l hl => hl.rememberBody hstacked)
      fun _ _ => ensures_pure hstacked

theorem ensures_sizeBy {body : BlockId → Ask Nat}
    (hbody : ∀ c, Ensures scene (Coherent scene.registry) (body c) (Stacked scene.registry c))
    (id : BlockId) :
    Ensures scene (Coherent scene.registry) (sizeBy body id) (Sized scene.registry id) := by
  refine .bind ensures_get fun l hl => ?_
  cases hlookup : l.sizes.lookup id with
  | some e => exact ensures_pure (hl.sizes hlookup)
  | none =>
    refine .bind (ensures_block _ id) fun b hb => ?_
    have hend (height : Nat) (he : Sized scene.registry id ⟨labelWidth b.label, height⟩) :
        Ensures scene (Coherent scene.registry) (do
          rememberSize id ⟨labelWidth b.label, height⟩
          return (⟨labelWidth b.label, height⟩ : Extent)) (Sized scene.registry id) :=
      .bind (ensures_modify fun l hl => hl.rememberSize he) fun _ _ => ensures_pure he
    dsimp only
    split
    · next hk =>
      exact .bind (hbody id) fun h hh => .bind (ensures_pure (hh.sized hb hk)) hend
    · next hk => exact .bind (ensures_pure (sized_plain hb (by simpa using hk))) hend

/-- A size that is asked for is the size of the block, and memory stays coherent. -/
theorem ensures_sizeWithin : ∀ (n : Nat) (id : BlockId),
    Ensures scene (Coherent scene.registry) (sizeWithin n id) (Sized scene.registry id)
  | 0, id => ensures_sizeBy (fun _ => ensures_ofExcept fun _ h => by cases h) id
  | n + 1, id => ensures_sizeBy (ensures_bodyHeightBy (ensures_sizeWithin n)) id

theorem ensures_size (id : BlockId) :
    Ensures scene (Coherent scene.registry) (size id) (Sized scene.registry id) :=
  .bind ensures_read fun _ _ => ensures_sizeWithin _ id

theorem ensures_bodyHeight (id : BlockId) :
    Ensures scene (Coherent scene.registry) (bodyHeight id) (Stacked scene.registry id) :=
  .bind ensures_read fun _ _ => ensures_bodyHeightBy (ensures_sizeWithin _) id

/-! ## Sizes exist -/

theorem returns_block {b : Block} (hb : scene.registry.get? id = some b) :
    Returns scene (block id) (· = b) :=
  .bind returns_read fun s hs l => by
    refine ⟨b, l, ?_, rfl⟩
    subst hs
    exact congrArg (·, l) (Registry.require_ok_iff.2 hb)

theorem returns_bodyHeightBy {size : BlockId → Ask Extent} (wf : scene.registry.WellFormed)
    (hid : scene.registry.contains id = true)
    (hsize : ∀ c, scene.registry.Under c id → Returns scene (size c) fun _ => True) :
    Returns scene (bodyHeightBy size id) fun _ => True := by
  obtain ⟨b, hb⟩ := Registry.contains_iff.1 hid
  refine .bind returns_get fun l _ => ?_
  cases l.bodyHeights.lookup id with
  | some h => exact returns_pure trivial
  | none =>
    refine .bind (returns_block hb) fun b' hb' => .bind returns_read fun s hs => ?_
    subst hb' hs
    refine .bind (returns_mapM _ fun c hc => ?_) fun es _ => ?_
    · exact hsize c (wf.under_of_mem_nested hb (List.mem_of_mem_filter hc))
    · exact .bind (returns_modify _) fun _ _ => returns_pure trivial

theorem returns_sizeBy {body : BlockId → Ask Nat} (hid : scene.registry.contains id = true)
    (hbody : Returns scene (body id) fun _ => True) :
    Returns scene (sizeBy body id) fun _ => True := by
  obtain ⟨b, hb⟩ := Registry.contains_iff.1 hid
  refine .bind returns_get fun l _ => ?_
  cases l.sizes.lookup id with
  | some e => exact returns_pure trivial
  | none =>
    refine .bind (returns_block hb) fun b' _ => ?_
    have hend (height : Nat) : Returns scene (do
        rememberSize id ⟨labelWidth b'.label, height⟩
        return (⟨labelWidth b'.label, height⟩ : Extent)) fun _ => True :=
      .bind (returns_modify _) fun _ _ => returns_pure trivial
    dsimp only
    split
    · refine .bind hbody fun h _ => ?_
      exact .bind (returns_pure (Q := fun _ => True) trivial) fun height _ => hend height
    · exact .bind (returns_pure (Q := fun _ => True) trivial) fun height _ => hend height

/-- A live block has a size as soon as enough levels are left.  Depth grows by one
from level to level, and there is no depth beyond the number of blocks. -/
theorem returns_sizeWithin (wf : scene.registry.WellFormed) : ∀ (n : Nat) (id : BlockId),
    scene.registry.contains id = true → scene.registry.size ≤ n + scene.registry.depth id →
    Returns scene (sizeWithin n id) fun _ => True
  | 0, id, hid, hsize => by
    have := wf.depth_lt_size hid
    omega
  | n + 1, id, hid, hsize => by
    refine returns_sizeBy hid (returns_bodyHeightBy wf hid fun c hc => ?_)
    refine returns_sizeWithin wf n c hc.contains ?_
    have := wf.depth_of_under hc
    omega

theorem returns_size (wf : scene.registry.WellFormed) (hid : scene.registry.contains id = true) :
    Returns scene (size id) fun _ => True := by
  refine .bind returns_read fun s hs => ?_
  subst hs
  exact returns_sizeWithin wf _ id hid (by omega)

theorem returns_bodyHeight (wf : scene.registry.WellFormed)
    (hid : scene.registry.contains id = true) : Returns scene (bodyHeight id) fun _ => True := by
  refine .bind returns_read fun s hs => ?_
  subst hs
  refine returns_bodyHeightBy wf hid fun c hc => ?_
  exact returns_sizeWithin wf _ c hc.contains (by omega)

/-! ## Positions -/

/-- A question leaves memory coherent, whatever its answer. -/
abbrev Keeps {α : Type} (scene : Scene) (q : Ask α) : Prop :=
  Ensures scene (Coherent scene.registry) q fun _ => True

theorem keeps_pure {α : Type} (a : α) : Keeps scene (pure a) := ensures_pure trivial

theorem keeps_size (id : BlockId) : Keeps scene (size id) :=
  (ensures_size id).mono fun _ _ => trivial

theorem keeps_bodyHeight (id : BlockId) : Keeps scene (bodyHeight id) :=
  (ensures_bodyHeight id).mono fun _ _ => trivial

theorem keeps_block (id : BlockId) : Keeps scene (block id) :=
  (ensures_block _ id).mono fun _ _ => trivial

theorem keeps_slotOffset (id : BlockId) (name : String) : Keeps scene (slotOffset id name) := by
  refine .bind ensures_read fun s _ => ?_
  cases s.registry.get? id with
  | none => exact keeps_pure _
  | some b =>
    dsimp only
    split
    · exact keeps_pure _
    · split
      · exact .bind (keeps_pure _) fun _ _ => keeps_pure _
      · refine .bind (keeps_size id) fun _ _ => ?_
        exact .bind (keeps_pure _) fun _ _ => keeps_pure _

theorem keeps_heightAbove (child : BlockId) : ∀ ids : List BlockId,
    Keeps scene (heightAbove child ids)
  | [] => keeps_pure _
  | sibling :: rest => by
    unfold heightAbove
    split
    · exact keeps_pure _
    · have hrest (own : Nat) : Keeps scene (do return own + (← heightAbove child rest)) :=
        .bind (keeps_heightAbove child rest) fun _ _ => keeps_pure _
      refine .bind ensures_read fun s _ => ?_
      dsimp only
      split
      · refine .bind (keeps_size sibling) fun _ _ => ?_
        exact .bind (keeps_pure _) fun _ _ => hrest _
      · exact .bind (keeps_pure 0) fun _ _ => hrest _

theorem keeps_originWithin : ∀ (n : Nat) (seen : List BlockId) (id : BlockId),
    Keeps scene (originWithin n seen id)
  | 0, _, id => .bind (keeps_block id) fun _ _ => keeps_pure _
  | n + 1, seen, id => by
    refine .bind (keeps_block id) fun b _ => ?_
    dsimp only
    split
    · exact keeps_pure _
    · refine .bind ensures_read fun s _ => ?_
      cases b.parent with
      | none => exact keeps_pure _
      | container p =>
        dsimp only
        cases s.registry.get? p with
        | none => exact keeps_pure _
        | some holder =>
          refine .bind (keeps_originWithin n (id :: seen) p) fun _ _ => ?_
          exact .bind (keeps_heightAbove id holder.nested) fun _ _ => keeps_pure _
      | input p name =>
        dsimp only
        cases s.registry.get? p with
        | none => exact keeps_pure _
        | some holder =>
          refine .bind (keeps_originWithin n (id :: seen) p) fun _ _ => ?_
          exact .bind (keeps_slotOffset p name) fun _ _ => keeps_pure _

theorem keeps_origin (id : BlockId) : Keeps scene (origin id) :=
  .bind ensures_read fun _ _ => keeps_originWithin _ [] id

theorem keeps_boundingBox (id : BlockId) : Keeps scene (boundingBox id) :=
  .bind (keeps_origin id) fun _ _ => .bind (keeps_size id) fun _ _ => keeps_pure _

theorem keeps_slotRect (id : BlockId) (name : String) : Keeps scene (slotRect id name) := by
  refine .bind (keeps_slotOffset id name) fun d _ => ?_
  cases d with
  | none => exact keeps_pure _
  | some d => exact .bind (keeps_origin id) fun _ _ => keeps_pure _

theorem keeps_bodyRect (id : BlockId) : Keeps scene (bodyRect id) := by
  refine .bind ensures_read fun s _ => ?_
  cases s.registry.get? id with
  | none => exact keeps_pure _
  | some b =>
    dsimp only
    split
    · exact keeps_pure _
    · refine .bind (keeps_origin id) fun _ _ => .bind (keeps_size id) fun _ _ => ?_
      exact .bind (keeps_bodyHeight id) fun _ _ => keeps_pure _

/-- Every question that is put together from questions to the layout leaves memory
coherent. -/
theorem keeps_of_consults {α : Type} {q : Ask α} (hq : q.Consults) : Keeps scene q := by
  induction hq with
  | boundingBox id => exact keeps_boundingBox id
  | screenPoint p => exact .bind ensures_read fun _ _ => keeps_pure _
  | workspacePoint p => exact .bind ensures_read fun _ _ => ensures_ofExcept fun _ _ => trivial
  | slotRect id name => exact keeps_slotRect id name
  | bodyRect id => exact keeps_bodyRect id
  | workspaceRect => exact .bind ensures_read fun _ _ => keeps_pure _
  | deletionRect => exact .bind ensures_get fun _ _ => keeps_pure _
  | scene => exact ensures_read.mono fun _ _ => trivial
  | known a => exact keeps_pure a
  | computed r => exact ensures_ofExcept fun _ _ => trivial
  | bind _ _ ihq ihf => exact ihq.bind fun a _ => ihf a

end EstimatedLayout

end Blockwork
