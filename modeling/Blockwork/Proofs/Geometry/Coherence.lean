import Blockwork.Proofs.Geometry.Memory
import Blockwork.Proofs.Workspace.Reachable

/-!
# Memory stays coherent

An edit changes the sizes of the blocks at or above those whose bodies it changes, and
of no others.  All of these hear of it, and the layout drops what it remembers of
them, as it does with blocks that are gone.  What is still remembered is about blocks
with nothing changed at or below them.

So whatever a user does, and whatever the layout is asked in between, every live block
has the size and the body height that it would have if nothing were remembered.
-/

namespace Blockwork

namespace EstimatedLayout

variable {r r' : Registry} {l l' : EstimatedLayout} {ids changed gone heard : List BlockId}

/-- What is remembered afterwards was remembered before, and not of certain blocks. -/
structure Forgets (ids : List BlockId) (l l' : EstimatedLayout) : Prop where
  sizes : ∀ {x e}, l'.sizes.lookup x = some e → x ∉ ids ∧ l.sizes.lookup x = some e
  /-- The heights of bodies. -/
  bodies : ∀ {x h}, l'.bodyHeights.lookup x = some h → x ∉ ids ∧ l.bodyHeights.lookup x = some h

theorem lookup_filter_ne {α : Type} {t : List (String × α)} {id x : String} {a : α}
    (h : (t.filter (·.1 ≠ id)).lookup x = some a) : x ≠ id ∧ t.lookup x = some a := by
  have hkeep := Table.lookup_keep t (· ≠ id) x
  rw [Table.keep, h] at hkeep
  by_cases hx : x = id
  · simp [hx] at hkeep
  · simpa [hx] using hkeep.symm

theorem forgets_drops (ids : List BlockId) (l : EstimatedLayout) :
    Forgets ids l (ids.foldl (fun l x => drop x l) l) := by
  induction ids generalizing l with
  | nil => exact ⟨fun h => ⟨List.not_mem_nil, h⟩, fun h => ⟨List.not_mem_nil, h⟩⟩
  | cons id ids ih =>
    constructor
    · intro x e h
      obtain ⟨hx, h⟩ := (ih (drop id l)).sizes h
      obtain ⟨hne, h⟩ := lookup_filter_ne h
      exact ⟨List.mem_cons.not.2 (not_or.2 ⟨hne, hx⟩), h⟩
    · intro x e h
      obtain ⟨hx, h⟩ := (ih (drop id l)).bodies h
      obtain ⟨hne, h⟩ := lookup_filter_ne h
      exact ⟨List.mem_cons.not.2 (not_or.2 ⟨hne, hx⟩), h⟩

theorem Forgets.trans {l'' : EstimatedLayout} {ids' : List BlockId} (h : Forgets ids l l')
    (h' : Forgets ids' l' l'') : Forgets (ids ++ ids') l l'' where
  sizes hx := by
    obtain ⟨hx', hx⟩ := h'.sizes hx
    obtain ⟨hx'', hx⟩ := h.sizes hx
    exact ⟨fun hm => (List.mem_append.1 hm).elim hx'' hx', hx⟩
  bodies hx := by
    obtain ⟨hx', hx⟩ := h'.bodies hx
    obtain ⟨hx'', hx⟩ := h.bodies hx
    exact ⟨fun hm => (List.mem_append.1 hm).elim hx'' hx', hx⟩

/-- Forgetting keeps memory coherent. -/
theorem Coherent.forget (hl : Coherent r l) (h : Forgets ids l l') : Coherent r l' :=
  ⟨fun hx => hl.sizes (h.sizes hx).2, fun hx => hl.bodies (h.bodies hx).2⟩

/-- Memory stays coherent over an edit when everything at or above a changed block is
forgotten, and everything that is gone. -/
theorem Coherent.edit (wf : r.WellFormed) (hl : Coherent r l) (hedit : r.Edit r' changed gone)
    (hheard : ∀ x ∈ changed, r'.contains x = true → ∀ a ∈ Board.chain r' x, a ∈ heard)
    (h : Forgets (gone ++ heard) l l') : Coherent r' l' := by
  have hsame := sameBelow_of_edit wf hedit
  have hkept {x : BlockId} (hlive : r.contains x = true) (hx : x ∉ gone ++ heard) :
      r.contains x = true ∧ r'.contains x = true ∧
        ∀ y, Relation.ReflTransGen r'.Under y x → y ∉ changed := by
    rw [List.mem_append, not_or] at hx
    have hlive' : r'.contains x = true := hedit.live hlive hx.1
    refine ⟨hlive, hlive', fun y hy hm => hx.2 ?_⟩
    -- a changed block below `x` would have been heard of at `x`
    have hylive : r'.contains y = true := by
      rcases Relation.ReflTransGen.cases_head hy with rfl | ⟨p, hp, -⟩
      · exact hlive'
      · exact hp.contains
    exact hheard y hm hylive x ((wf.edit hedit).mem_chain_iff.2 hy)
  constructor
  · intro x e hx
    obtain ⟨hn, hx⟩ := h.sizes hx
    exact (hl.sizes hx).kept hsame (hkept (hl.sizes hx).live hn)
  · intro x e hx
    obtain ⟨hn, hx⟩ := h.bodies hx
    exact (hl.bodies hx).kept hsame (hkept (hl.bodies hx).live hn)

/-! ## Boards -/

/-- A board whose blocks are well formed and whose layout is coherent. -/
structure Settled (b : Board EstimatedLayout) : Prop where
  /-- The blocks are well formed. -/
  wellFormed : b.registry.WellFormed
  /-- Composing tells the layout. -/
  measured : b.measured = true
  /-- What the layout remembers is right. -/
  coherent : Coherent b.registry b.layout

variable {b b' : Board EstimatedLayout}

theorem measured_notices (ids : List BlockId) (b : Board EstimatedLayout) :
    (ids.foldl Board.noticed b).measured = b.measured := by
  induction ids generalizing b with
  | nil => rfl
  | cons id ids ih => exact ih _

theorem layout_notices (ids : List BlockId) (b : Board EstimatedLayout) (hm : b.measured = true) :
    (ids.foldl Board.noticed b).layout = ids.foldl (fun l x => drop x l) b.layout := by
  induction ids generalizing b with
  | nil => rfl
  | cons id ids ih =>
    have hlayout : (b.noticed id).layout = drop id b.layout := by
      rw [Board.noticed, hm]
      rfl
    rw [List.foldl_cons, List.foldl_cons, ih (b.noticed id) hm, hlayout]

/-- Every change of a board keeps what its layout remembers right. -/
theorem Settled.change (hb : Settled b) (hc : b.Change b') : Settled b' := by
  cases hc with
  | @asked α q hq =>
    have hkeeps : Keeps ⟨b.registry, b.viewport⟩ q := keeps_of_consults hq
    exact ⟨hb.wellFormed, hb.measured, (hkeeps b.layout hb.coherent).1⟩
  | shown viewport => exact ⟨hb.wellFormed, hb.measured, hb.coherent⟩
  | noticed id =>
    rw [Board.notify_run]
    refine ⟨hb.wellFormed, hb.measured, ?_⟩
    have hlayout := layout_notices [id] b hb.measured
    have hforget := hb.coherent.forget (forgets_drops [id] b.layout)
    rw [← hlayout] at hforget
    exact hforget
  | @edited r changed gone heard hedit hheard =>
    let r' := r.eraseAll gone
    have hm : (b.withEdit r' gone).measured = true := hb.measured
    have hdiscard : Board.discardAll gone { b with registry := r } = (.ok (), b.withEdit r' gone) :=
      Board.discardAll_run ..
    rw [run_bind_ok hdiscard, Board.notifyAll_run]
    refine ⟨?_, (measured_notices heard _).trans hm, ?_⟩
    · rw [Board.registry_notices]
      exact hb.wellFormed.edit hedit
    · have hlayout : (b.withEdit r' gone).layout = gone.foldl (fun l x => drop x l) b.layout := by
        rw [Board.withEdit, hb.measured]
        rfl
      rw [Board.registry_notices, layout_notices heard _ hm, hlayout]
      exact hb.coherent.edit hb.wellFormed hedit hheard
        ((forgets_drops gone _).trans (forgets_drops heard _))
  | replaced hr _ => exact ⟨hr, hb.measured, coherent_clear _ _⟩

/-- With coherent memory a question that has one right answer gives it, with memory or
without. -/
theorem Coherent.answer_eq {α : Type} {scene : Scene} {q : Ask α} {Q : α → Prop}
    (hl : Coherent scene.registry l) (hq : Query.Ensures scene (Coherent scene.registry) q Q)
    (hreturns : Query.Returns scene q fun _ => True) (hunique : ∀ a a', Q a → Q a' → a = a') :
    ∃ a, (q scene l).1 = .ok a ∧ (q scene l.clear).1 = .ok a := by
  obtain ⟨a, l₁, ha, -⟩ := hreturns l
  obtain ⟨a', l₂, ha', -⟩ := hreturns l.clear
  have hQ : Q a := (hq l hl).2 a (congrArg Prod.fst ha)
  have hQ' : Q a' := (hq l.clear (coherent_clear _ l)).2 a' (congrArg Prod.fst ha')
  cases hunique a a' hQ hQ'
  exact ⟨a, congrArg Prod.fst ha, congrArg Prod.fst ha'⟩

/-! ## What users can reach -/

/-- What asking the layout between operations does to it: questions for sizes, for
heights of bodies, and all that go into composing and dropping. -/
inductive Asked (scene : Scene) (l : EstimatedLayout) : EstimatedLayout → Prop
  /-- The size of a block was asked for. -/
  | size (id : BlockId) : Asked scene l (size id scene l).2
  /-- The height of a body was asked for. -/
  | bodyHeight (id : BlockId) : Asked scene l (bodyHeight id scene l).2
  /-- Another question was asked. -/
  | consulted {α : Type} {q : Ask α} : q.Consults → Asked scene l (q scene l).2

theorem Settled.ask (hb : Settled b) (h : Asked ⟨b.registry, b.viewport⟩ b.layout l) :
    Settled { b with layout := l } := by
  refine ⟨hb.wellFormed, hb.measured, ?_⟩
  cases h with
  | size id =>
    have hkeeps : Keeps ⟨b.registry, b.viewport⟩ (size id) := keeps_size id
    exact (hkeeps b.layout hb.coherent).1
  | bodyHeight id =>
    have hkeeps : Keeps ⟨b.registry, b.viewport⟩ (bodyHeight id) := keeps_bodyHeight id
    exact (hkeeps b.layout hb.coherent).1
  | @consulted α q hq =>
    have hkeeps : Keeps ⟨b.registry, b.viewport⟩ q := keeps_of_consults hq
    exact (hkeeps b.layout hb.coherent).1

open Workspace (Reachable)

variable {settings : Settings} {store : Option Store} {palette : Palette}
variable {languages : List Code.Language} {trash : Option Rect} {w : Workspace EstimatedLayout}

theorem settled_of_reachable
    (h : Reachable Asked (Workspace.start settings store palette languages { trash }) w) :
    Settled w.board := by
  have hstart : Settled (Workspace.start settings store palette languages { trash }).board :=
    ⟨Registry.loose_empty.wellFormed, rfl, ⟨nofun, nofun⟩⟩
  exact h.invariant hstart Settled.change Settled.ask

/-- Whatever a user does, and whatever is asked in between, the size of a live block and
the height of its body are what they would be if nothing were remembered. -/
theorem remembered_of_reachable
    (h : Reachable Asked (Workspace.start settings store palette languages { trash }) w)
    {id : BlockId} (hid : w.board.registry.contains id = true) :
    let scene : Scene := ⟨w.board.registry, w.board.viewport⟩
    let l := w.board.layout
    (∃ e, (size id scene l).1 = .ok e ∧ (size id scene l.clear).1 = .ok e) ∧
      ∃ n, (bodyHeight id scene l).1 = .ok n ∧ (bodyHeight id scene l.clear).1 = .ok n := by
  intro scene l
  have hb : Settled w.board := settled_of_reachable h
  have hl : Coherent scene.registry l := hb.coherent
  constructor
  · exact hl.answer_eq (ensures_size id) (returns_size hb.wellFormed hid) fun _ _ => Sized.unique
  · exact hl.answer_eq (ensures_bodyHeight id) (returns_bodyHeight hb.wellFormed hid)
      fun _ _ => Stacked.unique

/-- The size of a container is asked for, then a command is attached to it, and its size
is the new one. -/
theorem remembered_of_reachable_grown : ∃ w : Workspace EstimatedLayout,
    Reachable Asked (Workspace.start {} none .standard [] {}) w ∧
    let scene : Scene := ⟨w.board.registry, w.board.viewport⟩
    let l := w.board.layout
    (∃ e, (size "blk-1" scene l).1 = .ok e ∧ (size "blk-1" scene l.clear).1 = .ok e) ∧
      ∃ n, (bodyHeight "blk-1" scene l).1 = .ok n ∧
        (bodyHeight "blk-1" scene l.clear).1 = .ok n := by
  let w₀ : Workspace EstimatedLayout := Workspace.start {} none .standard [] {}
  have h₀ : Reachable Asked w₀ w₀ := .start
  have h₁ := h₀.perform (.addEntry 2 .origin) fun _ => by decide +kernel
  have h₂ := h₁.perform (.addEntry 0 .origin) fun _ => by decide +kernel
  have h₃ := h₂.ask (.size "blk-1")
  have h₄ := h₃.perform (.attachToBody "blk-2" "blk-1") nofun
  have h₅ := h₄.ask (.bodyHeight "blk-1")
  exact ⟨_, h₅, remembered_of_reachable h₅ (by decide +kernel)⟩

end EstimatedLayout

end Blockwork
