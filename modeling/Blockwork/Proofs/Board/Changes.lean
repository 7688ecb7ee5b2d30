import Blockwork.Proofs.Board.Notices
import Blockwork.Proofs.Geometry.Queries
import Blockwork.Proofs.Registry.Edit

/-!
# Changes of a board

A step on a board asks the provider, edits the blocks, gives notice, or starts anew
with other blocks.  Each of these is a `Change`, and an edit counts as one change
together with the notices that follow it.  `Evolves` says of a step that all it
does, from a given state and whether it fails or not, is a sequence of changes.

What is true of a board and of every change of it is so true after every step.  A
change may itself break off where the provider fails to take a notice.

With a geometry the notices get through, and attaching, taking out and removing run
to an end that is known.
-/

namespace Blockwork

variable {σ S α β : Type}

namespace Board

variable [Provider σ] {b b' : Board σ} {r r' : Registry}

/-- One change of a board. -/
inductive Change (b : Board σ) : Board σ → Prop
  /-- The provider was asked. -/
  | asked {α : Type} {q : Query σ α} : q.Consults → Change b (ask q b).2
  /-- The viewport was set. -/
  | shown (viewport : Viewport) : Change b { b with viewport }
  /-- A notice was given. -/
  | noticed (id : BlockId) : Change b (notify id b).2
  /-- The blocks were edited, those that are gone last, and everything at or above a changed
  block was given notice. -/
  | edited {r : Registry} {changed gone : List BlockId} (heard : List BlockId) :
      b.registry.Edit (r.eraseAll gone) changed gone →
      (∀ x ∈ changed, (r.eraseAll gone).contains x = true →
        ∀ a ∈ chain (r.eraseAll gone) x, a ∈ heard) →
      Change b ((discardAll gone >>= fun _ => notifyAll heard) { b with registry := r }).2
  /-- The blocks were replaced, and the provider was told. -/
  | replaced {r : Registry} : r.WellFormed → r.BodiesNamed →
      Change b (ask Provider.reset { b with registry := r }).2

/-- Any number of changes of a board. -/
def Changes : Board σ → Board σ → Prop := Relation.ReflTransGen Change

/-- What is edited in one change, whether all notices get through or not. -/
theorem registry_edited [Provider.Forgets σ] (gone heard : List BlockId) (b : Board σ) :
    ((discardAll gone >>= fun _ => notifyAll heard) b).2.registry =
      b.registry.eraseAll gone := by
  obtain ⟨b', h⟩ := discardAll_ok gone b
  rw [run_bind_ok h, registry_notifyAll, registry_of_discardAll h]

/-- A change keeps the blocks of a board well formed, if the provider takes it that blocks
are gone. -/
theorem Change.wellFormed [Provider.Forgets σ] (h : Change b b') (wf : b.registry.WellFormed) :
    b'.registry.WellFormed := by
  cases h with
  | asked _ => exact wf
  | shown _ => exact wf
  | noticed id =>
    rw [registry_notify]
    exact wf
  | edited heard h _ =>
    rw [registry_edited]
    exact wf.edit h
  | replaced h _ => exact h

/-- A change keeps the names of body placeholders. -/
theorem Change.bodiesNamed [Provider.Forgets σ] (h : Change b b')
    (hn : b.registry.BodiesNamed) : b'.registry.BodiesNamed := by
  cases h with
  | asked _ => exact hn
  | shown _ => exact hn
  | noticed id =>
    rw [registry_notify]
    exact hn
  | edited heard h _ =>
    rw [registry_edited]
    exact h.bodiesNamed hn
  | replaced _ h => exact h

/-- What every change keeps, any number of changes keeps. -/
theorem Changes.invariant {P : Board σ → Prop} (h : Changes b b') (hb : P b)
    (hstep : ∀ {b b'}, P b → Change b b' → P b') : P b' := by
  induction h with
  | refl => exact hb
  | tail _ h ih => exact hstep ih h

/-- Giving notices is a sequence of changes. -/
theorem changes_notifyAll (ids : List BlockId) (b : Board σ) : Changes b (notifyAll ids b).2 := by
  induction ids generalizing b with
  | nil => exact .refl
  | cons id ids ih =>
    exact run_bind (P := Changes b) (.single (.noticed id)) fun _ b' _ h => h.trans (ih b')

/-- An edit after which no block is gone. -/
theorem change_kept {changed : List BlockId} (heard : List BlockId)
    (h : b.registry.Edit r changed [])
    (hheard : ∀ x ∈ changed, r.contains x = true → ∀ a ∈ chain r x, a ∈ heard) :
    Change b (notifyAll heard { b with registry := r }).2 := by
  rw [← r.eraseAll_nil] at h hheard
  exact .edited heard h hheard

/-- An edit that changes the body or the inputs of no block. -/
theorem change_edit (h : b.registry.Edit r [] []) : Change b { b with registry := r } :=
  change_kept [] h nofun

end Board

/-! ## Steps -/

section Steps

variable {m : ExceptT Fault (StateM S) α} {f : α → ExceptT Fault (StateM S) β} {s s' : S}

variable [Provider σ]

/-- All that a step does to a board, which is a part of the state, is a sequence of
changes. -/
def Evolves (board : S → Board σ) (m : ExceptT Fault (StateM S) α) (s : S) : Prop :=
  Board.Changes (board s) (board (m s).2)

variable {board : S → Board σ}

namespace Evolves

theorem bind (hm : Evolves board m s)
    (hf : ∀ a s', m s = (.ok a, s') → Evolves board (f a) s') : Evolves board (m >>= f) s :=
  run_bind (P := fun s' => Board.Changes (board s) (board s')) hm
    fun a s' h hs => hs.trans (hf a s' h)

/-- A step that leaves the board as it is. -/
theorem still (h : board (m s).2 = board s) : Evolves board m s := by
  rw [Evolves, h]
  exact .refl

end Evolves

end Steps

/-! ## Steps on a board -/

namespace Board

variable {b b' : Board σ} {id child parent : BlockId}

theorem ofExcept_ok_iff {x : Except Fault α} {a : α} :
    ofExcept x b = (.ok a, b') ↔ x = .ok a ∧ b = b' := by
  rw [ofExcept, Prod.mk.injEq]

theorem blocks_ok_iff {r : Registry} : blocks b = (.ok r, b') ↔ b.registry = r ∧ b = b' := by
  change (Except.ok b.registry, b) = _ ↔ _
  rw [Prod.mk.injEq, Except.ok.injEq]

theorem require_ok_iff {c : Block} :
    require id b = (.ok c, b') ↔ b.registry.get? id = some c ∧ b = b' := by
  rw [← Registry.require_ok_iff]
  exact ofExcept_ok_iff

theorem require_of_dead (h : b.registry.get? id = none) :
    require id b = (.error (.blockNotFound (.str id)), b) := by
  show (b.registry.require id, b) = _
  rw [Registry.require, h]

variable [Provider σ]

/-- All that a step on a board does is a sequence of changes. -/
abbrev Evolves (m : BoardM σ α) (b : Board σ) : Prop := Blockwork.Evolves (fun b => b) m b

open Blockwork.Evolves (still)

theorem evolves_ask {q : Query σ α} (h : q.Consults) (b : Board σ) : Evolves (ask q) b :=
  .single (.asked h)

theorem evolves_refresh (b : Board σ) : Evolves refresh b := changes_notifyAll _ b

/-- An edge was made, and everything above it was given notice. -/
theorem changes_link {place : Parent} {p : BlockId} (h : b.registry.Admits child place)
    (hp : place.id? = some p) :
    Changes b (notifyAll (chain (b.registry.link child place) p)
      { b with registry := b.registry.link child place }).2 :=
  .single (change_kept _ (.link h hp) fun _ hx _ _ ha => List.mem_singleton.1 hx ▸ ha)

theorem attachToBody_notifies (h : b.registry.Admits child (.container parent)) :
    attachToBody child parent b =
      notifyAll (chain (b.registry.link child (.container parent)) parent)
        { b with registry := b.registry.link child (.container parent) } := by
  have hok := Registry.attachToBody_ok_iff.2 ⟨h, rfl⟩
  rw [attachToBody, run_bind_ok (blocks_ok_iff.2 ⟨rfl, rfl⟩), hok]
  rfl

theorem attachToInput_notifies {slot : String}
    (h : b.registry.Admits child (.input parent slot)) :
    attachToInput child parent slot b =
      notifyAll (chain (b.registry.link child (.input parent slot)) parent)
        { b with registry := b.registry.link child (.input parent slot) } := by
  have hok := Registry.attachToInput_ok_iff.2 ⟨h, rfl⟩
  rw [attachToInput, run_bind_ok (blocks_ok_iff.2 ⟨rfl, rfl⟩), hok]
  rfl

theorem evolves_attachToBody (child container : BlockId) (b : Board σ) :
    Evolves (attachToBody child container) b := by
  cases h : b.registry.attachToBody child container with
  | error f =>
    have hrun : attachToBody child container b = (.error f, b) := by
      rw [attachToBody, run_bind_ok (blocks_ok_iff.2 ⟨rfl, rfl⟩), h]
      rfl
    exact still (by rw [hrun])
  | ok r =>
    obtain ⟨hadmits, rfl⟩ := Registry.attachToBody_ok_iff.1 h
    rw [Evolves, Blockwork.Evolves, attachToBody_notifies hadmits]
    exact changes_link hadmits rfl

theorem evolves_attachToInput (child parent : BlockId) (slot : String) (b : Board σ) :
    Evolves (attachToInput child parent slot) b := by
  cases h : b.registry.attachToInput child parent slot with
  | error f =>
    have hrun : attachToInput child parent slot b = (.error f, b) := by
      rw [attachToInput, run_bind_ok (blocks_ok_iff.2 ⟨rfl, rfl⟩), h]
      rfl
    exact still (by rw [hrun])
  | ok r =>
    obtain ⟨hadmits, rfl⟩ := Registry.attachToInput_ok_iff.1 h
    rw [Evolves, Blockwork.Evolves, attachToInput_notifies hadmits]
    exact changes_link hadmits rfl

/-- Reading a position asks the geometry and leaves the blocks alone. -/
theorem evolves_worldPosition (id : BlockId) (b : Board σ) : Evolves (worldPosition id) b := by
  refine .bind (still rfl) fun c b₁ _ => .bind (still rfl) fun b₂ b₃ h => ?_
  split
  · exact .bind (evolves_ask (.boundingBox id) _) fun _ _ _ => still rfl
  · exact still rfl

theorem registry_worldPosition (id : BlockId) (b : Board σ) :
    (worldPosition id b).2.registry = b.registry := by
  let Same (b' : Board σ) : Prop := b'.registry = b.registry
  refine run_bind (P := Same) rfl fun c b₁ _ h₁ => ?_
  refine run_bind (P := Same) h₁ fun b₂ b₃ _ h₃ => ?_
  split
  · exact run_bind (P := Same) h₃ fun _ _ _ h => h
  · exact h₃

theorem detach_of_dead (hc : b.registry.get? id = none) :
    detach id b = (.error (.blockNotFound (.str id)), b) :=
  run_bind_error (require_of_dead hc)

/-- A block at the top level is left there. -/
theorem detach_of_root {c : Block} (hc : b.registry.get? id = some c) (hp : c.parent.id? = none) :
    detach id b = (.ok false, b) := by
  rw [detach, run_bind_ok (require_ok_iff.2 ⟨hc, rfl⟩), hp]
  rfl

/-- A block with a parent keeps it when it cannot be told where the block lies. -/
theorem detach_of_lost {c : Block} {p : BlockId} {f : Fault}
    (hc : b.registry.get? id = some c) (hp : c.parent.id? = some p)
    (hw : worldPosition id b = (.error f, b')) : detach id b = (.error f, b') := by
  rw [detach, run_bind_ok (require_ok_iff.2 ⟨hc, rfl⟩), hp]
  exact run_bind_error hw

/-- A block with a parent is taken out of its place and put where it lies, and if the parent
is live, everything above is given notice. -/
theorem detach_notifies {c : Block} {p : BlockId} {position : Point}
    (hc : b.registry.get? id = some c) (hp : c.parent.id? = some p)
    (hw : worldPosition id b = (.ok position, b')) :
    let r := b.registry.unlink id c.parent position
    detach id b = (notifyAll (if r.contains p then chain r p else []) >>= fun _ => pure true)
      { b' with registry := r } := by
  intro r
  have hasked := registry_worldPosition id b
  rw [hw] at hasked
  rw [detach, run_bind_ok (require_ok_iff.2 ⟨hc, rfl⟩), hp]
  dsimp only
  rw [run_bind_ok hw]
  change (if (b'.registry.unlink id c.parent position).contains p = true then
    notifyChain p >>= fun _ => pure true else pure true : BoardM σ Bool)
      { b' with registry := b'.registry.unlink id c.parent position } = _
  rw [hasked]
  cases r.contains p <;> rfl

/-- A block was taken out of its place, and if its parent is live, everything above
was given notice. -/
theorem changes_unlink {place : Parent} {p : BlockId} (position : Point)
    (h : b.registry.parent? child = some place) (hp : place.id? = some p) :
    let r := b.registry.unlink child place position
    Changes b (notifyAll (if r.contains p then chain r p else []) { b with registry := r }).2 := by
  intro r
  refine .single (change_kept _ (.unlink position h hp) fun x hx hlive a ha => ?_)
  obtain rfl := List.mem_singleton.1 hx
  rw [if_pos hlive]
  exact ha

/-- Taking a block out of its place.  Its parent hears of it if it is live. -/
theorem evolves_detach (id : BlockId) (b : Board σ) : Evolves (detach id) b := by
  cases hc : b.registry.get? id with
  | none => exact still (by rw [detach_of_dead hc])
  | some c =>
    cases hp : c.parent.id? with
    | none => exact still (by rw [detach_of_root hc hp])
    | some p =>
      have hasked : Changes b (worldPosition id b).2 := evolves_worldPosition id b
      have hregistry := registry_worldPosition id b
      rcases hw : worldPosition id b with ⟨f | position, b'⟩
      · rw [hw] at hasked
        rw [Evolves, Blockwork.Evolves, detach_of_lost hc hp hw]
        exact hasked
      · rw [hw] at hasked hregistry
        have hparent : b'.registry.parent? id = some c.parent := by
          rw [hregistry, Registry.parent?_of_get? hc]
        have hunlink := changes_unlink position hparent hp
        rw [hregistry] at hunlink
        rw [Evolves, Blockwork.Evolves, detach_notifies hc hp hw]
        exact hasked.trans (run_bind hunlink fun _ _ _ h => h)

theorem evolves_move (child parent : BlockId) (slot : Option String) (b : Board σ) :
    Evolves (move child parent slot) b := by
  refine .bind (still rfl) fun _ b₁ _ => .bind (still rfl) fun _ b₂ _ => ?_
  refine .bind (evolves_detach child b₂) fun _ b₃ _ => ?_
  cases slot with
  | none => exact evolves_attachToBody child parent b₃
  | some name => exact evolves_attachToInput child parent name b₃

theorem evolves_releaseSlots (id : BlockId) : ∀ (names : List String) (b : Board σ),
    Evolves (releaseSlots id names) b
  | [], _ => still rfl
  | name :: names, b => by
    refine .bind (still rfl) fun r b₁ h₁ => ?_
    obtain ⟨rfl, rfl⟩ := blocks_ok_iff.1 h₁
    cases hc : (b.registry.get? id).bind fun c => (c.slot? name).bind Slot.child with
    | none => exact evolves_releaseSlots id names b
    | some child =>
      dsimp only
      split
      · exact .bind (evolves_detach child b) fun _ b₂ _ =>
          .bind (evolves_releaseSlots id names b₂) fun _ _ _ => still rfl
      · next hdead =>
        have hheld : b.registry.Holds (.input id name) child := Option.bind_eq_some_iff.1 hc
        have hedit := Registry.Edit.empty hheld (Bool.not_eq_true _ ▸ hdead)
        exact .bind (.single (change_edit hedit)) fun _ b₂ _ => evolves_releaseSlots id names b₂

theorem evolves_releaseInputs (id : BlockId) (b : Board σ) : Evolves (releaseInputs id) b :=
  .bind (still rfl) fun _ b₁ _ => evolves_releaseSlots id _ b₁

theorem remove_of_dead (hc : b.registry.get? id = none) :
    remove id b = (.error (.blockNotFound (.str id)), b) :=
  run_bind_error (require_of_dead hc)

/-- Removing a live block drops the blocks and gives notice to what is above those that held
one of them.  The block that held it gets notice last if it was not touched. -/
theorem remove_notifies {c : Block} (hc : b.registry.get? id = some c) :
    let removed := b.registry.subtree id
    let touched := b.registry.touched removed
    let r := b.registry.remove removed
    remove id b = ((discardAll removed >>= fun _ => notifyAll (touched.flatMap (chain r))) >>=
      fun _ => notifyAll ((c.parent.id?.toList.filter fun p =>
        r.contains p && !touched.contains p).flatMap (chain r)) >>= fun _ => pure removed)
      { b with registry := b.registry.scrubAround removed } := by
  intro removed touched r
  have hset : setBlocks (b.registry.scrubAround removed) b =
      (.ok (), { b with registry := b.registry.scrubAround removed }) := rfl
  rw [remove, run_bind_ok (require_ok_iff.2 ⟨hc, rfl⟩), run_bind_ok (blocks_ok_iff.2 ⟨rfl, rfl⟩)]
  dsimp only
  rw [run_bind_ok hset, bind_assoc]
  refine run_bind_congr rfl fun _ b₁ h₁ => ?_
  have hr : b₁.registry = r := registry_of_discardAll h₁
  refine run_bind_congr (hr ▸ forIn_notifyChain touched b₁) fun _ b₂ h₂ => ?_
  have hr₂ : b₂.registry = r := by
    rw [← hr, ← registry_notifyAll ((touched).flatMap (chain b₁.registry)) b₁,
      ← forIn_notifyChain, h₂]
  cases hp : c.parent.id? with
  | none => rfl
  | some p =>
    change (if (b₂.registry.contains p && !touched.contains p) = true then
      notifyChain p >>= fun _ => pure removed else pure removed : BoardM σ _) b₂ = _
    rw [hr₂, Option.toList_some, List.filter_cons]
    split
    · rw [List.filter_nil, List.flatMap_singleton, ← hr₂]
      rfl
    · rfl

theorem evolves_remove (id : BlockId) (b : Board σ) : Evolves (remove id) b := by
  cases hc : b.registry.get? id with
  | none => exact still (by rw [remove_of_dead hc])
  | some c =>
    have hedit := Registry.Edit.remove (Registry.contains_of_get? hc)
    rw [Evolves, Blockwork.Evolves, remove_notifies hc]
    refine run_bind (P := Changes b) (.single (.edited _ hedit fun x hx _ a ha => ?_))
      fun _ b₁ _ h₁ => ?_
    · exact List.mem_flatMap.2 ⟨x, hx, ha⟩
    · exact run_bind (P := Changes b) (h₁.trans (changes_notifyAll _ b₁)) fun _ _ _ h => h

/-! ## Steps on a board with a geometry -/

section Geometry

variable {σ : Type} [Geometry σ] {b b' : Board σ}

theorem attachToBody_run (h : b.registry.Admits child (.container parent)) :
    attachToBody child parent b =
      (.ok (), (chain (b.registry.link child (.container parent)) parent).foldl noticed
        { b with registry := b.registry.link child (.container parent) }) := by
  rw [attachToBody_notifies h, notifyAll_run]

theorem attachToInput_run {slot : String} (h : b.registry.Admits child (.input parent slot)) :
    attachToInput child parent slot b =
      (.ok (), (chain (b.registry.link child (.input parent slot)) parent).foldl noticed
        { b with registry := b.registry.link child (.input parent slot) }) := by
  rw [attachToInput_notifies h, notifyAll_run]

/-- A block with a parent is taken out of its place and put where it lies, and if the parent
is live, everything above has heard of it. -/
theorem detach_run {c : Block} {p : BlockId} {position : Point}
    (hc : b.registry.get? id = some c) (hp : c.parent.id? = some p)
    (hw : worldPosition id b = (.ok position, b')) :
    let r := b.registry.unlink id c.parent position
    detach id b =
      (.ok true, (if r.contains p then chain r p else []).foldl noticed
        { b' with registry := r }) := by
  intro r
  rw [detach_notifies hc hp hw, run_bind_ok (notifyAll_run ..)]
  rfl

/-- What removing a live block does to a board, notices included.  The block that held it
hears of it last if it was not touched. -/
theorem remove_run {c : Block} (hc : b.registry.get? id = some c) :
    let removed := b.registry.subtree id
    let touched := b.registry.touched removed
    let b₁ := b.withEdit (b.registry.remove removed) removed
    let b₂ := (touched.flatMap (chain b₁.registry)).foldl noticed b₁
    ∃ heard : List BlockId, remove id b = (.ok removed, heard.foldl noticed b₂) ∧
      heard = (c.parent.id?.toList.filter fun p =>
        b₁.registry.contains p && !touched.contains p).flatMap (chain b₁.registry) := by
  intro removed touched b₁ b₂
  refine ⟨_, ?_, rfl⟩
  have hdiscard : discardAll removed { b with registry := b.registry.scrubAround removed } =
      (.ok (), b₁) := discardAll_run ..
  rw [remove_notifies hc, run_bind_ok ((run_bind_ok hdiscard).trans (notifyAll_run ..)),
    run_bind_ok (notifyAll_run ..)]
  rfl

end Geometry

end Board

end Blockwork
