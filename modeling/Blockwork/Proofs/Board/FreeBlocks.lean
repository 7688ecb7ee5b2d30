import Blockwork.Proofs.Drop.Finish

/-!
# Blocks at the top level stay there

A block is free if it is live and has no parent.  It can lose this in two ways only: it is
attached, or it is removed, and to be removed it has to be the one that is named, since it is
below no other.  Whatever is done to other blocks leaves it free.

A session that picks up a block makes it free.  As long as the block stays free, the session
can move it, and can drop it.
-/

namespace Blockwork

namespace Registry

variable {r : Registry} {x id child : BlockId} {place : Parent} {b : Block}

/-- The block is live and has no parent. -/
def Free (r : Registry) (x : BlockId) : Prop := r.parent? x = some .none

theorem Free.insert (h : r.Free x) (hb : b.Loose) : (r.insert id b).Free x := by
  have hparent : r.parent? x = some .none := h
  by_cases hx : x = id <;> simp [Free, hb, hx, hparent]

theorem Free.modify {f : Block → Block} (h : r.Free x) (hf : ∀ b, (f b).parent = b.parent) :
    (r.modify id f).Free x := by
  obtain ⟨b, hb, hp⟩ := parent?_eq_some_iff.1 h
  refine parent?_eq_some_iff.2 ⟨if x = id then f b else b, ?_, ?_⟩
  · simp [hb]
  · split
    · rw [hf, hp]
    · exact hp

theorem Free.unlink {position : Point} (h : r.Free x) (hc : r.contains child = true) :
    (r.unlink child place position).Free x := by
  have hparent : r.parent? x = some .none := h
  by_cases hx : x = child <;> simp [Free, hc, hx, hparent]

theorem Free.link (h : r.Free x) (ha : r.Admits child place) (hne : child ≠ x) :
    (r.link child place).Free x := by
  simpa [Free, ha.ne_none, ha.live, hne.symm] using h

/-- Removing another block does not take a free block along, since it is not below any. -/
theorem Free.remove (h : r.Free x) (wf : r.WellFormed) (hlive : r.contains id = true)
    (hne : id ≠ x) : (r.remove (r.subtree id)).Free x := by
  have hout : x ∉ r.subtree id := by
    intro hx
    rcases Relation.ReflTransGen.cases_head ((wf.mem_subtree_iff hlive).1 hx) with
      he | ⟨p, hp, -⟩
    · exact hne he.symm
    · obtain ⟨place, hplace, hid⟩ := under_iff.1 hp
      cases h.symm.trans hplace
      cases hid
  unfold Free
  rw [parent?_remove, if_neg hout]
  exact h

end Registry

/-! ## Steps on a board -/

namespace Board

variable {σ : Type} [Geometry σ] {b b' : Board σ} {x id child : BlockId}

theorem free_attachToBody (h : b.registry.Free x) (hne : child ≠ x) (container : BlockId) :
    (attachToBody child container b).2.registry.Free x := by
  cases hr : b.registry.attachToBody child container with
  | error f =>
    rw [attachToBody, run_bind_ok (blocks_ok_iff.2 ⟨rfl, rfl⟩), hr]
    exact h
  | ok r =>
    obtain ⟨hadmits, rfl⟩ := Registry.attachToBody_ok_iff.1 hr
    rw [attachToBody_run hadmits, registry_notices]
    exact h.link hadmits hne

theorem free_attachToInput (h : b.registry.Free x) (hne : child ≠ x) (parent : BlockId)
    (slot : String) : (attachToInput child parent slot b).2.registry.Free x := by
  cases hr : b.registry.attachToInput child parent slot with
  | error f =>
    rw [attachToInput, run_bind_ok (blocks_ok_iff.2 ⟨rfl, rfl⟩), hr]
    exact h
  | ok r =>
    obtain ⟨hadmits, rfl⟩ := Registry.attachToInput_ok_iff.1 hr
    rw [attachToInput_run hadmits, registry_notices]
    exact h.link hadmits hne

/-- What taking a block out of its place comes to.  It fails and edits nothing, or the block
was free, or the block is unlinked. -/
theorem detach_cases (id : BlockId) (b : Board σ) :
    (∃ f, (detach id b).1 = .error f ∧ (detach id b).2.registry = b.registry) ∨
    (detach id b = (.ok false, b) ∧ b.registry.Free id) ∨
    ∃ place position, b.registry.parent? id = some place ∧ (detach id b).1 = .ok true ∧
      (detach id b).2.registry = b.registry.unlink id place position := by
  cases hc : b.registry.get? id with
  | none => exact .inl ⟨_, by rw [detach_of_dead hc], by rw [detach_of_dead hc]⟩
  | some c =>
    have hparent := Registry.parent?_of_get? hc
    cases hp : c.parent.id? with
    | none =>
      rw [Parent.id?_eq_none_iff.1 hp] at hparent
      exact .inr (.inl ⟨detach_of_root hc hp, hparent⟩)
    | some p =>
      have hasked : (worldPosition id b).2.registry = b.registry := registry_worldPosition id b
      rcases hw : worldPosition id b with ⟨f | position, b₁⟩
      · rw [hw] at hasked
        exact .inl ⟨f, by rw [detach_of_lost hc hp hw], by rw [detach_of_lost hc hp hw, hasked]⟩
      · refine .inr (.inr ⟨c.parent, position, hparent, by rw [detach_run hc hp hw], ?_⟩)
        rw [detach_run hc hp hw, registry_notices]

/-- Taking a block out of its place leaves every free block free. -/
theorem free_detach (h : b.registry.Free x) (id : BlockId) :
    (detach id b).2.registry.Free x := by
  rcases detach_cases id b with ⟨f, -, hr⟩ | ⟨hrun, -⟩ | ⟨place, position, hp, -, hr⟩
  · rw [hr]
    exact h
  · rw [hrun]
    exact h
  · rw [hr]
    exact h.unlink (Registry.contains_of_parent? hp)

/-- A block that has been taken out of its place is free. -/
theorem free_of_detach {detached : Bool} (h : detach id b = (.ok detached, b')) :
    b'.registry.Free id := by
  rcases detach_cases id b with ⟨f, hf, -⟩ | ⟨hrun, hfree⟩ | ⟨place, position, hp, -, hr⟩
  · rw [h] at hf
    cases hf
  · cases hrun.symm.trans h
    exact hfree
  · rw [h] at hr
    rw [hr]
    simp [Registry.Free, Registry.contains_of_parent? hp]

theorem free_move (h : b.registry.Free x) (hne : child ≠ x) (parent : BlockId)
    (slot : Option String) : (move child parent slot b).2.registry.Free x := by
  let P (b : Board σ) : Prop := b.registry.Free x
  refine run_bind (P := P) h fun _ b₁ _ h => run_bind (P := P) h fun _ b₂ _ h => ?_
  refine run_bind (P := P) (free_detach h child) fun _ b₃ _ h => ?_
  cases slot with
  | none => exact free_attachToBody h hne parent
  | some name => exact free_attachToInput h hne parent name

theorem free_releaseSlots (id : BlockId) : ∀ (names : List String) {b : Board σ},
    b.registry.Free x → (releaseSlots id names b).2.registry.Free x
  | [], _, h => h
  | name :: names, b, h => by
    let P (b : Board σ) : Prop := b.registry.Free x
    refine run_bind (P := P) h fun r b₁ h₁ h => ?_
    cases hc : (r.get? id).bind fun c => (c.slot? name).bind Slot.child with
    | none => exact free_releaseSlots id names h
    | some child =>
      dsimp only
      split
      · refine run_bind (P := P) (free_detach h child) fun _ b₂ _ h => ?_
        exact run_bind (P := P) (free_releaseSlots id names h) fun _ _ _ h => h
      · obtain ⟨rfl, rfl⟩ := blocks_ok_iff.1 h₁
        have hempty : (b.registry.modify id fun b =>
            b.modifySlot name fun s => { s with child := none }).Free x := h.modify fun _ => rfl
        exact run_bind (P := P) hempty fun _ b₂ _ h => free_releaseSlots id names h

theorem free_releaseInputs (h : b.registry.Free x) (id : BlockId) :
    (releaseInputs id b).2.registry.Free x :=
  run_bind (P := fun b : Board σ => b.registry.Free x) h fun _ _ _ h => free_releaseSlots id _ h

theorem free_remove (h : b.registry.Free x) (wf : b.registry.WellFormed) (hne : id ≠ x) :
    (remove id b).2.registry.Free x := by
  cases hc : b.registry.get? id with
  | none =>
    rw [remove_of_dead hc]
    exact h
  | some c =>
    obtain ⟨heard, hrun, -⟩ := remove_run hc
    rw [hrun, registry_notices, registry_notices]
    exact h.remove wf (Registry.contains_of_get? hc) hne

end Board

/-! ## Steps of a session -/

namespace Session

variable {σ : Type} [Geometry σ] {d d' : Dragging σ} {id : BlockId}

/-- The session is under way with the block, and the block is free. -/
structure Holding (d : Dragging σ) (id : BlockId) : Prop where
  active : d.session.state = .dragging
  block : d.session.block = some id
  free : d.board.registry.Free id

omit [Geometry σ] in
theorem board_of_onBoard {α : Type} {m : BoardM σ α} {a : α} (h : onBoard m d = (.ok a, d')) :
    m d.board = (.ok a, d'.board) := by
  have hresult : (m d.board).1 = .ok a := congrArg Prod.fst h
  have hboard : (m d.board).2 = d'.board := congrArg (fun r => r.2.board) h
  exact Prod.ext hresult hboard

/-- The end of picking up a block, when it has been taken out of its place. -/
theorem holding_of_free {pointer : Point} {u : Unit} (hfree : d.board.registry.Free id)
    (h : (do
      let p ← onBoard (Board.ask (Survey.workspacePoint pointer))
      let b ← onBoard (Board.require id)
      update fun s => { s with
        offset := p.sub b.position
        block := some id
        pointer := some pointer
        state := .dragging } : SessionM σ Unit) d = (.ok u, d')) : Holding d' id := by
  obtain ⟨p, d₁, h₁, h⟩ := run_bind_eq_ok.1 h
  obtain ⟨b, d₂, h₂, h⟩ := run_bind_eq_ok.1 h
  have hasked : d₁.board.registry = d.board.registry :=
    congrArg (fun r => r.2.board.registry) h₁.symm
  have hrequired : d₁.board = d₂.board := (Board.require_ok_iff.1 (board_of_onBoard h₂)).2
  cases h
  refine ⟨rfl, rfl, ?_⟩
  show d₂.board.registry.Free id
  rw [← hrequired, hasked]
  exact hfree

/-- A session that picks up a block holds it. -/
theorem holding_of_start {pointer : Point} {u : Unit} (h : start id pointer d = (.ok u, d')) :
    Holding d' id := by
  obtain ⟨d₀, d₁, h₁, h⟩ := run_bind_eq_ok.1 h
  dsimp only at h
  split at h
  · obtain ⟨b, d₂, h₂, h⟩ := run_bind_eq_ok.1 h
    obtain ⟨hb, hboard⟩ := Board.require_ok_iff.1 (board_of_onBoard h₂)
    split at h
    · next hnone =>
      have hfree : d₂.board.registry.Free id :=
        Registry.parent?_eq_some_iff.2 ⟨b, hboard ▸ hb, Parent.isNone_iff.1 hnone⟩
      exact holding_of_free hfree h
    · obtain ⟨detached, d₃, h₃, h⟩ := run_bind_eq_ok.1 h
      have hfree : d₃.board.registry.Free id := Board.free_of_detach (board_of_onBoard h₃)
      exact holding_of_free hfree h
  · cases h

/-- A session that moves its block goes on holding it, whether the move fails or not. -/
theorem Holding.move (h : Holding d id) (pointer : Point) : Holding (move pointer d).2 id := by
  let P (d : Dragging σ) : Prop := Holding d id
  have hdemand : P (demandActive d).2 := by
    rw [demandActive_run h.active h.block]
    exact h
  refine run_bind (P := P) hdemand fun id' d₁ _ h => ?_
  refine run_bind (P := P) ⟨h.active, h.block, h.free⟩ fun _ d₂ _ h => ?_
  refine run_bind (P := P) h fun _ d₃ _ h => ?_
  have hrelease : P (releasePosition pointer d₃).2 :=
    run_bind (P := P) ⟨h.active, h.block, h.free⟩ fun _ _ _ h => h
  refine run_bind (P := P) hrelease fun p d₄ _ h => ?_
  exact ⟨h.active, h.block, h.free.modify fun _ => rfl⟩

/-- A drop of a free block comes to an end, and if the block floats then it is still free. -/
theorem Holding.finish {I : Scene → σ → Prop} (h : Holding d id) (hg : Geometry.Answering I)
    (wf : d.board.registry.WellFormed)
    (hI : I ⟨d.board.registry, d.board.viewport⟩ d.board.layout) (pointer : Point) :
    ∃ state d', finish pointer d = (.ok state, d') ∧ d'.session.state = state ∧
      state.isTerminal = true ∧ (state = .floating → d'.board.registry.Free id) := by
  obtain ⟨c, hc, -⟩ := Registry.parent?_eq_some_iff.1 h.free
  obtain ⟨deletes, l, hask, hl, -⟩ := ask_run (Target.answers_deletes hg pointer) hI
  cases deletes with
  | true =>
    obtain ⟨d', hfinish, hstate, -⟩ := finish_deleted h.active h.block hc hask rfl
    exact ⟨.deleted, d', hfinish, hstate, rfl, nofun⟩
  | false =>
    obtain ⟨release, target, b', haim, hplaced, hadmits⟩ :=
      aim_run hg (b := { d.board with layout := l }) wf hl h.free pointer d.session.offset
    obtain ⟨b'', hland, hlanded⟩ := land_run hadmits
    obtain ⟨d', hfinish, hstate, -, hregistry⟩ :=
      finish_landed h.active h.block hc hask haim hland
    refine ⟨_, d', hfinish, hstate, ?_, fun hfloat => ?_⟩
    · cases target.attaches <;> rfl
    · have hreleased : b'.registry.Free id := by
        rw [hplaced]
        exact h.free.modify fun _ => rfl
      rw [hregistry, hlanded]
      cases target with
      | nowhere => exact hreleased
      | below upper position => exact hreleased.modify fun _ => rfl
      | input parent slot => cases hfloat
      | body container => cases hfloat

end Session

end Blockwork
