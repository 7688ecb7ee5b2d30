import Blockwork.Proofs.Board.Move
import Blockwork.Proofs.Geometry.Coherence
import Blockwork.Proofs.Workspace.FaultMessages

/-!
# The estimated layout answers

With well-formed blocks, a zoom and a memory that is right, the estimated layout answers
every question about live blocks.  A board of that kind is `Ready`.  Composing and dragging
edit the blocks and ask the layout and leave the viewport alone, so they keep the board
ready, and where they fail they fail with a message.

A walk for a size that does not end and a division by the zoom are what could break them
down.  The blocks are well formed, so no walk is endless, and there is a zoom.
-/

namespace Blockwork

/-- With a zoom there is a workspace point. -/
theorem Viewport.exists_toWorkspace {v : Viewport} (hzoom : (v.zoom == 0.0) = false) (p : Point) :
    ∃ q, v.toWorkspace p = .ok q := by
  rw [toWorkspace, hzoom]
  exact ⟨_, rfl⟩

namespace EstimatedLayout

open Query (Answers answers_pure answers_read answers_get)

variable {scene : Scene} {l : EstimatedLayout} {id : BlockId} {α : Type} {q : Ask α}

/-- What the layout has to know to answer. -/
structure Knows (scene : Scene) (l : EstimatedLayout) : Prop where
  wellFormed : scene.registry.WellFormed
  /-- The zoom is not zero. -/
  zoomed : (scene.viewport.zoom == 0.0) = false
  coherent : Coherent scene.registry l

theorem answers_of_knows {Q : α → Prop}
    (h : scene.registry.WellFormed → (scene.viewport.zoom == 0.0) = false →
      Answers scene (Coherent scene.registry) q Q) :
    Answers scene (Knows scene) q fun _ => True := by
  intro l hl
  obtain ⟨a, l', ha, hl', -⟩ := h hl.wellFormed hl.zoomed l hl.coherent
  exact ⟨a, l', ha, ⟨hl.wellFormed, hl.zoomed, hl'⟩, trivial⟩

theorem answers_bodyHeight (wf : scene.registry.WellFormed)
    (hid : scene.registry.contains id = true) :
    Answers scene (Coherent scene.registry) (bodyHeight id) (Stacked scene.registry id) :=
  (ensures_bodyHeight id).answers (returns_bodyHeight wf hid)

theorem answers_slotRect (wf : scene.registry.WellFormed)
    (hid : scene.registry.contains id = true) (name : String) :
    Answers scene (Coherent scene.registry) (slotRect id name) fun _ => True := by
  obtain ⟨c, hc⟩ := Registry.contains_iff.1 hid
  refine .bind (answers_slotOffset wf hc name) fun d _ => ?_
  cases d with
  | none => exact answers_pure trivial
  | some d => exact .bind (answers_origin wf hid) fun _ _ => answers_pure trivial

/-- The rectangle of the body of a block, if it has one. -/
inductive Bodied (r : Registry) (id : BlockId) : Option Rect → Prop
  | plain {b : Block} : r.get? id = some b → b.kind.hasBody = false → Bodied r id none
  | body {b : Block} {o : Point} {e : Extent} {h : Nat} :
      r.get? id = some b → b.kind.hasBody = true →
      Located r id o → Sized r id e → Stacked r id h →
      Bodied r id (some ⟨o.x + units bodyInset, o.y + units headerHeight - 8.0,
        units e.width - 2.0 * units bodyInset, units h⟩)

theorem Bodied.unique {r : Registry} {rect rect' : Option Rect} (h : Bodied r id rect)
    (h' : Bodied r id rect') : rect = rect' := by
  cases h with
  | plain hb hk =>
    cases h' with
    | plain => rfl
    | body hb' hk' =>
      cases hb.symm.trans hb'
      cases hk.symm.trans hk'
  | body hb hk ho he hh =>
    cases h' with
    | plain hb' hk' =>
      cases hb.symm.trans hb'
      cases hk.symm.trans hk'
    | body hb' hk' ho' he' hh' => rw [ho.unique ho', he.unique he', hh.unique hh']

theorem answers_bodyRect (wf : scene.registry.WellFormed)
    (hid : scene.registry.contains id = true) :
    Answers scene (Coherent scene.registry) (bodyRect id) (Bodied scene.registry id) := by
  obtain ⟨c, hc⟩ := Registry.contains_iff.1 hid
  refine .bind answers_read fun _ hs => ?_
  subst hs
  rw [hc]
  dsimp only
  split
  · next hk => exact answers_pure (.plain hc (by simpa using hk))
  · next hk =>
    have hk : c.kind.hasBody = true := by simpa using hk
    refine .bind (answers_origin wf hid) fun o ho => .bind (answers_size wf hid) fun e he => ?_
    exact .bind (answers_bodyHeight wf hid) fun h hh => answers_pure (.body hc hk ho he hh)

/-- With a zoom the layout answers the workspace point and remembers nothing new. -/
theorem workspacePoint_run (scene : Scene) (l : EstimatedLayout)
    (hzoom : (scene.viewport.zoom == 0.0) = false) (p : Point) :
    ∃ q, Survey.workspacePoint p scene l = (.ok q, l) := by
  obtain ⟨q, hq⟩ := Viewport.exists_toWorkspace hzoom p
  refine ⟨q, ?_⟩
  show ((scene.viewport.toWorkspace p).mapError Fault.breakdown, l) = _
  rw [hq]
  rfl

/-- The estimated layout answers. -/
theorem answering : Geometry.Answering Knows where
  boundingBox hid := answers_of_knows fun wf _ => answers_boundingBox wf hid
  slotRect name hid := answers_of_knows fun wf _ => answers_slotRect wf hid name
  bodyRect hid := answers_of_knows fun wf _ => answers_bodyRect wf hid
  screenPoint p := .bind answers_read fun _ _ => answers_pure trivial
  workspacePoint p l hl := by
    obtain ⟨q, hq⟩ := workspacePoint_run _ l hl.zoomed p
    exact ⟨q, l, hq, hl, trivial⟩
  workspaceRect := .bind answers_read fun _ _ => answers_pure trivial
  deletionRect := .bind answers_get fun _ _ => answers_pure trivial
  placed {scene l} id position hl := by
    have hedit : scene.registry.Edit (scene.registry.placed id position) [] [] :=
      .adjust id (Registry.alike_place position)
    refine ⟨hl.wellFormed.placed position, hl.zoomed, ?_⟩
    exact hl.coherent.edit hl.wellFormed hedit nofun (forgets_drops [] l)

end EstimatedLayout

open EstimatedLayout (Knows Settled answering)
open Query (Answers)

/-! ## Composing -/

namespace Board

/-- A settled board with a zoom. -/
structure Ready (b : Board EstimatedLayout) : Prop where
  settled : Settled b
  /-- The zoom is not zero. -/
  zoomed : (b.viewport.zoom == 0.0) = false

variable {b : Board EstimatedLayout} {α : Type}

theorem Ready.knows (h : b.Ready) : Knows ⟨b.registry, b.viewport⟩ b.layout :=
  ⟨h.settled.wellFormed, h.zoomed, h.settled.coherent⟩

/-- A step that changes the board and leaves the viewport keeps the board ready. -/
theorem Ready.step {m : BoardM EstimatedLayout α} (h : b.Ready) (he : Evolves m b)
    (hk : Keeps Board.viewport m) : (m b).2.Ready where
  settled := Changes.invariant he h.settled Settled.change
  zoomed := by
    rw [hk]
    exact h.zoomed

/-- What the layout answers, it answers on a board that is ready. -/
theorem Ready.asks {q : Query EstimatedLayout α} {Q : α → Prop} (h : b.Ready)
    (hq : Answers ⟨b.registry, b.viewport⟩ (Knows ⟨b.registry, b.viewport⟩) q Q) :
    Runs (ask q) b fun a b' => Q a ∧ b'.Ready ∧ b'.registry = b.registry := by
  obtain ⟨a, l, hrun, hl, hQ⟩ := Session.ask_run hq h.knows
  exact .ok hrun ⟨hQ, ⟨⟨h.settled.wellFormed, h.settled.measured, hl.coherent⟩, h.zoomed⟩, rfl⟩

theorem runs_workspacePoint (hzoom : (b.viewport.zoom == 0.0) = false) (p : Point) :
    Runs (ask (Survey.workspacePoint p)) b fun _ b' => b' = b := by
  obtain ⟨q, hq⟩ :=
    EstimatedLayout.workspacePoint_run ⟨b.registry, b.viewport⟩ b.layout hzoom p
  have hrun : ask (Survey.workspacePoint p) b = (.ok q, b) := by
    rw [ask, hq]
  exact .ok hrun rfl

theorem runs_detach (h : b.Ready) (id : BlockId) : Runs (detach id) b fun _ b' => b'.Ready := by
  have hready := h.step (evolves_detach id b) (keeps_detach aside_viewport id)
  suffices hruns : Runs (detach id) b fun _ _ => True from
    (hruns.and_state hready).mono fun _ _ h => h.2
  cases hc : b.registry.get? id with
  | none => exact .error (detach_of_dead hc) rfl
  | some c =>
    obtain ⟨position, b₁, hw⟩ :=
      locates_of_coherent h.settled.wellFormed h.settled.coherent id (Registry.contains_of_get? hc)
    obtain ⟨detached, b₂, hrun⟩ := detach_of_located hw
    exact .ok hrun trivial

theorem runs_move (h : b.Ready) (child parent : BlockId) (slot : Option String) :
    Runs (move child parent slot) b fun _ _ => True := by
  suffices hruns : Runs (do
      ofExcept (b.registry.checkMove child parent slot)
      let _ ← detach child
      attachAt child parent slot) b fun _ _ => True by
    rw [Runs, move_eq]
    exact hruns
  refine .bind (.of_gives (Registry.gives_checkMove _ child parent slot) rfl) fun _ b' hb' => ?_
  obtain ⟨rfl, -⟩ := hb'
  refine .bind (runs_detach h child) fun _ b' _ => ?_
  cases slot with
  | none => exact runs_attachToBody child parent b'
  | some name => exact runs_attachToInput child parent name b'

/-- A block over an input is live, so each of them is detached. -/
theorem runs_releaseSlots (id : BlockId) : ∀ (names : List String) {b : Board EstimatedLayout},
    b.Ready → Runs (releaseSlots id names) b fun _ _ => True
  | [], _, _ => .pure trivial
  | name :: names, b, h => by
    refine .bind (runs_blocks b) fun r b' hb' => ?_
    obtain ⟨rfl, rfl⟩ := hb'
    cases hc : (b'.registry.get? id).bind fun c => (c.slot? name).bind Slot.child with
    | none => exact runs_releaseSlots id names h
    | some child =>
      have hheld : b'.registry.Holds (.input id name) child := Option.bind_eq_some_iff.1 hc
      have hlive := (h.settled.wellFormed.under_of_holds hheld rfl).contains
      dsimp only
      rw [if_pos hlive]
      refine .bind (runs_detach h child) fun _ b₁ h₁ => ?_
      exact .bind (runs_releaseSlots id names h₁) fun _ _ _ => .pure trivial

theorem runs_releaseInputs (h : b.Ready) (id : BlockId) :
    Runs (releaseInputs id) b fun _ _ => True := by
  refine .bind (runs_require id b) fun c b' hb' => ?_
  obtain ⟨rfl, -⟩ := hb'
  exact runs_releaseSlots id _ h

/-- Removing asks nothing. -/
theorem runs_remove {σ : Type} [Geometry σ] (id : BlockId) (b : Board σ) :
    Runs (remove id) b fun _ _ => True := by
  cases hc : b.registry.get? id with
  | none => exact .error (remove_of_dead hc) rfl
  | some c =>
    obtain ⟨heard, hrun, -⟩ := remove_run hc
    exact .ok hrun trivial

theorem runs_refresh {σ : Type} [Geometry σ] (b : Board σ) : Runs refresh b fun _ _ => True :=
  .ok (refresh_run b) trivial

end Board

/-! ## Dragging -/

namespace Session

variable {σ α : Type} {d : Dragging EstimatedLayout} {id : BlockId}

theorem runs_onBoard {d : Dragging σ} {m : BoardM σ α} {Q : α → Board σ → Prop}
    (h : Runs m d.board Q) : Runs (onBoard m) d fun a d' => Q a d'.board :=
  h

theorem runs_demandActive (d : Dragging σ) : Runs demandActive d fun _ d' => d' = d := by
  refine .bind .get fun d' d₁ hd => ?_
  obtain ⟨rfl, rfl⟩ := hd
  dsimp only
  split
  · exact .pure rfl
  · exact .throw rfl

theorem runs_update (f : Session → Session) (d : Dragging σ) :
    Runs (update f) d fun _ d' => d'.board = d.board := .ok rfl rfl

theorem runs_require (id : BlockId) (d : Dragging σ) : Runs (onBoard (Board.require id)) d
    fun c d' => d'.board = d.board ∧ d.board.registry.get? id = some c :=
  runs_onBoard (Board.runs_require id d.board)

theorem runs_workspacePoint (hzoom : (d.board.viewport.zoom == 0.0) = false) (p : Point) :
    Runs (onBoard (Board.ask (Survey.workspacePoint p))) d fun _ d' => d'.board = d.board :=
  runs_onBoard (Board.runs_workspacePoint hzoom p)

theorem runs_releasePosition (hzoom : (d.board.viewport.zoom == 0.0) = false) (p : Point) :
    Runs (releasePosition p) d fun _ d' => d'.board = d.board :=
  .bind (runs_workspacePoint hzoom p) fun _ _ h => .bind .get fun _ _ hd => .pure (hd.2 ▸ h)

/-- A block is picked up.  If it is at the top level, the layout is not asked about it. -/
theorem runs_start (pointer : Point) (hzoom : (d.board.viewport.zoom == 0.0) = false)
    (h : ∀ c, d.board.registry.get? id = some c → c.parent.isNone = false → d.board.Ready) :
    Runs (start id pointer) d fun _ _ => True := by
  have hrest {d : Dragging EstimatedLayout} (hzoom : (d.board.viewport.zoom == 0.0) = false) :
      Runs (do
        let p ← onBoard (Board.ask (Survey.workspacePoint pointer))
        let b ← onBoard (Board.require id)
        update fun s => { s with
          offset := p.sub b.position
          block := some id
          pointer := some pointer
          state := .dragging }) d fun _ _ => True := by
    refine .bind (runs_workspacePoint hzoom pointer) fun _ d' _ => ?_
    exact .bind (runs_require id d') fun _ _ _ => .ok rfl trivial
  refine .bind .get fun _ d₁ hd => ?_
  obtain ⟨rfl, rfl⟩ := hd
  dsimp only
  split
  · refine .bind (runs_require id d₁) fun c d₂ hd₂ => ?_
    obtain ⟨hboard, hc⟩ := hd₂
    rw [← hboard] at hzoom h hc
    cases hp : c.parent.isNone with
    | true => exact hrest hzoom
    | false =>
      refine .bind (runs_onBoard (Board.runs_detach (h c hc hp) id)) fun _ d₃ hd₃ => ?_
      exact hrest hd₃.zoomed
  · exact .throw rfl

theorem runs_move (pointer : Point) (hzoom : (d.board.viewport.zoom == 0.0) = false) :
    Runs (move pointer) d fun _ _ => True := by
  refine .bind (runs_demandActive d) fun _ _ hd => ?_
  subst hd
  refine .bind (runs_update _ _) fun _ d₁ h₁ => .bind (runs_require _ d₁) fun _ d₂ h₂ => ?_
  have hboard := h₂.1.trans h₁
  rw [← hboard] at hzoom
  exact .bind (runs_releasePosition hzoom pointer) fun _ _ _ => .ok rfl trivial

/-- A landing that the rules refuse is no fault. -/
theorem runs_land [Geometry σ] (id : BlockId) (target : Target) (b : Board σ) :
    Runs (land id target) b fun _ _ => True := by
  have hallowed {m : BoardM σ Unit} (h : Runs m b fun _ _ => True) :
      Runs (allowed m) b fun _ _ => True := by
    unfold Runs at h ⊢
    rw [allowed]
    split
    · exact .ok trivial
    · exact .ok trivial
    · next hrun =>
      rw [hrun] at h
      cases h with
      | error h => exact .error h
  cases target with
  | nowhere => exact .pure trivial
  | below upper position => exact .ok rfl trivial
  | input parent slot =>
    exact .bind (hallowed (Board.runs_attachToInput id parent slot b)) fun _ _ _ => .pure trivial
  | body container =>
    exact .bind (hallowed (Board.runs_attachToBody id container b)) fun _ _ _ => .pure trivial

theorem runs_finish (pointer : Point) (h : d.board.Ready) :
    Runs (finish pointer) d fun _ _ => True := by
  refine .bind (runs_demandActive d) fun id _ hd => ?_
  subst hd
  refine .bind (runs_update _ _) fun _ d₁ h₁ => ?_
  refine .bind (runs_require id d₁) fun c d₂ h₂ => ?_
  obtain ⟨h₂, hc⟩ := h₂
  rw [← h₂] at hc
  have hready : d₂.board.Ready := (h₂.trans h₁) ▸ h
  refine .bind (runs_onBoard (hready.asks (Target.answers_deletes answering pointer)))
    fun deletes d₃ h₃ => ?_
  obtain ⟨-, hready₃, hregistry⟩ := h₃
  rw [← hregistry] at hc
  cases deletes with
  | true =>
    refine .bind (runs_onBoard (Board.runs_remove id d₃.board)) fun _ d₄ _ => ?_
    refine .bind (runs_update _ d₄) fun _ d₅ _ => ?_
    exact .bind (runs_onBoard (Board.runs_refresh d₅.board)) fun _ _ _ => .pure trivial
  | false =>
    refine .bind (runs_releasePosition hready₃.zoomed pointer) fun p d₄ h₄ => ?_
    rw [← h₄] at hready₃ hc
    have hplace : Runs (onBoard (place id p)) d₄ fun _ d₅ => d₅.board.Ready ∧
        d₅.board.registry = d₄.board.registry.placed id p :=
      .ok rfl ⟨hready₃.step (evolves_place id p d₄.board) fun _ => rfl, rfl⟩
    refine .bind hplace fun _ d₅ h₅ => ?_
    obtain ⟨hready₅, hplaced⟩ := h₅
    have hlive : d₅.board.registry.contains id = true := by
      rw [hplaced]
      exact (Registry.contains_modify ..).trans (Registry.contains_of_get? hc)
    refine .bind (runs_workspacePoint hready₅.zoomed pointer) fun release d₆ h₆ => ?_
    rw [← h₆] at hready₅ hlive
    refine .bind (runs_onBoard (hready₅.asks
      (Target.answers_resolve answering hready₅.settled.wellFormed hlive pointer release)))
      fun target d₇ _ => .bind (runs_update _ d₇) fun _ d₈ _ => ?_
    refine .bind (runs_onBoard (runs_land id target d₈.board)) fun landed d₉ _ => ?_
    obtain ⟨attached, refused⟩ := landed
    have hend (d : Dragging EstimatedLayout) : Runs (do
        onBoard Board.refresh
        return (← get).session.state) d fun _ _ => True :=
      .bind (runs_onBoard (Board.runs_refresh d.board)) fun _ _ _ => .ok rfl trivial
    cases attached <;> cases refused
    case false.false => exact hend d₉
    case false.true | true.false => exact .bind (runs_update _ d₉) fun _ _ _ => hend _
    case true.true =>
      exact .bind (runs_update _ d₉) fun _ _ _ => .bind (runs_update _ _) fun _ _ _ => hend _

end Session

end Blockwork
