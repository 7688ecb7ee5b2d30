import Blockwork.Proofs.Board.FreeBlocks
import Blockwork.Proofs.Workspace.ImportBundle
import Blockwork.Proofs.Workspace.Reachable

/-!
# While a block is dragged

A block that is picked up is taken out of its place.  While it is dragged it has no
parent, and it is there when it is dropped.

The workspace does not see to this on its own.  Importing, clearing and picking up
another block wait until the drag is over, but attaching, moving and removing do not,
so the dragged block itself can be given a parent or be removed under way.  A drag is
undisturbed if nobody does this.  Whatever else happens under way, to other blocks or
to this one, leaves the dragged block free.
-/

namespace Blockwork

/-! ## Operations -/

/-- The operation neither removes the block nor gives it a parent. -/
def Operation.Spares (x : BlockId) : Operation → Prop
  | remove id => id ≠ x
  | attachToBody child _ | attachToInput child _ _ | move child _ _ => child ≠ x
  | _ => True

namespace Workspace

variable {σ α : Type} {w₀ w w' : Workspace σ} {x id : BlockId}

/-- The block that is being dragged. -/
def dragged? (w : Workspace σ) : Option BlockId :=
  w.drag.bind fun s => if s.isActive then s.block else none

/-- A workspace has the drag of an earlier one, and the block that is dragged there is free. -/
structure Carries (w₀ w : Workspace σ) : Prop where
  drag : w.drag = w₀.drag
  free : ∀ x, w₀.dragged? = some x → w.board.registry.Free x

theorem Carries.isDragging_eq (h : Carries w₀ w) : w.isDragging = w₀.isDragging :=
  congrArg (Option.any Session.isActive) h.drag

/-- When nothing is dragged, there is nothing to keep free. -/
theorem Carries.of_idle (hidle : w₀.isDragging = false) (h : w.drag = w₀.drag) :
    Carries w₀ w where
  drag := h
  free x hx := by
    obtain ⟨s, hs, hblock⟩ := Option.bind_eq_some_iff.1 hx
    rw [isDragging, hs] at hidle
    have hactive : s.isActive = false := hidle
    simp [hactive] at hblock

theorem Carries.onBoard (h : Carries w₀ w) {m : BoardM σ α}
    (hm : ∀ x, w₀.dragged? = some x → w.board.registry.Free x → (m w.board).2.registry.Free x) :
    Carries w₀ (onBoard m w).2 :=
  ⟨h.drag, fun x hx => hm x hx (h.free x hx)⟩

theorem demandNoDrag_of_dragging (h : w.isDragging = true) :
    ∃ f, demandNoDrag w = (.error f, w) := by
  rw [isDragging, Option.any_eq_true] at h
  obtain ⟨s, hs, hactive⟩ := h
  refine ⟨.drag (.busy (s.block.getD "")), ?_⟩
  rw [demandNoDrag_run, hs]
  simp only [hactive, if_true]
  rfl

/-- A step that waits until no block is being dragged. -/
theorem Carries.wait (h : Carries w₀ w) {f : Unit → WorkspaceM σ α}
    (hf : w.isDragging = false → (f () w).2.drag = w.drag) :
    Carries w₀ ((demandNoDrag >>= f) w).2 := by
  cases hd : w.isDragging with
  | false =>
    rw [run_bind_ok (demandNoDrag_of_not_dragging hd)]
    exact .of_idle (h.isDragging_eq ▸ hd) ((hf hd).trans h.drag)
  | true =>
    obtain ⟨f, hbusy⟩ := demandNoDrag_of_dragging hd
    rw [run_bind_error hbusy]
    exact h

theorem Carries.create (h : Carries w₀ w) (d : Definition) (position : Point) :
    Carries w₀ (create d position none w).2 := by
  refine run_bind (P := Carries w₀) h fun r w₁ h₁ h => ?_
  obtain rfl : w = w₁ := congrArg Prod.snd h₁
  obtain rfl : w.board.registry = r := Except.ok.inj (congrArg Prod.fst h₁)
  refine run_bind (P := Carries w₀) h fun b w₂ h₂ h => ?_
  have hb : Definition.lift (Block.ofDefinition d position) = .ok b := congrArg Prod.fst h₂
  have hloose : b.Loose := Block.loose_ofDefinition (Bundle.lift_ok_iff.1 hb)
  obtain rfl : w = w₂ := congrArg Prod.snd h₂
  exact ⟨h.drag, fun x hx => (h.free x hx).insert hloose⟩

theorem Carries.add (h : Carries w₀ w) (d : Definition) (position : Point) :
    Carries w₀ (add d position w).2 :=
  run_bind (P := Carries w₀) (h.create d position) fun _ _ _ h => ⟨h.drag, h.free⟩

theorem Carries.addEntry (h : Carries w₀ w) (index : Int) (position : Point) :
    Carries w₀ (addEntry index position w).2 := by
  refine run_bind (P := Carries w₀) h fun d w₁ h₁ h => ?_
  exact h.add d position

theorem Carries.setInput (h : Carries w₀ w) (id : BlockId) (name : String) (v : Json) :
    Carries w₀ (setInput id name v w).2 := by
  refine run_bind (P := Carries w₀) h fun b w₁ _ h => ?_
  split
  · exact h
  · refine run_bind (P := Carries w₀) h fun _ w₂ _ h => ?_
    exact ⟨h.drag, fun x hx => (h.free x hx).modify fun _ => rfl⟩

theorem Carries.refuseSetting (h : Carries w₀ w) (id : BlockId) (slot : Json) :
    Carries w₀ (refuseSetting id slot w).2 :=
  run_bind (P := Carries w₀) h fun _ _ _ h => h

theorem Carries.refuseInput (h : Carries w₀ w) (child parent : BlockId) (slot : Json) :
    Carries w₀ (refuseInput child parent slot w).2 := by
  refine run_bind (P := Carries w₀) h fun _ w₁ _ h => ?_
  refine run_bind (P := Carries w₀) h fun _ w₂ _ h => ?_
  exact run_bind (P := Carries w₀) h fun _ _ _ h => h

theorem Carries.addDraft (h : Carries w₀ w) (d : Palette.Draft) : Carries w₀ (addDraft d w).2 :=
  run_bind (P := Carries w₀) h fun _ _ _ h =>
    run_bind (P := Carries w₀) h fun _ _ _ h => ⟨h.drag, h.free⟩

theorem Carries.removeEntry (h : Carries w₀ w) (index : Int) :
    Carries w₀ (removeEntry index w).2 :=
  run_bind (P := Carries w₀) h fun _ _ _ h =>
    run_bind (P := Carries w₀) h fun _ _ _ h => ⟨h.drag, h.free⟩

theorem state_demandStore (w : Workspace σ) : (demandStore w).2 = w := by
  refine run_bind (P := fun w' => w' = w) rfl fun w₁ w₂ _ h₂ => ?_
  cases w₁.store <;> exact h₂

theorem Carries.demandStore (h : Carries w₀ w) : Carries w₀ (demandStore w).2 := by
  rwa [state_demandStore]

theorem Carries.save (h : Carries w₀ w) : Carries w₀ (save w).2 := by
  refine run_bind (P := Carries w₀) h.demandStore fun store w₁ _ h => h.wait fun _ => ?_
  let P (w : Workspace σ) : Prop := w.drag = w₁.drag
  refine run_bind (P := P) rfl fun _ w₂ _ h => run_bind (P := P) h fun _ w₃ _ h => ?_
  exact run_bind (P := P) h fun _ _ _ h => h

/-! ### The drag -/

/-- The drag that is under way, if there is one, holds a free block. -/
def Steady (w : Workspace σ) : Prop :=
  w.isDragging = true → ∃ s id, w.drag = some s ∧ Session.Holding ⟨w.board, s⟩ id

theorem dragged?_of_holding {s : Session} (hs : w.drag = some s)
    (hold : Session.Holding ⟨w.board, s⟩ id) : w.dragged? = some id := by
  have hactive : s.isActive = true := decide_eq_true hold.active
  rw [dragged?, hs, Option.bind_some, if_pos hactive]
  exact hold.block

theorem steady_of_idle (h : w.isDragging = false) : Steady w := by
  intro hd
  cases h.symm.trans hd

theorem Steady.carries (h : Steady w) : Carries w w := by
  cases hd : w.isDragging with
  | false => exact .of_idle hd rfl
  | true =>
    obtain ⟨s, id, hs, hold⟩ := h hd
    refine ⟨rfl, fun x hx => ?_⟩
    cases (dragged?_of_holding hs hold).symm.trans hx
    exact hold.free

theorem Steady.of_carries (h : Steady w) (hc : Carries w w') : Steady w' := by
  intro hd
  obtain ⟨s, id, hs, hold⟩ := h (hc.isDragging_eq ▸ hd)
  exact ⟨s, id, hc.drag.trans hs, hold.active, hold.block,
    hc.free id (dragged?_of_holding hs hold)⟩

theorem runSession_run {s s' : Session} {m : SessionM σ α} {r : Except Fault α}
    (h : runSession s m w = (.ok (r, s'), w')) : m ⟨w.board, s⟩ = (r, ⟨w'.board, s'⟩) := by
  cases h
  rfl

theorem activeDrag_run (w : Workspace σ) :
    activeDrag w = (match w.drag with
      | some s => if s.isActive then return s else throw (.drag .noDrag)
      | none => throw (.drag .noDrag) : WorkspaceM σ Session) w := rfl

theorem activeDrag_of_dragging (h : w.isDragging = true) :
    ∃ s, w.drag = some s ∧ activeDrag w = (.ok s, w) := by
  rw [isDragging, Option.any_eq_true] at h
  obtain ⟨s, hs, hactive⟩ := h
  refine ⟨s, hs, ?_⟩
  rw [activeDrag_run, hs]
  simp only [hactive, if_true]
  rfl

theorem activeDrag_of_not_dragging (h : w.isDragging = false) :
    activeDrag w = (.error (.drag .noDrag), w) := by
  rw [activeDrag_run]
  unfold isDragging at h
  cases hd : w.drag with
  | none => rfl
  | some s =>
    rw [hd] at h
    have hs : s.isActive = false := h
    simp only [hs, Bool.false_eq_true, if_false]
    rfl

variable [Geometry σ]

/-! ### Editing -/

theorem Carries.remove (h : Carries w₀ w) (wf : w.board.registry.WellFormed)
    (hs : ∀ x, w₀.dragged? = some x → id ≠ x) : Carries w₀ (remove id w).2 :=
  run_bind (P := Carries w₀) (h.onBoard fun x hx hfree => Board.free_remove hfree wf (hs x hx))
    fun _ _ _ h => ⟨h.drag, h.free⟩

theorem Carries.attachToBody (h : Carries w₀ w) (container : BlockId)
    (hs : ∀ x, w₀.dragged? = some x → id ≠ x) : Carries w₀ (attachToBody id container w).2 :=
  run_bind (P := Carries w₀)
    (h.onBoard fun x hx hfree => Board.free_attachToBody hfree (hs x hx) container)
    fun _ _ _ h => ⟨h.drag, h.free⟩

theorem Carries.attachToInput (h : Carries w₀ w) (parent : BlockId) (slot : String)
    (hs : ∀ x, w₀.dragged? = some x → id ≠ x) : Carries w₀ (attachToInput id parent slot w).2 :=
  run_bind (P := Carries w₀)
    (h.onBoard fun x hx hfree => Board.free_attachToInput hfree (hs x hx) parent slot)
    fun _ _ _ h => ⟨h.drag, h.free⟩

theorem Carries.move (h : Carries w₀ w) (parent : BlockId) (slot : Option String)
    (hs : ∀ x, w₀.dragged? = some x → id ≠ x) : Carries w₀ (move id parent slot w).2 :=
  run_bind (P := Carries w₀)
    (h.onBoard fun x hx hfree => Board.free_move hfree (hs x hx) parent slot)
    fun _ _ _ h => ⟨h.drag, h.free⟩

theorem Carries.detach (h : Carries w₀ w) (id : BlockId) : Carries w₀ (detach id w).2 := by
  refine run_bind (P := Carries w₀) (h.onBoard fun x _ hfree => Board.free_detach hfree id)
    fun detached w₁ _ h => ?_
  cases detached with
  | true => exact ⟨h.drag, h.free⟩
  | false => exact h

theorem Carries.releaseInputs (h : Carries w₀ w) (id : BlockId) :
    Carries w₀ (releaseInputs id w).2 := by
  refine run_bind (P := Carries w₀) (h.onBoard fun x _ hfree => Board.free_releaseInputs hfree id)
    fun released w₁ _ h => ?_
  cases released with
  | nil => exact h
  | cons first rest => exact ⟨h.drag, h.free⟩

/-! ### Importing and clearing -/

theorem drag_importBundle (payload : Json) (hidle : w.isDragging = false) :
    (importBundle payload w).2.drag = w.drag := by
  cases hread : Bundle.read payload with
  | error f => rw [importBundle_of_error hidle hread]
  | ok contents =>
    obtain ⟨imported, himport⟩ := importBundle_of_read hidle hread
    rw [himport]
    rfl

theorem Carries.importBundle (h : Carries w₀ w) (payload : Json) :
    Carries w₀ (importBundle payload w).2 := by
  refine h.wait fun hidle => ?_
  have hrun := drag_importBundle payload hidle
  rwa [Workspace.importBundle, run_bind_ok (demandNoDrag_of_not_dragging hidle)] at hrun

theorem Carries.load (h : Carries w₀ w) : Carries w₀ (load w).2 := by
  refine run_bind (P := Carries w₀) h.demandStore fun store w₁ _ h => ?_
  refine run_bind (P := Carries w₀) h fun _ w₂ _ h => ?_
  refine run_bind (P := Carries w₀) h fun text w₃ _ h => ?_
  cases text with
  | none => exact h
  | some text => exact run_bind (P := Carries w₀) (h.importBundle (.str text)) fun _ _ _ h => h

theorem Carries.clear (h : Carries w₀ w) : Carries w₀ (clear w).2 := by
  refine h.wait fun _ => ?_
  let P (w' : Workspace σ) : Prop := w'.drag = w.drag
  refine run_bind (P := P) rfl fun _ w₁ _ h => run_bind (P := P) h fun _ w₁ _ h => ?_
  refine run_bind (P := P) h fun _ w₁ _ h => run_bind (P := P) h fun w₂ w₃ _ h => ?_
  cases w₂.store with
  | none => exact h
  | some store =>
    refine run_bind (P := P) h fun _ w₄ _ h => run_bind (P := P) h fun _ w₅ _ h => ?_
    exact run_bind (P := P) h fun _ _ _ h => h

/-! ### Dragging -/

/-- Picking up a block when none is being dragged. -/
theorem steady_startDrag (h : w.isDragging = false) (id : BlockId) (pointer : Point) :
    Steady (startDrag id pointer w).2 := by
  rw [startDrag, run_bind_ok (demandNoDrag_of_not_dragging h)]
  refine run_bind (P := Steady) (steady_of_idle h) fun rs w₁ h₁ h => ?_
  obtain ⟨r, s⟩ := rs
  cases r with
  | error f => exact h
  | ok u =>
    have hold : Session.Holding ⟨w₁.board, s⟩ id := Session.holding_of_start (runSession_run h₁)
    exact fun _ => ⟨s, id, rfl, hold⟩

theorem Steady.startDrag (h : Steady w) (id : BlockId) (pointer : Point) :
    Steady (startDrag id pointer w).2 := by
  cases hd : w.isDragging with
  | false => exact steady_startDrag hd id pointer
  | true =>
    obtain ⟨f, hbusy⟩ := demandNoDrag_of_dragging hd
    rw [Workspace.startDrag, run_bind_error hbusy]
    exact h

theorem Steady.startPaletteDrag (h : Steady w) (index : Int) (pointer : Point) :
    Steady (startPaletteDrag index pointer w).2 := by
  cases hd : w.isDragging with
  | false =>
    rw [Workspace.startPaletteDrag, run_bind_ok (demandNoDrag_of_not_dragging hd)]
    let P (w : Workspace σ) : Prop := w.isDragging = false
    refine run_bind_imp (P := P) hd (fun _ => steady_of_idle) fun d w₁ hd => ?_
    refine run_bind_imp (P := P) hd (fun _ => steady_of_idle) fun position w₂ hd => ?_
    have hmade : P (create d position none w₂).2 :=
      ((Carries.of_idle hd rfl).create d position).isDragging_eq.trans hd
    refine run_bind_imp (P := P) hmade (fun _ => steady_of_idle) fun id w₃ hd => ?_
    exact run_bind (P := Steady) (steady_startDrag hd id pointer) fun _ _ _ h => h
  | true =>
    obtain ⟨f, hbusy⟩ := demandNoDrag_of_dragging hd
    rw [Workspace.startPaletteDrag, run_bind_error hbusy]
    exact h

theorem state_moveDrag {s : Session} (h : activeDrag w = (.ok s, w)) (pointer : Point) :
    (moveDrag pointer w).2 = { w with
      board := (Session.move pointer ⟨w.board, s⟩).2.board
      drag := some (Session.move pointer ⟨w.board, s⟩).2.session } := by
  rw [moveDrag, run_bind_ok h]
  rfl

theorem endDrag_ok {s : Session} (h : activeDrag w = (.ok s, w)) {pointer : Point}
    {state : DragState} {d : Dragging σ}
    (hf : Session.finish pointer ⟨w.board, s⟩ = (.ok state, d)) :
    endDrag pointer w = (.ok state, { w with
      board := d.board, drag := none, lastDrag := some d.session, changes := w.changes + 1 }) := by
  have hrun : runSession s (Session.finish pointer) w =
      (.ok (.ok state, d.session), { w with board := d.board }) := by
    rw [runSession, hf]
  rw [endDrag, run_bind_ok h, run_bind_ok hrun]
  rfl

theorem drag_endDrag {s : Session} (h : activeDrag w = (.ok s, w)) (pointer : Point) :
    (endDrag pointer w).2.drag = none := by
  rcases hf : Session.finish pointer ⟨w.board, s⟩ with ⟨f | state, d⟩
  · have hrun : runSession s (Session.finish pointer) w =
        (.ok (.error f, d.session), { w with board := d.board }) := by
      rw [runSession, hf]
    rw [endDrag, run_bind_ok h, run_bind_ok hrun]
    rfl
  · rw [endDrag_ok h hf]

theorem Steady.moveDrag (h : Steady w) (pointer : Point) : Steady (moveDrag pointer w).2 := by
  cases hd : w.isDragging with
  | false =>
    rw [Workspace.moveDrag, run_bind_error (activeDrag_of_not_dragging hd)]
    exact h
  | true =>
    obtain ⟨s, hs, hrun⟩ := activeDrag_of_dragging hd
    obtain ⟨t, id, ht, hold⟩ := h hd
    cases hs.symm.trans ht
    rw [state_moveDrag hrun]
    exact fun _ => ⟨_, id, rfl, hold.move pointer⟩

theorem Steady.endDrag (h : Steady w) (pointer : Point) : Steady (endDrag pointer w).2 := by
  cases hd : w.isDragging with
  | false =>
    rw [Workspace.endDrag, run_bind_error (activeDrag_of_not_dragging hd)]
    exact h
  | true =>
    obtain ⟨s, hs, hrun⟩ := activeDrag_of_dragging hd
    refine steady_of_idle ?_
    rw [isDragging, drag_endDrag hrun pointer, Option.any_none]

end Workspace

/-! ## Runs -/

namespace Operation

variable {σ : Type} [Geometry σ] {w : Workspace σ}

/-- An operation that spares the dragged block leaves it free. -/
theorem steady_perform (o : Operation) (h : w.Steady) (wf : w.board.registry.WellFormed)
    (hs : ∀ x, w.dragged? = some x → o.Spares x) : (o.perform w).Steady := by
  cases o with
  | startDrag id pointer => exact h.startDrag id pointer
  | startPaletteDrag index pointer => exact h.startPaletteDrag index pointer
  | moveDrag pointer => exact h.moveDrag pointer
  | endDrag pointer => exact h.endDrag pointer
  | add d position => exact h.of_carries (h.carries.add d position)
  | addEntry index position => exact h.of_carries (h.carries.addEntry index position)
  | remove id => exact h.of_carries (h.carries.remove wf hs)
  | setInput id slot value =>
    cases slot with
    | str name => exact h.of_carries (h.carries.setInput id name value)
    | _ => exact h.of_carries (h.carries.refuseSetting id _)
  | attachToBody child container => exact h.of_carries (h.carries.attachToBody container hs)
  | attachToInput child parent slot =>
    cases slot with
    | str name => exact h.of_carries (h.carries.attachToInput parent name hs)
    | _ => exact h.of_carries (h.carries.refuseInput child parent _)
  | move child parent slot =>
    cases slot with
    | null => exact h.of_carries (h.carries.move parent none hs)
    | str name => exact h.of_carries (h.carries.move parent (some name) hs)
    | _ => exact h.of_carries (h.carries.refuseInput child parent _)
  | detach id => exact h.of_carries (h.carries.detach id)
  | releaseInputs id => exact h.of_carries (h.carries.releaseInputs id)
  | importBundle payload => exact h.of_carries (h.carries.importBundle payload)
  | save => exact h.of_carries h.carries.save
  | load => exact h.of_carries h.carries.load
  | clear => exact h.of_carries h.carries.clear
  | addDraft d => exact h.of_carries (h.carries.addDraft d)
  | removeEntry index => exact h.of_carries (h.carries.removeEntry index)
  | setPalette palette => exact h
  | setViewport viewport => exact h.of_carries ⟨rfl, h.carries.free⟩
  | setStore store => exact h

end Operation

namespace Workspace

variable {σ : Type} [Geometry σ] {asked : Scene → σ → σ → Prop} {w₀ w : Workspace σ}

/-- What a user can come to who does anything until a moment when no block is being dragged,
and from then on neither removes the dragged block nor gives it a parent. -/
inductive Undisturbed (asked : Scene → σ → σ → Prop) (w₀ : Workspace σ) : Workspace σ → Prop
  /-- A workspace that can be reached, in which no block is being dragged. -/
  | idle {w : Workspace σ} :
      Reachable asked w₀ w → w.isDragging = false → Undisturbed asked w₀ w
  /-- One more operation, which spares the dragged block.  An id that is handed out is not in
  use. -/
  | perform {w : Workspace σ} (o : Operation) :
      Undisturbed asked w₀ w → (o.creates = true → w.Fresh) →
      (∀ x, w.dragged? = some x → o.Spares x) → Undisturbed asked w₀ (o.perform w)
  /-- One more question. -/
  | ask {w : Workspace σ} {layout : σ} :
      Undisturbed asked w₀ w → asked ⟨w.board.registry, w.board.viewport⟩ w.board.layout layout →
      Undisturbed asked w₀ { w with board := { w.board with layout } }

theorem Undisturbed.reachable (h : Undisturbed asked w₀ w) : Reachable asked w₀ w := by
  induction h with
  | idle h _ => exact h
  | perform o _ hfresh _ ih => exact ih.perform o hfresh
  | ask _ hasked ih => exact ih.ask hasked

variable {settings : Settings} {store : Option Store} {palette : Palette}
variable {languages : List Code.Language} {layout : σ}

theorem Undisturbed.steady
    (h : Undisturbed asked (Workspace.start settings store palette languages layout) w) :
    w.Steady := by
  induction h with
  | idle _ hidle => exact steady_of_idle hidle
  | perform o h hfresh hspares ih =>
    exact o.steady_perform ih (sound_of_reachable h.reachable).1 hspares
  | ask h _ ih => exact ih.of_carries ⟨rfl, ih.carries.free⟩

/-- While a block is dragged and nobody removes it or gives it a parent, it is there and has
no parent.  So if the geometry does not break down, then a drop comes to an end wherever it
is, and when the drop says that the block floats, it has no parent. -/
theorem drop_of_undisturbed
    (h : Undisturbed asked (Workspace.start settings store palette languages layout) w)
    (hdrag : w.isDragging = true) :
    ∃ id, w.dragged? = some id ∧ w.board.registry.Free id ∧
      ∀ (I : Scene → σ → Prop) (pointer : Point), Geometry.Answering I →
        I ⟨w.board.registry, w.board.viewport⟩ w.board.layout →
        ∃ state w' s, endDrag pointer w = (.ok state, w') ∧ w'.drag = none ∧
          w'.lastDrag = some s ∧ s.state = state ∧ state.isTerminal = true ∧
          (state = .floating → w'.board.registry.Free id) := by
  obtain ⟨s, hs, hrun⟩ := activeDrag_of_dragging hdrag
  obtain ⟨t, id, ht, hold⟩ := h.steady hdrag
  cases hs.symm.trans ht
  refine ⟨id, dragged?_of_holding hs hold, hold.free, fun I pointer hg hI => ?_⟩
  obtain ⟨wf, -⟩ := sound_of_reachable h.reachable
  obtain ⟨state, d, hfinish, hstate, hterminal, hfloat⟩ := hold.finish hg wf hI pointer
  exact ⟨state, _, d.session, endDrag_ok hrun hfinish, rfl, rfl, hstate, hterminal, hfloat⟩

/-- A block is dragged while another one is made and attached, and is dropped at an empty
place. -/
theorem drop_of_undisturbed_alongside :
    ∃ (w w' : Workspace FixedGeometry) (s : Session),
      Undisturbed (fun _ _ _ => True) (Workspace.start {} none .standard [] {}) w ∧
      w.dragged? = some "blk-2" ∧ w.board.registry.Free "blk-2" ∧
      w.board.registry.parent? "blk-3" = some (.container "blk-1") ∧
      endDrag ⟨600.0, 500.0⟩ w = (.ok .floating, w') ∧ w'.lastDrag = some s ∧
      s.state = .floating ∧ w'.board.registry.Free "blk-2" := by
  let w₀ : Workspace FixedGeometry := Workspace.start {} none .standard [] {}
  let w₁ := (Operation.addEntry 2 .origin).perform w₀
  let w₂ := (Operation.addEntry 0 .origin).perform w₁
  let w₃ := (Operation.startDrag "blk-2" .origin).perform w₂
  let w₄ := (Operation.addEntry 0 .origin).perform w₃
  let w₅ := (Operation.attachToBody "blk-3" "blk-1").perform w₄
  have h₀ : Undisturbed (fun _ _ _ => True) w₀ w₀ := .idle .start rfl
  have h₁ : Undisturbed _ w₀ w₁ := h₀.perform _ (fun _ => by decide +kernel) fun _ _ => trivial
  have h₂ : Undisturbed _ w₀ w₂ := h₁.perform _ (fun _ => by decide +kernel) fun _ _ => trivial
  have h₃ : Undisturbed _ w₀ w₃ := h₂.perform _ nofun fun _ _ => trivial
  have h₄ : Undisturbed _ w₀ w₄ := h₃.perform _ (fun _ => by decide +kernel) fun _ _ => trivial
  have hdragged : w₄.dragged? = some "blk-2" := by decide +kernel
  have h₅ : Undisturbed _ w₀ w₅ := h₄.perform _ nofun fun x hx => by
    cases hdragged.symm.trans hx
    exact show "blk-3" ≠ "blk-2" by decide
  have hrows : (w₅.board.layout.boxes ++ w₅.board.layout.slots ++ w₅.board.layout.bodies).isEmpty =
      true := by decide +kernel
  have hworkspace : w₅.board.layout.workspace.isOk = true := by decide +kernel
  have hsound : w₅.board.layout.Sound := .of_isEmpty hrows hworkspace
  obtain ⟨id, hid, hfree, hdrop⟩ := drop_of_undisturbed h₅ (by decide +kernel)
  have hdragged : w₅.dragged? = some "blk-2" := by decide +kernel
  cases hdragged.symm.trans hid
  obtain ⟨state, w', s, hend, -, hlast, hstate, -, hfloat⟩ :=
    hdrop (fun _ g => g.Sound) ⟨600.0, 500.0⟩ FixedGeometry.answering hsound
  have hfloating : (endDrag ⟨600.0, 500.0⟩ w₅).1.toOption = some .floating := by decide +kernel
  rw [hend] at hfloating
  cases hfloating
  exact ⟨w₅, w', s, h₅, hdragged, hfree, by decide +kernel, hend, hlast, hstate, hfloat rfl⟩

/-- A block that is being dragged is attached under way, and the drop says that it floats
though it keeps its parent.  Or it is removed under way, and the drop fails with the session
still under way. -/
theorem not_free_of_reachable :
    (∃ w : Workspace FixedGeometry,
      Reachable (fun _ _ _ => True) (Workspace.start {} none .standard [] {}) w ∧
      w.board.layout.Sound ∧ w.dragged? = some "blk-2" ∧
      w.board.registry.parent? "blk-2" = some (.container "blk-1") ∧
      (endDrag ⟨600.0, 500.0⟩ w).1.toOption = some .floating ∧
      (endDrag ⟨600.0, 500.0⟩ w).2.board.registry.parent? "blk-2" = some (.container "blk-1")) ∧
    ∃ w : Workspace FixedGeometry,
      Reachable (fun _ _ _ => True) (Workspace.start {} none .standard [] {}) w ∧
      w.board.layout.Sound ∧ w.dragged? = some "blk-2" ∧
      w.board.registry.contains "blk-2" = false ∧
      (endDrag ⟨600.0, 500.0⟩ w).1.toOption = none ∧
      (endDrag ⟨600.0, 500.0⟩ w).2.lastDrag.map Session.state = some .dragging := by
  let w₀ : Workspace FixedGeometry := Workspace.start {} none .standard [] {}
  let w₁ := (Operation.addEntry 2 .origin).perform w₀
  let w₂ := (Operation.addEntry 0 .origin).perform w₁
  let w₃ := (Operation.startDrag "blk-2" .origin).perform w₂
  let wAttached := (Operation.attachToBody "blk-2" "blk-1").perform w₃
  let wRemoved := (Operation.remove "blk-2").perform w₃
  have h₀ : Reachable (fun _ _ _ => True) w₀ w₀ := .start
  have h₁ : Reachable _ w₀ w₁ := h₀.perform _ fun _ => by decide +kernel
  have h₂ : Reachable _ w₀ w₂ := h₁.perform _ fun _ => by decide +kernel
  have h₃ : Reachable _ w₀ w₃ := h₂.perform _ nofun
  have hAttached : Reachable _ w₀ wAttached := h₃.perform _ nofun
  have hRemoved : Reachable _ w₀ wRemoved := h₃.perform _ nofun
  constructor
  · refine ⟨wAttached, hAttached, .of_isEmpty (by decide +kernel) (by decide +kernel), ?_⟩
    decide +kernel
  · refine ⟨wRemoved, hRemoved, .of_isEmpty (by decide +kernel) (by decide +kernel), ?_⟩
    decide +kernel

end Workspace

end Blockwork
