import Blockwork.Geometry.Fixed
import Blockwork.Proofs.Registry.Validation
import Blockwork.Proofs.Workspace.BoardChanges

/-!
# What users can reach

A user works on a workspace by operations, in any order and with any arguments.
Some succeed and some fail, and what a failed one did before it failed stays done.
Between operations the layout may be asked something, which changes its state.

Whatever the user does, the blocks of the workspace are well formed, provided that
no id is handed out that is in use, and that the provider takes it when it is told that
a block is gone.  A removal drops block after block and tells the provider of each, so
one that fails there leaves a live block with children that are dropped.
-/

namespace Blockwork

variable {σ : Type}

/-! ## Operations -/

/-- What a user can do to a workspace. -/
inductive Operation
  | add (d : Definition) (position : Point)
  | addEntry (index : Int) (position : Point)
  /-- Remove a block with everything below it. -/
  | remove (id : BlockId)
  /-- Set the literal text of an input. -/
  | setInput (id : BlockId) (slot value : Json)
  | attachToBody (child container : BlockId)
  | attachToInput (child parent : BlockId) (slot : Json)
  /-- Give a block another parent, in the body when no input is named. -/
  | move (child parent : BlockId) (slot : Json)
  /-- Bring a block to the top level. -/
  | detach (id : BlockId)
  /-- Bring the blocks of all inputs of a block to the top level. -/
  | releaseInputs (id : BlockId)
  | startDrag (id : BlockId) (pointer : Point)
  | startPaletteDrag (index : Int) (pointer : Point)
  | moveDrag (pointer : Point)
  | endDrag (pointer : Point)
  | importBundle (payload : Json)
  | save
  | load
  | clear
  | addDraft (d : Palette.Draft)
  | removeEntry (index : Int)
  | setPalette (palette : Palette)
  | setViewport (viewport : Viewport)
  /-- Put another store in place, or the store has come to hold something else. -/
  | setStore (store : Option Store)

namespace Operation

/-- Whether an operation hands out an id. -/
def creates : Operation → Bool
  | add .. | addEntry .. | startPaletteDrag .. => true
  | _ => false

variable [Provider σ]

/-- The workspace after an operation, whether it fails or not. -/
def perform (o : Operation) (w : Workspace σ) : Workspace σ :=
  match o with
  | add d position => (Workspace.add d position w).2
  | addEntry index position => (Workspace.addEntry index position w).2
  | remove id => (Workspace.remove id w).2
  | setInput id (.str name) value => (Workspace.setInput id name value w).2
  | setInput id slot _ => (Workspace.refuseSetting id slot w).2
  | attachToBody child container => (Workspace.attachToBody child container w).2
  | attachToInput child parent (.str name) => (Workspace.attachToInput child parent name w).2
  | attachToInput child parent slot => (Workspace.refuseInput child parent slot w).2
  | move child parent .null => (Workspace.move child parent none w).2
  | move child parent (.str name) => (Workspace.move child parent (some name) w).2
  | move child parent slot => (Workspace.refuseInput child parent slot w).2
  | detach id => (Workspace.detach id w).2
  | releaseInputs id => (Workspace.releaseInputs id w).2
  | startDrag id pointer => (Workspace.startDrag id pointer w).2
  | startPaletteDrag index pointer => (Workspace.startPaletteDrag index pointer w).2
  | moveDrag pointer => (Workspace.moveDrag pointer w).2
  | endDrag pointer => (Workspace.endDrag pointer w).2
  | importBundle payload => (Workspace.importBundle payload w).2
  | save => (Workspace.save w).2
  | load => (Workspace.load w).2
  | clear => (Workspace.clear w).2
  | addDraft d => (Workspace.addDraft d w).2
  | removeEntry index => (Workspace.removeEntry index w).2
  | setPalette palette => { w with palette }
  | setViewport viewport => { w with board := { w.board with viewport } }
  | setStore store => { w with store }

/-- An operation changes the board step by step, if the id that it hands out is not
in use. -/
theorem changes_perform (o : Operation) (w : Workspace σ) (h : o.creates = true → w.Fresh) :
    Board.Changes w.board (o.perform w).board := by
  cases o with
  | add d position => exact Workspace.evolves_add d position w (h rfl)
  | addEntry index position => exact Workspace.evolves_addEntry index position w (h rfl)
  | remove id => exact Workspace.evolves_remove id w
  | setInput id slot value =>
    cases slot with
    | str name => exact Workspace.evolves_setInput id name value w
    | _ => exact Workspace.evolves_refuseSetting id _ w
  | attachToBody child container => exact Workspace.evolves_attachToBody child container w
  | attachToInput child parent slot =>
    cases slot with
    | str name => exact Workspace.evolves_attachToInput child parent name w
    | _ => exact Workspace.evolves_refuseInput child parent _ w
  | move child parent slot =>
    cases slot with
    | null => exact Workspace.evolves_move child parent none w
    | str name => exact Workspace.evolves_move child parent (some name) w
    | _ => exact Workspace.evolves_refuseInput child parent _ w
  | detach id => exact Workspace.evolves_detach id w
  | releaseInputs id => exact Workspace.evolves_releaseInputs id w
  | startDrag id pointer => exact Workspace.evolves_startDrag id pointer w
  | startPaletteDrag index pointer =>
    exact Workspace.evolves_startPaletteDrag index pointer w (h rfl)
  | moveDrag pointer => exact Workspace.evolves_moveDrag pointer w
  | endDrag pointer => exact Workspace.evolves_endDrag pointer w
  | importBundle payload => exact Workspace.evolves_importBundle payload w
  | save => exact Workspace.evolves_save w
  | load => exact Workspace.evolves_load w
  | clear => exact Workspace.evolves_clear w
  | addDraft d => exact Workspace.evolves_addDraft d w
  | removeEntry index => exact Workspace.evolves_removeEntry index w
  | setPalette palette => exact .refl
  | setViewport viewport => exact .single (.shown viewport)
  | setStore store => exact .refl

end Operation

/-! ## Reachable workspaces -/

namespace Workspace

variable [Provider σ]

/-- What a user can come to from a workspace.  The relation says what asking the
layout between operations may do to its state. -/
inductive Reachable (asked : Scene → σ → σ → Prop) (w₀ : Workspace σ) : Workspace σ → Prop
  /-- The workspace itself. -/
  | start : Reachable asked w₀ w₀
  /-- One more operation.  An id that is handed out is not in use. -/
  | perform {w : Workspace σ} (o : Operation) :
      Reachable asked w₀ w → (o.creates = true → w.Fresh) → Reachable asked w₀ (o.perform w)
  /-- One more question. -/
  | ask {w : Workspace σ} {layout : σ} :
      Reachable asked w₀ w → asked ⟨w.board.registry, w.board.viewport⟩ w.board.layout layout →
      Reachable asked w₀ { w with board := { w.board with layout } }

variable {asked : Scene → σ → σ → Prop} {w₀ w : Workspace σ}

/-- What holds of the board at first, and is kept by changes and by questions, holds
of every board that can be reached. -/
theorem Reachable.invariant {P : Board σ → Prop} (h : Reachable asked w₀ w) (h₀ : P w₀.board)
    (hchange : ∀ {b b' : Board σ}, P b → b.Change b' → P b')
    (hask : ∀ {b : Board σ} {layout : σ}, P b → asked ⟨b.registry, b.viewport⟩ b.layout layout →
      P { b with layout }) :
    P w.board := by
  induction h with
  | start => exact h₀
  | perform o _ hfresh ih => exact (o.changes_perform _ hfresh).invariant ih hchange
  | ask _ hasked ih => exact hask ih hasked

/-- Whatever a user does, the blocks are well formed and those with a body have names for
their body placeholders. -/
theorem sound_of_reachable [Provider.Forgets σ] {settings : Settings} {store : Option Store}
    {palette : Palette}
    {languages : List Code.Language} {layout : σ}
    (h : Reachable asked (start settings store palette languages layout) w) :
    w.board.registry.WellFormed ∧ w.board.registry.BodiesNamed :=
  h.invariant (P := fun b => b.registry.WellFormed ∧ b.registry.BodiesNamed)
    ⟨Registry.loose_empty.wellFormed, Registry.bodiesNamed_empty⟩
    (fun hb hc => ⟨hc.wellFormed hb.1, hc.bodiesNamed hb.2⟩) fun hb _ => hb

/-- Whatever a user does, every nested block and every block over an input refers
back to its place, every block with a parent is held there, none is held twice, none
is above itself, and blocks are where their kinds allow it.  Validation finds
nothing.  The provider may fail to answer and fail to take notices, but not when it is
told that a block is gone. -/
theorem wellFormed_of_reachable [Provider.Forgets σ] {settings : Settings} {store : Option Store}
    {palette : Palette}
    {languages : List Code.Language} {layout : σ}
    (h : Reachable asked (start settings store palette languages layout) w) :
    w.board.registry.WellFormed ∧ (w.board.registry.edges.map Registry.Edge.child).Nodup ∧
      w.board.registry.validate = [] := by
  have wf : w.board.registry.WellFormed :=
    h.invariant (P := fun b => b.registry.WellFormed) Registry.loose_empty.wellFormed
      (fun wf hc => hc.wellFormed wf) fun wf _ => wf
  exact ⟨wf, wf.heldOnce, wf.validate_eq_nil⟩

/-- What a provider can be told. -/
inductive News
  | childrenChanged
  | forget
  | reset
deriving DecidableEq

/-- A provider that has every block in one place, and fails whenever it is told one kind of
news. -/
structure DeafLayout (unheard : News) where

namespace DeafLayout

variable {unheard : News}

/-- Take some news, or fail. -/
def take (news : News) : Query (DeafLayout unheard) Unit :=
  .ofBreakdown (if news = unheard then .error .wrongType else .ok ())

instance : Provider (DeafLayout unheard) where
  boundingBox _ := return ⟨0.0, 0.0, 0.0, 0.0⟩
  screenPoint p := return p
  workspacePoint p := return p
  slotRect _ _ := return none
  bodyRect _ := return none
  workspaceRect := return ⟨0.0, 0.0, 0.0, 0.0⟩
  deletionRect := return none
  childrenChanged _ := take .childrenChanged
  forget _ := take .forget
  reset := take .reset

instance : Provider.Forgets (DeafLayout .childrenChanged) := ⟨fun _ _ _ => rfl⟩

end DeafLayout

/-- A container with a command in it and a value over its input.  The provider takes no
notice, so both times attaching failed, but the edge had been made. -/
theorem wellFormed_of_reachable_unheard :
    ∃ w : Workspace (DeafLayout .childrenChanged),
      Reachable (fun _ _ _ => True) (start {} none .standard [] {}) w ∧
      w.board.journal = [] ∧
      w.board.registry.parent? "blk-2" = some (.container "blk-1") ∧
      w.board.registry.parent? "blk-3" = some (.input "blk-1" "times") ∧
      w.board.registry.WellFormed ∧ (w.board.registry.edges.map Registry.Edge.child).Nodup ∧
      w.board.registry.validate = [] := by
  let w₀ : Workspace (DeafLayout .childrenChanged) := start {} none .standard [] {}
  have h₀ : Reachable (fun _ _ _ => True) w₀ w₀ := .start
  have h₁ := h₀.perform (.addEntry 2 .origin) fun _ => by decide +kernel
  have h₂ := h₁.perform (.addEntry 0 .origin) fun _ => by decide +kernel
  have h₃ := h₂.perform (.addEntry 7 .origin) fun _ => by decide +kernel
  have h₄ := h₃.perform (.attachToBody "blk-2" "blk-1") nofun
  have h₅ := h₄.perform (.attachToInput "blk-3" "blk-1" (.str "times")) nofun
  exact ⟨_, h₅, by decide +kernel, by decide +kernel, by decide +kernel,
    wellFormed_of_reachable h₅⟩

/-- A container that is left with a dropped block in its body.  The two were being removed,
and the provider failed when it was told that the first was gone. -/
theorem not_wellFormed_of_unforgotten :
    ∃ w : Workspace (DeafLayout .forget),
      Reachable (fun _ _ _ => True) (start {} none .standard [] {}) w ∧
      w.board.registry.ids = ["blk-1"] ∧
      w.board.registry.edges = [⟨.container "blk-1", "blk-2"⟩] ∧
      w.board.registry.validate = [.nestsMissing "blk-1" "blk-2"] ∧
      ¬ w.board.registry.WellFormed := by
  let w₀ : Workspace (DeafLayout .forget) := start {} none .standard [] {}
  have h₀ : Reachable (fun _ _ _ => True) w₀ w₀ := .start
  have h₁ := h₀.perform (.addEntry 2 .origin) fun _ => by decide +kernel
  have h₂ := h₁.perform (.addEntry 0 .origin) fun _ => by decide +kernel
  have h₃ := h₂.perform (.attachToBody "blk-2" "blk-1") nofun
  have h₄ := h₃.perform (.remove "blk-1") nofun
  refine ⟨_, h₄, by decide +kernel, by decide +kernel, by decide +kernel, fun wf => ?_⟩
  exact absurd wf.validate_eq_nil (by decide +kernel)

/-! ### A workspace with blocks -/

/-- A workspace with an empty store, and a container with a command in its body and a value
over its input. -/
def builtWorkspace : Workspace FixedGeometry :=
  let operations : List Operation := [.addEntry 2 .origin, .addEntry 0 .origin,
    .addEntry 7 .origin, .attachToBody "blk-2" "blk-1",
    .attachToInput "blk-3" "blk-1" (.str "times")]
  operations.foldl (fun w o => o.perform w) (start {} (some .empty) .standard [] {})

theorem reachable_builtWorkspace :
    Reachable (fun _ _ _ => True) (start {} (some .empty) .standard [] {}) builtWorkspace := by
  let w₀ : Workspace FixedGeometry := start {} (some .empty) .standard [] {}
  have h₀ : Reachable (fun _ _ _ => True) w₀ w₀ := .start
  have h₁ := h₀.perform (.addEntry 2 .origin) fun _ => by decide +kernel
  have h₂ := h₁.perform (.addEntry 0 .origin) fun _ => by decide +kernel
  have h₃ := h₂.perform (.addEntry 7 .origin) fun _ => by decide +kernel
  have h₄ := h₃.perform (.attachToBody "blk-2" "blk-1") nofun
  exact h₄.perform (.attachToInput "blk-3" "blk-1" (.str "times")) nofun

end Workspace

end Blockwork
