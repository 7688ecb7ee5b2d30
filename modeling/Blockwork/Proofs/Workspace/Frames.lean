import Blockwork.Proofs.Workspace.Reachable

/-!
# What steps leave alone

A step keeps a view if the view shows the same behind it, whether it fails or not.  Which
view it is matters to few proofs, so they are made once for all views that do not show what
a step works on.

Composing works on the blocks, the layout and the journal of a board, and nothing else of
it.  Most operations work on the board and on the drags, and count what they hand out and
change.  Only a few touch the palette and the store, and none touches the settings and the
languages.
-/

namespace Blockwork

section

variable {S α β γ : Type} {view : S → γ} {m : ExceptT Fault (StateM S) α}

/-- A step that leaves what a view shows. -/
def Keeps (view : S → γ) (m : ExceptT Fault (StateM S) α) : Prop := ∀ s, view (m s).2 = view s

theorem Keeps.bind {f : α → ExceptT Fault (StateM S) β} (hm : Keeps view m)
    (hf : ∀ a, Keeps view (f a)) : Keeps view (m >>= f) := by
  intro s
  exact run_bind (P := fun s' => view s' = view s) (hm s) fun a s' _ h => (hf a s').trans h

/-- A step that changes nothing. -/
theorem Keeps.still (h : ∀ s, (m s).2 = s) : Keeps view m := fun s => congrArg view (h s)

end

/-! ## Composing -/

namespace Board

variable {σ α γ : Type} {view : Board σ → γ}

/-- A view that shows neither the blocks nor the layout nor the journal. -/
def Aside (view : Board σ → γ) : Prop :=
  ∀ b registry layout journal, view { b with registry, layout, journal } = view b

theorem aside_viewport : Aside (Board.viewport : Board σ → Viewport) := fun _ _ _ _ => rfl

section

variable (hview : Aside view)
include hview

theorem keeps_ask (q : Query σ α) : Keeps view (ask q) := fun b => hview b _ _ _

theorem keeps_mapBlocks (f : Registry → Registry) : Keeps view (mapBlocks f) :=
  fun b => hview b _ _ _

theorem keeps_tell (news : Query σ Unit) : Keeps view (tell news) := by
  intro b
  rw [tell_eq]
  split
  · exact keeps_ask hview news b
  · rfl

variable [Provider σ]

theorem keeps_notifyAll : ∀ ids : List BlockId, Keeps view (notifyAll ids)
  | [] => fun _ => rfl
  | _ :: ids =>
    .bind (.bind (keeps_tell hview _) fun _ => fun b => hview b _ _ _)
      fun _ => keeps_notifyAll ids

theorem keeps_notifyChain (id : BlockId) : Keeps view (notifyChain id) :=
  fun b => keeps_notifyAll hview (chain b.registry id) b

theorem keeps_worldPosition (id : BlockId) : Keeps view (worldPosition id) := by
  refine .bind (fun _ => rfl) fun c => .bind (fun _ => rfl) fun b => ?_
  split
  · exact .bind (keeps_ask hview _) fun _ => fun _ => rfl
  · exact fun _ => rfl

theorem keeps_detach (id : BlockId) : Keeps view (detach id) := by
  refine .bind (fun _ => rfl) fun c => ?_
  cases c.parent.id? with
  | none => exact fun _ => rfl
  | some p =>
    refine .bind (keeps_worldPosition hview id) fun position => ?_
    refine .bind (keeps_mapBlocks hview _) fun _ => .bind (fun _ => rfl) fun r => ?_
    cases r.contains p with
    | true => exact .bind (keeps_notifyChain hview p) fun _ => fun _ => rfl
    | false => exact fun _ => rfl

end

end Board

/-! ## Operations -/

/-- The operation may touch the palette or the store. -/
def Operation.stocks : Operation → Bool
  | importBundle _ | save | load | clear | addDraft _ | removeEntry _ | setPalette _
  | setStore _ => true
  | _ => false

namespace Workspace

variable {σ α β γ : Type} {view : Workspace σ → γ}

/-- A view that shows neither the board nor the drags nor what is counted. -/
def Aside (view : Workspace σ → γ) : Prop :=
  ∀ w board drag lastDrag issued changes,
    view { w with board, drag, lastDrag, issued, changes } = view w

theorem aside_palette : Aside (Workspace.palette : Workspace σ → Palette) := fun _ _ _ _ _ _ => rfl

theorem keeps_demandNoDrag : Keeps view (demandNoDrag (σ := σ)) := .still state_demandNoDrag

theorem keeps_demandStore : Keeps view (demandStore (σ := σ)) := by
  refine .bind (fun _ => rfl) fun w => ?_
  cases w.store <;> exact fun _ => rfl

theorem keeps_activeDrag : Keeps view (activeDrag (σ := σ)) := by
  refine .bind (fun _ => rfl) fun w => ?_
  cases w.drag with
  | none => exact fun _ => rfl
  | some s =>
    dsimp only
    split <;> exact fun _ => rfl

theorem keeps_refuseSetting (id : BlockId) (slot : Json) :
    Keeps view (refuseSetting id slot : WorkspaceM σ Unit) :=
  .bind (fun _ => rfl) fun _ => fun _ => rfl

theorem keeps_refuseInput (child parent : BlockId) (slot : Json) :
    Keeps view (refuseInput child parent slot : WorkspaceM σ Unit) :=
  .bind (fun _ => rfl) fun _ => .bind (fun _ => rfl) fun _ =>
    .bind (fun _ => rfl) fun _ => fun _ => rfl

section

variable (hview : Aside view)
include hview

/-- A step on the board. -/
theorem keeps_onBoard (m : BoardM σ α) : Keeps view (onBoard m) := fun w => hview w _ _ _ _ _

theorem keeps_changed : Keeps view (changed (σ := σ)) := fun w => hview w _ _ _ _ _

/-- A step on the board, of which the user is told. -/
theorem keeps_board_changed (m : BoardM σ α) :
    Keeps view (do let _ ← onBoard m; changed : WorkspaceM σ Unit) :=
  .bind (keeps_onBoard hview m) fun _ => keeps_changed hview

theorem keeps_create (d : Definition) (position : Point) :
    Keeps view (create d position none : WorkspaceM σ BlockId) := by
  refine .bind (fun _ => rfl) fun r => .bind (fun _ => rfl) fun b => ?_
  refine .bind (fun _ => rfl) fun w => ?_
  refine .bind (fun w => hview w _ _ _ _ _) fun _ => ?_
  exact .bind (keeps_onBoard hview _) fun _ => fun _ => rfl

theorem keeps_add (d : Definition) (position : Point) :
    Keeps view (add d position : WorkspaceM σ BlockId) :=
  .bind (keeps_create hview d position) fun _ => .bind (keeps_changed hview) fun _ => fun _ => rfl

theorem keeps_setInput (id : BlockId) (name : String) (v : Json) :
    Keeps view (setInput id name v : WorkspaceM σ Unit) := by
  refine .bind (keeps_onBoard hview _) fun b => ?_
  cases (b.slot? name).isNone with
  | true => exact fun _ => rfl
  | false => exact .bind (fun _ => rfl) fun _ => keeps_board_changed hview _

variable [Provider σ]

theorem keeps_startDrag (id : BlockId) (pointer : Point) :
    Keeps view (startDrag id pointer : WorkspaceM σ Session) :=
  .bind keeps_demandNoDrag fun _ => .bind (fun w => hview w _ _ _ _ _) fun _ =>
    .bind (fun _ => rfl) fun _ => .bind (fun w => hview w _ _ _ _ _) fun _ => fun _ => rfl

theorem keeps_startPaletteDrag (index : Int) (pointer : Point) :
    Keeps view (startPaletteDrag index pointer : WorkspaceM σ BlockId) :=
  .bind keeps_demandNoDrag fun _ => .bind (.bind (fun _ => rfl) fun _ => fun _ => rfl) fun d =>
    .bind (keeps_onBoard hview _) fun position => .bind (keeps_create hview d position) fun id =>
      .bind (keeps_startDrag hview id pointer) fun _ => fun _ => rfl

/-- A step of the session that is under way. -/
theorem keeps_moveDrag (pointer : Point) : Keeps view (moveDrag pointer : WorkspaceM σ Unit) :=
  .bind keeps_activeDrag fun _ => .bind (fun w => hview w _ _ _ _ _) fun _ =>
    .bind (fun w => hview w _ _ _ _ _) fun _ => fun _ => rfl

theorem keeps_endDrag (pointer : Point) : Keeps view (endDrag pointer : WorkspaceM σ DragState) :=
  .bind keeps_activeDrag fun _ => .bind (fun w => hview w _ _ _ _ _) fun _ =>
    .bind (fun w => hview w _ _ _ _ _) fun _ => .bind (fun _ => rfl) fun _ =>
      .bind (keeps_changed hview) fun _ => fun _ => rfl

/-- An operation that touches neither the palette nor the store leaves every such view. -/
theorem view_perform (o : Operation) (h : o.stocks = false) (w : Workspace σ) :
    view (o.perform w) = view w := by
  cases o with
  | add d position => exact keeps_add hview d position w
  | addEntry index position =>
    refine Keeps.bind ?_ (fun d => keeps_add hview d position) w
    exact .bind (fun _ => rfl) fun _ => fun _ => rfl
  | remove id =>
    exact (keeps_onBoard hview _).bind (fun _ => (keeps_changed hview).bind fun _ _ => rfl) w
  | setInput id slot value =>
    cases slot with
    | str name => exact keeps_setInput hview id name value w
    | _ => exact keeps_refuseSetting id _ w
  | attachToBody child container => exact keeps_board_changed hview _ w
  | attachToInput child parent slot =>
    cases slot with
    | str name => exact keeps_board_changed hview _ w
    | _ => exact keeps_refuseInput child parent _ w
  | move child parent slot =>
    cases slot with
    | null => exact keeps_board_changed hview _ w
    | str name => exact keeps_board_changed hview _ w
    | _ => exact keeps_refuseInput child parent _ w
  | detach id =>
    refine (keeps_onBoard hview _).bind (fun detached => ?_) w
    cases detached with
    | false => exact fun _ => rfl
    | true => exact (keeps_changed hview).bind fun _ _ => rfl
  | releaseInputs id =>
    refine (keeps_onBoard hview _).bind (fun released => ?_) w
    cases released with
    | nil => exact fun _ => rfl
    | cons _ _ => exact (keeps_changed hview).bind fun _ _ => rfl
  | startDrag id pointer => exact keeps_startDrag hview id pointer w
  | startPaletteDrag index pointer => exact keeps_startPaletteDrag hview index pointer w
  | moveDrag pointer => exact keeps_moveDrag hview pointer w
  | endDrag pointer => exact keeps_endDrag hview pointer w
  | setViewport viewport => exact hview w _ _ _ _ _
  | importBundle _ | save | load | clear | addDraft _ | removeEntry _ | setPalette _
  | setStore _ => cases h

end

end Workspace

end Blockwork
