import Blockwork.Workspace.Share
import Blockwork.Proofs.Board.Changes
import Blockwork.Proofs.Bundle.Recovered

/-!
# Sessions and workspaces change their board

A step of a session, or of a workspace, touches its board by steps on the board
only.  So it is a sequence of changes of the board as well, whether it fails or not.
-/

namespace Blockwork

variable {σ α : Type}

/-! ## Sessions -/

namespace Session

variable [Provider σ]

/-- All that a step of a session does to the board is a sequence of changes. -/
abbrev Evolves (m : SessionM σ α) (d : Dragging σ) : Prop := Blockwork.Evolves Dragging.board m d

open Blockwork.Evolves (still)

theorem evolves_onBoard {m : BoardM σ α} {d : Dragging σ} (h : Board.Evolves m d.board) :
    Evolves (onBoard m) d := h

/-- Attaching that is allowed to be refused does to the board what attaching does. -/
theorem evolves_allowed {m : BoardM σ Unit} {b : Board σ} (h : Board.Evolves m b) :
    Board.Evolves (allowed m) b := by
  have hs : (allowed m b).2 = (m b).2 := by
    rw [allowed]
    split <;> rename_i hm <;> rw [hm]
  change Board.Changes b (allowed m b).2
  rw [hs]
  exact h

theorem evolves_place (id : BlockId) (position : Point) (b : Board σ) :
    Board.Evolves (place id position) b :=
  .single (Board.change_edit (.adjust id (Registry.alike_place position)))

theorem evolves_releasePosition (pointer : Point) (d : Dragging σ) :
    Evolves (releasePosition pointer) d :=
  .bind (evolves_onBoard (Board.evolves_ask (.workspacePoint pointer) _)) fun _ _ _ => still rfl

theorem evolves_demandActive (d : Dragging σ) : Evolves demandActive d := by
  refine .bind (still rfl) fun d' d₁ _ => ?_
  dsimp only
  split <;> exact still rfl

theorem evolves_start (id : BlockId) (pointer : Point) (d : Dragging σ) :
    Evolves (start id pointer) d := by
  have hrest (d : Dragging σ) : Evolves (do
      let p ← onBoard (Board.ask (Survey.workspacePoint pointer))
      let b ← onBoard (Board.require id)
      update fun s => { s with
        offset := p.sub b.position
        block := some id
        pointer := some pointer
        state := .dragging }) d := by
    refine .bind (evolves_onBoard (Board.evolves_ask (.workspacePoint pointer) _)) fun _ _ _ => ?_
    exact .bind (still rfl) fun _ _ _ => still rfl
  refine .bind (still rfl) fun d' d₁ _ => ?_
  dsimp only
  split
  · refine .bind (still rfl) fun b d₂ _ => ?_
    split
    · exact hrest d₂
    · exact .bind (evolves_onBoard (Board.evolves_detach id _)) fun _ _ _ => hrest _
  · exact still rfl

theorem evolves_move (pointer : Point) (d : Dragging σ) : Evolves (move pointer) d := by
  refine .bind (evolves_demandActive d) fun id d₁ _ => .bind (still rfl) fun _ d₂ _ => ?_
  refine .bind (still rfl) fun _ d₃ _ => .bind (evolves_releasePosition pointer d₃) fun p d₄ _ => ?_
  exact evolves_onBoard (evolves_place id p d₄.board)

theorem evolves_land (id : BlockId) (target : Target) (b : Board σ) :
    Board.Evolves (land id target) b := by
  cases target with
  | nowhere => exact still rfl
  | input parent slot =>
    exact .bind (evolves_allowed (Board.evolves_attachToInput id parent slot b))
      fun _ _ _ => still rfl
  | body container =>
    exact .bind (evolves_allowed (Board.evolves_attachToBody id container b)) fun _ _ _ => still rfl
  | below upper position => exact .bind (evolves_place id position b) fun _ _ _ => still rfl

theorem evolves_finish (pointer : Point) (d : Dragging σ) : Evolves (finish pointer) d := by
  refine .bind (evolves_demandActive d) fun id d₁ _ => .bind (still rfl) fun _ d₂ _ => ?_
  refine .bind (still rfl) fun _ d₃ _ => ?_
  refine .bind (evolves_onBoard (Board.evolves_ask (Target.consults_deletes pointer) _))
    fun deletes d₄ _ => ?_
  have hrefresh (d : Dragging σ) : Evolves (onBoard Board.refresh) d :=
    evolves_onBoard (Board.evolves_refresh d.board)
  have hend (refused : Bool) (d : Dragging σ) : Evolves (do
      if refused then update fun s => { s with target := some .nowhere }
      onBoard Board.refresh
      return (← get).session.state) d := by
    have hlast (d : Dragging σ) : Evolves (do
        onBoard Board.refresh
        return (← get).session.state) d :=
      .bind (hrefresh d) fun _ _ _ => still rfl
    cases refused with
    | true => exact .bind (still rfl) fun _ d' _ => hlast d'
    | false => exact hlast d
  cases deletes with
  | true =>
    refine .bind (evolves_onBoard (Board.evolves_remove id _)) fun _ d₅ _ => ?_
    exact .bind (still rfl) fun _ d₆ _ => .bind (hrefresh d₆) fun _ _ _ => still rfl
  | false =>
    refine .bind (evolves_releasePosition pointer d₄) fun p d₅ _ => ?_
    refine .bind (evolves_onBoard (evolves_place id p _)) fun _ d₆ _ => ?_
    refine .bind (evolves_onBoard (Board.evolves_ask (.workspacePoint pointer) _)) fun q d₇ _ => ?_
    have hresolve := Target.consults_resolve (σ := σ) id pointer (some q)
    refine .bind (evolves_onBoard (Board.evolves_ask hresolve _))
      fun target d₈ _ => .bind (still rfl) fun _ d₉ _ => ?_
    refine .bind (evolves_onBoard (evolves_land id target _)) fun landed d _ => ?_
    obtain ⟨attached, refused⟩ := landed
    cases attached with
    | true => exact .bind (still rfl) fun _ d' _ => hend refused d'
    | false => exact hend refused d

end Session

/-! ## Workspaces -/

namespace Workspace

/-- The id that is handed out next is not in use. -/
def Fresh (w : Workspace σ) : Prop := w.board.registry.contains (nthId (w.issued + 1)) = false

instance (w : Workspace σ) : Decidable w.Fresh :=
  inferInstanceAs (Decidable (w.board.registry.contains (nthId (w.issued + 1)) = false))

theorem nthId_ne_empty (n : Nat) : nthId n ≠ "" := by simp [nthId]

/-- Whether a block is being dragged is asked without changing anything. -/
theorem state_demandNoDrag (w : Workspace σ) : (demandNoDrag w).2 = w := by
  refine run_bind (P := fun w' => w' = w) rfl fun w₁ w₂ _ h₂ => ?_
  cases w₁.drag with
  | none => exact h₂
  | some s =>
    dsimp only
    split <;> exact h₂

variable [Provider σ]

/-- All that a step of a workspace does to the board is a sequence of changes. -/
abbrev Evolves (m : WorkspaceM σ α) (w : Workspace σ) : Prop :=
  Blockwork.Evolves Workspace.board m w

open Blockwork.Evolves (still)

theorem evolves_onBoard {m : BoardM σ α} {w : Workspace σ} (h : Board.Evolves m w.board) :
    Evolves (onBoard m) w := h

theorem evolves_ask {q : Query σ α} (h : q.Consults) (w : Workspace σ) : Evolves (ask q) w :=
  evolves_onBoard (Board.evolves_ask h w.board)

theorem evolves_demandNoDrag (w : Workspace σ) : Evolves demandNoDrag w :=
  still (congrArg Workspace.board (state_demandNoDrag w))

/-! ### Making blocks -/

theorem evolves_create (d : Definition) (position : Point) (w : Workspace σ) (h : w.Fresh) :
    Evolves (create d position none) w := by
  refine .bind (still rfl) fun r w₁ h₁ => ?_
  obtain rfl : w = w₁ := congrArg Prod.snd h₁
  obtain rfl : w.board.registry = r := Except.ok.inj (congrArg Prod.fst h₁)
  refine .bind (still rfl) fun b w₂ h₂ => ?_
  obtain rfl : w = w₂ := congrArg Prod.snd h₂
  have hb : Definition.lift (Block.ofDefinition d position) = .ok b := congrArg Prod.fst h₂
  have hedit : w.board.registry.Edit (w.board.registry.insert (nthId (w.issued + 1)) b) [] [] :=
    .insert (nthId_ne_empty _) h (Block.loose_ofDefinition (Bundle.lift_ok_iff.1 hb))
      (Block.bodyNamed_ofDefinition (Bundle.lift_ok_iff.1 hb))
  exact .single (Board.change_edit hedit)

theorem evolves_add (d : Definition) (position : Point) (w : Workspace σ) (h : w.Fresh) :
    Evolves (add d position) w :=
  .bind (evolves_create d position w h) fun _ _ _ => still rfl

theorem evolves_addEntry (index : Int) (position : Point) (w : Workspace σ) (h : w.Fresh) :
    Evolves (addEntry index position) w := by
  refine .bind (still rfl) fun d w₁ h₁ => ?_
  obtain rfl : w = w₁ := congrArg Prod.snd h₁
  exact evolves_add d position w h

/-! ### Editing -/

theorem evolves_setInput (id : BlockId) (name : String) (v : Json) (w : Workspace σ) :
    Evolves (setInput id name v) w := by
  refine .bind (still rfl) fun b w₁ _ => ?_
  have hset (literal : String) (w : Workspace σ) : Evolves (do
      onBoard (Board.mapBlocks fun r =>
        r.modify id fun b => b.modifySlot name fun s => { s with literal })
      changed) w :=
    .bind (.single (Board.change_edit (.adjust id (Registry.alike_setLiteral name literal))))
      fun _ _ _ => still rfl
  cases (b.slot? name).isNone with
  | true => exact still rfl
  | false => exact .bind (still rfl) fun _ w₂ _ => hset _ w₂

theorem evolves_refuseSlot (slot : Json) (fault : Fault) (w : Workspace σ) :
    Evolves (refuseSlot slot fault : WorkspaceM σ α) w := still rfl

theorem evolves_refuseSetting (id : BlockId) (slot : Json) (w : Workspace σ) :
    Evolves (refuseSetting id slot) w :=
  .bind (still rfl) fun _ w₁ _ => evolves_refuseSlot _ _ w₁

theorem evolves_refuseInput (child parent : BlockId) (slot : Json) (w : Workspace σ) :
    Evolves (refuseInput child parent slot) w := by
  refine .bind (still rfl) fun _ w₁ _ => .bind (still rfl) fun _ w₂ _ => ?_
  exact .bind (still rfl) fun _ w₃ _ => evolves_refuseSlot _ _ w₃

theorem evolves_remove (id : BlockId) (w : Workspace σ) : Evolves (remove id) w :=
  .bind (evolves_onBoard (Board.evolves_remove id w.board)) fun _ _ _ =>
    .bind (still rfl) fun _ _ _ => still rfl

theorem evolves_attachToBody (child container : BlockId) (w : Workspace σ) :
    Evolves (attachToBody child container) w :=
  .bind (evolves_onBoard (Board.evolves_attachToBody child container w.board))
    fun _ _ _ => still rfl

theorem evolves_attachToInput (child parent : BlockId) (slot : String) (w : Workspace σ) :
    Evolves (attachToInput child parent slot) w :=
  .bind (evolves_onBoard (Board.evolves_attachToInput child parent slot w.board))
    fun _ _ _ => still rfl

theorem evolves_move (child parent : BlockId) (slot : Option String) (w : Workspace σ) :
    Evolves (move child parent slot) w :=
  .bind (evolves_onBoard (Board.evolves_move child parent slot w.board)) fun _ _ _ => still rfl

theorem evolves_detach (id : BlockId) (w : Workspace σ) : Evolves (detach id) w :=
  .bind (evolves_onBoard (Board.evolves_detach id w.board)) fun detached _ _ => by
    cases detached <;> exact still rfl

theorem evolves_releaseInputs (id : BlockId) (w : Workspace σ) : Evolves (releaseInputs id) w :=
  .bind (evolves_onBoard (Board.evolves_releaseInputs id w.board)) fun released _ _ => by
    cases released <;> exact still rfl

/-! ### Dragging -/

theorem evolves_runSession {s : Session} {m : SessionM σ α} {w : Workspace σ}
    (h : Session.Evolves m ⟨w.board, s⟩) : Evolves (runSession s m) w := h

theorem evolves_startDrag (id : BlockId) (pointer : Point) (w : Workspace σ) :
    Evolves (startDrag id pointer) w := by
  refine .bind (evolves_demandNoDrag w) fun _ w₁ _ => ?_
  refine .bind (evolves_runSession (Session.evolves_start id pointer _)) fun _ w₂ _ => ?_
  exact .bind (still rfl) fun _ w₃ _ => .bind (still rfl) fun _ _ _ => still rfl

theorem evolves_startPaletteDrag (index : Int) (pointer : Point) (w : Workspace σ) (h : w.Fresh) :
    Evolves (startPaletteDrag index pointer) w := by
  refine .bind (evolves_demandNoDrag w) fun _ w₁ h₁ => ?_
  obtain rfl : w = w₁ := (state_demandNoDrag w).symm.trans (congrArg Prod.snd h₁)
  refine .bind (still rfl) fun d w₁ h₁ => ?_
  obtain rfl : w = w₁ := congrArg Prod.snd h₁
  refine .bind (evolves_ask (.workspacePoint pointer) w) fun position w₂ h₂ => ?_
  have hfresh : (ask (Survey.workspacePoint pointer) w).2.Fresh := h
  rw [h₂] at hfresh
  refine .bind (evolves_create d position w₂ hfresh) fun id w₃ _ => ?_
  exact .bind (evolves_startDrag id pointer w₃) fun _ _ _ => still rfl

theorem evolves_activeDrag (w : Workspace σ) : Evolves activeDrag w := by
  refine .bind (still rfl) fun w₁ w₂ _ => ?_
  cases w₁.drag with
  | none => exact still rfl
  | some s =>
    dsimp only
    split <;> exact still rfl

theorem evolves_moveDrag (pointer : Point) (w : Workspace σ) : Evolves (moveDrag pointer) w := by
  refine .bind (evolves_activeDrag w) fun s w₁ _ => ?_
  refine .bind (evolves_runSession (Session.evolves_move pointer _)) fun _ w₂ _ => ?_
  exact .bind (still rfl) fun _ _ _ => still rfl

theorem evolves_endDrag (pointer : Point) (w : Workspace σ) : Evolves (endDrag pointer) w := by
  refine .bind (evolves_activeDrag w) fun s w₁ _ => ?_
  refine .bind (evolves_runSession (Session.evolves_finish pointer _)) fun _ w₂ _ => ?_
  refine .bind (still rfl) fun _ w₃ _ => .bind (still rfl) fun _ w₄ _ => ?_
  exact .bind (still rfl) fun _ _ _ => still rfl

/-! ### The palette and the store -/

theorem evolves_addDraft (d : Palette.Draft) (w : Workspace σ) : Evolves (addDraft d) w :=
  .bind (still rfl) fun _ _ _ => .bind (still rfl) fun _ _ _ => still rfl

theorem evolves_removeEntry (index : Int) (w : Workspace σ) : Evolves (removeEntry index) w :=
  .bind (still rfl) fun _ _ _ => .bind (still rfl) fun _ _ _ => still rfl

theorem evolves_demandStore (w : Workspace σ) : Evolves demandStore w := by
  refine .bind (still rfl) fun w₁ w₂ _ => ?_
  cases w₁.store <;> exact still rfl

theorem evolves_save (w : Workspace σ) : Evolves save w := by
  refine .bind (evolves_demandStore w) fun store w₁ _ => ?_
  refine .bind (evolves_demandNoDrag w₁) fun _ w₂ _ => .bind (still rfl) fun _ w₃ _ => ?_
  refine .bind (still rfl) fun _ w₄ _ => .bind (still rfl) fun _ w₅ _ => ?_
  exact .bind (still rfl) fun _ _ _ => still rfl

/-! ### Importing and clearing -/

theorem evolves_replaceBlocks {r : Registry} (h : r.WellFormed) (hn : r.BodiesNamed)
    (b : Board σ) : Board.Evolves (replaceBlocks r) b :=
  .bind (m := Board.setBlocks r >>= fun _ => Board.ask Provider.reset) (.single (.replaced h hn))
    fun _ b₁ _ => Board.evolves_refresh b₁

/-- An import replaces the blocks by what was read, and that is well formed. -/
theorem evolves_importBundle (payload : Json) (w : Workspace σ) :
    Evolves (importBundle payload) w := by
  refine .bind (evolves_demandNoDrag w) fun _ w₁ _ => .bind (still rfl) fun contents w₂ h₂ => ?_
  have hread : Bundle.read payload = .ok contents := congrArg Prod.fst h₂
  have hend (w : Workspace σ) : Evolves (do
      changed
      let w ← get
      return (⟨contents.parts, w.palette.length, w.board.registry.size, contents.code⟩ :
        Imported)) w :=
    .bind (still rfl) fun _ _ _ => .bind (still rfl) fun _ _ _ => still rfl
  have hblocks {r : Registry} {next : Unit → WorkspaceM σ Imported}
      (hr : contents.registry = some r) (hnext : ∀ w, Evolves (next ()) w) (w : Workspace σ) :
      Evolves (onBoard (replaceBlocks r) >>= next) w := by
    have hwf : r.WellFormed := Bundle.wellFormed_of_read hread hr
    have hnamed : r.BodiesNamed := Bundle.bodiesNamed_of_read hread hr
    exact .bind (evolves_onBoard (evolves_replaceBlocks hwf hnamed w.board))
      fun _ w' _ => hnext w'
  cases contents.definitions with
  | none =>
    cases hr : contents.registry with
    | none => exact hend w₂
    | some r => exact hblocks hr hend w₂
  | some p =>
    refine .bind (still rfl) fun _ w₃ _ => ?_
    cases hr : contents.registry with
    | none => exact hend w₃
    | some r => exact hblocks hr hend w₃

theorem evolves_load (w : Workspace σ) : Evolves load w := by
  refine .bind (evolves_demandStore w) fun store w₁ _ => .bind (still rfl) fun _ w₂ _ => ?_
  refine .bind (still rfl) fun text w₃ _ => ?_
  cases text with
  | none => exact still rfl
  | some text => exact .bind (evolves_importBundle (.str text) w₃) fun _ _ _ => still rfl

theorem evolves_clear (w : Workspace σ) : Evolves clear w := by
  refine .bind (evolves_demandNoDrag w) fun _ w₁ _ => ?_
  refine .bind (m := onBoard (Board.setBlocks .empty) >>= fun _ => ask Provider.reset)
    (.single (.replaced Registry.loose_empty.wellFormed Registry.bodiesNamed_empty))
    fun _ w₂ _ => .bind (still rfl) fun _ w₂ _ => ?_
  refine .bind (still rfl) fun w₃ w₄ _ => ?_
  cases w₃.store with
  | none => exact still rfl
  | some store =>
    refine .bind (still rfl) fun w₅ w₆ _ => .bind (still rfl) fun _ w₇ _ => ?_
    exact .bind (still rfl) fun _ _ _ => still rfl

end Workspace

end Blockwork
