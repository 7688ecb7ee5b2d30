import Blockwork.Proofs.Bundle.ReadBreaks
import Blockwork.Proofs.Geometry.EstimatedAnswers
import Blockwork.Proofs.Workspace.GenerateExport

/-!
# Workspaces that serve

A workspace `Serves` if its board is ready, its key can be a key, and code can be generated
in its languages.  Whatever a user does, it keeps serving as long as there is a zoom.  On
such a workspace the steps that a request takes fail with a message, where they fail, if
what they are given can be taken.

A block that is asked to be shown after a step has the templates that it had before it,
since composing touches edges and positions only.
-/

namespace Blockwork

/-! ## What composing leaves of a block -/

namespace Registry

variable {r : Registry} {child id x : BlockId} {place : Parent}

/-- The templates of a block. -/
def templates? (r : Registry) (id : BlockId) : Option Templates := (r.get? id).map Block.templates

theorem templates?_link (h : place ≠ .none) :
    (r.link child place).templates? x = r.templates? x := by
  rw [templates?, get?_link h, Option.map_map]
  rfl

@[simp] theorem templates?_unlink (position : Point) :
    (r.unlink child place position).templates? x = r.templates? x := by
  rw [templates?, get?_unlink, Option.map_map]
  rfl

theorem templates?_modify {f : Block → Block} (h : ∀ b, (f b).templates = b.templates) :
    (r.modify id f).templates? x = r.templates? x := by
  rw [templates?, get?_modify, Option.map_map]
  refine congrArg (fun f => (r.get? x).map f) (funext fun b => ?_)
  by_cases hx : x = id <;> simp [hx, h]

end Registry

namespace Board

variable {σ : Type} [Geometry σ] {b : Board σ}

theorem templates?_detach (id x : BlockId) (b : Board σ) :
    (detach id b).2.registry.templates? x = b.registry.templates? x := by
  rcases detach_cases id b with ⟨f, -, hr⟩ | ⟨hrun, -⟩ | ⟨place, position, -, -, hr⟩
  · rw [hr]
  · rw [hrun]
  · rw [hr, Registry.templates?_unlink]

theorem templates?_attachAt (child p : BlockId) (slot : Option String) (x : BlockId)
    (b : Board σ) :
    (attachAt child p slot b).2.registry.templates? x = b.registry.templates? x := by
  by_cases h : b.registry.Admits child (.at p slot)
  · rw [attachAt_run h, registry_notices, Registry.templates?_link h.ne_none]
  · obtain ⟨f, hf⟩ := attachAt_refused h
    rw [hf]

theorem templates?_move (child p : BlockId) (slot : Option String) (x : BlockId) (b : Board σ) :
    (move child p slot b).2.registry.templates? x = b.registry.templates? x := by
  let Same (b' : Board σ) : Prop := b'.registry.templates? x = b.registry.templates? x
  rw [move_eq]
  refine run_bind (P := Same) rfl fun _ b₁ _ h₁ => ?_
  refine run_bind (P := Same) ((templates?_detach child x b₁).trans h₁) fun _ b₂ _ h₂ => ?_
  exact (templates?_attachAt child p slot x b₂).trans h₂

end Board

/-! ## The store -/

namespace Store

variable {α : Type} {s : Store} {key : Json}

theorem gives_blobs (s : Store) : Gives s.blobs fun _ => True := by
  cases s with
  | closed => exact .error rfl
  | opened _ _ _ => exact .ok trivial

theorem gives_mapBlobs (s : Store) (f : TextTable → TextTable) :
    Gives (s.mapBlobs f) fun _ => True := by
  cases s with
  | closed => exact .error rfl
  | opened _ _ _ => exact .ok trivial

theorem gives_load? (s : Store) (key : String) : Gives (s.load? key) fun _ => True :=
  (gives_blobs s).bind fun _ _ => .ok trivial

theorem gives_delete (s : Store) (key : String) : Gives (s.delete key) fun _ => True :=
  (gives_blobs s).bind fun _ _ => (gives_mapBlobs s _).bind fun _ _ => .ok trivial

theorem gives_underKey (hkey : (keptText key).isOk = true) {keyed : String → Except Fault α}
    (h : ∀ k, Gives (keyed k) fun _ => True) (keyless : α) :
    Gives (s.underKey key keyed (.ok keyless)) fun _ => True := by
  refine (gives_blobs s).bind fun _ _ => ?_
  cases hk : keptText key with
  | error f =>
    rw [hk] at hkey
    cases hkey
  | ok kept =>
    cases kept with
    | some k => exact h k
    | none => exact .ok trivial

theorem gives_keep (hkey : (keptText key).isOk = true) (text : String) :
    Gives (s.keep key (.str text)) fun _ => True := by
  refine (gives_blobs s).bind fun _ _ => ?_
  cases hk : keptText key with
  | error f =>
    rw [hk] at hkey
    cases hkey
  | ok kept =>
    cases kept with
    | some k => exact gives_mapBlobs s _
    | none => exact .ok trivial

end Store

/-! ## Steps on a workspace -/

namespace Workspace

variable {σ α : Type} {w : Workspace σ} {id : BlockId}

/-- If the block is live, an answer can list its templates. -/
def Shows (w : Workspace σ) (id : BlockId) : Prop :=
  ∀ t, w.board.registry.templates? id = some t → Web.listable t = true

theorem runs_onBoard {m : BoardM σ α} {Q : α → Board σ → Prop} (h : Runs m w.board Q) :
    Runs (onBoard m) w fun a w' => Q a w'.board := h

theorem runs_ofExcept {r : Except Fault α} {Q : α → Prop} (h : Gives r Q) (w : Workspace σ) :
    Runs (ofExcept r) w fun a w' => w' = w ∧ Q a := .of_gives h rfl

theorem runs_require (id : BlockId) (w : Workspace σ) :
    Runs (require id) w fun c w' => w' = w ∧ w.board.registry.get? id = some c :=
  .of_gives (Registry.gives_require w.board.registry id) rfl

theorem runs_entry {i : Int} (hi : (Json.int i).isWritable = true) (w : Workspace σ) :
    Runs (entry i) w fun d w' => w' = w ∧ w.palette.get i = .ok d := by
  refine .bind .get fun _ w₁ h₁ => ?_
  obtain ⟨rfl, rfl⟩ := h₁
  refine runs_ofExcept ?_ w₁
  unfold Palette.get
  simp only [Fault.naming, if_pos hi]
  split
  · split
    · exact .ok rfl
    · exact .error rfl
  · exact .error rfl

theorem runs_demandNoDrag (w : Workspace σ) : Runs demandNoDrag w fun _ w' => w' = w := by
  refine .bind .get fun _ w₁ h₁ => ?_
  obtain ⟨rfl, rfl⟩ := h₁
  cases w₁.drag with
  | none => exact .pure rfl
  | some s =>
    dsimp only
    split
    · exact .throw rfl
    · exact .pure rfl

theorem runs_activeDrag (w : Workspace σ) : Runs activeDrag w fun _ w' => w' = w := by
  refine .bind .get fun _ w₁ h₁ => ?_
  obtain ⟨rfl, rfl⟩ := h₁
  cases w₁.drag with
  | none => exact .throw rfl
  | some s =>
    dsimp only
    split
    · exact .pure rfl
    · exact .throw rfl

theorem runs_demandStore (w : Workspace σ) :
    Runs demandStore w fun s w' => w' = w ∧ w.store = some s := by
  cases hs : w.store with
  | none =>
    refine .bind .get fun _ w₁ h₁ => ?_
    obtain ⟨rfl, rfl⟩ := h₁
    rw [hs]
    exact .throw rfl
  | some s => exact .ok (demandStore_of_store hs) ⟨rfl, rfl⟩

/-! ### Making and editing blocks -/

/-- A block that has been made is at the top level and has the templates of its
definition. -/
theorem runs_create {d : Definition} (hd : d.bodyVar.isOk = true) (position : Point)
    (w : Workspace σ) : Runs (create d position none) w fun id w' =>
      w'.board.viewport = w.board.viewport ∧ ∃ b, w'.board.registry.get? id = some b ∧
        b.templates = d.templates ∧ b.parent = .none := by
  obtain ⟨b, hb, htemplates, hparent⟩ := Block.exists_ofDefinition hd position
  have hblocks : Runs blocks w fun r w' => w' = w ∧ r = w.board.registry := .ok rfl ⟨rfl, rfl⟩
  refine .bind hblocks fun r w₁ h₁ => ?_
  obtain ⟨rfl, rfl⟩ := h₁
  refine .bind (runs_ofExcept (Definition.gives_lift ⟨b, hb⟩) w₁) fun b' w₂ h₂ => ?_
  obtain ⟨rfl, hb'⟩ := h₂
  cases hb.symm.trans hb'
  exact .ok rfl ⟨rfl, b, by simp, htemplates, hparent⟩

theorem runs_setInput (id : BlockId) (name : String) {v : Json} (hv : v.isWritable = true)
    (w : Workspace σ) (x : BlockId) : Runs (setInput id name v) w fun _ w' =>
      w'.board.registry.templates? x = w.board.registry.templates? x := by
  have htext : demandTexts [v] = .ok () := demandTexts_ok_iff.2 (List.forall_mem_singleton.2 hv)
  refine .bind (runs_require id w) fun b w₁ h₁ => ?_
  obtain ⟨rfl, -⟩ := h₁
  rw [htext]
  cases (b.slot? name).isNone with
  | true => exact .throw rfl
  | false => exact .ok rfl (Registry.templates?_modify fun _ => rfl)

/-- An input that is not named by a text is refused with a message if its name can be looked
up. -/
theorem runs_refuseInput {slot : Json} (hslot : slot.isScalar = true)
    (hw : slot.isWritable = true) (child parent : BlockId) (w : Workspace σ) :
    Runs (refuseInput child parent slot) w fun _ _ => False := by
  refine .bind (runs_require child w) fun b w₁ _ => .bind (runs_require parent w₁) fun _ w₂ _ => ?_
  refine .bind (runs_ofExcept (Registry.gives_demand _ _) w₂) fun _ w₃ _ => ?_
  rw [refuseSlot, if_pos hslot, Fault.naming, if_pos hw]
  exact .throw rfl

end Workspace

/-! ## Workspaces with the estimated layout -/

namespace Workspace

/-- A workspace that can answer requests. -/
structure Serves (w : Workspace EstimatedLayout) : Prop where
  /-- The layout answers. -/
  ready : w.board.Ready
  /-- The key of the settings can be a key. -/
  key : (Store.keptText w.settings.storageKey).isOk = true
  /-- The default language can be a key. -/
  language : w.settings.defaultLanguage.isScalar = true
  /-- The units of indentation are texts. -/
  units : ∀ l ∈ w.languages, l.unit.IsText

variable {α : Type} {w : Workspace EstimatedLayout} {id : BlockId}

section

variable {settings : Settings} {store : Option Store} {palette : Palette}
variable {languages : List Code.Language} {trash : Option Rect}

/-- Whatever a user does, the workspace serves as long as there is a zoom. -/
theorem serves_of_reachable
    (h : Reachable EstimatedLayout.Asked (start settings store palette languages { trash }) w)
    (hzoom : (w.board.viewport.zoom == 0.0) = false)
    (hkey : (Store.keptText settings.storageKey).isOk = true)
    (hlanguage : settings.defaultLanguage.isScalar = true)
    (hunits : ∀ l ∈ languages, l.unit.IsText) : w.Serves := by
  have hsetup := setup_of_reachable h
  have hsettings : w.settings = settings := congrArg Prod.fst hsetup
  have htable : w.languages =
      if languages.isEmpty then Code.standardLanguages else Code.Language.table languages :=
    congrArg Prod.snd hsetup
  refine ⟨⟨EstimatedLayout.settled_of_reachable h, hzoom⟩, hsettings ▸ hkey,
    hsettings ▸ hlanguage, ?_⟩
  rw [htable]
  split
  · decide
  · exact Code.Language.unit_of_mem_table hunits

end

theorem runs_move (h : w.board.Ready) (child parent : BlockId) (slot : Option String)
    (x : BlockId) : Runs (move child parent slot) w fun _ w' =>
      w'.board.registry.templates? x = w.board.registry.templates? x := by
  have hmove := (Board.runs_move h child parent slot).and_state
    (I := fun b => b.registry.templates? x = w.board.registry.templates? x)
    (Board.templates?_move child parent slot x w.board)
  exact .bind (runs_onBoard hmove) fun _ _ h => .ok rfl h.2

theorem runs_detach (h : w.board.Ready) (id x : BlockId) : Runs (detach id) w fun _ w' =>
    w'.board.registry.templates? x = w.board.registry.templates? x := by
  have hdetach := (Board.runs_detach h id).and_state
    (I := fun b => b.registry.templates? x = w.board.registry.templates? x)
    (Board.templates?_detach id x w.board)
  refine .bind (runs_onBoard hdetach) fun detached _ h => ?_
  cases detached <;> exact .ok rfl h.2

theorem runs_releaseInputs (h : w.board.Ready) (id : BlockId) :
    Runs (releaseInputs id) w fun _ _ => True := by
  refine .bind (runs_onBoard (Board.runs_releaseInputs h id)) fun released _ _ => ?_
  cases released <;> exact .ok rfl trivial

/-! ### Dragging -/

theorem runs_runSession {s : Session} {m : SessionM EstimatedLayout α}
    (h : Runs m ⟨w.board, s⟩ fun _ _ => True) :
    Runs (runSession s m) w fun a _ => Gives a.1 fun _ => True := .ok rfl h

theorem runs_startDrag (pointer : Point) (hzoom : (w.board.viewport.zoom == 0.0) = false)
    (h : ∀ c, w.board.registry.get? id = some c → c.parent.isNone = false → w.board.Ready) :
    Runs (startDrag id pointer) w fun _ _ => True := by
  refine .bind (runs_demandNoDrag w) fun _ w₁ h₁ => ?_
  subst h₁
  refine .bind (runs_runSession (Session.runs_start pointer hzoom h)) fun a w₂ ha => ?_
  exact .bind (runs_ofExcept ha w₂) fun _ _ _ => .ok rfl trivial

/-- The block that is picked up is new, so it is at the top level. -/
theorem runs_startPaletteDrag (pointer : Point) (hzoom : (w.board.viewport.zoom == 0.0) = false)
    {i : Int} (hi : (Json.int i).isWritable = true)
    (hd : ∀ d, w.palette.get i = .ok d → d.bodyVar.isOk = true) :
    Runs (startPaletteDrag i pointer) w fun _ _ => True := by
  refine .bind (runs_demandNoDrag w) fun _ w₁ h₁ => ?_
  subst h₁
  refine .bind (runs_entry hi w₁) fun d w₂ h₂ => ?_
  obtain ⟨rfl, hentry⟩ := h₂
  have hask := runs_onBoard (Board.runs_workspacePoint hzoom pointer)
  refine .bind hask fun position w₃ h₃ => ?_
  refine .bind (runs_create (hd d hentry) position w₃) fun id w₄ h₄ => ?_
  obtain ⟨hviewport, b, hb, -, hparent⟩ := h₄
  rw [← h₃, ← hviewport] at hzoom
  refine .bind (runs_startDrag pointer hzoom fun c hc hnested => ?_) fun _ _ _ => .pure trivial
  cases hb.symm.trans hc
  rw [hparent] at hnested
  cases hnested

theorem runs_moveDrag (pointer : Point) (hzoom : (w.board.viewport.zoom == 0.0) = false) :
    Runs (moveDrag pointer) w fun _ _ => True := by
  refine .bind (runs_activeDrag w) fun s w₁ h₁ => ?_
  subst h₁
  refine .bind (runs_runSession (Session.runs_move pointer hzoom)) fun a w₂ ha => ?_
  refine .bind (Q := fun _ _ => True) (.ok rfl trivial) fun _ w₃ _ => ?_
  exact (runs_ofExcept ha w₃).mono fun _ _ _ => trivial

theorem runs_endDrag (pointer : Point) (h : w.board.Ready) :
    Runs (endDrag pointer) w fun _ _ => True := by
  refine .bind (runs_activeDrag w) fun s w₁ h₁ => ?_
  subst h₁
  refine .bind (runs_runSession (Session.runs_finish pointer h)) fun a w₂ ha => ?_
  refine .bind (Q := fun _ _ => True) (.ok rfl trivial) fun _ w₃ _ => ?_
  exact .bind (runs_ofExcept ha w₃) fun _ _ _ => .ok rfl trivial

/-! ### Code, bundles and the store -/

/-- Code is generated if every block is one to generate from. -/
theorem runs_generate (h : w.Serves) {language : Json}
    (hscalar : language.isTruthy = true → language.isScalar = true) (hall : w.Generable language) :
    Runs (generate (language.orElse w.settings.defaultLanguage)) w fun _ _ => True := by
  let name := language.orElse w.settings.defaultLanguage
  have hname : (name.orElse w.settings.defaultLanguage).isScalar = true := by
    rw [Json.orElse_orElse, Json.orElse]
    split
    · next hgiven => exact hscalar hgiven
    · exact h.language
  have hgenerable : w.Generable name := fun id b hb => by
    rw [Json.orElse_orElse]
    exact hall id b hb
  obtain ⟨code, hcode⟩ := (generate_ok_iff h.ready.settled.wellFormed h.units hname).2 hgenerable
  exact .ok (Prod.ext hcode rfl) trivial

theorem runs_importBundle {payload : Json} (h : Bundle.Proper payload)
    (hw : payload.isWritable = true) (w : Workspace EstimatedLayout) :
    Runs (importBundle payload) w fun _ _ => True := by
  refine .bind (runs_demandNoDrag w) fun _ w₁ _ => ?_
  refine .bind (runs_ofExcept (Bundle.gives_read h hw) w₁) fun contents w₂ _ => ?_
  have hput (r : Registry) (w : Workspace EstimatedLayout) :
      Runs (onBoard (replaceBlocks r)) w fun _ _ => True :=
    .ok (by rw [onBoard, replaceBlocks_run]) trivial
  cases contents.definitions <;> cases contents.registry
  case none.none | some.none => exact .ok rfl trivial
  case none.some r => exact .bind (hput r w₂) fun _ _ _ => .ok rfl trivial
  case some.some p r =>
    exact .bind (Q := fun _ _ => True) (.ok rfl trivial) fun _ w₃ _ =>
      .bind (hput r w₃) fun _ _ _ => .ok rfl trivial

theorem runs_save (h : w.Serves) {text : String}
    (htext : Bundle.snapshotText w.palette w.board.registry = .ok text) :
    Runs save w fun _ _ => True := by
  refine .bind (runs_demandStore w) fun s w₁ h₁ => ?_
  obtain ⟨rfl, -⟩ := h₁
  refine .bind (runs_demandNoDrag w₁) fun _ w₂ h₂ => ?_
  subst h₂
  refine .bind .get fun _ w₃ h₃ => ?_
  obtain ⟨rfl, rfl⟩ := h₃
  refine .bind (runs_ofExcept (Definition.gives_lift ⟨text, htext⟩) w₃) fun text w₄ _ => ?_
  exact .bind (runs_ofExcept (Store.gives_keep h.key text) w₄) fun _ _ _ => .ok rfl trivial

theorem runs_load (h : w.Serves)
    (hsaved : ∀ text, w.saved? = some text → Bundle.Proper (.str text)) :
    Runs load w fun _ _ => True := by
  refine .bind (runs_demandStore w) fun s w₁ h₁ => ?_
  obtain ⟨rfl, hs⟩ := h₁
  refine .bind .get fun _ w₂ h₂ => ?_
  obtain ⟨rfl, rfl⟩ := h₂
  have hfind := Store.gives_underKey (s := s) h.key (Store.gives_load? s) none
  refine .bind (runs_ofExcept hfind.and_eq w₂) fun text? w₃ h₃ => ?_
  obtain ⟨rfl, htext, -⟩ := h₃
  cases text? with
  | none => exact .pure trivial
  | some text =>
    have hproper : Bundle.Proper (.str text) := by
      refine hsaved text ?_
      rw [saved?, hs, Option.bind_some, htext]
      rfl
    exact .bind (runs_importBundle hproper rfl w₃) fun _ _ _ => .pure trivial

theorem runs_clear (h : w.Serves) : Runs clear w fun _ _ => True := by
  refine .bind (runs_demandNoDrag w) fun _ w₁ h₁ => ?_
  subst h₁
  let Q (_ : Unit) (w' : Workspace EstimatedLayout) : Prop := w'.settings = w₁.settings
  refine .bind (Q := Q) (.ok rfl rfl) fun _ w₂ h₂ => .bind (Q := Q) (.ok rfl h₂) fun _ w₂ h₂ => ?_
  refine .bind (Q := Q) (.ok rfl h₂) fun _ w₂ h₂ => .bind .get fun _ w₃ h₃ => ?_
  obtain ⟨rfl, rfl⟩ := h₃
  cases w₃.store with
  | none => exact .ok rfl trivial
  | some s =>
    refine .bind .get fun _ w₄ h₄ => ?_
    obtain ⟨rfl, rfl⟩ := h₄
    have hkey : (Store.keptText w₄.settings.storageKey).isOk = true := h₂ ▸ h.key
    have hdelete := Store.gives_underKey (s := s) hkey (Store.gives_delete s) (false, s)
    exact .bind (runs_ofExcept hdelete w₄) fun _ _ _ => .ok rfl trivial

end Workspace

end Blockwork
