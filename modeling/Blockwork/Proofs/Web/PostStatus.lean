import Blockwork.Proofs.Web.UsableWorkspace

/-!
# Requests that do something

A request that asks a route to do something leads to a reply, or to a fault.  The answer to a
fault has status 400 if the fault has a message, and 500 if it has none, so the status says
whether the step broke down.

A body that does not `Fit` its route may break the step down.  One that is not JSON, or does
not count as given, has no fields and fits, unless the route needs more than its body.  A
body that is given and is no object breaks down every route that reads fields of it first.
-/

namespace Blockwork.Web

variable {σ : Type} {r : Request} {route : Route}

/-! ## Statuses -/

/-- The request asks a route to do something. -/
structure Posts (r : Request) (route : Route) : Prop where
  method : Method.ofName r.method = .post
  socket : (Address.ofTarget r.target).socket = false
  path : Route.ofPath? (Address.ofTarget r.target).path = some route
  file : isFilePath (Address.ofTarget r.target).path = false
  knows : route.rules.any (knows .post) = true

instance (r : Request) (route : Route) : Decidable (Posts r route) :=
  decidable_of_iff
    (Method.ofName r.method = .post ∧ (Address.ofTarget r.target).socket = false ∧
      Route.ofPath? (Address.ofTarget r.target).path = some route ∧
      isFilePath (Address.ofTarget r.target).path = false ∧ route.rules.any (knows .post) = true)
    ⟨fun h => ⟨h.1, h.2.1, h.2.2.1, h.2.2.2.1, h.2.2.2.2⟩,
      fun h => ⟨h.method, h.socket, h.path, h.file, h.knows⟩⟩

theorem answer_of_posts (h : Posts r route) (w : Workspace EstimatedLayout) :
    (answer r w).1 = responseOf (step r (Address.ofTarget r.target) route .post w).1 := by
  have hrules : rulesOf? (Address.ofTarget r.target).path = some route.rules := by
    rw [rulesOf?, h.file, h.path]
    rfl
  have hstep : (answer r w).1 = (takeStep r (Address.ofTarget r.target) route .post w).1 := by
    simp only [answer, h.method, h.socket, hrules, h.path, h.knows]
    rfl
  rw [hstep]
  rfl

/-- The statuses of a reply. -/
def Reply.Succeeds (reply : Reply) : Prop := reply.status = 200 ∨ reply.status = 201

theorem status_of_runs {m : WorkspaceM σ Reply} {w : Workspace σ}
    (h : Runs m w fun reply _ => reply.Succeeds) :
    (responseOf (m w).1).status ∈ [200, 201, 400] := by
  unfold Runs at h
  rcases hrun : (m w).1 with f | reply
  · rw [hrun] at h
    cases h with
    | error h =>
      obtain ⟨message, hmessage⟩ := Option.isSome_iff_exists.1 h
      rw [responseOf, faultResponse, hmessage]
      simp
  · rw [hrun] at h
    cases h with
    | ok h => rcases h with h | h <;> simp [responseOf, h]

/-! ## Bodies that fit -/

/-- The value that an import reads. -/
def Request.bundle (r : Request) : Json :=
  match r.json? with
  | none | some .null => .str r.body
  | some v => v

theorem Request.isWritable_bundle (r : Request) : r.bundle.isWritable = true := by
  rw [bundle]
  split
  · rfl
  · rfl
  · next v _ hjson =>
    rw [json?] at hjson
    split at hjson
    · exact Json.isWritable_parseBytes? hjson
    · cases hjson

/-- A body that adds a definition has texts where it has a label and templates. -/
structure FitsPalette (members : List (String × Json)) : Prop where
  label : Palette.Writes (Json.member members "label")
  templates : Palette.WritesTemplates (Json.member members "templates")

/-- The index is finite if it is a number.  If the palette has a definition at it, a block can
be made of it. -/
structure FitsIndex (palette : Palette) (v : Json) : Prop where
  finite : v.toInt ≠ .error .overflow
  entry : ∀ i d, v.toInt = .ok i → palette.get i = .ok d → d.bodyVar.isOk = true

/-- A body that makes a block has a fitting index, and its coordinates are within the doubles
if they are numbers.  The new block can be shown. -/
structure FitsBlock (palette : Palette) (members : List (String × Json)) : Prop where
  index : FitsIndex palette (Json.member members "index")
  x : (Json.member members "x").toFloat ≠ .error .overflow
  y : (Json.member members "y").toFloat ≠ .error .overflow
  shows : ∀ i d, (Json.member members "index").toInt = .ok i → palette.get i = .ok d →
    listable d.templates = true

/-- The parent and the input in a body that gives a block a parent are no lists and no
objects. -/
structure FitsParent (members : List (String × Json)) : Prop where
  parent : (Json.member members "parentId").isScalar = true
  slot : (Json.member members "varname").isTruthy = true →
    (Json.member members "varname").isScalar = true

/-- A body that starts a drag names a definition by a fitting index, or a block by what is no
list and no object. -/
structure FitsDrag (palette : Palette) (members : List (String × Json)) : Prop where
  entry : FitsIndex palette (Json.member members "paletteIndex")
  block : Json.member members "paletteIndex" = .null →
    (Json.member members "blockId").isTruthy = true →
    (Json.member members "blockId").isScalar = true

/-- What a route needs of a request and of the workspace, so that it does not break down. -/
def Route.Fits (w : Workspace σ) (r : Request) : Route → Prop
  | .palette => ∃ members, r.payload = .obj members ∧ FitsPalette members
  | .blocks => (∃ members, r.payload = .obj members ∧ FitsBlock w.palette members) ∨
      mentions r.payload "index" = .ok false
  | .input id _ => (∃ members, r.payload = .obj members) ∧ w.Shows id
  | .attach id => ∃ members, r.payload = .obj members ∧
      ((Json.member members "parentId").isTruthy = true → FitsParent members ∧ w.Shows id)
  | .detach id => w.Shows id
  | .dragStart => FitsPointer r.payload ∧
      ∀ members, r.payload = .obj members → FitsDrag w.palette members
  | .dragMove | .dragEnd => FitsPointer r.payload
  | .code => ∃ members, r.payload = .obj members ∧
      ((Json.member members "language").isTruthy = true →
        (Json.member members "language").isScalar = true) ∧
      w.Generable (Json.member members "language")
  | .reading => Bundle.Proper r.bundle
  | .save => ∃ text, Bundle.snapshotText w.palette w.board.registry = .ok text
  | .load => ∀ text, w.saved? = some text → Bundle.Proper (.str text)
  | _ => True

/-- The routes that need nothing but their body to go by. -/
def Route.needsBody : Route → Bool
  | .palette | .blocks | .attach _ | .dragStart | .dragMove | .dragEnd | .reading => true
  | _ => false

/-- The routes that start by reading a field of the body. -/
def Route.readsFields : Route → Bool
  | .palette | .input .. | .attach _ | .code => true
  | _ => false

/-! ## Steps -/

variable {w : Workspace EstimatedLayout} {members : List (String × Json)} {id : BlockId}

theorem runs_showBlock {w : Workspace σ} (h : w.Shows id) :
    Runs (showBlock id) w fun _ _ => True := by
  refine .bind (Workspace.runs_require id w) fun b w₁ h₁ => ?_
  obtain ⟨rfl, hb⟩ := h₁
  have hlist : listable b.templates = true := h b.templates (by rw [Registry.templates?, hb]; rfl)
  exact .bind (Workspace.runs_ofExcept (gives_demandListable hlist) w₁) fun _ _ _ => .pure trivial

/-- A block is shown after a step that has left its templates. -/
theorem Shows.after {w w' : Workspace σ} (h : w.Shows id)
    (heq : w'.board.registry.templates? id = w.board.registry.templates? id) : w'.Shows id :=
  fun t ht => h t (heq ▸ ht)

/-- Any label and templates of texts give a definition, or a message. -/
theorem runs_addDefinition (hw : (Json.obj members).isWritable = true) (h : FitsPalette members)
    (w : Workspace σ) : Runs (addDefinition (.obj members)) w fun reply _ => reply.Succeeds := by
  have hlabel : Palette.Writes ((Json.member? members "label").getD (.str "")) := by
    have hwrites := h.label
    rw [Json.member] at hwrites
    cases hl : Json.member? members "label" with
    | none => rintro ⟨⟩
    | some v =>
      rw [hl] at hwrites
      exact hwrites
  have hkind : (((Json.member members "kind").orElse (Json.member members "type")).orElse
      (.str "command")).isWritable = true :=
    Json.isWritable_orElse (Json.isWritable_orElse (Json.isWritable_member hw "kind")
      (Json.isWritable_member hw "type")) rfl
  have hdraft : Gives (draftOf (.obj members)) fun d => Palette.Writes d.label ∧
      d.kind.isWritable = true ∧ Palette.WritesTemplates d.templates :=
    .ok ⟨hlabel, hkind, h.templates⟩
  refine .bind (Workspace.runs_ofExcept hdraft w) fun d w₁ h₁ => ?_
  obtain ⟨rfl, hlabel, hkind, htemplates⟩ := h₁
  have hadd : Runs (Workspace.addDraft d) w₁ fun i w' => ∃ definition,
      w'.palette.get i = .ok definition ∧ listable definition.templates = true := by
    refine .bind .get fun _ w₂ h₂ => ?_
    obtain ⟨rfl, rfl⟩ := h₂
    refine .bind (Workspace.runs_ofExcept (Palette.gives_addDraft _ hlabel hkind htemplates) w₂)
      fun added w₃ h₃ => ?_
    obtain ⟨rfl, definition, rfl, hlist⟩ := h₃
    refine .ok rfl ⟨definition, ?_, hlist⟩
    show Palette.get _ (Int.ofNat _) = _
    simp [Palette.get]
  refine .bind hadd fun i w₂ h₂ => ?_
  obtain ⟨definition, hget, hlist⟩ := h₂
  have hentry : Workspace.entry i w₂ = (.ok definition, w₂) := congrArg (·, w₂) hget
  refine .bind (.ok (Q := fun d _ => d = definition) hentry rfl) fun d w₃ h₃ => ?_
  subst h₃
  have hshow : Gives (showDefinition d) fun _ => True :=
    (gives_demandListable hlist).bind fun _ _ => .ok trivial
  exact .bind (Workspace.runs_ofExcept hshow w₃) fun _ _ _ => .pure (.inr rfl)

theorem runs_createBlock (hw : (Json.obj members).isWritable = true)
    (h : FitsBlock w.palette members) :
    Runs (createBlock (.obj members)) w fun reply _ => reply.Succeeds := by
  have hmentions : Gives (mentions (.obj members) "index") fun _ => True := .ok trivial
  refine .bind (Workspace.runs_ofExcept hmentions w) fun here w₁ h₁ => ?_
  obtain ⟨rfl, -⟩ := h₁
  cases here with
  | false => exact .throw rfl
  | true =>
    refine .bind (Workspace.runs_ofExcept (gives_index h.index.finite) w₁) fun i w₂ h₂ => ?_
    obtain ⟨rfl, hi⟩ := h₂
    refine .bind (Workspace.runs_ofExcept (gives_coordinate h.x 10.0) w₂) fun x w₃ h₃ => ?_
    obtain ⟨rfl, -⟩ := h₃
    refine .bind (Workspace.runs_ofExcept (gives_coordinate h.y 10.0) w₃) fun y w₄ h₄ => ?_
    obtain ⟨rfl, -⟩ := h₄
    have hshort : (Json.int i).isWritable = true :=
      Json.isWritable_of_toInt (Json.isWritable_member hw "index") hi
    have hadd : Runs (Workspace.addEntry i ⟨x, y⟩) w₄ fun id w' => w'.Shows id := by
      refine .bind (Workspace.runs_entry hshort w₄) fun d w₅ h₅ => ?_
      obtain ⟨rfl, hd⟩ := h₅
      refine .bind (Workspace.runs_create (h.index.entry i d hi hd) ⟨x, y⟩ w₅) fun id w₆ h₆ => ?_
      obtain ⟨-, b, hb, htemplates, -⟩ := h₆
      refine .ok rfl fun t ht => ?_
      have hnew : w₆.board.registry.templates? id = some d.templates := by
        rw [Registry.templates?, hb, Option.map_some, htemplates]
      cases hnew.symm.trans ht
      exact h.shows i d hi hd
    refine .bind hadd fun id w₅ h₅ => ?_
    exact .bind (runs_showBlock h₅) fun _ _ _ => .pure (.inr rfl)

/-- Without an index no block is made. -/
theorem runs_createNothing {payload : Json} (h : mentions payload "index" = .ok false)
    (w : Workspace σ) : Runs (createBlock payload) w fun reply _ => reply.Succeeds := by
  have hmentions : Workspace.ofExcept (mentions payload "index") w = (.ok false, w) := by
    rw [h]
    rfl
  refine .bind (.ok (Q := fun here _ => here = false) hmentions rfl) fun here w₁ h₁ => ?_
  subst h₁
  exact .throw rfl

theorem runs_setInput {w : Workspace σ} (hw : (Json.obj members).isWritable = true)
    (h : w.Shows id) (name : String) :
    Runs (setInput id name (.obj members)) w fun reply _ => reply.Succeeds := by
  refine .bind (Workspace.runs_ofExcept (gives_field? members "value") w) fun v w₁ h₁ => ?_
  obtain ⟨rfl, rfl⟩ := h₁
  have hv := Json.isWritable_getD hw "value" (Json.isWritable_str "")
  refine .bind (Workspace.runs_setInput id name hv w₁ id) fun _ w₂ h₂ => ?_
  exact .bind (runs_showBlock (Shows.after h h₂)) fun _ _ _ => .pure (.inl rfl)

theorem runs_attachBlock (hready : w.board.Ready) (hw : (Json.obj members).isWritable = true)
    (h : (Json.member members "parentId").isTruthy = true → FitsParent members ∧ w.Shows id) :
    Runs (attachBlock id (.obj members)) w fun reply _ => reply.Succeeds := by
  refine .bind (Workspace.runs_ofExcept (gives_field members "parentId") w) fun parent w₁ h₁ => ?_
  obtain ⟨rfl, rfl⟩ := h₁
  cases hp : (Json.member members "parentId").isTruthy with
  | false => exact .throw rfl
  | true =>
    obtain ⟨hparent, hshows⟩ := h hp
    refine .bind (Workspace.runs_ofExcept (gives_field members "varname") w₁) fun slot w₂ h₂ => ?_
    obtain ⟨rfl, rfl⟩ := h₂
    refine .bind (Workspace.runs_require id w₂) fun _ w₃ h₃ => ?_
    obtain ⟨rfl, -⟩ := h₃
    have hid := gives_blockId hparent.parent (Json.isWritable_member hw "parentId")
    refine .bind (Workspace.runs_ofExcept hid w₃) fun parent w₄ h₄ => ?_
    obtain ⟨rfl, -⟩ := h₄
    have hshown (slot : Option String) : Runs (do
        Workspace.move id parent slot
        return { data := ← showBlock id } : WorkspaceM EstimatedLayout Reply) w₄
          fun reply _ => reply.Succeeds := by
      refine .bind (Workspace.runs_move hready id parent slot id) fun _ w₅ h₅ => ?_
      exact .bind (runs_showBlock (Shows.after hshows h₅)) fun _ _ _ => .pure (.inl rfl)
    cases hslot : (Json.member members "varname").given? with
    | none => exact hshown none
    | some v =>
      obtain ⟨hv, hshort⟩ : v.isScalar = true ∧ v.isWritable = true := by
        rw [Json.given?] at hslot
        split at hslot
        · next hgiven =>
          cases hslot
          exact ⟨hparent.slot hgiven, Json.isWritable_member hw "varname"⟩
        · cases hslot
      cases v with
      | str name => exact hshown (some name)
      | _ => exact .bind (Workspace.runs_refuseInput hv hshort id parent w₄) fun _ _ h => h.elim

theorem runs_detachBlock (hready : w.board.Ready) (hshows : w.Shows id) :
    Runs (detachBlock id) w fun reply _ => reply.Succeeds := by
  refine .bind (Workspace.runs_detach hready id id) fun detached w₁ h₁ => ?_
  exact .bind (runs_showBlock (Shows.after hshows h₁)) fun _ _ _ => .pure (.inl rfl)

theorem runs_releaseInputs (hready : w.board.Ready) (id : BlockId) :
    Runs (releaseInputs id) w fun reply _ => reply.Succeeds :=
  .bind (Workspace.runs_releaseInputs hready id) fun _ _ _ => .pure (.inl rfl)

/-! ### Dragging -/

theorem runs_pickUp (hready : w.board.Ready) (hw : (Json.obj members).isWritable = true)
    (h : FitsDrag w.palette members) (p : Point) :
    Runs (pickUp (.obj members) p) w fun _ _ => True := by
  refine .bind (Workspace.runs_ofExcept (gives_field members "paletteIndex") w) fun v w₁ h₁ => ?_
  obtain ⟨rfl, rfl⟩ := h₁
  have hentry : Runs (do
      Workspace.startPaletteDrag
        (← Workspace.ofExcept (index (.obj members) "paletteIndex")) p) w₁ fun _ _ => True := by
    refine .bind (Workspace.runs_ofExcept (gives_index h.entry.finite) w₁) fun i w₂ h₂ => ?_
    obtain ⟨rfl, hi⟩ := h₂
    have hshort := Json.isWritable_of_toInt (Json.isWritable_member hw "paletteIndex") hi
    exact Workspace.runs_startPaletteDrag p hready.zoomed hshort fun d hd =>
      h.entry.entry i d hi hd
  cases hv : Json.member members "paletteIndex" with
  | null =>
    refine .bind (Workspace.runs_ofExcept (gives_field members "blockId") w₁) fun v w₂ h₂ => ?_
    obtain ⟨rfl, rfl⟩ := h₂
    cases hgiven : (Json.member members "blockId").isTruthy with
    | false =>
      rw [Json.given?, hgiven]
      exact .throw rfl
    | true =>
      rw [Json.given?, hgiven]
      refine .bind (Workspace.runs_demandNoDrag w₂) fun _ w₃ h₃ => ?_
      subst h₃
      have hid := gives_blockId (h.block hv hgiven) (Json.isWritable_member hw "blockId")
      refine .bind (Workspace.runs_ofExcept hid w₃) fun id w₄ h₄ => ?_
      obtain ⟨rfl, -⟩ := h₄
      refine .bind (Workspace.runs_startDrag p hready.zoomed fun _ _ _ => hready) fun _ _ _ => ?_
      exact .pure trivial
  | _ => exact hentry

theorem runs_startDrag (hready : w.board.Ready) (hpointer : FitsPointer r.payload)
    (h : ∀ members, r.payload = .obj members → FitsDrag w.palette members) :
    Runs (startDrag r.payload) w fun reply _ => reply.Succeeds := by
  refine .bind (Workspace.runs_ofExcept (gives_pointer hpointer).and_eq w) fun p w₁ h₁ => ?_
  obtain ⟨rfl, hp, -⟩ := h₁
  -- only an object has the coordinates of a pointer
  cases hpayload : r.payload with
  | obj members =>
    have hw : (Json.obj members).isWritable = true := hpayload ▸ r.isWritable_payload
    exact .bind (runs_pickUp hready hw (h members hpayload) p) fun _ _ _ => .pure (.inl rfl)
  | _ =>
    rw [hpayload] at hp
    cases hp

theorem runs_moveDrag (hready : w.board.Ready) (hpointer : FitsPointer r.payload) :
    Runs (moveDrag r.payload) w fun reply _ => reply.Succeeds := by
  refine .bind (Workspace.runs_ofExcept (gives_pointer hpointer) w) fun p w₁ h₁ => ?_
  obtain ⟨rfl, -⟩ := h₁
  refine .bind (Workspace.runs_moveDrag p hready.zoomed) fun _ w₂ _ => ?_
  refine .bind (Workspace.runs_activeDrag w₂) fun s w₃ _ => ?_
  exact .bind (Workspace.runs_require _ w₃) fun _ _ _ => .pure (.inl rfl)

theorem runs_endDrag (hready : w.board.Ready) (hpointer : FitsPointer r.payload) :
    Runs (endDrag r.payload) w fun reply _ => reply.Succeeds := by
  refine .bind (Workspace.runs_ofExcept (gives_pointer hpointer) w) fun p w₁ h₁ => ?_
  obtain ⟨rfl, -⟩ := h₁
  refine .bind (Workspace.runs_endDrag p hready) fun _ w₂ _ => ?_
  exact .bind .get fun _ _ _ => .pure (.inl rfl)

/-! ### Code, bundles and saving -/

theorem runs_generateCode (hw : w.Serves) (hscalar : (Json.member members "language").isTruthy = true →
    (Json.member members "language").isScalar = true)
    (h : w.Generable (Json.member members "language")) :
    Runs (generateCode (.obj members)) w fun reply _ => reply.Succeeds := by
  refine .bind (Workspace.runs_ofExcept (gives_field members "language") w) fun v w₁ h₁ => ?_
  obtain ⟨rfl, rfl⟩ := h₁
  refine .bind .get fun _ w₂ h₂ => ?_
  obtain ⟨rfl, rfl⟩ := h₂
  exact .bind (Workspace.runs_generate hw hscalar h) fun _ _ _ => .pure (.inl rfl)

theorem runs_importBundle (h : Bundle.Proper r.bundle) (w : Workspace EstimatedLayout) :
    Runs (importBundle r) w fun reply _ => reply.Succeeds :=
  .bind (Workspace.runs_importBundle h r.isWritable_bundle w) fun _ _ _ => .pure (.inl rfl)

theorem runs_saveWorkspace (hw : w.Serves) {text : String}
    (htext : Bundle.snapshotText w.palette w.board.registry = .ok text) :
    Runs saveWorkspace w fun reply _ => reply.Succeeds :=
  .bind (Workspace.runs_save hw htext) fun _ _ _ => .pure (.inl rfl)

theorem runs_loadWorkspace (hw : w.Serves)
    (h : ∀ text, w.saved? = some text → Bundle.Proper (.str text)) :
    Runs loadWorkspace w fun reply _ => reply.Succeeds :=
  .bind (Workspace.runs_load hw h) fun _ _ _ => .ok rfl (.inl rfl)

theorem runs_clearWorkspace (hw : w.Serves) :
    Runs clearWorkspace w fun reply _ => reply.Succeeds :=
  .bind (Workspace.runs_clear hw) fun _ _ _ => .pure (.inl rfl)

/-! ## Answers -/

/-- The step of a route whose needs are met leads to a reply, or to a fault with a message. -/
theorem runs_step (hw : w.Serves) (a : Address) (hknows : route.rules.any (knows .post) = true)
    (hfits : route.Fits w r) : Runs (step r a route .post) w fun reply _ => reply.Succeeds := by
  have htext {members : List (String × Json)} (hpayload : r.payload = .obj members) :
      (Json.obj members).isWritable = true := hpayload ▸ r.isWritable_payload
  cases route with
  | palette =>
    obtain ⟨members, hpayload, h⟩ := hfits
    rw [step, hpayload]
    exact runs_addDefinition (htext hpayload) h w
  | blocks =>
    rw [step]
    rcases hfits with ⟨members, hpayload, h⟩ | hnone
    · rw [hpayload]
      exact runs_createBlock (htext hpayload) h
    · exact runs_createNothing hnone w
  | input id name =>
    obtain ⟨⟨members, hpayload⟩, h⟩ := hfits
    rw [step, hpayload]
    exact runs_setInput (htext hpayload) h name
  | attach id =>
    obtain ⟨members, hpayload, h⟩ := hfits
    rw [step, hpayload]
    exact runs_attachBlock hw.ready (htext hpayload) h
  | detach id => exact runs_detachBlock hw.ready hfits
  | release id => exact runs_releaseInputs hw.ready id
  | dragStart => exact runs_startDrag hw.ready hfits.1 hfits.2
  | dragMove => exact runs_moveDrag hw.ready hfits
  | dragEnd => exact runs_endDrag hw.ready hfits
  | code =>
    obtain ⟨members, hpayload, hscalar, h⟩ := hfits
    rw [step, hpayload]
    exact runs_generateCode hw hscalar h
  | reading => exact runs_importBundle hfits w
  | save =>
    obtain ⟨text, htext⟩ := hfits
    exact runs_saveWorkspace hw htext
  | load => exact runs_loadWorkspace hw hfits
  | clear => exact runs_clearWorkspace hw
  | entry _ | block _ | bundle _ | overview => cases hknows

theorem payload_of_text (h : r.json? = none) : r.payload = .obj [] := by
  rw [Request.payload, h]
  rfl

/-- A body that is no JSON fits every route that needs nothing but its body. -/
theorem fits_of_text {w : Workspace σ} (hroute : route.needsBody = true) (hjson : r.json? = none)
    (htext : Json.parse? r.body = none) : route.Fits w r := by
  have hpayload := payload_of_text hjson
  have hpointer : FitsPointer r.payload := by
    constructor <;> intro members hm <;> cases hpayload.symm.trans hm <;> exact nofun
  cases route with
  | palette => exact ⟨[], hpayload, ⟨nofun, nofun⟩⟩
  | blocks =>
    refine .inr ?_
    rw [hpayload]
    rfl
  | attach id => exact ⟨[], hpayload, nofun⟩
  | dragStart =>
    refine ⟨hpointer, fun members hm => ?_⟩
    cases hpayload.symm.trans hm
    exact ⟨⟨nofun, nofun⟩, fun _ => nofun⟩
  | dragMove | dragEnd => exact hpointer
  | reading =>
    have hbundle : r.bundle = .str r.body := by
      rw [Request.bundle, hjson]
    have hnothing (members : List (String × Json)) : Bundle.payloadMembers? r.bundle ≠ some members := by
      rw [hbundle, Bundle.payloadMembers?, htext]
      rintro ⟨⟩
    exact ⟨fun members _ _ hm => absurd hm (hnothing members),
      fun members _ _ hm => absurd hm (hnothing members)⟩
  | _ => cases hroute

/-- A body that is given and is no object has no fields to ask for. -/
theorem field?_of_shapeless {payload : Json} (h : ∀ members, payload ≠ .obj members)
    (name : String) :
    field? payload name = .error (.breakdown .missingOperation) := by
  cases payload with
  | obj members => exact absurd rfl (h members)
  | _ => rfl

theorem step_of_shapeless (hroute : route.readsFields = true)
    (h : ∀ members, r.payload ≠ .obj members) (a : Address) (w : Workspace EstimatedLayout) :
    ∃ cause, (step r a route .post w).1 = .error (.breakdown cause) := by
  cases route with
  | palette =>
    rw [step, addDefinition, draftOf, field?_of_shapeless h]
    exact ⟨_, rfl⟩
  | input id name =>
    rw [step, setInput, field?_of_shapeless h]
    exact ⟨_, rfl⟩
  | attach id =>
    rw [step, attachBlock, field, field?_of_shapeless h]
    exact ⟨_, rfl⟩
  | code =>
    rw [step, generateCode, field, field?_of_shapeless h]
    exact ⟨_, rfl⟩
  | _ => cases hroute

open Workspace (Reachable)

variable {settings : Settings} {store : Option Store} {palette : Palette}
variable {languages : List Code.Language} {trash : Option Rect}

/-- Whatever a user has done before, a request to do something that fits its route is
answered with success or refused with a message.  A body that is no JSON is enough to fit
a route that needs nothing but its body.  A body that is given and is no object breaks
down every route that starts by reading a field. -/
theorem status_of_posts
    (h : Reachable EstimatedLayout.Asked
      (Workspace.start settings store palette languages { trash }) w)
    (hzoom : (w.board.viewport.zoom == 0.0) = false)
    (hkey : (Store.keptText settings.storageKey).isOk = true)
    (hlanguage : settings.defaultLanguage.isScalar = true)
    (hunits : ∀ l ∈ languages, l.unit.IsText) (hposts : Posts r route) :
    (route.Fits w r → (answer r w).1.status ∈ [200, 201, 400]) ∧
    (route.needsBody = true → r.json? = none → Json.parse? r.body = none →
      (answer r w).1.status ∈ [200, 201, 400]) ∧
    (route.readsFields = true → (∀ members, r.payload ≠ .obj members) →
      (answer r w).1.status = 500) := by
  have hw := Workspace.serves_of_reachable h hzoom hkey hlanguage hunits
  have hfits (hfits : route.Fits w r) : (answer r w).1.status ∈ [200, 201, 400] := by
    rw [answer_of_posts hposts]
    exact status_of_runs (runs_step hw _ hposts.knows hfits)
  refine ⟨hfits, fun hroute hjson htext => hfits (fits_of_text hroute hjson htext), ?_⟩
  intro hroute hshape
  obtain ⟨cause, hcause⟩ := step_of_shapeless hroute hshape (Address.ofTarget r.target) w
  rw [answer_of_posts hposts, hcause]
  rfl

/-- A JSON body that is posted. -/
def jsonRequest (target body : String) : Request where
  method := "POST"
  target := target
  contentType := "application/json"
  body := body

/-- An index that is no number is refused with a message, and so is a bundle that is no JSON.
A list breaks down the adding of a definition. -/
theorem status_of_posts_sample :
    ∃ w : Workspace EstimatedLayout,
      Reachable EstimatedLayout.Asked (Workspace.start {} (some .empty) .standard [] {}) w ∧
      w.board.registry.size = 1 ∧
      (answer (jsonRequest "/api/blocks" "\x7b\"index\": \"one\"\x7d") w).1.status ∈
        [200, 201, 400] ∧
      (answer { method := "POST", target := "/api/import", body := "broken" } w).1.status ∈
        [200, 201, 400] ∧
      (answer (jsonRequest "/api/palette" "[1]") w).1.status = 500 := by
  let w₀ : Workspace EstimatedLayout := Workspace.start {} (some .empty) .standard [] {}
  let w₁ := (Operation.addEntry 2 .origin).perform w₀
  have h₀ : Reachable EstimatedLayout.Asked w₀ w₀ := .start
  have h₁ : Reachable _ w₀ w₁ := h₀.perform (.addEntry 2 .origin) fun _ => by decide +kernel
  have hzoom : (w₁.board.viewport.zoom == 0.0) = false := by decide +kernel
  refine ⟨w₁, h₁, by decide +kernel, ?_, ?_, ?_⟩
  · have hposts : Posts (jsonRequest "/api/blocks" "\x7b\"index\": \"one\"\x7d") .blocks := by
      decide +kernel
    let members : List (String × Json) := [("index", .str "one")]
    have hindex : (Json.member members "index").toInt = .error .badValue := rfl
    have hno (i : Int) : (Json.member members "index").toInt ≠ .ok i := by
      rw [hindex]
      exact nofun
    have hfits : FitsBlock w₁.palette members := by
      refine ⟨⟨?_, fun i _ hi => absurd hi (hno i)⟩, nofun, nofun, fun i _ hi => absurd hi (hno i)⟩
      rw [hindex]
      exact nofun
    exact (status_of_posts h₁ hzoom rfl rfl nofun hposts).1 (.inl ⟨members, rfl, hfits⟩)
  · have hposts : Posts { method := "POST", target := "/api/import", body := "broken" } .reading := by
      decide +kernel
    exact (status_of_posts h₁ hzoom rfl rfl nofun hposts).2.1 rfl rfl
      (Option.isNone_iff_eq_none.1 (by decide +kernel))
  · have hposts : Posts (jsonRequest "/api/palette" "[1]") .palette := by decide +kernel
    have hpayload : (jsonRequest "/api/palette" "[1]").payload = .arr [.int 1] := rfl
    refine (status_of_posts h₁ hzoom rfl rfl nofun hposts).2.2 rfl fun members hm => ?_
    cases hpayload.symm.trans hm

/-- An infinite index breaks down the making of a block. -/
theorem not_status_of_posts :
    ∃ (w : Workspace EstimatedLayout) (r : Request),
      Reachable EstimatedLayout.Asked (Workspace.start {} (some .empty) .standard [] {}) w ∧
      w.store = some .empty ∧ (w.board.viewport.zoom == 0.0) = false ∧ Posts r .blocks ∧
      (answer r w).1.status = 500 :=
  ⟨Workspace.start {} (some .empty) .standard [] {},
    jsonRequest "/api/blocks" "\x7b\"index\": 1e999\x7d", .start, rfl, by decide +kernel,
    by decide +kernel, by decide +kernel⟩

end Blockwork.Web
