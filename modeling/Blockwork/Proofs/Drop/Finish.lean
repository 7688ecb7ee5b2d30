import Blockwork.Drop.Session
import Blockwork.Geometry.Fixed
import Blockwork.Proofs.Bundle.SnapshotRoundTrip
import Blockwork.Proofs.Drop.TargetAdmitted

/-!
# How a drop ends

Dropping a block that is at the top level ends in one of three ways.  The block is
deleted with everything below it, or it is attached to the target, or it floats.  The
rules of attaching are never broken, since the target is a place that can be taken.

No block outside what is deleted holds anything of it, so there is nothing to scrub.  A
landing touches the block and the holder of the target, and no other block.
-/

namespace Blockwork

namespace Registry

variable {r r' : Registry} {id x p : BlockId} {b : Block} {removed gone : List BlockId}
variable {place : Parent} {target : Target} {release : Point}

/-! ## Deleting -/

/-- Some blocks are gone, and the others are as they were, in the same order. -/
structure Loses (r r' : Registry) (gone : List BlockId) : Prop where
  ids : r'.ids = r.ids.filter fun x => !gone.contains x
  kept : ∀ x, x ∉ gone → r'.get? x = r.get? x

theorem Loses.congr {gone' : List BlockId} (h : r.Loses r' gone)
    (hmem : ∀ x, x ∈ gone ↔ x ∈ gone') : r.Loses r' gone' where
  ids := by
    rw [h.ids]
    refine List.filter_congr fun x _ => ?_
    rw [Bool.eq_iff_iff]
    simp [hmem]
  kept x hx := h.kept x fun hx' => hx ((hmem x).1 hx')

theorem WellFormed.not_mentions (wf : r.WellFormed) (hb : r.get? x = some b)
    (h : ∀ c, r.Under c x → c ∉ removed) : mentions removed b = false := by
  refine Bool.or_eq_false_iff.2 ⟨List.any_eq_false.2 fun s hs => ?_, List.any_eq_false.2 ?_⟩
  · cases hc : s.2.child with
    | none => simp
    | some c =>
      have hslot := Table.lookup_of_mem (wf.slots_nodup hb) hs
      have hheld : r.Holds (.input x s.1) c :=
        ⟨b, hb, Block.childAt?_eq_some_iff.2 ⟨s.2, hslot, hc⟩⟩
      simpa using h c (wf.under_of_holds hheld rfl)
  · intro c hc
    simpa using h c (wf.under_of_mem_nested hb hc)

/-- Removing a block at the top level takes nothing but the block and its descendants. -/
theorem WellFormed.loses_remove (wf : r.WellFormed) (hroot : r.parent? id = some .none) :
    r.Loses (r.remove (r.subtree id)) (id :: r.descendants id) := by
  have hlive := contains_of_parent? hroot
  have hloses : r.Loses (r.remove (r.subtree id)) (r.subtree id) := by
    refine ⟨ids_remove, fun x hx => ?_⟩
    rw [get?_remove, if_neg hx]
    cases hb : r.get? x with
    | none => rfl
    | some b =>
      have hfree : mentions (r.subtree id) b = false := by
        refine wf.not_mentions hb fun c hc hmem => ?_
        -- what is below the block has its parent below it too, or is the block
        rcases Relation.ReflTransGen.cases_head ((wf.mem_subtree_iff hlive).1 hmem) with
          rfl | ⟨p, hp, hpid⟩
        · obtain ⟨place, hplace, hid⟩ := under_iff.1 hc
          cases hroot.symm.trans hplace
          cases hid
        · cases hc.symm.trans hp
          exact hx ((wf.mem_subtree_iff hlive).2 hpid)
      exact congrArg some (scrub_of_not_mentions hfree)
  refine hloses.congr fun x => ?_
  rw [wf.mem_subtree_iff hlive, List.mem_cons, wf.mem_descendants_iff,
    Relation.reflTransGen_iff_eq_or_transGen, eq_comm]
  rfl

/-! ## Landing -/

/-- A block has landed on a target, and nothing else has changed. -/
structure Lands (r r' : Registry) (id : BlockId) (release : Point) (target : Target) : Prop where
  ids : r'.ids = r.ids
  /-- The block lives where the target is, and lies where it was released or where the
  target says. -/
  block : ∃ b, r.get? id = some b ∧ r'.get? id = some
    { b with parent := target.place, position := target.position?.getD release }
  /-- The block is the last one of the body. -/
  body : ∀ c, target = .body c → ∃ b, r.get? c = some b ∧ b.kind.hasBody = true ∧
    r'.get? c = some { b with nested := b.nested ++ [id] }
  /-- The block is over the input, and no other block was. -/
  input : ∀ p slot, target = .input p slot → ∃ b s, r.get? p = some b ∧
    b.slot? slot = some s ∧ s.child = none ∧
    r'.get? p = some (b.modifySlot slot fun s => { s with child := some id })
  others : ∀ x, x ≠ id → target.place.id? ≠ some x → r'.get? x = r.get? x

/-- The blocks when one of them has been given a position. -/
def placed (r : Registry) (id : BlockId) (position : Point) : Registry :=
  r.modify id fun b => { b with position }

/-- The blocks when one of them has landed on a target. -/
def landed (r : Registry) (id : BlockId) : Target → Registry
  | .nowhere => r
  | .input parent slot => r.link id (.input parent slot)
  | .body container => r.link id (.container container)
  | .below _ position => r.placed id position

@[simp] theorem get?_placed (position : Point) : (r.placed id position).get? x =
    (r.get? x).map fun b => if x = id then { b with position } else b :=
  get?_modify r id x _

theorem get?_placed_of_ne (hx : x ≠ id) (position : Point) :
    (r.placed id position).get? x = r.get? x := by
  simp [hx]

theorem WellFormed.placed (wf : r.WellFormed) (position : Point) :
    (r.placed id position).WellFormed :=
  wf.modify (alike_place position)

@[simp] theorem parent?_placed (position : Point) : (r.placed id position).parent? x = r.parent? x := by
  rw [parent?, get?_placed, Option.map_map, parent?]
  refine congrArg (fun f => (r.get? x).map f) (funext fun b => ?_)
  by_cases hx : x = id <;> simp [hx]

theorem WellFormed.landed (wf : r.WellFormed)
    (h : target.attaches = true → r.Admits id target.place) : (r.landed id target).WellFormed := by
  cases target with
  | nowhere => exact wf
  | input parent slot => exact wf.link (h rfl)
  | body container => exact wf.link (h rfl)
  | below upper position => exact wf.placed position

/-- An edge is written with its holder and with the child, and nowhere else. -/
theorem linked_of_not_holder (hp : place.id? ≠ some x) :
    linked id place x b = if x = id then { b with parent := place } else b := by
  have hs : slotsLinked id x b.slots place = b.slots := by
    cases place with
    | none => rfl
    | container c => rfl
    | input c slot =>
      have hne : x ≠ c := fun he => hp (congrArg some he.symm)
      exact if_neg hne
  have hn : place ≠ .container x := by
    rintro rfl
    exact hp rfl
  rw [linked, hs, if_neg hn]
  by_cases hx : x = id
  · rw [if_pos hx, if_pos hx]
  · rw [if_neg hx, if_neg hx]

theorem get?_link_placed (hb : r.get? id = some b)
    (hadmits : (r.placed id release).Admits id place) :
    ((r.placed id release).link id place).get? id =
      some { b with parent := place, position := release } := by
  have hne : place.id? ≠ some id := fun hp => (hadmits.outside id hp).1 rfl
  have hb' : (r.placed id release).get? id = some { b with position := release } := by
    simp [get?_placed, hb]
  rw [get?_link hadmits.ne_none, hb', Option.map_some, linked_of_not_holder hne, if_pos rfl]

theorem get?_link_placed_of_ne (hadmits : (r.placed id release).Admits id place) (hx : x ≠ id) :
    ((r.placed id release).link id place).get? x = (r.get? x).map (linked id place x) := by
  rw [get?_link hadmits.ne_none, get?_placed_of_ne hx]

theorem get?_link_placed_of_not_holder (hadmits : (r.placed id release).Admits id place)
    (hx : x ≠ id) (hp : place.id? ≠ some x) :
    ((r.placed id release).link id place).get? x = r.get? x := by
  rw [get?_link_placed_of_ne hadmits hx]
  cases r.get? x with
  | none => rfl
  | some b => rw [Option.map_some, linked_of_not_holder hp, if_neg hx]

/-- Landing on an admitted target touches the block and the holder of the target. -/
theorem WellFormed.lands (wf : r.WellFormed) (hroot : r.parent? id = some .none)
    (h : target.attaches = true → (r.placed id release).Admits id target.place) :
    r.Lands ((r.placed id release).landed id target) id release target := by
  obtain ⟨b, hb, hparent⟩ := parent?_eq_some_iff.1 hroot
  have hb' : (r.placed id release).get? id = some { b with position := release } := by
    simp [hb]
  have hids : (r.placed id release).ids = r.ids := by simp [Registry.placed]
  cases target with
  | nowhere =>
    refine ⟨hids, ⟨b, hb, ?_⟩, by simp, by simp, fun x hx _ => get?_placed_of_ne hx _⟩
    rw [Registry.landed, hb']
    simp [Target.position?, Target.place, hparent]
  | below upper position =>
    refine ⟨(ids_modify ..).trans hids, ⟨b, hb, ?_⟩, by simp, by simp, fun x hx _ => ?_⟩
    · rw [Registry.landed, get?_placed, hb']
      simp [Target.position?, Target.place, hparent]
    · rw [Registry.landed, get?_placed_of_ne hx, get?_placed_of_ne hx]
  | body c =>
    have hadmits : (r.placed id release).Admits id (.container c) := h rfl
    have hne : c ≠ id := (hadmits.outside c rfl).1
    obtain ⟨cb, hc, hk⟩ := hadmits.room
    rw [get?_placed_of_ne hne] at hc
    refine ⟨ids_link.trans hids, ⟨b, hb, get?_link_placed hb hadmits⟩, ?_, by simp,
      fun x hx hp => get?_link_placed_of_not_holder hadmits hx hp⟩
    intro c' hc'
    cases hc'
    refine ⟨cb, hc, hk, ?_⟩
    rw [Registry.landed, get?_link_placed_of_ne hadmits hne, hc]
    simp [linked, slotsLinked, hne]
  | input p slot =>
    have hadmits : (r.placed id release).Admits id (.input p slot) := h rfl
    have hne : p ≠ id := (hadmits.outside p rfl).1
    obtain ⟨pb, s, hp, hs, hempty⟩ := (wf.placed release).slot_empty hadmits
    rw [get?_placed_of_ne hne] at hp
    refine ⟨ids_link.trans hids, ⟨b, hb, get?_link_placed hb hadmits⟩, by simp, ?_,
      fun x hx hp => get?_link_placed_of_not_holder hadmits hx hp⟩
    intro p' slot' he
    cases he
    refine ⟨pb, s, hp, hs, hempty, ?_⟩
    rw [Registry.landed, get?_link_placed_of_ne hadmits hne, hp]
    simp [linked, slotsLinked, hne, Block.modifySlot]

end Registry

namespace Session

variable {σ : Type} [Geometry σ] {I : Scene → σ → Prop} {b : Board σ} {d : Dragging σ}
variable {id : BlockId} {target : Target}

/-- Where a block is released and where it lands, asked while it is being dropped. -/
def aim (id : BlockId) (pointer offset : Point) : BoardM σ (Point × Target) := do
  let p ← Board.ask (Survey.workspacePoint pointer)
  place id (p.sub offset)
  let release ← Board.ask (Survey.workspacePoint pointer)
  let target ← Board.ask (Target.resolve id pointer (some release))
  return (p.sub offset, target)

omit [Geometry σ] in
theorem ask_run {α : Type} {q : Query σ α} {Q : α → Prop}
    (hq : q.Answers ⟨b.registry, b.viewport⟩ (I ⟨b.registry, b.viewport⟩) Q)
    (hI : I ⟨b.registry, b.viewport⟩ b.layout) :
    ∃ a l, Board.ask q b = (.ok a, { b with layout := l }) ∧ I ⟨b.registry, b.viewport⟩ l ∧
      Q a := by
  obtain ⟨a, l, ha, hl, hQ⟩ := hq b.layout hI
  refine ⟨a, l, ?_, hl, hQ⟩
  rw [Board.ask, ha]

/-- A block is released somewhere, and the target is one that it can be attached to, if it
is one for attaching. -/
theorem aim_run (hg : Geometry.Answering I) (wf : b.registry.WellFormed)
    (hI : I ⟨b.registry, b.viewport⟩ b.layout)
    (hroot : b.registry.parent? id = some .none) (pointer offset : Point) :
    ∃ release target b', aim id pointer offset b = (.ok (release, target), b') ∧
      b'.registry = b.registry.placed id release ∧
      (target.attaches = true → b'.registry.Admits id target.place) := by
  obtain ⟨p, l, hp, hl, -⟩ := ask_run (hg.workspacePoint pointer) hI
  let b₁ : Board σ := { b with registry := b.registry.placed id (p.sub offset), layout := l }
  have hplace : place id (p.sub offset) { b with layout := l } = (.ok (), b₁) := rfl
  obtain ⟨q, l₁, hq, hl₁, -⟩ :=
    ask_run (b := b₁) (hg.workspacePoint pointer) (hg.placed id (p.sub offset) hl)
  have hroot₁ : b₁.registry.parent? id = some .none := by
    rw [Registry.parent?_placed, hroot]
  obtain ⟨target, l₂, ht, -, hadmits⟩ := ask_run (b := { b₁ with layout := l₁ })
    (Target.answers_resolve hg (wf.placed _) (Registry.contains_of_parent? hroot₁) pointer q) hl₁
  refine ⟨p.sub offset, target, { b₁ with layout := l₂ }, ?_, rfl, (hadmits · hroot₁)⟩
  rw [aim, run_bind_ok hp, run_bind_ok hplace, run_bind_ok hq, run_bind_ok ht]
  rfl

omit [Geometry σ] in
theorem allowed_run {m : BoardM σ Unit} {b' : Board σ} (h : m b = (.ok (), b')) :
    allowed m b = (.ok true, b') := by
  rw [allowed, h]

/-- A landing that the rules allow is not refused. -/
theorem land_run (h : target.attaches = true → b.registry.Admits id target.place) :
    ∃ b', land id target b = (.ok (target.attaches, false), b') ∧
      b'.registry = b.registry.landed id target := by
  cases target with
  | nowhere => exact ⟨b, rfl, rfl⟩
  | below upper position => exact ⟨{ b with registry := _ }, rfl, rfl⟩
  | input parent slot =>
    exact ⟨_, run_bind_ok (allowed_run (Board.attachToInput_run (h rfl))),
      Board.registry_notices ..⟩
  | body container =>
    exact ⟨_, run_bind_ok (allowed_run (Board.attachToBody_run (h rfl))),
      Board.registry_notices ..⟩

omit [Geometry σ] in
theorem onBoard_run {α : Type} {m : BoardM σ α} {a : α} {b' : Board σ}
    (h : m d.board = (.ok a, b')) : onBoard m d = (.ok a, { d with board := b' }) := by
  rw [onBoard, h]

section Finish

variable {pointer : Point} {c : Block} (hactive : d.session.state = .dragging)
  (hblock : d.session.block = some id) (hc : d.board.registry.get? id = some c)

include hactive hblock in
omit [Geometry σ] in
theorem demandActive_run : demandActive d = (.ok id, d) := by
  obtain ⟨board, session⟩ := d
  cases session
  cases hactive
  cases hblock
  rfl

include hactive hblock hc

/-- A drop that deletes the block. -/
theorem finish_deleted {b : Board σ}
    (hask : Board.ask (Target.deletes pointer) d.board = (.ok true, b))
    (hregistry : b.registry = d.board.registry) :
    ∃ d', finish pointer d = (.ok .deleted, d') ∧ d'.session.state = .deleted ∧
      d'.board.registry = d.board.registry.remove (d.board.registry.subtree id) := by
  let d₁ : Dragging σ := { d with session := { d.session with pointer := some pointer } }
  have hrequire : onBoard (Board.require id) d₁ = (.ok c, d₁) :=
    onBoard_run (Board.require_ok_iff.2 ⟨hc, rfl⟩)
  have hupdate (d : Dragging σ) (f : Session → Session) :
      update f d = (.ok (), { d with session := f d.session }) := rfl
  have hasked : onBoard (Board.ask (Target.deletes pointer)) d₁ = (.ok true, { d₁ with board := b }) :=
    onBoard_run hask
  have hremove : ∃ b₁, Board.remove id b = (.ok (b.registry.subtree id), b₁) ∧
      b₁.registry = b.registry.remove (b.registry.subtree id) := by
    obtain ⟨heard, hrun, -⟩ := Board.remove_run (hregistry ▸ hc)
    exact ⟨_, hrun, (Board.registry_notices ..).trans (Board.registry_notices ..)⟩
  obtain ⟨b₁, hremove, hremoved⟩ := hremove
  rw [finish, run_bind_ok (demandActive_run hactive hblock), run_bind_ok (hupdate d _),
    run_bind_ok hrequire, run_bind_ok hasked]
  simp only [if_true]
  rw [run_bind_ok (onBoard_run hremove), run_bind_ok (hupdate _ _),
    run_bind_ok (onBoard_run (Board.refresh_run b₁))]
  refine ⟨_, rfl, rfl, ?_⟩
  rw [← hregistry, ← hremoved]
  exact Board.registry_notices _ b₁

/-- A drop that does not delete the block lets it land. -/
theorem finish_landed {b b' b'' : Board σ} {release : Point} {target : Target}
    (hask : Board.ask (Target.deletes pointer) d.board = (.ok false, b))
    (haim : aim id pointer d.session.offset b = (.ok (release, target), b'))
    (hland : land id target b' = (.ok (target.attaches, false), b'')) :
    ∃ d', finish pointer d = (.ok (if target.attaches then .attached else .floating), d') ∧
      d'.session.state = (if target.attaches then .attached else .floating) ∧
      d'.session.target = some target ∧ d'.board.registry = b''.registry := by
  let d₁ : Dragging σ := { d with session := { d.session with pointer := some pointer } }
  have hrequire : onBoard (Board.require id) d₁ = (.ok c, d₁) :=
    onBoard_run (Board.require_ok_iff.2 ⟨hc, rfl⟩)
  have hupdate (d : Dragging σ) (f : Session → Session) :
      update f d = (.ok (), { d with session := f d.session }) := rfl
  have hasked : onBoard (Board.ask (Target.deletes pointer)) d₁ =
      (.ok false, { d₁ with board := b }) := onBoard_run hask
  obtain ⟨p, b₁, hp, h⟩ := run_bind_eq_ok.1 haim
  obtain ⟨_, b₂, hplace, h⟩ := run_bind_eq_ok.1 h
  obtain ⟨q, b₃, hq, h⟩ := run_bind_eq_ok.1 h
  obtain ⟨t, b₄, ht, h⟩ := run_bind_eq_ok.1 h
  cases h
  rw [finish, run_bind_ok (demandActive_run hactive hblock), run_bind_ok (hupdate d _),
    run_bind_ok hrequire, run_bind_ok hasked]
  simp only [Bool.false_eq_true, if_false]
  have hrelease : releasePosition pointer { d₁ with board := b } =
      (.ok (p.sub d.session.offset), { d₁ with board := b₁ }) := by
    rw [releasePosition, run_bind_ok (onBoard_run hp)]
    rfl
  rw [run_bind_ok hrelease, run_bind_ok (onBoard_run hplace), run_bind_ok (onBoard_run hq),
    run_bind_ok (onBoard_run ht), run_bind_ok (hupdate _ _), run_bind_ok (onBoard_run hland)]
  have hrefresh := Board.refresh_run b''
  cases target.attaches with
  | true =>
    exact ⟨_, run_bind_ok (onBoard_run hrefresh), rfl, rfl, Board.registry_notices _ b''⟩
  | false =>
    exact ⟨_, run_bind_ok (onBoard_run hrefresh), rfl, rfl, Board.registry_notices _ b''⟩

end Finish

/-- However a block at the top level is dropped, the drop comes to one end.  It deletes the
block with its descendants exactly if the pointer asks for that.  Otherwise the block
lands on the target, which is not refused, and is attached or floats as the target says.
All other blocks stay as they are. -/
theorem finish_outcome (hg : Geometry.Answering I) (wf : d.board.registry.WellFormed)
    (hI : I ⟨d.board.registry, d.board.viewport⟩ d.board.layout)
    (hactive : d.session.state = .dragging) (hblock : d.session.block = some id)
    (hroot : d.board.registry.parent? id = some .none) (pointer : Point) :
    ∃ deletes b state d', Board.ask (Target.deletes pointer) d.board = (.ok deletes, b) ∧
      finish pointer d = (.ok state, d') ∧ d'.session.state = state ∧
      d'.board.registry.WellFormed ∧ (state = .deleted ↔ deletes = true) ∧
      (deletes = true → d.board.registry.Loses d'.board.registry
        (id :: d.board.registry.descendants id)) ∧
      (deletes = false → ∃ release target b' b'',
        aim id pointer d.session.offset b = (.ok (release, target), b') ∧
        land id target b' = (.ok (target.attaches, false), b'') ∧
        state = (if target.attaches then .attached else .floating) ∧
        d'.session.target = some target ∧
        d.board.registry.Lands d'.board.registry id release target) := by
  obtain ⟨c, hc, -⟩ := Registry.parent?_eq_some_iff.1 hroot
  obtain ⟨deletes, l, hask, hl, -⟩ := ask_run (Target.answers_deletes hg pointer) hI
  cases deletes with
  | true =>
    obtain ⟨d', hfinish, hstate, hregistry⟩ := finish_deleted hactive hblock hc hask rfl
    have hloses := wf.loses_remove hroot
    have hwf := wf.remove (wf.downward_subtree (Registry.contains_of_get? hc))
    rw [← hregistry] at hloses hwf
    exact ⟨true, _, .deleted, d', hask, hfinish, hstate, hwf, by simp, fun _ => hloses, nofun⟩
  | false =>
    obtain ⟨release, target, b', haim, hplaced, hadmits⟩ :=
      aim_run hg (b := { d.board with layout := l }) wf hl hroot pointer d.session.offset
    obtain ⟨b'', hland, hlanded⟩ := land_run hadmits
    obtain ⟨d', hfinish, hstate, htarget, hregistry⟩ :=
      finish_landed hactive hblock hc hask haim hland
    rw [hplaced] at hadmits hlanded
    have hlands := wf.lands hroot hadmits
    have hwf := (wf.placed release).landed hadmits
    rw [← hlanded, ← hregistry] at hlands hwf
    refine ⟨false, _, _, d', hask, hfinish, hstate, hwf, ?_, nofun, fun _ => ?_⟩
    · cases target.attaches <;> simp
    · exact ⟨release, target, b', b'', haim, hland, rfl, htarget, hlands⟩

end Session

/-! ## Dropping over tables -/

/-- No row of a fixed geometry is a breakdown. -/
structure FixedGeometry.Sound (g : FixedGeometry) : Prop where
  rows : ∀ e ∈ g.boxes ++ g.slots ++ g.bodies, ∃ r, e.2 = .ok r
  workspace : ∃ r, g.workspace = .ok r

theorem FixedGeometry.Sound.of_isEmpty {g : FixedGeometry}
    (hrows : (g.boxes ++ g.slots ++ g.bodies).isEmpty = true) (hw : g.workspace.isOk = true) :
    g.Sound where
  rows e he := by
    rw [List.isEmpty_iff.1 hrows] at he
    cases he
  workspace := by
    cases h : g.workspace with
    | ok r => exact ⟨r, rfl⟩
    | error f =>
      rw [h] at hw
      cases hw

open Query (Answers answers_pure answers_get)

/-- The rectangle in a row of a table, if there is one. -/
def RectTable.row? (t : RectTable) (name : String) : Option Rect :=
  (List.lookup name t).bind Except.toOption

theorem RectTable.answers_ask {σ : Type} {scene : Scene} {J : σ → Prop} {t : RectTable}
    (h : ∀ e ∈ t, ∃ r, e.2 = .ok r) (name : String) :
    Answers scene J (t.ask name) (t.row? name = ·) := by
  rw [RectTable.ask, RectTable.row?]
  cases hrow : List.lookup name t with
  | none => exact answers_pure rfl
  | some row =>
    obtain ⟨r, hr⟩ := h (name, row) (Table.mem_of_lookup hrow)
    have hrow : row = .ok r := hr
    subst hrow
    exact answers_pure rfl

namespace FixedGeometry

/-- A fixed geometry without breakdowns answers everything. -/
theorem answering : Geometry.Answering fun _ g => Sound g where
  boundingBox _ := .bind answers_get fun g hg => by
    refine .bind (RectTable.answers_ask (fun e he => ?_) _) fun _ _ => answers_pure trivial
    exact hg.rows e (List.mem_append_left _ (List.mem_append_left _ he))
  slotRect _ _ := .bind answers_get fun g hg => by
    refine (RectTable.answers_ask (fun e he => ?_) _).mono fun _ _ => trivial
    exact hg.rows e (List.mem_append_left _ (List.mem_append_right _ he))
  bodyRect _ := .bind answers_get fun g hg => by
    refine (RectTable.answers_ask (fun e he => ?_) _).mono fun _ _ => trivial
    exact hg.rows e (List.mem_append_right _ he)
  screenPoint p := answers_pure trivial
  workspacePoint p := answers_pure trivial
  workspaceRect := .bind answers_get fun g hg => by
    obtain ⟨r, hr⟩ := hg.workspace
    rw [hr]
    exact answers_pure trivial
  deletionRect := answers_pure trivial
  placed _ _ hl := hl

/-- A container with a body of a known size, which is being dragged. -/
def sampleDrag : Dragging FixedGeometry where
  board := {
    layout := { bodies := [("a", .ok ⟨10.0, 22.0, 100.0, 80.0⟩)] }
    registry := Bundle.sampleRegistry }
  session := { state := .dragging, block := some "a" }

theorem sound_sampleDrag : sampleDrag.board.layout.Sound where
  rows e he := ⟨⟨10.0, 22.0, 100.0, 80.0⟩, by rw [List.mem_singleton.1 he]⟩
  workspace := ⟨_, rfl⟩

end FixedGeometry

/-- A container with a command and a value is dropped: it goes with them, or it lands where
the rules allow it. -/
theorem Session.finish_outcome_sampleDrag :
    ∃ state d', finish ⟨40.0, 60.0⟩ FixedGeometry.sampleDrag = (.ok state, d') ∧
      d'.board.registry.WellFormed ∧
      (state = .deleted → d'.board.registry.ids = []) ∧
      (state ≠ .deleted → d'.board.registry.ids = ["a", "b", "v"]) := by
  obtain ⟨deletes, b, state, d', -, hfinish, -, hwf, hiff, hloses, hlands⟩ :=
    finish_outcome (d := FixedGeometry.sampleDrag) FixedGeometry.answering
      Bundle.wellFormed_sampleRegistry FixedGeometry.sound_sampleDrag rfl rfl rfl ⟨40.0, 60.0⟩
  refine ⟨state, d', hfinish, hwf, fun hstate => ?_, fun hstate => ?_⟩
  · rw [(hloses (hiff.1 hstate)).ids]
    decide +kernel
  · obtain ⟨release, target, b', b'', -, -, -, -, h⟩ :=
      hlands (Bool.eq_false_iff.2 fun hd => hstate (hiff.2 hd))
    exact h.ids

end Blockwork
