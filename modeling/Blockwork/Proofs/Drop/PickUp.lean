import Blockwork.Proofs.Geometry.Coherence
import Blockwork.Proofs.Workspace.ActiveDrag
import Blockwork.Proofs.Workspace.Frames

/-!
# What is left when picking up fails

A block is taken out of its place before the pointer is looked up in the workspace.  Where
the viewport cannot tell the workspace point, as with a zoom of zero, picking up a nested
block fails when it has already been brought to the top level, and there it stays.  The
workspace has no drag then.

This is the only way in which picking up a block can fail and leave a trace in the blocks.
Everything else that can go wrong does so before the first edge is cut: a drag that is under
way, an id without a block, a position that cannot be worked out.  A block that is made from
the palette is made under the pointer, so the pointer has been looked up before there is
anything to undo, and looking it up once more gives the same.
-/

namespace Blockwork

variable {σ : Type} [Geometry σ] {convert : Viewport → Point → Except Fault Point}

/-- The workspace point of a pointer depends on the viewport alone. -/
def Geometry.Converts (σ : Type) [Geometry σ] (convert : Viewport → Point → Except Fault Point) :
    Prop :=
  ∀ scene (layout : σ) p, (Survey.workspacePoint p scene layout).1 = convert scene.viewport p

theorem EstimatedLayout.converts :
    Geometry.Converts EstimatedLayout fun v p => (v.toWorkspace p).mapError .breakdown :=
  fun _ _ _ => rfl

theorem FixedGeometry.converts : Geometry.Converts FixedGeometry fun _ p => .ok p :=
  fun _ _ _ => rfl

namespace Board

variable {b : Board σ} {id : BlockId}

/-- Looking up the pointer. -/
theorem ask_workspacePoint (hc : Geometry.Converts σ convert) (p : Point) (b : Board σ) :
    ∃ layout, ask (Survey.workspacePoint p) b = (convert b.viewport p, { b with layout }) := by
  refine ⟨(Survey.workspacePoint p ⟨b.registry, b.viewport⟩ b.layout).2, ?_⟩
  rw [← hc ⟨b.registry, b.viewport⟩ b.layout p]
  rfl

theorem viewport_detach (id : BlockId) (b : Board σ) : (detach id b).2.viewport = b.viewport :=
  keeps_detach aside_viewport id b

theorem detach_of_free (h : b.registry.Free id) : detach id b = (.ok false, b) := by
  obtain ⟨c, hc, hp⟩ := Registry.parent?_eq_some_iff.1 h
  exact detach_of_root hc (Parent.id?_eq_none_iff.2 hp)

/-- Only a block that is taken out of a place changes anything. -/
theorem registry_detach (h : (detach id b).1 ≠ .ok true) :
    (detach id b).2.registry = b.registry := by
  rcases detach_cases id b with ⟨f, -, hr⟩ | ⟨hrun, -⟩ | ⟨place, position, -, hok, -⟩
  · exact hr
  · rw [hrun]
  · exact absurd hok h

/-- A block that is taken out of a place was not free, and is. -/
theorem registry_detach_ne (h : (detach id b).1 = .ok true) :
    (detach id b).2.registry ≠ b.registry := by
  intro hsame
  have hfree : (detach id b).2.registry.Free id := free_of_detach (Prod.ext h rfl)
  rw [hsame] at hfree
  rw [detach_of_free hfree] at h
  cases h

end Board

namespace Session

variable {d : Dragging σ} {id : BlockId} {pointer : Point}

omit [Geometry σ] in
theorem onBoard_error {α : Type} {m : BoardM σ α} {f : Fault} {b : Board σ}
    (h : m d.board = (.error f, b)) : onBoard m d = (.error f, { d with board := b }) := by
  rw [onBoard, h]

/-- What a new session does first: the block is taken out of its place, if it has one. -/
theorem start_eq (hidle : d.session.state = .idle) : start id pointer d = (do
    let _ ← onBoard (Board.detach id)
    let p ← onBoard (Board.ask (Survey.workspacePoint pointer))
    let b ← onBoard (Board.require id)
    update fun s => { s with
      offset := p.sub b.position
      block := some id
      pointer := some pointer
      state := .dragging } : SessionM σ Unit) d := by
  have hget : (get : SessionM σ (Dragging σ)) d = (.ok d, d) := rfl
  rw [start, run_bind_ok hget]
  dsimp only
  rw [if_pos hidle]
  cases hb : d.board.registry.get? id with
  | none =>
    have hrequire := Board.require_of_dead (b := d.board) hb
    rw [run_bind_error (onBoard_error hrequire),
      run_bind_error (onBoard_error (Board.detach_of_dead hb))]
  | some b =>
    have hrequire : onBoard (Board.require id) d = (.ok b, d) :=
      onBoard_run (Board.require_ok_iff.2 ⟨hb, rfl⟩)
    rw [run_bind_ok hrequire]
    by_cases hroot : b.parent.isNone = true
    · have hfree : d.board.registry.Free id :=
        Registry.parent?_eq_some_iff.2 ⟨b, hb, Parent.isNone_iff.1 hroot⟩
      rw [if_pos hroot, run_bind_ok (onBoard_run (Board.detach_of_free hfree))]
    · rw [if_neg hroot]

/-- Picking up a block in a new session.  It fails if the block cannot be taken out of its
place, and then if there is no workspace point, and not otherwise. -/
theorem start_outcome (hc : Geometry.Converts σ convert) (hidle : d.session.state = .idle)
    (id : BlockId) (pointer : Point) :
    (∃ f, (Board.detach id d.board).1 = .error f ∧
      start id pointer d = (.error f, { d with board := (Board.detach id d.board).2 })) ∨
    ∃ detached, (Board.detach id d.board).1 = .ok detached ∧
      ((∃ f layout, convert d.board.viewport pointer = .error f ∧ start id pointer d =
        (.error f, { d with board := { (Board.detach id d.board).2 with layout } })) ∨
      ∃ p d', convert d.board.viewport pointer = .ok p ∧ start id pointer d = (.ok (), d')) := by
  rw [start_eq hidle]
  rcases hdetach : Board.detach id d.board with ⟨f | detached, b⟩
  · exact .inl ⟨f, rfl, run_bind_error (onBoard_error hdetach)⟩
  · refine .inr ⟨detached, rfl, ?_⟩
    rw [run_bind_ok (onBoard_run hdetach)]
    obtain ⟨layout, hask⟩ := Board.ask_workspacePoint hc pointer b
    have hviewport : d.board.viewport = b.viewport := by
      rw [← Board.viewport_detach id d.board, hdetach]
    rw [hviewport]
    cases hp : convert b.viewport pointer with
    | error f =>
      rw [hp] at hask
      exact .inl ⟨f, layout, rfl, run_bind_error (onBoard_error hask)⟩
    | ok p =>
      rw [hp] at hask
      obtain ⟨c, hlive, -⟩ := Registry.parent?_eq_some_iff.1 (Board.free_of_detach hdetach)
      have hrequire : Board.require id { b with layout } = (.ok c, { b with layout }) :=
        Board.require_ok_iff.2 ⟨hlive, rfl⟩
      let picked : Session := { d.session with
        offset := p.sub c.position
        block := some id
        pointer := some pointer
        state := .dragging }
      refine .inr ⟨p, ⟨{ b with layout }, picked⟩, rfl, ?_⟩
      rw [run_bind_ok (onBoard_run hask), run_bind_ok (onBoard_run hrequire)]
      rfl

end Session

namespace Workspace

variable {w w' : Workspace σ} {id : BlockId} {pointer : Point} {f : Fault}

theorem startDrag_of_dragging (h : w.isDragging = true) (id : BlockId) (pointer : Point) :
    ∃ f, startDrag id pointer w = (.error f, w) := by
  obtain ⟨f, hf⟩ := demandNoDrag_of_dragging h
  exact ⟨f, run_bind_error hf⟩

/-- Without a drag under way picking up a block is what a new session does. -/
theorem startDrag_run (h : w.isDragging = false) {r : Except Fault Unit} {d : Dragging σ}
    (hs : Session.start id pointer ⟨w.board, {}⟩ = (r, d)) : startDrag id pointer w =
      match r with
      | .ok _ => (.ok d.session, { w with board := d.board, drag := some d.session })
      | .error f => (.error f, { w with board := d.board }) := by
  have hsession : runSession {} (Session.start id pointer) w =
      (.ok (r, d.session), { w with board := d.board }) := by
    rw [runSession, hs]
  rw [startDrag, run_bind_ok (demandNoDrag_of_not_dragging h), run_bind_ok hsession]
  cases r <;> rfl

/-- When picking up a block fails, there is no new drag, and the blocks are as they were
unless the block has been taken out of its place and there is no workspace point. -/
theorem startDrag_error (hc : Geometry.Converts σ convert)
    (h : startDrag id pointer w = (.error f, w')) : w'.drag = w.drag ∧
      (w'.board.registry = w.board.registry ∨
        w.isDragging = false ∧ (Board.detach id w.board).1 = .ok true ∧
          convert w.board.viewport pointer = .error f ∧
          w'.board.registry = (Board.detach id w.board).2.registry) := by
  cases hd : w.isDragging with
  | true =>
    obtain ⟨g, hg⟩ := startDrag_of_dragging hd id pointer
    cases hg.symm.trans h
    exact ⟨rfl, .inl rfl⟩
  | false =>
    rcases Session.start_outcome (d := ⟨w.board, {}⟩) hc rfl id pointer with
      ⟨g, hdetach, hs⟩ | ⟨detached, hdetach, ⟨g, layout, hp, hs⟩ | ⟨p, d', -, hs⟩⟩
    · cases (startDrag_run hd hs).symm.trans h
      have hne : (Board.detach id w.board).1 ≠ .ok true := by
        rw [hdetach]
        nofun
      exact ⟨rfl, .inl (Board.registry_detach hne)⟩
    · cases (startDrag_run hd hs).symm.trans h
      refine ⟨rfl, ?_⟩
      cases detached with
      | true => exact .inr ⟨rfl, hdetach, hp, rfl⟩
      | false =>
        have hne : (Board.detach id w.board).1 ≠ .ok true := by
          rw [hdetach]
          nofun
        exact .inl (Board.registry_detach hne)
    · cases (startDrag_run hd hs).symm.trans h

/-- A block that is taken out of its place where there is no workspace point is not picked
up. -/
theorem startDrag_stranded (hc : Geometry.Converts σ convert) (hidle : w.isDragging = false)
    (hdetach : (Board.detach id w.board).1 = .ok true)
    (hp : convert w.board.viewport pointer = .error f) :
    ∃ w', startDrag id pointer w = (.error f, w') ∧
      w'.board.registry = (Board.detach id w.board).2.registry := by
  rcases Session.start_outcome (d := ⟨w.board, {}⟩) hc rfl id pointer with
    ⟨g, hd, -⟩ | ⟨detached, -, ⟨g, layout, hg, hs⟩ | ⟨p, d', hg, -⟩⟩
  · cases hdetach.symm.trans hd
  · cases hp.symm.trans hg
    exact ⟨_, startDrag_run hidle hs, rfl⟩
  · cases hp.symm.trans hg

/-- A free block is picked up where there is a workspace point. -/
theorem startDrag_of_free (hc : Geometry.Converts σ convert) (hidle : w.isDragging = false)
    (hfree : w.board.registry.Free id) {p : Point}
    (hp : convert w.board.viewport pointer = .ok p) :
    ∃ s w', startDrag id pointer w = (.ok s, w') := by
  have hdetach : (Board.detach id w.board).1 = .ok false := by rw [Board.detach_of_free hfree]
  rcases Session.start_outcome (d := ⟨w.board, {}⟩) hc rfl id pointer with
    ⟨g, hd, -⟩ | ⟨detached, -, ⟨g, layout, hg, -⟩ | ⟨p, d', -, hs⟩⟩
  · cases hdetach.symm.trans hd
  · cases hp.symm.trans hg
  · exact ⟨_, _, startDrag_run hidle hs⟩

omit [Geometry σ] in
/-- A block is made of a definition, or the definition breaks down and nothing is done. -/
theorem create_run (d : Definition) (position : Point) (w : Workspace σ) :
    create d position none w = match Definition.lift (Block.ofDefinition d position) with
      | .error f => (.error f, w)
      | .ok b => (.ok (nthId (w.issued + 1)), { w with
          issued := w.issued + 1
          board := { w.board with registry := w.board.registry.insert (nthId (w.issued + 1)) b } }) := by
  have hblocks : blocks w = (.ok w.board.registry, w) := rfl
  rw [create, run_bind_ok hblocks]
  dsimp only
  cases hb : Definition.lift (Block.ofDefinition d position) with
  | error f => exact run_bind_error rfl
  | ok b => rfl

/-- When picking up a block of the palette fails, there is no new drag and no new block. -/
theorem startPaletteDrag_error (hc : Geometry.Converts σ convert) {index : Int}
    (h : startPaletteDrag index pointer w = (.error f, w')) :
    w'.drag = w.drag ∧ w'.board.registry = w.board.registry := by
  cases hd : w.isDragging with
  | true =>
    obtain ⟨g, hbusy⟩ := demandNoDrag_of_dragging hd
    have hrun : startPaletteDrag index pointer w = (.error g, w) := run_bind_error hbusy
    cases hrun.symm.trans h
    exact ⟨rfl, rfl⟩
  | false =>
    rw [startPaletteDrag, run_bind_ok (demandNoDrag_of_not_dragging hd)] at h
    have hentry : entry index w = (w.palette.get index, w) := rfl
    cases hdefinition : w.palette.get index with
    | error g =>
      rw [hdefinition] at hentry
      cases (run_bind_error hentry).symm.trans h
      exact ⟨rfl, rfl⟩
    | ok d =>
      rw [hdefinition] at hentry
      rw [run_bind_ok hentry] at h
      obtain ⟨layout, hlook⟩ := Board.ask_workspacePoint hc pointer w.board
      have hask : ask (Survey.workspacePoint pointer) w =
          (convert w.board.viewport pointer, { w with board := { w.board with layout } }) := by
        rw [ask, onBoard, hlook]
      cases hp : convert w.board.viewport pointer with
      | error g =>
        rw [hp] at hask
        cases (run_bind_error hask).symm.trans h
        exact ⟨rfl, rfl⟩
      | ok p =>
        rw [hp] at hask
        rw [run_bind_ok hask] at h
        have hcreate := create_run d p { w with board := { w.board with layout } }
        cases hb : Definition.lift (Block.ofDefinition d p) with
        | error g =>
          rw [hb] at hcreate
          cases (run_bind_error hcreate).symm.trans h
          exact ⟨rfl, rfl⟩
        | ok b =>
          -- the new block is free and the pointer has been looked up, so it is picked up
          rw [hb] at hcreate
          rw [run_bind_ok hcreate] at h
          have hfree : (w.board.registry.insert (nthId (w.issued + 1)) b).Free
              (nthId (w.issued + 1)) := by
            refine Registry.parent?_eq_some_iff.2 ⟨b, by simp, ?_⟩
            exact (Block.loose_ofDefinition (Bundle.lift_ok_iff.1 hb)).parent
          obtain ⟨s, w₁, hstart⟩ := startDrag_of_free hc (w := { w with
            issued := w.issued + 1
            board := { w.board with
              layout, registry := w.board.registry.insert (nthId (w.issued + 1)) b } }) hd hfree hp
          cases (run_bind_ok hstart).symm.trans h

/-- Picking up takes all or nothing, but for one case.  When it fails, no drag has begun.  When
the block comes from the palette there is no new block either, and when it was there before,
the blocks are as they were unless a nested block has been brought to the top level.  This
happens exactly when nothing else is dragged, the block can be taken out of its place, and the
viewport has no workspace point for the pointer. -/
theorem pickUp_all_or_nothing (hc : Geometry.Converts σ convert) (w : Workspace σ)
    (pointer : Point) :
    (∀ id f w', startDrag id pointer w = (.error f, w') → w'.drag = w.drag ∧
      (w'.board.registry = w.board.registry ∨
        w'.board.registry = (Board.detach id w.board).2.registry)) ∧
    (∀ id, (∃ f w', startDrag id pointer w = (.error f, w') ∧
        w'.board.registry ≠ w.board.registry) ↔
      w.isDragging = false ∧ (Board.detach id w.board).1 = .ok true ∧
        ∃ f, convert w.board.viewport pointer = .error f) ∧
    ∀ index f w', startPaletteDrag index pointer w = (.error f, w') →
      w'.drag = w.drag ∧ w'.board.registry = w.board.registry := by
  refine ⟨fun id f w' h => ?_, fun id => ?_, fun index f w' h => startPaletteDrag_error hc h⟩
  · obtain ⟨hdrag, hblocks⟩ := startDrag_error hc h
    exact ⟨hdrag, hblocks.imp_right fun h => h.2.2.2⟩
  · constructor
    · rintro ⟨f, w', h, hne⟩
      obtain ⟨hidle, hdetach, hp, -⟩ := (startDrag_error hc h).2.resolve_left hne
      exact ⟨hidle, hdetach, f, hp⟩
    · rintro ⟨hidle, hdetach, f, hp⟩
      obtain ⟨w', hrun, hblocks⟩ := startDrag_stranded hc hidle hdetach hp
      exact ⟨f, w', hrun, hblocks ▸ Board.registry_detach_ne hdetach⟩

/-! ### Without a zoom -/

/-- A container with a command in its body, seen through a viewport without a zoom. -/
def unzoomedWorkspace : Workspace EstimatedLayout :=
  let operations : List Operation := [.addEntry 2 ⟨100.0, 100.0⟩, .addEntry 0 .origin,
    .attachToBody "blk-2" "blk-1", .setViewport { zoom := 0.0 }]
  operations.foldl (fun w o => o.perform w) (start {} none .standard [] {})

theorem reachable_unzoomedWorkspace :
    Reachable EstimatedLayout.Asked (start {} none .standard [] {}) unzoomedWorkspace := by
  let w₀ : Workspace EstimatedLayout := start {} none .standard [] {}
  have h₀ : Reachable EstimatedLayout.Asked w₀ w₀ := .start
  have h₁ := h₀.perform (.addEntry 2 ⟨100.0, 100.0⟩) fun _ => by decide +kernel
  have h₂ := h₁.perform (.addEntry 0 .origin) fun _ => by decide +kernel
  have h₃ := h₂.perform (.attachToBody "blk-2" "blk-1") nofun
  have h₄ := h₃.perform (.setViewport { zoom := 0.0 }) nofun
  rw [unzoomedWorkspace]
  simp only [List.foldl_cons, List.foldl_nil]
  exact h₄

/-- Neither the container nor a block of the palette is picked up, and nothing is left of it.
The command is not picked up either, and has left its place. -/
theorem pickUp_all_or_nothing_unzoomed :
    (∃ f w', startDrag "blk-1" ⟨115.0, 140.0⟩ unzoomedWorkspace = (.error f, w') ∧
      w'.drag = none ∧ w'.board.registry = unzoomedWorkspace.board.registry) ∧
    (∃ f w', startPaletteDrag 0 ⟨115.0, 140.0⟩ unzoomedWorkspace = (.error f, w') ∧
      w'.drag = none ∧ w'.board.registry = unzoomedWorkspace.board.registry) ∧
    ∃ f w', startDrag "blk-2" ⟨115.0, 140.0⟩ unzoomedWorkspace = (.error f, w') ∧
      w'.board.registry ≠ unzoomedWorkspace.board.registry := by
  obtain ⟨hplaced, hstranded, hpalette⟩ :=
    pickUp_all_or_nothing EstimatedLayout.converts unzoomedWorkspace ⟨115.0, 140.0⟩
  have hroot : (startDrag "blk-1" ⟨115.0, 140.0⟩ unzoomedWorkspace).1.isOk = false := by
    decide +kernel
  have hnew : (startPaletteDrag 0 ⟨115.0, 140.0⟩ unzoomedWorkspace).1.isOk = false := by
    decide +kernel
  have hkept : (Board.detach "blk-1" unzoomedWorkspace.board).1 ≠ .ok true := by
    have hrun : (Board.detach "blk-1" unzoomedWorkspace.board).1 = .ok false :=
      eq_ok_of_toOption (by decide +kernel)
    rw [hrun]
    exact nofun
  refine ⟨?_, ?_, (hstranded "blk-2").2 ⟨by decide +kernel, rfl, .breakdown .divisionByZero, rfl⟩⟩
  · rcases hrun : startDrag "blk-1" ⟨115.0, 140.0⟩ unzoomedWorkspace with ⟨f | s, w'⟩
    · refine ⟨f, w', rfl, (hplaced _ f w' hrun).1, by_contra fun hne => ?_⟩
      exact hkept ((hstranded "blk-1").1 ⟨f, w', hrun, hne⟩).2.1
    · rw [hrun] at hroot
      cases hroot
  · rcases hrun : startPaletteDrag 0 ⟨115.0, 140.0⟩ unzoomedWorkspace with ⟨f | id, w'⟩
    · exact ⟨f, w', rfl, hpalette 0 f w' hrun⟩
    · rw [hrun] at hnew
      cases hnew

/-- In a workspace that can be reached a command is not picked up, since there is no zoom, and
it is at the top level afterwards instead of in its container. -/
theorem not_pickUp_all_or_nothing :
    ∃ w : Workspace EstimatedLayout,
      Reachable EstimatedLayout.Asked (start {} none .standard [] {}) w ∧
      (startDrag "blk-2" ⟨115.0, 140.0⟩ w).1.isOk = false ∧
      w.board.registry.parent? "blk-2" = some (.container "blk-1") ∧
      (startDrag "blk-2" ⟨115.0, 140.0⟩ w).2.board.registry.parent? "blk-2" = some .none := by
  refine ⟨unzoomedWorkspace, reachable_unzoomedWorkspace, ?_⟩
  decide +kernel

end Workspace

end Blockwork
