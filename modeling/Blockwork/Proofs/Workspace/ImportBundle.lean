import Blockwork.Geometry.Fixed
import Blockwork.Proofs.Bundle.SnapshotRoundTrip
import Blockwork.Proofs.Workspace.BoardChanges

/-!
# Importing takes all or nothing

A payload is read completely before anything is put in its place.  So a payload that
cannot be read leaves the workspace as it was, whichever of its parts is at fault.  One
that can be read replaces the parts that it has.  A part that is null counts as left
out, and a part that is empty does not.
-/

namespace Blockwork

namespace Bundle

variable {α : Type} {payload : Json} {contents : Contents} {members : Members}

/-- The members of the object that a payload is, or is the text of. -/
def payloadMembers? : Json → Option Members
  | .obj members => some members
  | .str text =>
      match Json.parse? text with
      | some (.obj members) => some members
      | _ => none
  | _ => none

/-- What becomes of one thing when a part of a payload is imported: null keeps it, and
anything else is read and takes its place. -/
def Replaces (read : Json → Except Fault α) (v : Json) (old new : α) : Prop :=
  (v = .null → new = old) ∧ (v ≠ .null → read v = .ok new)

theorem part_of_null {name : String} {read : Json → Except Fault α}
    (h : Json.member members name = .null) : part members name read = .ok none := by
  rw [part, h]

theorem part_of_ne_null {name : String} {read : Json → Except Fault α}
    (h : Json.member members name ≠ .null) :
    part members name read = (read (Json.member members name)).map some := by
  unfold part
  split
  · next hnull => exact absurd hnull h
  · rfl

theorem replaces_of_part {name : String} {read : Json → Except Fault α} {a : Option α}
    (h : part members name read = .ok a) (old : α) :
    Replaces read (Json.member members name) old (a.getD old) := by
  constructor
  · intro hnull
    rw [part_of_null hnull] at h
    cases h
    rfl
  · intro hv
    rw [part_of_ne_null hv] at h
    cases hr : read (Json.member members name) with
    | error f =>
      rw [hr] at h
      cases h
    | ok b =>
      rw [hr] at h
      cases h
      rfl

theorem parts_of_readValue {v : Json} (h : readValue v = .ok contents) :
    ∃ members, v = .obj members ∧
      part members "definitions" definitionsOf = .ok contents.definitions ∧
      part members "instances" registryOf = .ok contents.registry := by
  cases v with
  | obj members =>
    obtain ⟨definitions, hd, h⟩ := except_bind_eq_ok.1 h
    obtain ⟨registry, hr, h⟩ := except_bind_eq_ok.1 h
    obtain ⟨code, -, h⟩ := except_bind_eq_ok.1 h
    dsimp only at h
    split at h
    · cases h
    · cases h
      exact ⟨members, rfl, hd, hr⟩
  | _ => cases h

/-- A payload that is read is an object, or the text of one, and its parts are read. -/
theorem parts_of_read (h : read payload = .ok contents) :
    ∃ members, payloadMembers? payload = some members ∧
      part members "definitions" definitionsOf = .ok contents.definitions ∧
      part members "instances" registryOf = .ok contents.registry := by
  cases payload with
  | str text =>
    rw [read] at h
    split at h
    · next v hv =>
      obtain ⟨members, rfl, hparts⟩ := parts_of_readValue h
      exact ⟨members, by rw [payloadMembers?, hv], hparts⟩
    · cases h
  | obj members =>
    have hvalue : readValue (.obj members) = .ok contents := h
    obtain ⟨members', heq, hparts⟩ := parts_of_readValue hvalue
    cases heq
    exact ⟨members, rfl, hparts⟩
  | _ => cases h

end Bundle

namespace Workspace

open Blockwork.Bundle (Replaces payloadMembers?)

variable {σ : Type} {w w' : Workspace σ}

theorem demandNoDrag_run (w : Workspace σ) :
    demandNoDrag w = (match w.drag with
      | some s => if s.isActive then throw (.drag (.busy (s.block.getD ""))) else pure ()
      | none => pure () : WorkspaceM σ Unit) w := rfl

theorem demandNoDrag_of_not_dragging (h : w.isDragging = false) :
    demandNoDrag w = (.ok (), w) := by
  rw [demandNoDrag_run]
  unfold isDragging at h
  cases hd : w.drag with
  | none => rfl
  | some s =>
    rw [hd] at h
    have hs : s.isActive = false := h
    simp only [hs, Bool.false_eq_true, if_false]
    rfl

theorem not_dragging_of_demandNoDrag {u : Unit} (h : demandNoDrag w = (.ok u, w')) :
    w.isDragging = false ∧ w' = w := by
  have hstate : w' = w := by
    rw [← state_demandNoDrag w, h]
  refine ⟨?_, hstate⟩
  rw [demandNoDrag_run] at h
  unfold isDragging
  cases hd : w.drag with
  | none => rfl
  | some s =>
    rw [hd] at h
    cases hs : s.isActive with
    | false => simpa using hs
    | true =>
      simp only [hs, if_true] at h
      cases h

variable [Geometry σ]

/-- Replacing the blocks gets through, and every block with a body has heard. -/
theorem replaceBlocks_run (r : Registry) (b : Board σ) : replaceBlocks r b =
    (.ok (), ((r.entries.filter fun e => e.2.kind.hasBody).map Prod.fst).foldl Board.noticed
      { b with registry := r, layout := Geometry.reset b.layout }) :=
  Board.refresh_run { b with registry := r, layout := Geometry.reset b.layout }

/-- The board after the blocks of a bundle have been put in place, if it has any. -/
def boardWith (b : Board σ) : Option Registry → Board σ
  | none => b
  | some r => (replaceBlocks r b).2

/-- The workspace after the parts of a bundle have been put in place. -/
def withContents (w : Workspace σ) (contents : Bundle.Contents) : Workspace σ :=
  { w with
    palette := contents.definitions.getD w.palette
    board := boardWith w.board contents.registry
    changes := w.changes + 1 }

theorem boardWith_eq (b : Board σ) (r : Option Registry) : ∃ layout journal,
    boardWith b r = { b with registry := r.getD b.registry, layout, journal } := by
  cases r with
  | none => exact ⟨b.layout, b.journal, rfl⟩
  | some r =>
    have hnotices (ids : List BlockId) (b : Board σ) : ∃ layout journal,
        ids.foldl Board.noticed b = { b with layout, journal } := by
      induction ids generalizing b with
      | nil => exact ⟨b.layout, b.journal, rfl⟩
      | cons id ids ih =>
        obtain ⟨layout, journal, h⟩ := ih (b.noticed id)
        exact ⟨layout, journal, h⟩
    rw [boardWith, replaceBlocks_run]
    exact hnotices _ { b with registry := r, layout := Geometry.reset b.layout }

/-- An import whose payload is read puts its parts in place. -/
theorem importBundle_of_read (h : w.isDragging = false) {payload : Json}
    {contents : Bundle.Contents} (hread : Bundle.read payload = .ok contents) :
    ∃ imported, importBundle payload w = (.ok imported, w.withContents contents) := by
  have hparse : ofExcept (Bundle.read payload) w = (.ok contents, w) := by rw [hread]; rfl
  rw [importBundle, run_bind_ok (demandNoDrag_of_not_dragging h), run_bind_ok hparse]
  unfold withContents
  have hput (r : Registry) (w : Workspace σ) :
      onBoard (replaceBlocks r) w = (.ok (), { w with board := boardWith w.board (some r) }) := by
    rw [boardWith, onBoard, replaceBlocks_run]
  cases contents.definitions <;> cases contents.registry
  case none.none | some.none => exact ⟨_, rfl⟩
  case none.some r => exact ⟨_, run_bind_ok (hput r w)⟩
  case some.some p r => exact ⟨_, run_bind_ok (hput r { w with palette := p })⟩

/-- An import whose payload cannot be read changes nothing. -/
theorem importBundle_of_error (h : w.isDragging = false) {payload : Json} {f : Fault}
    (hread : Bundle.read payload = .error f) : importBundle payload w = (.error f, w) := by
  have hparse : ofExcept (Bundle.read payload) w = (.error f, w) := by rw [hread]; rfl
  rw [importBundle, run_bind_ok (demandNoDrag_of_not_dragging h)]
  exact run_bind_error hparse

/-- An import that succeeds has read its payload. -/
theorem read_of_importBundle {payload : Json} {imported : Imported}
    (h : importBundle payload w = (.ok imported, w')) :
    ∃ contents, Bundle.read payload = .ok contents ∧ w' = w.withContents contents := by
  obtain ⟨_, w₁, hdrag, -⟩ := run_bind_eq_ok.1 h
  obtain ⟨hidle, -⟩ := not_dragging_of_demandNoDrag hdrag
  cases hread : Bundle.read payload with
  | error f => cases (importBundle_of_error hidle hread).symm.trans h
  | ok contents =>
    obtain ⟨imported', himport⟩ := importBundle_of_read hidle hread
    exact ⟨contents, rfl, congrArg Prod.snd (h.symm.trans himport)⟩

/-- Importing takes all or nothing.  When the payload cannot be read, the workspace is
left as it was.  When it is read, the palette is replaced exactly if there are
definitions, the blocks exactly if there are instances, and besides these only the
layout and the journal hear of new blocks and the change is counted. -/
theorem importBundle_all_or_nothing (h : w.isDragging = false) (payload : Json) :
    (∀ f, Bundle.read payload = .error f → importBundle payload w = (.error f, w)) ∧
    ∀ contents, Bundle.read payload = .ok contents →
      ∃ members imported w', payloadMembers? payload = some members ∧
        importBundle payload w = (.ok imported, w') ∧
        Replaces Bundle.definitionsOf (Json.member members "definitions") w.palette w'.palette ∧
        Replaces Bundle.registryOf (Json.member members "instances")
          w.board.registry w'.board.registry ∧
        (Json.member members "instances" = .null → w'.board = w.board) ∧
        ∃ layout journal, w' = { w with
          palette := w'.palette
          board := { w.board with registry := w'.board.registry, layout, journal }
          changes := w.changes + 1 } := by
  refine ⟨fun f hread => importBundle_of_error h hread, fun contents hread => ?_⟩
  obtain ⟨members, hm, hd, hr⟩ := Bundle.parts_of_read hread
  obtain ⟨imported, himport⟩ := importBundle_of_read h hread
  obtain ⟨layout, journal, hboard⟩ := boardWith_eq w.board contents.registry
  have hregistry :
      (w.withContents contents).board.registry = contents.registry.getD w.board.registry := by
    rw [withContents, hboard]
  refine ⟨members, imported, w.withContents contents, hm, himport, ?_, ?_, ?_, layout, journal, ?_⟩
  · exact Bundle.replaces_of_part hd w.palette
  · rw [hregistry]
    exact Bundle.replaces_of_part hr w.board.registry
  · intro hnull
    rw [Bundle.part_of_null hnull] at hr
    rw [withContents, ← Except.ok.inj hr]
    rfl
  · rw [hregistry, withContents, hboard]

/-- A workspace with three blocks. -/
def sampleWorkspace : Workspace FixedGeometry where
  board := { layout := {}, registry := Bundle.sampleRegistry }

/-- A payload whose second instance has the id of the first changes nothing, though its
definitions can be read.  A payload of definitions alone leaves the blocks in place. -/
theorem importBundle_all_or_nothing_sample :
    sampleWorkspace.isDragging = false ∧
    (∃ f, importBundle (.obj [("definitions", .arr []), ("instances", .arr [
        Bundle.briefRecord "a" "command" [], Bundle.briefRecord "a" "command" []])])
      sampleWorkspace = (.error f, sampleWorkspace)) ∧
    ∃ imported w', importBundle (.obj [("definitions", .arr [])]) sampleWorkspace =
      (.ok imported, w') ∧ w'.palette = [] ∧ w'.board = sampleWorkspace.board := by
  have h : sampleWorkspace.isDragging = false := rfl
  refine ⟨h, ⟨_, (importBundle_all_or_nothing h _).1 _ rfl⟩, ?_⟩
  obtain ⟨members, imported, w', hm, himport, hd, -, hboard, -⟩ :=
    (importBundle_all_or_nothing h (.obj [("definitions", .arr [])])).2
      { definitions := some [] } rfl
  cases hm
  exact ⟨imported, w', himport, (Except.ok.inj (hd.2 nofun)).symm, hboard rfl⟩

end Workspace

end Blockwork
