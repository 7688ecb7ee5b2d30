import Blockwork.Proofs.Board.Move
import Blockwork.Proofs.Code.Dependence
import Blockwork.Proofs.Geometry.DetachInPlace

/-!
# Attaching, undone

Detaching a block that has just been attached takes back the edge, and what is left of the
attaching is the position that the block gets.  The end of a body is cut off again, and an
input is as empty as it was, with its literal text.  This rests on the forest: the body did
not have the block before, and the input had no other.

Code has no positions in it, so it is the code from before.
-/

namespace Blockwork

namespace Registry

variable {r : Registry} {child id : BlockId} {place : Parent} {position : Point} {b : Block}

/-! ## Cutting the edge that was just made -/

/-- A block without the child, and the child without a parent. -/
structure Clear (child : BlockId) (place : Parent) (id : BlockId) (b : Block) : Prop where
  parent : id = child → b.parent = .none
  body : place = .container id → child ∉ b.nested
  input : ∀ slot, place = .input id slot → ∀ s, b.slot? slot = some s → s.child = none
  names : (Table.names b.slots).Nodup

/-- Where a block is admitted, it is not yet. -/
theorem WellFormed.clear (wf : r.WellFormed) (h : r.Admits child place) (hb : r.get? id = some b) :
    Clear child place id b where
  parent he := by
    have hfree := h.free
    rw [← he, parent?_of_get? hb] at hfree
    exact Option.some.inj hfree
  body hplace hm := by
    subst hplace
    have hheld : r.Holds (.container id) child := ⟨b, hb, hm⟩
    exact wf.not_holds h.free _ hheld
  input slot hplace s hs := by
    subst hplace
    obtain ⟨c, t, hc, ht, hempty⟩ := wf.slot_empty h
    cases hb.symm.trans hc
    cases hs.symm.trans ht
    exact hempty
  names := wf.slots_nodup hb

/-- Inputs that are filled and emptied again are as before. -/
theorem slotsUnlinked_slotsLinked (h : Clear child place id b) :
    slotsUnlinked child id (slotsLinked child id b.slots place) place = b.slots := by
  cases place with
  | none => rfl
  | container c => rfl
  | input c slot =>
    rw [slotsLinked, slotsUnlinked]
    split
    · next he =>
      subst he
      refine Table.ext_lookup ?_ ?_ fun name => ?_
      · simpa using h.names
      · simp
      · simp only [Table.lookup_modify]
        split
        · next hname =>
          subst hname
          cases hs : b.slots.lookup name with
          | none => rfl
          | some s =>
            obtain ⟨literal, other⟩ := s
            cases h.input name rfl _ hs
            simp
        · rfl
    · rfl

theorem unlinked_linked (h : Clear child place id b) :
    unlinked child place position id (linked child place id b) =
      if id = child then { b with position } else b := by
  have hslots := slotsUnlinked_slotsLinked h
  have hnested : (if place = .container id then
        (if place = .container id then b.nested ++ [child] else b.nested).filter (· ≠ child)
      else (if place = .container id then b.nested ++ [child] else b.nested)) = b.nested := by
    split
    · next hplace =>
      have hout : ∀ x ∈ b.nested, x ≠ child := fun x hx he => h.body hplace (he ▸ hx)
      simpa using hout
    · rfl
  simp only [unlinked, linked, hslots, hnested]
  split
  · next he => rw [← h.parent he]
  · rfl

@[simp] theorem ids_unlink : (r.unlink child place position).ids = r.ids := by
  cases place with
  | none => simp [unlink, dropEdge]
  | container c => simp [unlink, dropEdge]
  | input c slot => simp [unlink, dropEdge]

/-- Cutting the edge that was just made leaves the position of the block, and nothing else. -/
theorem WellFormed.unlink_link (wf : r.WellFormed) (h : r.Admits child place)
    (position : Point) :
    (r.link child place).unlink child place position = r.placed child position := by
  refine ext_get? ?_ fun x => ?_
  · simp [Registry.placed]
  · rw [get?_unlink, get?_link h.ne_none, get?_placed, Option.map_map]
    cases hb : r.get? x with
    | none => rfl
    | some b => exact congrArg some (unlinked_linked (wf.clear h hb))

end Registry

/-! ## Code has no positions in it -/

namespace Code

variable {r : Registry}

theorem generate_placed (g : Generator) (id : BlockId) (position : Point) (language : Json) :
    generate g (r.placed id position) language = generate g r language := by
  let nowhere (b : Block) : Block := { b with position := .origin }
  have hcode (b : Block) : b.SameCode (nowhere b) := ⟨rfl, rfl, rfl, rfl, rfl⟩
  have hsame : (r.placed id position).mapBlocks nowhere = r.mapBlocks nowhere := by
    refine Registry.ext_get? ?_ fun x => ?_
    · simp [Registry.placed]
    · simp only [Registry.get?_mapBlocks, Registry.get?_placed, Option.map_map]
      refine congrArg (fun f => (r.get? x).map f) (funext fun b => ?_)
      by_cases hx : x = id <;> simp [nowhere, hx]
  rw [← generate_mapBlocks hcode, hsame, generate_mapBlocks hcode]

end Code

/-! ## On a board -/

namespace Board

variable {σ : Type} [Geometry σ] {b b₁ : Board σ} {child p : BlockId} {slot : Option String}

/-- A block that was attached was admitted, and lives in its place. -/
theorem attachAt_ok {u : Unit} (h : attachAt child p slot b = (.ok u, b₁)) :
    b.registry.Admits child (.at p slot) ∧
      b₁.registry = b.registry.link child (.at p slot) ∧
      b₁.registry.parent? child = some (.at p slot) := by
  have hadmits : b.registry.Admits child (.at p slot) := attachAt_ok_iff.1 (congrArg Prod.fst h)
  rw [attachAt_run hadmits] at h
  obtain rfl : _ = b₁ := (Prod.mk.inj h).2
  rw [registry_notices]
  exact ⟨hadmits, rfl, by simp [hadmits.ne_none, hadmits.live]⟩

/-- Detaching a block that has just been attached succeeds if it can be told where the block
lies.  Whenever it succeeds, it says that there was a parent, every block is as it was before
the attaching, except that the block may lie elsewhere, and so is the code for every
language. -/
theorem detach_of_attachAt (wf : b.registry.WellFormed)
    (h : attachAt child p slot b = (.ok (), b₁)) :
    (b₁.Locates child → ∃ b₂, detach child b₁ = (.ok true, b₂)) ∧
    ∀ detached b₂, detach child b₁ = (.ok detached, b₂) →
      detached = true ∧ (∃ position, b₂.registry = b.registry.placed child position) ∧
        ∀ g language,
          Code.generate g b₂.registry language = Code.generate g b.registry language := by
  obtain ⟨hadmits, hlink, hparent⟩ := attachAt_ok h
  have hundone (detached : Bool) (b₂ : Board σ) (hd : detach child b₁ = (.ok detached, b₂)) :
      detached = true ∧ ∃ position, b₂.registry = b.registry.placed child position := by
    rcases detach_cases child b₁ with ⟨f, hf, -⟩ | ⟨-, hfree⟩ | ⟨place, position, hp, hok, hr⟩
    · rw [hd] at hf
      cases hf
    · exact absurd (Option.some.inj (hparent.symm.trans hfree)) hadmits.ne_none
    · cases hp.symm.trans hparent
      rw [hd] at hok hr
      refine ⟨Except.ok.inj hok, position, ?_⟩
      rw [hr, hlink, wf.unlink_link hadmits]
  refine ⟨fun hlocates => ?_, fun detached b₂ hd => ?_⟩
  · obtain ⟨position, b', hposition⟩ := hlocates (Registry.contains_of_parent? hparent)
    obtain ⟨detached, b₂, hd⟩ := detach_of_located hposition
    obtain ⟨rfl, -⟩ := hundone detached b₂ hd
    exact ⟨b₂, hd⟩
  · obtain ⟨htrue, position, hr⟩ := hundone detached b₂ hd
    refine ⟨htrue, ⟨position, hr⟩, fun g language => ?_⟩
    rw [hr, Code.generate_placed]

/-- A command is attached to the end of a body that has another, and detached again. -/
theorem detach_of_attachAt_built :
    let b := ((Operation.addEntry 0 .origin).perform Workspace.builtWorkspace).board
    b.registry.WellFormed ∧ ∃ b₁ b₂ position, attachAt "blk-4" "blk-1" none b = (.ok (), b₁) ∧
      b₁.registry.parent? "blk-4" = some (.container "blk-1") ∧
      detach "blk-4" b₁ = (.ok true, b₂) ∧
      b₂.registry = b.registry.placed "blk-4" position := by
  have hreach := Workspace.reachable_builtWorkspace.perform (.addEntry 0 .origin) fun _ => by
    decide +kernel
  have wf := (Workspace.sound_of_reachable hreach).1
  let b := ((Operation.addEntry 0 .origin).perform Workspace.builtWorkspace).board
  let b₁ := (attachAt "blk-4" "blk-1" none b).2
  have hattached : (attachAt "blk-4" "blk-1" none b).1 = .ok () :=
    eq_ok_of_toOption (by decide +kernel)
  have h : attachAt "blk-4" "blk-1" none b = (.ok (), b₁) := Prod.ext hattached rfl
  have hlocates : b₁.Locates "blk-4" := locates_of_isOk (by decide +kernel)
  obtain ⟨-, -, hparent⟩ := attachAt_ok h
  obtain ⟨hsucceeds, hundone⟩ := detach_of_attachAt wf h
  obtain ⟨b₂, hd⟩ := hsucceeds hlocates
  obtain ⟨-, ⟨position, hr⟩, -⟩ := hundone true b₂ hd
  exact ⟨wf, b₁, b₂, position, h, hparent, hd, hr⟩

end Board

/-- The estimated layout always tells where a block lies, so what was attached can be
detached again. -/
theorem EstimatedLayout.Settled.detach_attachAt {b b₁ : Board EstimatedLayout} {child p : BlockId}
    {slot : Option String} (hb : Settled b)
    (h : Board.attachAt child p slot b = (.ok (), b₁)) :
    ∃ b₂ position, Board.detach child b₁ = (.ok true, b₂) ∧
      b₂.registry = b.registry.placed child position := by
  obtain ⟨hadmits, hlink, hparent⟩ := Board.attachAt_ok h
  have hchanges := Board.changes_link hadmits (Parent.at_id? p slot)
  have hsettled : Settled b₁ := by
    rw [Board.attachAt_run hadmits] at h
    obtain rfl : _ = b₁ := (Prod.mk.inj h).2
    rw [Board.notifyAll_run] at hchanges
    exact hchanges.invariant hb Settled.change
  obtain ⟨corner, b₂, hd, -, -, hr⟩ := hsettled.detach hparent hadmits.ne_none
  refine ⟨b₂, corner, hd, ?_⟩
  rw [hr, hlink, hb.wellFormed.unlink_link hadmits]

end Blockwork
