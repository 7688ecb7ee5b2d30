import Blockwork.Proofs.Workspace.Reachable

/-!
# The rules of attaching, and the forest with one edge more

The rules are asked about the registry as it is, and the cycle is looked for on the way up
from the parent.  What they are for is the registry as it would be: behind the edge the
registry is to be well formed again.  The two come to the same, but for one case.  A block
that is already over an input may be written there once more, and nothing changes.  The
rules refuse it, since a block to be attached has no parent.

In one direction the new registry is well formed because linking keeps it so.  In the other
everything is read off the new registry.  Its edges are those that the links left alone and
the new one, so a block that had another place is now held twice, what was over the input
before is held no longer, and a way up from the parent to the child closes with the new
edge.
-/

namespace Blockwork

/-- The place at a block: an input of it, or else its body. -/
def Parent.at (parent : BlockId) : Option String → Parent
  | .none => .container parent
  | .some slot => .input parent slot

theorem Parent.at_id? (parent : BlockId) (slot : Option String) :
    (Parent.at parent slot).id? = some parent := by
  cases slot <;> rfl

namespace Registry

variable {r : Registry} {child p x : BlockId} {place q : Parent} {slot : String}

/-! ## The registry behind an edge -/

/-- Other places hold behind the edge what they held before. -/
theorem holds_link_of_ne (hplace : place ≠ .none) (hq : place ≠ q) :
    (r.link child place).Holds q x ↔ r.Holds q x := by
  cases q with
  | none => exact Iff.rfl
  | container c => simp [Holds, hplace, linked, hq]
  | input c slot => simp [Holds, hplace, hq]

/-- A block that is over an input is not changed by being written there again. -/
theorem link_eq_self (wf : r.WellFormed) (h : r.Holds (.input p slot) child) :
    r.link child (.input p slot) = r := by
  have hplace : Parent.input p slot ≠ .none := nofun
  have hbody (x : BlockId) : Parent.input p slot ≠ .container x := nofun
  have hparent := wf.confirmed h
  obtain ⟨c, hc, hchild⟩ := h
  obtain ⟨s, hs, hchild⟩ := Block.childAt?_eq_some_iff.1 hchild
  have hslots : Table.modify c.slots slot (fun s => { s with child := some child }) = c.slots := by
    refine Table.ext_lookup ?_ (Table.names_modify ..) fun name => ?_
    · simpa using wf.slots_nodup hc
    · rw [Table.lookup_modify]
      split
      · next hname =>
        rw [hname, show c.slots.lookup slot = some s from hs, Option.map_some, ← hchild]
      · rfl
  refine ext_get? ids_link fun x => ?_
  rw [get?_link hplace]
  cases hb : r.get? x with
  | none => rfl
  | some b =>
    have hx : (if x = child then Parent.input p slot else b.parent) = b.parent := by
      split
      · next he =>
        rw [← he, parent?_of_get? hb] at hparent
        exact (Option.some.inj hparent).symm
      · rfl
    have hsx : slotsLinked child x b.slots (.input p slot) = b.slots := by
      rw [slotsLinked]
      split
      · next he =>
        cases (he ▸ hb).symm.trans hc
        exact hslots
      · rfl
    rw [Option.map_some, linked, hx, hsx, if_neg (hbody x)]

theorem get?_link_body {b : Block} (child : BlockId) (hb : r.get? p = some b) :
    (r.link child (.container p)).get? p = some (linked child (.container p) p b) := by
  have hplace : Parent.container p ≠ .none := nofun
  rw [get?_link hplace, hb, Option.map_some]

namespace WellFormed

/-- If the registry behind an edge is well formed, the child was free before, or it was in
that very place. -/
theorem free_or_held_of_link (wf : r.WellFormed) (hw : (r.link child place).WellFormed)
    (hplace : place ≠ .none) (hc : r.contains child = true) :
    r.parent? child = some .none ∨ r.Holds place child := by
  obtain ⟨b, hb⟩ := contains_iff.1 hc
  have hparent : r.parent? child = some b.parent := parent?_of_get? hb
  by_cases hfree : b.parent = .none
  · exact .inl (hfree ▸ hparent)
  · have hheld : r.Holds b.parent child := wf.held hparent hfree
    by_cases he : place = b.parent
    · exact .inr (he ▸ hheld)
    · -- the old place still holds the child, which refers to the new one
      have hback := hw.confirmed ((holds_link_of_ne hplace he).2 hheld)
      rw [parent?_link hplace hc, if_pos rfl] at hback
      exact absurd (Option.some.inj hback) he

/-- A body does not get a block that it has. -/
theorem not_held_of_link (hw : (r.link child (.container p)).WellFormed) :
    ¬ r.Holds (.container p) child := by
  rintro ⟨b, hb, hchild⟩
  have hget := get?_link_body child hb
  have hnodup := hw.nested_nodup hget
  rw [linked, if_pos rfl] at hnodup
  exact (List.nodup_append.1 hnodup).2.2 child hchild child (List.mem_singleton_self child) rfl

theorem room_of_link_body (hw : (r.link child (.container p)).WellFormed)
    (hp : r.contains p = true) : r.Room child (.container p) := by
  obtain ⟨b, hb⟩ := contains_iff.1 hp
  have hk := hw.hasBody (get?_link_body child hb) (by simp [linked])
  exact ⟨b, hb, hk⟩

theorem room_of_link_input (wf : r.WellFormed)
    (hw : (r.link child (.input p slot)).WellFormed) (hc : r.contains child = true) :
    r.Room child (.input p slot) := by
  obtain ⟨b, hb⟩ := contains_iff.1 hc
  have hplace : Parent.input p slot ≠ .none := nofun
  have hparent : (r.link child (.input p slot)).parent? child = some (.input p slot) := by
    simp [hplace, hc]
  have hheld := hw.held hparent hplace
  have hget : (r.link child (.input p slot)).get? child =
      some (linked child (.input p slot) child b) := by
    simp [hplace, hb]
  have hfits := hw.fitsInput hheld hget
  obtain ⟨_, hd, hover⟩ := hheld
  obtain ⟨c, hc', rfl⟩ := exists_of_get?_link hplace hd
  rw [childAt?_linked, if_pos rfl] at hover
  obtain ⟨s, hs, -⟩ := Option.map_eq_some_iff.1 hover
  refine ⟨b, c, s, hb, hfits, hc', hs, fun other hother hlive => ?_⟩
  -- another block over the input would refer to a place that does not hold it any more
  by_contra hne
  have hback : r.parent? other = some (.input p slot) :=
    wf.confirmed ⟨c, hc', Block.childAt?_eq_some_iff.2 ⟨s, hs, hother⟩⟩
  have hstill : (r.link child (.input p slot)).parent? other = some (.input p slot) := by
    simp [hplace, hc, hne, hback]
  obtain ⟨_, hd', hover'⟩ := hw.held hstill hplace
  cases hd.symm.trans hd'
  rw [childAt?_linked, if_pos rfl, hover] at hover'
  exact hne (Option.some.inj hover').symm

/-- A way up from the parent to the child would close with the edge. -/
theorem outside_of_link (wf : r.WellFormed) (hw : (r.link child place).WellFormed)
    (hplace : place.id? = some p) (hfree : r.parent? child = some .none) : r.Outside child p := by
  have hlive : r.contains child = true := contains_of_parent? hfree
  have hne : place ≠ .none := ne_none_of_id? hplace
  have hedge : (r.link child place).Under child p := by
    rw [under_iff, parent?_link hne hlive, if_pos rfl]
    exact ⟨place, rfl, hplace⟩
  refine ⟨?_, fun hm => ?_⟩
  · rintro rfl
    exact hw.acyclic p (.single hedge)
  · -- the child has no parent yet, so no step of the way starts from it
    have hstep {c d : BlockId} (hu : r.Under c d) : (r.link child place).Under c d := by
      refine hu.mono fun hnone hp => ?_
      rw [parent?_link hne hlive, if_neg, hp]
      rintro rfl
      exact hnone (Option.some.inj (hp.symm.trans hfree))
    have hbelow : (r.link child place).Below p child := (wf.mem_ancestors_iff.1 hm).mono hstep
    exact hw.acyclic child (.head hedge hbelow)

/-- An edge between live blocks leaves a well-formed registry well formed if and only if
the rules allow it, or the block is over that input already. -/
theorem link_iff (wf : r.WellFormed) (hc : r.contains child = true)
    (hid : place.id? = some p) (hp : r.contains p = true) :
    (r.link child place).WellFormed ↔
      r.Admits child place ∨ ∃ slot, place = .input p slot ∧ r.Holds place child := by
  constructor
  · intro hw
    have hadmits (hfree : r.parent? child = some .none) (hroom : r.Room child place) :
        r.Admits child place := by
      refine ⟨hfree, hroom, fun x hx => ?_⟩
      cases hid.symm.trans hx
      exact wf.outside_of_link hw hid hfree
    cases place with
    | none => cases hid
    | container c =>
      cases hid
      rcases wf.free_or_held_of_link hw nofun hc with hfree | hheld
      · exact .inl (hadmits hfree (room_of_link_body hw hp))
      · exact absurd hheld (not_held_of_link hw)
    | input c slot =>
      cases hid
      rcases wf.free_or_held_of_link hw nofun hc with hfree | hheld
      · exact .inl (hadmits hfree (wf.room_of_link_input hw hc))
      · exact .inr ⟨slot, rfl, hheld⟩
  · rintro (h | ⟨slot, rfl, hheld⟩)
    · exact wf.link h
    · rw [link_eq_self wf hheld]
      exact wf

end WellFormed

/-! ## What is against an edge -/

/-- What is against a block in a place, wherever the block is now. -/
inductive Barred (r : Registry) (child : BlockId) : Parent → Prop
  /-- The block is not live. -/
  | childMissing {place : Parent} : ¬ r.contains child = true → Barred r child place
  /-- The parent is not live. -/
  | parentMissing {place : Parent} {p : BlockId} :
      place.id? = some p → ¬ r.contains p = true → Barred r child place
  /-- The parent is of a kind without a body. -/
  | noBody {p : BlockId} {c : Block} :
      r.get? p = some c → c.kind.hasBody = false → Barred r child (.container p)
  /-- The block is of a kind that does not fit an input. -/
  | misfit {p : BlockId} {slot : String} {b : Block} :
      r.get? child = some b → b.kind.fitsInput = false → Barred r child (.input p slot)
  /-- The parent has no input of the name. -/
  | noInput {p : BlockId} {slot : String} {c : Block} :
      r.get? p = some c → c.slot? slot = none → Barred r child (.input p slot)
  /-- Another live block is over the input. -/
  | occupied {p other : BlockId} {slot : String} :
      r.Holds (.input p slot) other → r.contains other = true → other ≠ child →
      Barred r child (.input p slot)
  /-- The parent is the block. -/
  | itself {place : Parent} : place.id? = some child → Barred r child place
  /-- The parent is below the block. -/
  | beneath {place : Parent} {p : BlockId} :
      place.id? = some p → r.Below p child → Barred r child place

/-- If nothing is against it, there is room, and the block does not become part of itself. -/
theorem WellFormed.not_barred_iff (wf : r.WellFormed) (hid : place.id? = some p) :
    ¬ r.Barred child place ↔
      r.contains child = true ∧ r.Room child place ∧ r.Outside child p := by
  constructor
  · intro h
    have hc : r.contains child = true := by_contra fun hc => h (.childMissing hc)
    have hp : r.contains p = true := by_contra fun hp => h (.parentMissing hid hp)
    obtain ⟨b, hb⟩ := contains_iff.1 hc
    obtain ⟨c, hc'⟩ := contains_iff.1 hp
    refine ⟨hc, ?_, ?_, fun hm => h (.beneath hid (wf.mem_ancestors_iff.1 hm))⟩
    · cases place with
      | none => cases hid
      | container q =>
        cases hid
        exact ⟨c, hc', Bool.not_eq_false _ ▸ fun hk => h (.noBody hc' hk)⟩
      | input q slot =>
        cases hid
        have hfits : b.kind.fitsInput = true := Bool.not_eq_false _ ▸ fun hk => h (.misfit hb hk)
        obtain ⟨s, hs⟩ := Option.ne_none_iff_exists'.1 fun hs => h (.noInput hc' hs)
        refine ⟨b, c, s, hb, hfits, hc', hs, fun other hother hlive => ?_⟩
        have hholds : r.Holds (.input p slot) other :=
          ⟨c, hc', Block.childAt?_eq_some_iff.2 ⟨s, hs, hother⟩⟩
        exact by_contra fun hne => h (.occupied hholds hlive hne)
    · rintro rfl
      exact h (.itself hid)
  · rintro ⟨hc, hroom, hne, hnot⟩ h
    cases h with
    | childMissing hdead => exact hdead hc
    | parentMissing hq hdead =>
      obtain ⟨q, c, hq', hget⟩ := hroom.holder
      cases hq.symm.trans hq'
      exact hdead (contains_of_get? hget)
    | noBody hget hk =>
      obtain ⟨c, hc', hk'⟩ := hroom
      cases hget.symm.trans hc'
      exact Bool.false_ne_true (hk.symm.trans hk')
    | misfit hget hk =>
      obtain ⟨b, -, -, hb, hk', -⟩ := hroom
      cases hget.symm.trans hb
      exact Bool.false_ne_true (hk.symm.trans hk')
    | noInput hget hs =>
      obtain ⟨-, c, s, -, -, hc', hs', -⟩ := hroom
      cases hget.symm.trans hc'
      cases hs.symm.trans hs'
    | occupied hholds hlive hother =>
      obtain ⟨-, c, s, -, -, hc', hs, hfree⟩ := hroom
      obtain ⟨d, hd, hover⟩ := hholds
      cases hc'.symm.trans hd
      obtain ⟨t, ht, hchild⟩ := Block.childAt?_eq_some_iff.1 hover
      cases hs.symm.trans ht
      exact hother (hfree _ hchild hlive)
    | itself hq => exact hne (Option.some.inj (hid.symm.trans hq))
    | beneath hq hbelow =>
      cases hid.symm.trans hq
      exact hnot (wf.mem_ancestors_iff.2 hbelow)

/-- The rules of a move are that nothing is against it. -/
theorem WellFormed.checkMove_ok_iff (wf : r.WellFormed) (child p : BlockId)
    (slot : Option String) :
    r.checkMove child p slot = .ok () ↔ ¬ r.Barred child (.at p slot) := by
  rw [wf.not_barred_iff (Parent.at_id? p slot)]
  cases slot with
  | none =>
    rw [checkMove, checkBody_ok_iff]
    simp [Parent.at]
  | some slot =>
    rw [checkMove, checkInput_ok_iff]
    simp [Parent.at]

/-- A block is admitted to a place if nothing holds it and nothing is against it. -/
theorem WellFormed.admits_iff (wf : r.WellFormed) (child : BlockId) (hid : place.id? = some p) :
    r.Admits child place ↔ (∀ q, ¬ r.Holds q child) ∧ ¬ r.Barred child place := by
  rw [wf.not_barred_iff hid]
  constructor
  · intro h
    exact ⟨wf.not_holds h.free, h.live, h.room, h.outside p hid⟩
  · rintro ⟨hfree, hc, hroom, hout⟩
    obtain ⟨b, hb⟩ := contains_iff.1 hc
    have hnone : b.parent = .none :=
      by_contra fun hne => hfree b.parent (wf.held (parent?_of_get? hb) hne)
    refine ⟨hnone ▸ parent?_of_get? hb, hroom, fun q hq => ?_⟩
    cases hid.symm.trans hq
    exact hout

end Registry

namespace Board

variable {σ : Type} [Geometry σ] {b b' : Board σ} {child p : BlockId} {slot : Option String}

/-! ## Attaching on a board -/

/-- Attach a block to an input, or else to the end of a body. -/
def attachAt (child parent : BlockId) : Option String → BoardM σ Unit
  | none => attachToBody child parent
  | some slot => attachToInput child parent slot

/-- An admitted block is attached, and the parent and its ancestors hear of it. -/
theorem attachAt_run (h : b.registry.Admits child (.at p slot)) :
    attachAt child p slot b = (.ok (), (chain (b.registry.link child (.at p slot)) p).foldl noticed
      { b with registry := b.registry.link child (.at p slot) }) := by
  cases slot with
  | none => exact attachToBody_run h
  | some slot => exact attachToInput_run h

/-- A block that is not admitted is not attached, and nothing happens. -/
theorem attachAt_refused (h : ¬ b.registry.Admits child (.at p slot)) :
    ∃ f, attachAt child p slot b = (.error f, b) := by
  have hrun {m : Registry → Except Fault Registry} {next : BoardM σ Unit}
      (hm : ∀ r, m b.registry ≠ .ok r) :
      ∃ f, (do setBlocks (← ofExcept (m (← blocks))); next : BoardM σ Unit) b = (.error f, b) := by
    rw [run_bind_ok (blocks_ok_iff.2 ⟨rfl, rfl⟩)]
    cases hr : m b.registry with
    | error f => exact ⟨f, rfl⟩
    | ok r => exact absurd hr (hm r)
  cases slot with
  | none => exact hrun fun r hr => h (Registry.attachToBody_ok_iff.1 hr).1
  | some slot => exact hrun fun r hr => h (Registry.attachToInput_ok_iff.1 hr).1

theorem attachAt_ok_iff :
    (attachAt child p slot b).1 = .ok () ↔ b.registry.Admits child (.at p slot) := by
  constructor
  · intro hok
    by_contra h
    obtain ⟨f, hf⟩ := attachAt_refused h
    rw [hf] at hok
    cases hok
  · intro h
    rw [attachAt_run h]

/-- Between live blocks, attaching succeeds if and only if the registry behind the edge is
well formed, and the edge is not one over an input that is there already.  It is refused if
and only if the block is held already, or something is against the edge.  What succeeds
writes the edge, and what is refused changes nothing. -/
theorem attachAt_ok_iff_wellFormed (wf : b.registry.WellFormed) (child p : BlockId)
    (slot : Option String) (hc : b.registry.contains child = true)
    (hp : b.registry.contains p = true) :
    ((attachAt child p slot b).1 = .ok () ↔
      (b.registry.link child (.at p slot)).WellFormed ∧
        ∀ name, slot = some name → ¬ b.registry.Holds (.input p name) child) ∧
    ((∃ f, (attachAt child p slot b).1 = .error f) ↔
      (∃ q, b.registry.Holds q child) ∨ b.registry.Barred child (.at p slot)) ∧
    ((attachAt child p slot b).1 = .ok () →
      (attachAt child p slot b).2.registry = b.registry.link child (.at p slot)) ∧
    ∀ f, (attachAt child p slot b).1 = .error f → attachAt child p slot b = (.error f, b) := by
  have hid := Parent.at_id? p slot
  have hadmits := wf.admits_iff child hid
  by_cases h : b.registry.Admits child (.at p slot)
  · have hok : (attachAt child p slot b).1 = .ok () := attachAt_ok_iff.2 h
    refine ⟨iff_of_true hok ⟨wf.link h, ?_⟩, ?_, fun _ => ?_, ?_⟩
    · intro name _ hheld
      exact wf.not_holds h.free _ hheld
    · refine iff_of_false ?_ ?_
      · rintro ⟨f, hf⟩
        cases hok.symm.trans hf
      · rintro (⟨q, hq⟩ | hbarred)
        · exact wf.not_holds h.free q hq
        · exact (hadmits.1 h).2 hbarred
    · rw [attachAt_run h, registry_notices]
    · intro f hf
      cases hok.symm.trans hf
  · obtain ⟨f, hf⟩ := attachAt_refused h
    refine ⟨iff_of_false ?_ ?_, ?_, ?_, ?_⟩
    · rw [hf]
      exact nofun
    · rintro ⟨hw, hnew⟩
      rcases (wf.link_iff hc hid hp).1 hw with hadm | ⟨name, hplace, hheld⟩
      · exact h hadm
      · cases slot with
        | none => cases hplace
        | some name' =>
          cases hplace
          exact hnew name rfl hheld
    · refine iff_of_true ⟨f, by rw [hf]⟩ ?_
      by_contra hnone
      obtain ⟨hfree, hopen⟩ := not_or.1 hnone
      exact h (hadmits.2 ⟨fun q hq => hfree ⟨q, hq⟩, hopen⟩)
    · rw [hf]
      exact nofun
    · intro g hg
      rw [hf] at hg ⊢
      cases hg
      rfl

/-- A value over an input.  Writing its edge again gives a well-formed registry, and yet the
rules refuse it. -/
theorem not_attachAt_ok_again :
    let b := Workspace.builtWorkspace.board
    b.registry.WellFormed ∧ b.registry.contains "blk-3" = true ∧
      b.registry.contains "blk-1" = true ∧
      (b.registry.link "blk-3" (.at "blk-1" (some "times"))).WellFormed ∧
      (attachAt "blk-3" "blk-1" (some "times") b).1 ≠ .ok () := by
  have wf := (Workspace.sound_of_reachable Workspace.reachable_builtWorkspace).1
  have hheld : Workspace.builtWorkspace.board.registry.Holds (.input "blk-1" "times") "blk-3" :=
    wf.held (by decide +kernel) nofun
  refine ⟨wf, by decide +kernel, by decide +kernel, ?_, fun hok => ?_⟩
  · rw [Parent.at, Registry.link_eq_self wf hheld]
    exact wf
  · exact wf.not_holds (attachAt_ok_iff.1 hok).free _ hheld

/-- A command that is made beside a container is attached to its body. -/
theorem attachAt_ok_iff_wellFormed_built :
    let b := ((Operation.addEntry 0 .origin).perform Workspace.builtWorkspace).board
    b.registry.WellFormed ∧ b.registry.contains "blk-4" = true ∧
      b.registry.contains "blk-1" = true ∧
      (b.registry.link "blk-4" (.at "blk-1" none)).WellFormed ∧
      (attachAt "blk-4" "blk-1" none b).2.registry =
        b.registry.link "blk-4" (.at "blk-1" none) := by
  have hreach := Workspace.reachable_builtWorkspace.perform (.addEntry 0 .origin) fun _ => by
    decide +kernel
  have wf := (Workspace.sound_of_reachable hreach).1
  obtain ⟨hiff, -, hlink, -⟩ := attachAt_ok_iff_wellFormed wf "blk-4" "blk-1" none
    (by decide +kernel) (by decide +kernel)
  have hok : (attachAt "blk-4" "blk-1" none
      ((Operation.addEntry 0 .origin).perform Workspace.builtWorkspace).board).1 = .ok () := rfl
  exact ⟨wf, by decide +kernel, by decide +kernel, (hiff.1 hok).1, hlink hok⟩

end Board

end Blockwork
