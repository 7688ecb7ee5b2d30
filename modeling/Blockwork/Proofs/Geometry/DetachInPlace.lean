import Blockwork.Proofs.Geometry.Coherence
import Blockwork.Proofs.Geometry.Positions

/-!
# Blocks that are taken out stay where they are

A block that is taken out of its place is given the position that it had there.  So
nothing about where it lies changes, nor about where the blocks below it lie, since what
goes into their positions are the position of the block and the sizes of blocks below it.

A body keeps its height when a block leaves an input.  So when the blocks of all inputs
are taken out, one after the other, no size changes at all, and every block stays.
-/

namespace Blockwork

namespace EstimatedLayout

variable {r r' : Registry} {id child p x : BlockId} {place : Parent} {corner o : Point}
variable {D : BlockId → Prop} {box : Rect}

/-! ## Taking one block out -/

theorem Above.kept (hD : SameBelow r r' D) {ids : List BlockId} {n : Nat}
    (h : Above r child ids n) (hids : ∀ c ∈ ids, D c) : Above r' child ids n := by
  induction h with
  | nil => exact .nil
  | here => exact .here
  | sibling hne he _ ih =>
    have hc := he.kept hD (hids _ (List.mem_cons_self ..))
    exact .sibling hne hc (ih fun c hc => hids c (List.mem_cons_of_mem _ hc))

theorem shift_unlinked (c : Block) (e : Extent) (name : String) :
    shift (Registry.unlinked child place corner p c) e name = shift c e name := by
  have hslot : ((Registry.unlinked child place corner p c).slot? name).isNone =
      (c.slot? name).isNone := by
    rw [Bool.eq_iff_iff, Option.isNone_iff_eq_none, Option.isNone_iff_eq_none]
    rw [Block.slot?, Table.lookup_eq_none_iff, Block.slot?, Table.lookup_eq_none_iff]
    rw [Registry.unlinked, Registry.names_slotsUnlinked]
  rw [shift, shift, hslot]
  rfl

/-- Taking a block out and putting it down where it lies moves no block among those whose
bodies stay the same, if with a block its parents are among them, up to the one taken
out. -/
theorem Located.unlink (h : r.parent? child = some place) (hcorner : Located r child corner)
    (hD : SameBelow r (r.unlink child place corner) D)
    (hup : ∀ x p, D x → x ≠ child → r.Under x p → D p) (ho : Located r x o) (hx : D x) :
    Located (r.unlink child place corner) x o := by
  have hget {x : BlockId} {b : Block} (hb : r.get? x = some b) :
      (r.unlink child place corner).get? x =
        some (Registry.unlinked child place corner x b) := by
    rw [Registry.get?_unlink, hb]
    rfl
  have hchild : Located (r.unlink child place corner) child corner := by
    obtain ⟨b, hb, -⟩ := Registry.parent?_eq_some_iff.1 h
    have hroot := Located.root (hget hb) (by simp [Registry.unlinked])
    simpa [Registry.unlinked] using hroot
  have hunder {x p : BlockId} {b : Block} (hb : r.get? x = some b) (hp : b.parent.id? = some p) :
      r.Under x p := Registry.under_iff.2 ⟨b.parent, Registry.parent?_of_get? hb, hp⟩
  induction ho with
  | @root x b hb hp =>
    by_cases hxc : x = child
    · subst hxc
      rw [(Located.root hb hp).unique hcorner]
      exact hchild
    · have hroot := Located.root (hget hb) (by simp [Registry.unlinked, hxc, hp])
      simpa [Registry.unlinked, hxc] using hroot
  | @nested x p b c o n hb hp hc ho habove ih =>
    by_cases hxc : x = child
    · subst hxc
      rw [(Located.nested hb hp hc ho habove).unique hcorner]
      exact hchild
    · have hpD : D p := hup x p hx hxc (hunder hb (by rw [hp]; rfl))
      obtain ⟨c₁, c', hc₁, hc', -, -, hnested⟩ := hD.same p hpD
      cases hc.symm.trans hc₁
      have habove' := habove.kept hD (hD.down p c hpD hc)
      rw [← hnested] at habove'
      exact .nested (hget hb) (by simp [Registry.unlinked, hxc, hp]) hc' (ih hpD) habove'
  | @embedded x p name b c o e hb hp hc ho he ih =>
    by_cases hxc : x = child
    · subst hxc
      rw [(Located.embedded hb hp hc ho he).unique hcorner]
      exact hchild
    · have hpD : D p := hup x p hx hxc (hunder hb (by rw [hp]; rfl))
      have hshift : shift (Registry.unlinked child place corner p c) e name = shift c e name :=
        shift_unlinked c e name
      rw [← hshift]
      exact .embedded (hget hb) (by simp [Registry.unlinked, hxc, hp]) (hget hc) (ih hpD)
        (he.kept hD hpD)

theorem Boxed.unlink (h : r.parent? child = some place) (hcorner : Located r child corner)
    (hD : SameBelow r (r.unlink child place corner) D)
    (hup : ∀ x p, D x → x ≠ child → r.Under x p → D p) (hbox : Boxed r x box) (hx : D x) :
    Boxed (r.unlink child place corner) x box := by
  obtain ⟨o, e, ho, he, rfl⟩ := hbox
  exact ⟨o, e, Located.unlink h hcorner hD hup ho hx, he.kept hD hx, rfl⟩

theorem sameBelow_unlink (wf : r.WellFormed) (hlive : ∀ x, D x → r.contains x = true)
    (hplace : ∀ x, D x → place ≠ .container x)
    (hdown : ∀ x c, D x → r.Under c x → D c) : SameBelow r (r.unlink child place corner) D where
  same x hx := by
    obtain ⟨b, hb⟩ := Registry.contains_iff.1 (hlive x hx)
    have hb' : (r.unlink child place corner).get? x =
        some (Registry.unlinked child place corner x b) := by
      rw [Registry.get?_unlink, hb]
      rfl
    exact ⟨b, _, hb, hb', rfl, rfl, if_neg (hplace x hx)⟩
  down x b hx hb c hc := hdown x c hx (wf.under_of_mem_nested hb hc)

/-- A block that is taken out stays where it is, with everything below it. -/
theorem Boxed.unlink_below (wf : r.WellFormed) (h : r.parent? child = some place)
    (hcorner : Located r child corner) (hx : Relation.ReflTransGen r.Under x child)
    (hbox : Boxed r x box) : Boxed (r.unlink child place corner) x box := by
  have hD : SameBelow r (r.unlink child place corner)
      (Relation.ReflTransGen r.Under · child) := by
    refine sameBelow_unlink wf (fun x hx => ?_) (fun x hx => ?_) fun x c hx hc => .head hc hx
    · rcases Relation.ReflTransGen.cases_head hx with rfl | ⟨p, hp, -⟩
      · exact Registry.contains_of_parent? h
      · exact hp.contains
    · -- the holder is above the block, and so not below it
      rintro rfl
      have hu : r.Under child x := Registry.under_iff.2 ⟨_, h, rfl⟩
      exact wf.acyclic x (.tail' hx hu)
  refine hbox.unlink h hcorner hD (fun x p hx hne hp => ?_) hx
  rcases Relation.ReflTransGen.cases_head hx with rfl | ⟨q, hq, hqc⟩
  · exact absurd rfl hne
  · cases hp.symm.trans hq
    exact hqc

/-- When a block is taken out of an input, every live block stays where it is. -/
theorem Boxed.unlink_input (wf : r.WellFormed) {name : String}
    (h : r.parent? child = some (.input p name)) (hcorner : Located r child corner)
    (hbox : Boxed r x box) : Boxed (r.unlink child (.input p name) corner) x box := by
  have hD : SameBelow r (r.unlink child (.input p name) corner) (r.contains · = true) :=
    sameBelow_unlink wf (fun _ hx => hx) nofun fun _ _ _ hc => hc.contains
  refine hbox.unlink h hcorner hD (fun x p _ _ hp => wf.contains_of_under hp) ?_
  obtain ⟨o, e, -, he, -⟩ := hbox
  exact he.live

/-! ## Boards -/

variable {b b' : Board EstimatedLayout}

/-- The rectangle that the layout of a board answers for a block. -/
def boxOf (b : Board EstimatedLayout) (id : BlockId) : Except Fault Rect :=
  (boundingBox id ⟨b.registry, b.viewport⟩ b.layout).1

/-- The layout answers where a live block is. -/
theorem Settled.exists_boxed (hb : Settled b) (hid : b.registry.contains id = true) :
    ∃ box, boxOf b id = .ok box ∧ Boxed b.registry id box := by
  have hanswers : Query.Answers ⟨b.registry, b.viewport⟩ (Coherent b.registry)
      (boundingBox id) (Boxed b.registry id) := answers_boundingBox hb.wellFormed hid
  obtain ⟨box, l, hrun, -, hbox⟩ := hanswers b.layout hb.coherent
  exact ⟨box, congrArg Prod.fst hrun, hbox⟩

theorem Settled.boxOf_of_boxed (hb : Settled b) (hbox : Boxed b.registry id box) :
    boxOf b id = .ok box := by
  have hlive : b.registry.contains id = true := by
    obtain ⟨o, e, -, he, -⟩ := hbox
    exact he.live
  obtain ⟨box', h, hbox'⟩ := hb.exists_boxed hlive
  rw [h, hbox'.unique hbox]

theorem worldPosition_run (hb : Settled b) (hid : b.registry.contains id = true) :
    ∃ corner l, Board.worldPosition id b = (.ok corner, { b with layout := l }) ∧
      Located b.registry id corner := by
  obtain ⟨c, hc⟩ := Registry.contains_iff.1 hid
  have hanswers : Query.Answers ⟨b.registry, b.viewport⟩ (Coherent b.registry)
      (Survey.boundingBox id) (Boxed b.registry id) := answers_boundingBox hb.wellFormed hid
  obtain ⟨box, l, hrun, -, o, e, ho, -, hbox⟩ := hanswers b.layout hb.coherent
  have hask : Board.ask (Survey.boundingBox id) b = (.ok box, { b with layout := l }) := by
    rw [Board.ask, hrun]
  have hget : (get : BoardM EstimatedLayout _) b = (.ok b, b) := rfl
  refine ⟨box.corner, l, ?_, by rw [hbox]; exact ho⟩
  rw [Board.worldPosition, run_bind_ok (Board.require_ok_iff.2 ⟨hc, rfl⟩), run_bind_ok hget]
  rw [if_pos hb.measured, run_bind_ok hask]
  rfl

/-- Taking a block out of its place puts it down where it lies. -/
theorem Settled.detach (hb : Settled b) (h : b.registry.parent? id = some place)
    (hplace : place ≠ .none) :
    ∃ corner b', Board.detach id b = (.ok true, b') ∧ Settled b' ∧
      Located b.registry id corner ∧ b'.registry = b.registry.unlink id place corner := by
  obtain ⟨c, hc, rfl⟩ := Registry.parent?_eq_some_iff.1 h
  obtain ⟨p, hp, hlive⟩ := (hb.wellFormed.held h hplace).exists_id?
  obtain ⟨corner, l, hposition, hcorner⟩ := worldPosition_run hb (Registry.contains_of_get? hc)
  have hrun := Board.detach_run hc hp hposition
  have hchanges : Board.Changes b (Board.detach id b).2 := Board.evolves_detach id b
  have hsettled := hchanges.invariant hb Settled.change
  rw [hrun] at hsettled
  exact ⟨corner, _, hrun, hsettled, hcorner, Board.registry_notices ..⟩

/-- The block over an input of a block. -/
def over? (r : Registry) (id : BlockId) (name : String) : Option BlockId :=
  (r.get? id).bind fun b => b.childAt? name

theorem over?_unlink {name name' : String} (hne : name' ≠ name) :
    over? (r.unlink child (.input id name) corner) id name' = over? r id name' := by
  rw [over?, over?, Registry.get?_unlink]
  cases r.get? id with
  | none => rfl
  | some b =>
    have hplace : ¬(Parent.input id name = .input id name' ∧ b.childAt? name' = some child) :=
      fun h => hne (Parent.input.inj h.1).2.symm
    change (Registry.unlinked child (.input id name) corner id b).childAt? name' = b.childAt? name'
    rw [Registry.childAt?_unlinked, if_neg hplace]

/-- What taking out the blocks of some inputs does to a board. -/
structure Released (b b' : Board EstimatedLayout) (released : List BlockId) : Prop where
  settled : Settled b'
  /-- Every block stays where it was. -/
  boxes : ∀ {x box}, Boxed b.registry x box → Boxed b'.registry x box
  /-- The blocks that are taken out have no parent, and the others keep theirs. -/
  parents : ∀ x, b'.registry.parent? x =
    if x ∈ released then some .none else b.registry.parent? x

/-- Taking out the blocks of some inputs, one after the other. -/
theorem releaseSlots_run (id : BlockId) : ∀ (names : List String) (b : Board EstimatedLayout),
    Settled b → names.Nodup → ∃ b',
      Board.releaseSlots id names b = (.ok (names.filterMap (over? b.registry id)), b') ∧
      Released b b' (names.filterMap (over? b.registry id))
  | [], b, hb, _ => ⟨b, rfl, hb, fun h => h, fun x => by simp⟩
  | name :: names, b, hb, hnames => by
    obtain ⟨hname, hnames⟩ := List.nodup_cons.1 hnames
    have hblocks : (Board.blocks : BoardM EstimatedLayout _) b = (.ok b.registry, b) := rfl
    rw [Board.releaseSlots, run_bind_ok hblocks, List.filterMap_cons]
    cases hover : over? b.registry id name with
    | none =>
      obtain ⟨b', hrun, hreleased⟩ := releaseSlots_run id names b hb hnames
      refine ⟨b', ?_, hreleased⟩
      rw [show ((b.registry.get? id).bind fun c => (c.slot? name).bind Slot.child) = none
        from hover]
      exact hrun
    | some child =>
      have hheld : b.registry.Holds (.input id name) child := Option.bind_eq_some_iff.1 hover
      have hparent := hb.wellFormed.confirmed hheld
      obtain ⟨corner, b₁, hdetach, hb₁, hcorner, hr₁⟩ := hb.detach hparent nofun
      obtain ⟨b', hrun, hreleased⟩ := releaseSlots_run id names b₁ hb₁ hnames
      -- the other inputs hold what they held
      have hrest : names.filterMap (over? b₁.registry id) =
          names.filterMap (over? b.registry id) := by
        refine List.filterMap_congr fun name' hname' => ?_
        rw [hr₁]
        refine over?_unlink ?_
        rintro rfl
        exact hname hname'
      rw [hrest] at hrun hreleased
      refine ⟨b', ?_, hreleased.settled, fun hbox => ?_, fun x => ?_⟩
      · rw [show ((b.registry.get? id).bind fun c => (c.slot? name).bind Slot.child) = some child
          from hover]
        dsimp only
        rw [if_pos (Registry.contains_of_parent? hparent), run_bind_ok hdetach, run_bind_ok hrun]
        rfl
      · refine hreleased.boxes ?_
        rw [hr₁]
        exact hbox.unlink_input hb.wellFormed hparent hcorner
      · rw [hreleased.parents, hr₁, Registry.parent?_unlink (Registry.contains_of_parent? hparent)]
        by_cases hx : x = child <;> simp [hx]

theorem filterMap_over? (wf : r.WellFormed) {c : Block} (hc : r.get? id = some c) :
    (c.slots.map Prod.fst).filterMap (over? r id) = c.slots.filterMap fun s => s.2.child := by
  rw [List.filterMap_map]
  refine List.filterMap_congr fun s hs => ?_
  have hslot := Table.lookup_of_mem (wf.slots_nodup hc) hs
  rw [Function.comp, over?, hc]
  change (c.slots.lookup s.1).bind Slot.child = _
  rw [hslot]
  rfl

open Workspace (Reachable)

variable {settings : Settings} {store : Option Store} {palette : Palette}
variable {languages : List Code.Language} {trash : Option Rect} {w : Workspace EstimatedLayout}

/-- Whatever a user did before, taking blocks out makes none of them jump.  When a block is
detached, it stays where it is with everything below it.  When the inputs of a block are
released, the blocks over them come to the top level in the order of the inputs, and every
live block stays where it is. -/
theorem stay_of_reachable
    (h : Reachable Asked (Workspace.start settings store palette languages { trash }) w)
    {id : BlockId} {c : Block} (hc : w.board.registry.get? id = some c) :
    (c.parent ≠ .none → ∃ w', Workspace.detach id w = (.ok true, w') ∧
      w'.board.registry.parent? id = some .none ∧
      ∀ x, x = id ∨ w.board.registry.Below x id →
        ∃ box, boxOf w.board x = .ok box ∧ boxOf w'.board x = .ok box) ∧
    ∃ released w', released = c.slots.filterMap (fun s => s.2.child) ∧
      Workspace.releaseInputs id w = (.ok released, w') ∧
      (∀ x, w'.board.registry.parent? x =
        if x ∈ released then some .none else w.board.registry.parent? x) ∧
      ∀ x, w.board.registry.contains x = true →
        ∃ box, boxOf w.board x = .ok box ∧ boxOf w'.board x = .ok box := by
  have hb : Settled w.board := settled_of_reachable h
  constructor
  · intro hne
    have hparent := Registry.parent?_of_get? hc
    obtain ⟨corner, b', hdetach, hb', hcorner, hr⟩ := hb.detach hparent hne
    have hrun : Workspace.onBoard (Board.detach id) w = (.ok true, { w with board := b' }) := by
      rw [Workspace.onBoard, hdetach]
    refine ⟨{ w with board := b', changes := w.changes + 1 }, ?_, ?_, fun x hx => ?_⟩
    · rw [Workspace.detach, run_bind_ok hrun]
      rfl
    · simp [hr, Registry.contains_of_get? hc]
    · have hbelow : Relation.ReflTransGen w.board.registry.Under x id :=
        Relation.reflTransGen_iff_eq_or_transGen.2 (hx.imp_left Eq.symm)
      have hlive : w.board.registry.contains x = true := by
        rcases Relation.ReflTransGen.cases_head hbelow with rfl | ⟨p, hp, -⟩
        · exact Registry.contains_of_get? hc
        · exact hp.contains
      obtain ⟨box, hbox, hboxed⟩ := hb.exists_boxed hlive
      have hboxed' := hboxed.unlink_below hb.wellFormed hparent hcorner hbelow
      rw [← hr] at hboxed'
      exact ⟨box, hbox, hb'.boxOf_of_boxed hboxed'⟩
  · have hnames : (c.slots.map Prod.fst).Nodup := hb.wellFormed.slots_nodup hc
    obtain ⟨b', hrun, hreleased⟩ := releaseSlots_run id _ w.board hb hnames
    rw [filterMap_over? hb.wellFormed hc] at hrun hreleased
    have hrelease : Workspace.onBoard (Board.releaseInputs id) w =
        (.ok (c.slots.filterMap fun s => s.2.child), { w with board := b' }) := by
      have hboard : Board.releaseInputs id w.board =
          (.ok (c.slots.filterMap fun s => s.2.child), b') := by
        rw [Board.releaseInputs, run_bind_ok (Board.require_ok_iff.2 ⟨hc, rfl⟩), hrun]
      rw [Workspace.onBoard, hboard]
    have hend : ∃ w' : Workspace EstimatedLayout, w'.board = b' ∧
        Workspace.releaseInputs id w = (.ok (c.slots.filterMap fun s => s.2.child), w') := by
      rw [Workspace.releaseInputs, run_bind_ok hrelease]
      cases c.slots.filterMap fun s => s.2.child with
      | nil => exact ⟨_, rfl, rfl⟩
      | cons x xs => exact ⟨_, rfl, rfl⟩
    obtain ⟨w', rfl, hw'⟩ := hend
    refine ⟨_, w', rfl, hw', hreleased.parents, fun x hx => ?_⟩
    obtain ⟨box, hbox, hboxed⟩ := hb.exists_boxed hx
    exact ⟨box, hbox, hreleased.settled.boxOf_of_boxed (hreleased.boxes hboxed)⟩

/-- A container with a value over its input and a command in its body: the command is taken
out of the body, or the value out of the input, and what is taken out stays in place. -/
theorem stay_of_reachable_filled : ∃ w w₁ w₂ : Workspace EstimatedLayout,
    Reachable Asked (Workspace.start {} none .standard [] {}) w ∧
    Workspace.detach "blk-3" w = (.ok true, w₁) ∧
    (∃ box, boxOf w.board "blk-3" = .ok box ∧ boxOf w₁.board "blk-3" = .ok box) ∧
    Workspace.releaseInputs "blk-1" w = (.ok ["blk-2"], w₂) ∧
    w₂.board.registry.parent? "blk-2" = some .none ∧
    ∃ box, boxOf w.board "blk-2" = .ok box ∧ boxOf w₂.board "blk-2" = .ok box := by
  let w₀ : Workspace EstimatedLayout := Workspace.start {} none .standard [] {}
  have h₀ : Reachable Asked w₀ w₀ := .start
  have h₁ := h₀.perform (.addEntry 2 .origin) fun _ => by decide +kernel
  have h₂ := h₁.perform (.addEntry 7 .origin) fun _ => by decide +kernel
  have h₃ := h₂.perform (.addEntry 0 .origin) fun _ => by decide +kernel
  have h₄ := h₃.perform (.attachToInput "blk-2" "blk-1" (.str "times")) nofun
  have h₅ := h₄.perform (.attachToBody "blk-3" "blk-1") nofun
  obtain ⟨w, hw, h₅⟩ : ∃ w, _ = w ∧ Reachable Asked w₀ w := ⟨_, rfl, h₅⟩
  have hcommand : w.board.registry.parent? "blk-3" = some (.container "blk-1") := by
    rw [← hw]
    decide +kernel
  have hholder : (w.board.registry.get? "blk-1").map (fun c => c.slots.filterMap fun s => s.2.child) =
      some ["blk-2"] := by
    rw [← hw]
    decide +kernel
  have hvalue : w.board.registry.contains "blk-2" = true := by
    rw [← hw]
    decide +kernel
  obtain ⟨b, hb, hparent⟩ := Registry.parent?_eq_some_iff.1 hcommand
  obtain ⟨c, hc, hreleased⟩ := Option.map_eq_some_iff.1 hholder
  obtain ⟨w₁, hdetach, -, hbelow⟩ := (stay_of_reachable h₅ hb).1 (hparent ▸ nofun)
  obtain ⟨released, w₂, rfl, hrelease, hparents, hstay⟩ := (stay_of_reachable h₅ hc).2
  rw [hreleased] at hrelease hparents
  exact ⟨w, w₁, w₂, h₅, hdetach, hbelow "blk-3" (.inl rfl), hrelease,
    (hparents "blk-2").trans (by simp), hstay "blk-2" hvalue⟩

end EstimatedLayout

end Blockwork
