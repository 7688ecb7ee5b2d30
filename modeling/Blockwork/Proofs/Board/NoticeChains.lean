import Blockwork.Proofs.Board.Move
import Blockwork.Proofs.Drop.PickUp

/-!
# Who hears of a change

Every change of children is heard by the block whose children changed and by everything
above it, nearest first.  This is a chain, and in a forest no block is in it twice.

The chains are climbed when the edges have changed already.  That makes no difference: a new
edge is below the parent that gets it, and what is cut off or removed is below the parent
that loses it, so what is above a parent stays.  A removal looks for those who held what is
removed.  In a well-formed registry the only one outside is the parent of the block, which
is why it is told once, and why nobody has to be told at the end.
-/

namespace Blockwork

namespace Registry

variable {r s : Registry} {child id p : BlockId} {place : Parent} {ids l removed : List BlockId}

/-! ## Chains -/

/-- A block with what is above it, nearest first, and no block twice. -/
structure Chain (r : Registry) (p : BlockId) (ids : List BlockId) : Prop where
  climbs : ∃ l, ids = p :: l ∧ r.Lineage p l
  nodup : ids.Nodup

/-- The chain of the parent of a block, or nothing if it has none. -/
def HolderChain (r : Registry) (id : BlockId) (ids : List BlockId) : Prop :=
  match r.parentId? id with
  | none => ids = []
  | some p => r.Chain p ids

theorem WellFormed.chain (wf : r.WellFormed) (p : BlockId) : r.Chain p (Board.chain r p) :=
  ⟨⟨r.ancestors p, rfl, wf.lineage_ancestors p⟩, wf.lineage_nodup (wf.lineage_ancestors p)⟩

/-- What is above a block is the same in a registry that has the same parents there. -/
theorem Lineage.congr (h : r.Lineage p l)
    (hsame : ∀ x, Relation.ReflTransGen r.Under p x → s.parentId? x = r.parentId? x) :
    s.Lineage p l := by
  induction h with
  | root hr => exact .root ((hsame _ .refl).trans hr)
  | step hu _ ih =>
    have hu' : s.Under _ _ := (hsame _ .refl).trans hu
    exact .step hu' (ih fun x hx => hsame x (.head hu hx))

theorem chain_congr (wr : r.WellFormed) (ws : s.WellFormed)
    (hsame : ∀ x, Relation.ReflTransGen r.Under p x → s.parentId? x = r.parentId? x) :
    Board.chain s p = Board.chain r p := by
  have hl := (wr.lineage_ancestors p).congr hsame
  rw [Board.chain, Board.chain, (ws.lineage_ancestors p).unique hl]

theorem parentId?_eq (r : Registry) (id : BlockId) :
    r.parentId? id = (r.parent? id).bind Parent.id? := by
  rw [parentId?, parent?, Option.bind_map]
  rfl

/-- What is above the parent that loses a block stays. -/
theorem WellFormed.chain_unlink {position : Point} (wf : r.WellFormed)
    (hparent : r.parent? child = some place) (hp : place.id? = some p) :
    Board.chain (r.unlink child place position) p = Board.chain r p := by
  refine chain_congr wf (wf.unlink hparent) fun x hx => ?_
  have hu : r.Under child p := under_iff.2 ⟨place, hparent, hp⟩
  have hne : x ≠ child := by
    rintro rfl
    exact wf.acyclic x (.head' hu hx)
  simp [parentId?_eq, contains_of_parent? hparent, hne]

/-- What is above the parent that gets a block stays. -/
theorem WellFormed.chain_link (wf : r.WellFormed) (h : r.Admits child place)
    (hp : place.id? = some p) : Board.chain (r.link child place) p = Board.chain r p := by
  refine chain_congr wf (wf.link h) fun x hx => ?_
  have hne : x ≠ child := by
    rintro rfl
    exact wf.not_below_of_outside (h.outside p hp) hx
  simp [parentId?_eq, h.ne_none, h.live, hne]

/-- What is above a block that is not removed stays. -/
theorem WellFormed.chain_remove (wf : r.WellFormed) (h : r.Downward removed)
    (hp : p ∉ removed) : Board.chain (r.remove removed) p = Board.chain r p := by
  refine chain_congr wf (wf.remove h) fun x hx => ?_
  have hx : x ∉ removed := fun hm => hp (h.mem_of_below hx hm)
  rw [parentId?_eq, parent?_remove, if_neg hx, parentId?_eq]

/-! ## Who held what is removed -/

/-- A block mentions what it holds. -/
theorem WellFormed.mentions_of_under {b : Block} (wf : r.WellFormed) (hb : r.get? p = some b)
    (hu : r.Under id p) (hid : id ∈ removed) : mentions removed b = true := by
  obtain ⟨place, hplace, hp⟩ := under_iff.1 hu
  have hheld := wf.held hplace (ne_none_of_id? hp)
  rw [mentions, Bool.or_eq_true]
  cases place with
  | none => cases hp
  | container q =>
    cases hp
    obtain ⟨c, hc, hnested⟩ := hheld
    cases hb.symm.trans hc
    exact .inr (List.any_eq_true.2 ⟨id, hnested, by simpa using hid⟩)
  | input q slot =>
    cases hp
    obtain ⟨c, hc, hover⟩ := hheld
    cases hb.symm.trans hc
    obtain ⟨s, hs, hchild⟩ := Block.childAt?_eq_some_iff.1 hover
    exact .inl (List.any_eq_true.2 ⟨(slot, s), Table.mem_of_lookup hs, by simpa [hchild] using hid⟩)

/-- Outside what is removed, the parent of the block holds something of it, and no other. -/
theorem WellFormed.mem_touched_subtree_iff (wf : r.WellFormed) (hlive : r.contains id = true) :
    p ∈ r.touched (r.subtree id) ↔ r.Under id p := by
  have hmem {x : BlockId} : x ∈ r.subtree id ↔ Relation.ReflTransGen r.Under x id :=
    wf.mem_subtree_iff hlive
  rw [mem_touched_iff]
  constructor
  · rintro ⟨hout, b, hb, hm⟩
    by_contra hnot
    have hnone : mentions (r.subtree id) b = false := by
      refine wf.not_mentions hb fun c hc hin => ?_
      -- the parent of what is below the block is below the block too, or is the block
      rcases Relation.ReflTransGen.cases_head (hmem.1 hin) with rfl | ⟨q, hq, hqid⟩
      · exact hnot hc
      · cases hc.symm.trans hq
        exact hout (hmem.2 hqid)
    exact Bool.false_ne_true (hnone.symm.trans hm)
  · intro hu
    obtain ⟨b, hb⟩ := contains_iff.1 (wf.contains_of_under hu)
    refine ⟨fun hin => wf.acyclic p (.tail' (hmem.1 hin) hu), b, hb, ?_⟩
    exact wf.mentions_of_under hb hu (hmem.2 .refl)

theorem WellFormed.touched_of_under (wf : r.WellFormed) (hu : r.Under id p) :
    r.touched (r.subtree id) = [p] := by
  refine List.perm_singleton.1 ?_
  refine (List.perm_ext_iff_of_nodup (nodup_touched ..) (List.nodup_singleton p)).2 fun x => ?_
  rw [wf.mem_touched_subtree_iff hu.contains, List.mem_singleton]
  refine ⟨fun hx => Option.some.inj (hx.symm.trans hu), ?_⟩
  rintro rfl
  exact hu

theorem WellFormed.touched_of_root (wf : r.WellFormed) (hlive : r.contains id = true)
    (hroot : r.parentId? id = none) : r.touched (r.subtree id) = [] := by
  refine List.eq_nil_iff_forall_not_mem.2 fun x hx => ?_
  cases hroot.symm.trans ((wf.mem_touched_subtree_iff hlive).1 hx)

end Registry

namespace Board

variable {σ α : Type} [Geometry σ] {b b₁ : Board σ} {child id p : BlockId} {slot : Option String}

/-! ## The journal -/

theorem journal_notices (ids : List BlockId) (b : Board σ) :
    (ids.foldl noticed b).journal = b.journal ++ ids := by
  induction ids generalizing b with
  | nil => exact (List.append_nil _).symm
  | cons id ids ih =>
    have hone : (b.noticed id).journal = b.journal ++ [id] := rfl
    rw [List.foldl_cons, ih, hone, List.append_assoc]
    rfl

/-- A step gives such notices if it succeeds, and none if it fails.  What they are may
depend on the blocks after the step. -/
def Tells (b : Board σ) (run : Except Fault α × Board σ) (Q : Registry → List BlockId → Prop) :
    Prop :=
  match run with
  | (.ok _, b') => ∃ ids, b'.journal = b.journal ++ ids ∧ Q b'.registry ids
  | (.error _, b') => b'.journal = b.journal

theorem tells_attachAt (wf : b.registry.WellFormed) (child p : BlockId) (slot : Option String) :
    Tells b (attachAt child p slot b) fun r ids => b.registry.Chain p ids ∧ r.Chain p ids := by
  by_cases h : b.registry.Admits child (.at p slot)
  · have hkept := wf.chain_link h (Parent.at_id? p slot)
    rw [attachAt_run h]
    refine ⟨_, journal_notices .., ?_⟩
    rw [registry_notices, hkept]
    exact ⟨wf.chain p, hkept ▸ (wf.link h).chain p⟩
  · obtain ⟨f, hf⟩ := attachAt_refused h
    rw [hf]
    exact rfl

theorem tells_detach (wf : b.registry.WellFormed) (id : BlockId) :
    Tells b (detach id b) fun _ ids => b.registry.HolderChain id ids := by
  rcases hd : detach id b with ⟨f | detached, b'⟩
  · have hkept := detach_error (congrArg Prod.fst hd)
    rw [hd] at hkept
    exact hkept.2
  · obtain ⟨c, _, hrequire, -⟩ := run_bind_eq_ok.1 hd
    obtain ⟨hc, rfl⟩ := require_ok_iff.1 hrequire
    have hparent : b.registry.parent? id = some c.parent := Registry.parent?_of_get? hc
    have hid : b.registry.parentId? id = c.parent.id? := by
      rw [Registry.parentId?_eq, hparent, Option.bind_some]
    unfold Registry.HolderChain
    cases hp : c.parent.id? with
    | none =>
      cases (detach_of_root hc hp).symm.trans hd
      refine ⟨[], (List.append_nil _).symm, ?_⟩
      rw [hid, hp]
    | some p =>
      have hlive (position : Point) :
          (b.registry.unlink id c.parent position).contains p = true :=
        Registry.contains_unlink.trans (wf.contains_of_under (hid.trans hp))
      have hjournal := journal_worldPosition id b
      rcases hw : worldPosition id b with ⟨f | position, b₁⟩
      · cases (detach_of_lost hc hp hw).symm.trans hd
      · rw [hw] at hjournal
        cases (detach_run hc hp hw).symm.trans hd
        refine ⟨chain b.registry p, ?_, ?_⟩
        · rw [if_pos (hlive position), journal_notices, wf.chain_unlink hparent hp]
          exact congrArg (· ++ _) hjournal
        · rw [hid, hp]
          exact wf.chain p

theorem tells_move (wf : b.registry.WellFormed) (child p : BlockId) (slot : Option String) :
    Tells b (move child p slot b) fun r ids => ∃ before after, ids = before ++ after ∧
      b.registry.HolderChain child before ∧ r.Chain p after := by
  by_cases hbarred : b.registry.Barred child (.at p slot)
  · obtain ⟨f, hf⟩ := move_of_barred wf hbarred
    rw [hf]
    exact rfl
  · rw [move_of_open wf hbarred]
    have htells := tells_detach wf child
    rcases hd : detach child b with ⟨f | detached, b₁⟩
    · rw [hd] at htells
      rw [run_bind_error hd]
      exact htells
    · rw [hd] at htells
      obtain ⟨before, hbefore, hholder⟩ := htells
      have hadmits := admits_of_detach wf hbarred hd
      have hchanges : Changes b (detach child b).2 := evolves_detach child b
      have wf₁ := hchanges.invariant (P := fun b => b.registry.WellFormed) wf
        fun wf hc => hc.wellFormed wf
      rw [hd] at wf₁
      rw [run_bind_ok hd]
      have hattach := tells_attachAt wf₁ child p slot
      rw [attachAt_run hadmits] at hattach ⊢
      obtain ⟨after, hafter, -, hchain⟩ := hattach
      refine ⟨before ++ after, ?_, before, after, rfl, hholder, hchain⟩
      rw [hafter, hbefore, List.append_assoc]

theorem tells_remove (wf : b.registry.WellFormed) (id : BlockId) :
    Tells b (remove id b) fun _ ids => b.registry.HolderChain id ids := by
  cases hc : b.registry.get? id with
  | none =>
    rw [remove_of_dead hc]
    exact rfl
  | some c =>
    have hlive := Registry.contains_of_get? hc
    have hid : b.registry.parentId? id = c.parent.id? := by rw [Registry.parentId?, hc]; rfl
    obtain ⟨heard, hrun, hheard⟩ := remove_run hc
    rw [hrun]
    unfold Registry.HolderChain
    cases hp : c.parent.id? with
    | none =>
      rw [hp] at hheard
      rw [hheard, wf.touched_of_root hlive (hid.trans hp)]
      refine ⟨[], (List.append_nil _).symm, ?_⟩
      rw [hid, hp]
    | some p =>
      have hu : b.registry.Under id p := hid.trans hp
      have hout : p ∉ b.registry.subtree id := fun hin =>
        wf.acyclic p (.tail' ((wf.mem_subtree_iff hlive).1 hin) hu)
      have htouched := wf.touched_of_under hu
      have hnone : heard = [] := by
        rw [hheard, hp, htouched]
        simp
      refine ⟨chain b.registry p, ?_, ?_⟩
      · have hkept := wf.chain_remove (wf.downward_subtree hlive) hout
        rw [hnone, htouched, List.flatMap_singleton, List.foldl_nil, journal_notices]
        exact congrArg (b.journal ++ ·) hkept
      · rw [hid, hp]
        exact wf.chain p

/-! ## Composing -/

/-- Attaching is heard by the chain of the new parent, which the new edge does not change.
Detaching and removing are heard by the chain of the parent that the block had, once, and
by nobody if it had none.  A move is heard by the chain of the old parent and then by that
of the new one, as it is after the move.  A step that fails is heard by nobody. -/
theorem tells_chains (wf : b.registry.WellFormed) :
    (∀ child p slot, Tells b (attachAt child p slot b) fun r ids =>
      b.registry.Chain p ids ∧ r.Chain p ids) ∧
    (∀ id, Tells b (detach id b) fun _ ids => b.registry.HolderChain id ids) ∧
    (∀ child p slot, Tells b (move child p slot b) fun r ids => ∃ before after,
      ids = before ++ after ∧ b.registry.HolderChain child before ∧ r.Chain p after) ∧
    ∀ id, Tells b (remove id b) fun _ ids => b.registry.HolderChain id ids :=
  ⟨tells_attachAt wf, tells_detach wf, tells_move wf, tells_remove wf⟩

/-- A command is removed from a body.  The container hears of it, once. -/
theorem tells_chains_built :
    let b := Workspace.builtWorkspace.board
    b.registry.WellFormed ∧ b.registry.parentId? "blk-2" = some "blk-1" ∧
      (remove "blk-2" b).1 = .ok ["blk-2"] ∧
      (remove "blk-2" b).2.journal = b.journal ++ ["blk-1"] ∧
      b.registry.Chain "blk-1" ["blk-1"] := by
  have wf := (Workspace.sound_of_reachable Workspace.reachable_builtWorkspace).1
  let b := Workspace.builtWorkspace.board
  have hheld : b.registry.parentId? "blk-2" = some "blk-1" := by decide +kernel
  have hremoved : (remove "blk-2" b).1 = .ok ["blk-2"] := eq_ok_of_toOption (by decide +kernel)
  have hjournal : (remove "blk-2" b).2.journal = b.journal ++ ["blk-1"] := by decide +kernel
  have htells := (tells_chains wf).2.2.2 "blk-2"
  refine ⟨wf, hheld, hremoved, hjournal, ?_⟩
  have hr : remove "blk-2" b = (.ok ["blk-2"], (remove "blk-2" b).2) := Prod.ext hremoved rfl
  rw [hr] at htells
  obtain ⟨ids, hids, hchain⟩ := htells
  unfold Registry.HolderChain at hchain
  rw [hheld] at hchain
  rw [List.append_cancel_left (hids.symm.trans hjournal)] at hchain
  exact hchain

end Board

end Blockwork
