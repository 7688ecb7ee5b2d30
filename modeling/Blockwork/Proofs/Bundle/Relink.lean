import Blockwork.Proofs.Bundle.MakeBlock
import Blockwork.Proofs.Registry.Link

/-!
# Relinking

The second round of reading goes through the recorded edges in order and links
those that the rules allow at that moment.  Linking more edges never makes an edge
admissible: a block with a parent keeps it, what is in an input stays there, and
what is above a block stays above it.  So an edge that was refused stays refused,
one that was linked is refused since its child has a parent, and in the end no
recorded edge is admissible.

`Relinked` collects what a run along some references does, and is shown reference
by reference.
-/

namespace Blockwork

namespace Registry

variable {r : Registry} {child x : BlockId} {place q : Parent}

/-! ## Edges do not become admissible -/

theorem Room.of_link (wf : r.WellFormed) (h : r.Admits child place)
    (hr : (r.link child place).Room x q) : r.Room x q := by
  cases q with
  | none => exact hr
  | container id =>
    obtain ⟨_, hd, hk⟩ := hr
    obtain ⟨c, hc, rfl⟩ := exists_of_get?_link h.ne_none hd
    exact ⟨c, hc, hk⟩
  | input id slot =>
    obtain ⟨_, _, s, hx, hk, hd, hs, hfree⟩ := hr
    obtain ⟨b, hb, rfl⟩ := exists_of_get?_link h.ne_none hx
    obtain ⟨c, hc, rfl⟩ := exists_of_get?_link h.ne_none hd
    have hnames : Table.names (slotsLinked child id c.slots place) = Table.names c.slots :=
      names_slotsLinked c.slots
    have hname : slot ∈ Table.names c.slots := hnames ▸ Table.mem_names_iff.2 ⟨s, hs⟩
    obtain ⟨t, ht⟩ := Table.mem_names_iff.1 hname
    refine ⟨b, c, t, hb, hk, hc, ht, fun other ho hlive => ?_⟩
    -- what was over the input still is
    have hheld : r.Holds (.input id slot) other :=
      ⟨c, hc, Block.childAt?_eq_some_iff.2 ⟨t, ht, ho⟩⟩
    obtain ⟨d, hd, hover⟩ := (holds_link wf h).2 (.inl hheld)
    rw [get?_link h.ne_none, hc] at hd
    cases hd
    obtain ⟨u, hu, hover⟩ := Block.childAt?_eq_some_iff.1 hover
    cases hs.symm.trans hu
    refine hfree other hover (mem_ids_iff.1 ?_)
    rw [ids_link]
    exact mem_ids_iff.2 hlive

/-- What is admissible behind a new edge was admissible before. -/
theorem Admits.of_link (wf : r.WellFormed) (h : r.Admits child place)
    (ha : (r.link child place).Admits x q) : r.Admits x q where
  free := by
    have hfree := ha.free
    rw [parent?_link h.ne_none h.live] at hfree
    split at hfree
    · exact absurd (Option.some.inj hfree) h.ne_none
    · exact hfree
  room := ha.room.of_link wf h
  outside p hp := by
    refine ⟨(ha.outside p hp).1, fun hm => (ha.outside p hp).2 ?_⟩
    exact (wf.link h).mem_ancestors_iff.2 (Below.link h (wf.mem_ancestors_iff.1 hm))

end Registry

namespace Bundle

variable {r s t : Registry} {e : Reference} {refs : List Reference}

/-! ## One reference -/

/-- The place that a reference names. -/
def Reference.place (e : Reference) : Parent :=
  match e.slot with
  | none => .container e.parent
  | some slot => .input e.parent slot

theorem Reference.place_id? (e : Reference) : e.place.id? = some e.parent := by
  rw [place]
  cases e.slot <;> rfl

theorem attach_ok_iff : attach r e = .ok s ↔
    r.Admits e.child e.place ∧ s = r.link e.child e.place := by
  rw [attach, Reference.place]
  cases e.slot with
  | none => exact Registry.attachToBody_ok_iff
  | some slot => exact Registry.attachToInput_ok_iff

/-- Between live blocks a reference is refused by the rules, or attached. -/
theorem refuses_attach (hc : r.contains e.child = true) (hp : r.contains e.parent = true) :
    Registry.Refuses (attach r e) := by
  rw [attach]
  cases e.slot with
  | none => exact Registry.refuses_attachToBody hc hp
  | some slot => exact Registry.refuses_attachToInput hc hp

theorem attach_refused (hc : r.contains e.child = true) (hp : r.contains e.parent = true)
    (h : ¬ r.Admits e.child e.place) : ∃ cause, attach r e = .error (.attach cause) := by
  cases ha : attach r e with
  | ok s => exact absurd (attach_ok_iff.1 ha).1 h
  | error f =>
    obtain ⟨cause, rfl⟩ := refuses_attach hc hp f ha
    exact ⟨cause, rfl⟩

/-- A reference from a live parent is linked if it is admissible, and passed over
otherwise. -/
theorem relink_ok (h : relink r e = .ok s) :
    r.Admits e.child e.place ∧ s = r.link e.child e.place ∨
      ¬ r.Admits e.child e.place ∧ s = r := by
  unfold relink at h
  split at h
  · split at h
    · next ha =>
      refine .inr ⟨fun hadmits => ?_, (Except.ok.inj h).symm⟩
      cases ha.symm.trans (attach_ok_iff.2 ⟨hadmits, rfl⟩)
    · exact .inl (attach_ok_iff.1 h)
  · next hdead => exact .inr ⟨fun hadmits => hdead hadmits.live, (Except.ok.inj h).symm⟩

theorem relink_total (hp : r.contains e.parent = true) : ∃ s, relink r e = .ok s := by
  unfold relink
  split
  · next hc =>
    cases ha : attach r e with
    | ok s => exact ⟨s, rfl⟩
    | error f =>
      obtain ⟨cause, rfl⟩ := refuses_attach hc hp f ha
      exact ⟨r, rfl⟩
  · exact ⟨r, rfl⟩

theorem wellFormed_relink (wf : r.WellFormed) (h : relink r e = .ok s) : s.WellFormed := by
  rcases relink_ok h with ⟨ha, rfl⟩ | ⟨-, rfl⟩
  · exact wf.link ha
  · exact wf

theorem ids_relink (h : relink r e = .ok s) : s.ids = r.ids := by
  rcases relink_ok h with ⟨-, rfl⟩ | ⟨-, rfl⟩
  · exact Registry.ids_link
  · rfl

/-! ## All references -/

/-- The blocks that references put into a body, in order. -/
def bodyOf (id : BlockId) (refs : List Reference) : List BlockId :=
  (refs.filter fun e => e.place = .container id).map Reference.child

/-- What a run along references makes of a registry. -/
structure Relinked (refs : List Reference) (r s : Registry) : Prop where
  /-- The edges make a forest. -/
  wellFormed : s.WellFormed
  /-- No block has come or gone. -/
  ids : s.ids = r.ids
  /-- Nothing but edges has changed. -/
  shell : s.mapBlocks Block.shell = r.mapBlocks Block.shell
  /-- A block that had a parent has kept it. -/
  kept : ∀ {x place}, r.parent? x = some place → place ≠ .none → s.parent? x = some place
  /-- What is admissible was admissible before. -/
  admits : ∀ {x place}, s.Admits x place → r.Admits x place
  /-- Every new edge is along a reference. -/
  holds : ∀ {place x}, s.Holds place x → r.Holds place x ∨ ∃ e ∈ refs, e.place = place ∧ e.child = x
  /-- Bodies have grown by some of the blocks that the references put there, in
  order. -/
  nested : ∀ {id b}, r.get? id = some b →
    ∃ c added, s.get? id = some c ∧ c.nested = b.nested ++ added ∧ added.Sublist (bodyOf id refs)
  /-- No reference is admissible. -/
  maximal : ∀ e ∈ refs, ¬ s.Admits e.child e.place

theorem Relinked.refl (wf : r.WellFormed) : Relinked [] r r where
  wellFormed := wf
  ids := rfl
  shell := rfl
  kept h _ := h
  admits h := h
  holds h := .inl h
  nested h := ⟨_, [], h, (List.append_nil _).symm, List.nil_sublist _⟩
  maximal _ he := absurd he List.not_mem_nil

/-- One more reference in front that is passed over. -/
theorem Relinked.skip (h : Relinked refs r s) (hn : ¬ r.Admits e.child e.place) :
    Relinked (e :: refs) r s where
  wellFormed := h.wellFormed
  ids := h.ids
  shell := h.shell
  kept := h.kept
  admits := h.admits
  holds hh := (h.holds hh).imp_right fun ⟨f, hf, hp⟩ => ⟨f, List.mem_cons_of_mem _ hf, hp⟩
  nested hb := by
    obtain ⟨c, added, hc, hn, hs⟩ := h.nested hb
    exact ⟨c, added, hc, hn, hs.trans (((List.sublist_cons_self e refs).filter _).map _)⟩
  maximal f hf := by
    rcases List.mem_cons.1 hf with rfl | hf
    · exact fun ha => hn (h.admits ha)
    · exact h.maximal f hf

/-- One more reference in front that is linked. -/
theorem Relinked.link (wf : r.WellFormed) (ha : r.Admits e.child e.place)
    (h : Relinked refs (r.link e.child e.place) s) : Relinked (e :: refs) r s where
  wellFormed := h.wellFormed
  ids := h.ids.trans Registry.ids_link
  shell := h.shell.trans Registry.mapBlocks_shell_link
  kept {x place} hp hne := by
    refine h.kept ?_ hne
    rw [Registry.parent?_link ha.ne_none ha.live, if_neg]
    · exact hp
    · rintro rfl
      exact hne (Option.some.inj (hp.symm.trans ha.free))
  admits hadm := .of_link wf ha (h.admits hadm)
  holds hh := by
    rcases h.holds hh with hh | ⟨f, hf, hp⟩
    · rcases (Registry.holds_link wf ha).1 hh with hh | ⟨hp, hx⟩
      · exact .inl hh
      · exact .inr ⟨e, List.mem_cons_self .., hp.symm, hx.symm⟩
    · exact .inr ⟨f, List.mem_cons_of_mem _ hf, hp⟩
  nested {id b} hb := by
    have hb' : (r.link e.child e.place).get? id = some (Registry.linked e.child e.place id b) := by
      simp [ha.ne_none, hb]
    obtain ⟨c, added, hc, hn, hs⟩ := h.nested hb'
    by_cases hp : e.place = .container id
    · refine ⟨c, e.child :: added, hc, ?_, ?_⟩
      · simpa [Registry.linked, hp] using hn
      · simpa [bodyOf, hp] using hs
    · refine ⟨c, added, hc, ?_, ?_⟩
      · simpa [Registry.linked, hp] using hn
      · simpa [bodyOf, hp] using hs
  maximal f hf := by
    rcases List.mem_cons.1 hf with rfl | hf
    · -- its child has a parent now, and keeps it
      intro hadm
      have hp : s.parent? f.child = some f.place := by
        refine h.kept ?_ ha.ne_none
        simp [ha.ne_none, ha.live]
      exact ha.ne_none (Option.some.inj (hp.symm.trans hadm.free))
    · exact h.maximal f hf

/-- A run along references that comes to an end. -/
theorem relinked_of_run (wf : r.WellFormed) (h : refs.foldlM relink r = .ok s) :
    Relinked refs r s := by
  induction refs generalizing r with
  | nil =>
    cases h
    exact .refl wf
  | cons e refs ih =>
    rw [List.foldlM_cons] at h
    obtain ⟨r₁, h₁, hrest⟩ := except_bind_eq_ok.1 h
    rcases relink_ok h₁ with ⟨ha, rfl⟩ | ⟨hn, rfl⟩
    · exact .link wf ha (ih (wf.link ha) hrest)
    · exact (ih wf hrest).skip hn

/-- A run along references from live parents comes to an end. -/
theorem run_total (wf : r.WellFormed) (h : ∀ e ∈ refs, r.contains e.parent = true) :
    ∃ s, refs.foldlM relink r = .ok s := by
  induction refs generalizing r with
  | nil => exact ⟨r, rfl⟩
  | cons e refs ih =>
    obtain ⟨r₁, h₁⟩ := relink_total (h e (List.mem_cons_self ..))
    obtain ⟨s, hs⟩ := ih (wellFormed_relink wf h₁) fun f hf => by
      rw [← Registry.mem_ids_iff, ids_relink h₁, Registry.mem_ids_iff]
      exact h f (List.mem_cons_of_mem _ hf)
    exact ⟨s, except_bind_eq_ok.2 ⟨r₁, h₁, hs⟩⟩

end Bundle

end Blockwork
