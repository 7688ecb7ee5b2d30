import Blockwork.Proofs.Bundle.RecordsRead

/-!
# Relinking restores a forest

Let the references be exactly the edges of a well-formed registry, and let the blocks
be there without any edges.  A run along the references then comes back to the
registry.

That no reference is refused on the way is not shown step by step.  In the end no
reference is admissible, and every edge of the result is an edge of the registry.  An
edge that was missing would be admissible: its child has no parent, its place is
free, and what is above the place in the result is above it in the registry.  The
order of a body is that of the references.
-/

namespace Blockwork

@[simp] theorem Block.names_shell (b : Block) :
    Table.names b.shell.slots = Table.names b.slots := by
  simp [shell]

theorem Block.slots_eq_of_shell {b c : Block} (hs : b.shell = c.shell)
    (hb : (Table.names b.slots).Nodup) (hc : ∀ slot, b.childAt? slot = c.childAt? slot) :
    b.slots = c.slots := by
  have hnames : Table.names b.slots = Table.names c.slots := by
    rw [← names_shell, hs, names_shell]
  refine Table.ext_lookup hb hnames fun slot => ?_
  have hshell := congrArg (fun d : Block => d.slots.lookup slot) hs
  simp only [shell, Table.lookup_mapValues] at hshell
  have hchild := hc slot
  rw [childAt?, childAt?, slot?, slot?] at hchild
  cases hu : b.slots.lookup slot with
  | none =>
    rw [hu] at hshell
    exact (Option.map_eq_none_iff.1 hshell.symm).symm
  | some u =>
    cases hv : c.slots.lookup slot with
    | none => simp [hu, hv] at hshell
    | some v =>
      have hliteral : u.literal = v.literal := by simpa [hu, hv] using hshell
      have hover : u.child = v.child := by simpa [hu, hv] using hchild
      cases u
      cases v
      cases hliteral
      cases hover
      rfl

/-- A block is its shell with its edges. -/
theorem Block.ext_shell {b c : Block} (hs : b.shell = c.shell)
    (hb : (Table.names b.slots).Nodup) (hc : ∀ slot, b.childAt? slot = c.childAt? slot)
    (hn : b.nested = c.nested) (hp : b.parent = c.parent) : b = c := by
  have hslots : b.slots = c.slots := slots_eq_of_shell hs hb hc
  simp only [shell, Block.mk.injEq] at hs
  obtain ⟨hlabel, hkind, hcolor, htemplates, hvar, hposition, -⟩ := hs
  cases b
  cases c
  exact Block.mk.injEq .. ▸ ⟨hlabel, hkind, hcolor, htemplates, hvar, hposition, hslots, hn, hp⟩

namespace Registry

variable {r s t : Registry} {place : Parent} {x y : BlockId}

/-! ## Registries with the same blocks -/

/-- Two registries have the same blocks, up to their edges. -/
def SameShells (s t : Registry) : Prop := s.mapBlocks Block.shell = t.mapBlocks Block.shell

theorem SameShells.ids (h : SameShells s t) : s.ids = t.ids := by
  rw [← s.ids_mapBlocks Block.shell, h, ids_mapBlocks]

theorem SameShells.contains_iff (h : SameShells s t) :
    s.contains x = true ↔ t.contains x = true := by
  rw [← mem_ids_iff, h.ids, mem_ids_iff]

theorem SameShells.get? (h : SameShells s t) {c : Block} (hc : s.get? x = some c) :
    ∃ b, t.get? x = some b ∧ c.shell = b.shell := by
  have hx := congrArg (·.get? x) h
  simp only [get?_mapBlocks, hc, Option.map_some] at hx
  obtain ⟨b, hb, hs⟩ := Option.map_eq_some_iff.1 hx.symm
  exact ⟨b, hb, hs.symm⟩

theorem SameShells.exists_get? (h : SameShells s t) {b : Block} (hb : t.get? x = some b) :
    ∃ c, s.get? x = some c ∧ c.kind = b.kind ∧ Table.names c.slots = Table.names b.slots := by
  obtain ⟨c, hc, hshell⟩ := SameShells.get? h.symm hb
  refine ⟨c, hc, congrArg (fun b => b.kind) hshell.symm, ?_⟩
  rw [← c.names_shell, ← hshell, b.names_shell]

/-! ## Fewer edges -/

/-- Every edge of a registry is one of another. -/
def EdgesIn (s t : Registry) : Prop := ∀ {place x}, s.Holds place x → t.Holds place x

theorem EdgesIn.under (h : EdgesIn s t) (ws : s.WellFormed) (wt : t.WellFormed)
    (hu : s.Under x y) : t.Under x y := by
  obtain ⟨place, hp, hid⟩ := under_iff.1 hu
  exact wt.under_of_holds (h (ws.held hp (ne_none_of_id? hid))) hid

theorem EdgesIn.below (h : EdgesIn s t) (ws : s.WellFormed) (wt : t.WellFormed)
    (hb : s.Below x y) : t.Below x y :=
  hb.mono fun hu => h.under ws wt hu

/-- A place that holds a block has room for it where there are fewer edges. -/
theorem EdgesIn.room (h : EdgesIn s t) (wt : t.WellFormed) (hs : SameShells s t)
    (ht : t.Holds place x) : s.Room x place := by
  cases place with
  | none => exact ht
  | container id =>
    obtain ⟨b, hb, hx⟩ := ht
    obtain ⟨c, hc, hkind, -⟩ := hs.exists_get? hb
    exact ⟨c, hc, hkind ▸ wt.hasBody hb (List.ne_nil_of_mem hx)⟩
  | input id slot =>
    obtain ⟨d, hd⟩ := contains_iff.1 (wt.contains_of_holds ht)
    obtain ⟨e, he, hkind, -⟩ := hs.exists_get? hd
    have hfits : e.kind.fitsInput = true := hkind ▸ wt.fitsInput ht hd
    obtain ⟨b, hb, hx⟩ := ht
    obtain ⟨c, hc, -, hnames⟩ := hs.exists_get? hb
    obtain ⟨u, hu, -⟩ := Block.childAt?_eq_some_iff.1 hx
    obtain ⟨v, hv⟩ := Table.mem_names_iff.1 (hnames ▸ Table.mem_names_iff.2 ⟨u, hu⟩)
    refine ⟨e, c, v, he, hfits, hc, hv, ?_⟩
    intro other ho _
    -- what is over the input is over it in `t` as well
    have hother : s.Holds (.input id slot) other :=
      ⟨c, hc, Block.childAt?_eq_some_iff.2 ⟨v, hv, ho⟩⟩
    obtain ⟨b', hb', hx'⟩ := h hother
    cases hb.symm.trans hb'
    exact Option.some.inj (hx'.symm.trans hx)

/-- An edge that is missing is admissible. -/
theorem EdgesIn.admits (h : EdgesIn s t) (ws : s.WellFormed) (wt : t.WellFormed)
    (hs : SameShells s t) (ht : t.Holds place x) (hmissing : ¬ s.Holds place x) :
    s.Admits x place where
  free := by
    obtain ⟨b, hb⟩ := contains_iff.1 (hs.contains_iff.2 (wt.contains_of_holds ht))
    have hp := parent?_of_get? hb
    by_cases hne : b.parent = .none
    · rw [hp, hne]
    · have hheld := ws.held hp hne
      exact absurd (wt.holds_unique (h hheld) ht ▸ hheld) hmissing
  room := h.room wt hs ht
  outside p hp := by
    have hunder : t.Under x p := wt.under_of_holds ht hp
    constructor
    · intro he
      exact wt.acyclic p (.single (he ▸ hunder))
    · intro hm
      have hbelow : t.Below p x := h.below ws wt (ws.mem_ancestors_iff.1 hm)
      exact wt.acyclic p (hbelow.tail hunder)

/-! ## The same edges -/

theorem WellFormed.parent?_iff_holds (wf : r.WellFormed) (hne : place ≠ .none) :
    r.parent? x = some place ↔ r.Holds place x :=
  ⟨fun h => wf.held h hne, wf.confirmed⟩

/-- Well-formed registries with the same blocks and edges are the same if their bodies
are in the same order. -/
theorem ext_holds (ws : s.WellFormed) (wt : t.WellFormed) (hs : SameShells s t)
    (h : ∀ place x, s.Holds place x ↔ t.Holds place x)
    (hn : ∀ {x c b}, s.get? x = some c → t.get? x = some b → c.nested.Sublist b.nested) :
    s = t := by
  refine ext_get? hs.ids fun x => ?_
  cases hc : s.get? x with
  | none =>
    have hdead : ¬ t.contains x = true := fun ht =>
      not_contains_iff.2 hc (hs.contains_iff.2 ht)
    exact (not_contains_iff.1 hdead).symm
  | some c =>
    obtain ⟨b, hb, hshell⟩ := hs.get? hc
    rw [hb]
    refine congrArg some (Block.ext_shell hshell (ws.slots_nodup hc) ?_ ?_ ?_)
    · intro slot
      refine Option.ext fun y => ?_
      have hiff := h (.input x slot) y
      simpa [Holds, hc, hb] using hiff
    · refine (hn hc hb).eq_of_length_le ?_
      refine (List.subperm_of_subset (wt.nested_nodup hb) fun y hy => ?_).length_le
      obtain ⟨c', hc', hy⟩ := (h (.container x) y).2 ⟨b, hb, hy⟩
      cases hc.symm.trans hc'
      exact hy
    · have hiff (place : Parent) (hne : place ≠ .none) : c.parent = place ↔ b.parent = place := by
        have hplace : s.parent? x = some place ↔ t.parent? x = some place := by
          rw [ws.parent?_iff_holds hne, h, wt.parent?_iff_holds hne]
        simpa [parent?_of_get? hc, parent?_of_get? hb] using hplace
      by_cases hp : c.parent = .none
      · by_contra hne
        exact hne ((hiff b.parent (hp ▸ Ne.symm hne)).2 rfl)
      · exact ((hiff c.parent hp).1 rfl).symm

end Registry

namespace Bundle

variable {made r s : Registry} {refs : List Reference}

/-- A run along the edges of a well-formed registry restores it. -/
theorem Relinked.restores (h : Relinked refs made s) (hl : made.Loose) (wf : r.WellFormed)
    (hs : Registry.SameShells made r)
    (hrefs : ∀ place x, r.Holds place x ↔ ∃ e ∈ refs, e.place = place ∧ e.child = x)
    (hn : ∀ {x c b}, s.get? x = some c → r.get? x = some b → c.nested.Sublist b.nested) :
    s = r := by
  have hshells : Registry.SameShells s r := h.shell.trans hs
  have hedges : Registry.EdgesIn s r := fun hh =>
    (hrefs _ _).2 ((h.holds hh).resolve_left (hl.not_holds _ _))
  refine Registry.ext_holds h.wellFormed wf hshells (fun place x => ⟨hedges, fun hh => ?_⟩) hn
  by_contra hmissing
  obtain ⟨e, he, rfl, rfl⟩ := (hrefs _ _).1 hh
  exact h.maximal e he (hedges.admits h.wellFormed wf hshells hh hmissing)

end Bundle

end Blockwork
