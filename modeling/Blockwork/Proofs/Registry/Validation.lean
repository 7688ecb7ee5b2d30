import Blockwork.Proofs.Registry.Ancestors

/-!
# What validation finds

A registry is consistent when its edges are written down alike on both sides, and this says
nothing about kinds: what a block holds is live and refers back to exactly that place, no
block is held twice, a block that refers to a live parent is held by some block, and no
block is above itself.  A reference to a parent that is not live is passed over.

Validation finds nothing exactly in the consistent registries, whatever else they hold.  The
edges are gone through with a list of the blocks that are held so far.  Only live children
get on this list, but an edge to a dead one is a violation anyway, so that without a
violation the list is everything that is held.

The climb that looks for a block above itself gives up when it meets a parent a second time.
It has then gone once around a cycle, so it would have met its own block if that were on the
cycle.  A block that merely leads into a cycle is not reported, but those on the cycle are.

A well-formed registry is consistent, so validation finds nothing in it.
-/

namespace Blockwork

/-- The ids that a block lists, those of the body first. -/
def Block.listed (b : Block) : List BlockId :=
  b.nested ++ b.slots.filterMap fun s => s.2.child

namespace Registry

variable {r : Registry} {id target p : BlockId} {seen : List BlockId}

/-! ## Blocks above themselves -/

/-- A climb that comes to a block started below it. -/
theorem below_of_leadsTo : ∀ (n : Nat) (seen : List BlockId) (id : BlockId),
    r.leadsTo target n seen id = true → r.Below id target
  | 0, _, _, h => nomatch h
  | n + 1, seen, id, h => by
    cases hp : r.parentId? id with
    | none => simp [leadsTo, hp] at h
    | some p =>
      simp only [leadsTo, hp] at h
      split at h
      · next he =>
        subst he
        exact .single hp
      · split at h
        · cases h
        · exact .head hp (below_of_leadsTo n (p :: seen) p h)

theorem Below.contains (h : r.Below id target) : r.contains id = true := by
  obtain ⟨q, hq, -⟩ := Relation.TransGen.head'_iff.1 h
  exact hq.contains

/-- What is above a block is its parent or above its parent. -/
theorem Below.of_under (h : r.Below id target) (hp : r.Under id p) :
    p = target ∨ r.Below p target := by
  obtain ⟨q, hq, hrest⟩ := Relation.TransGen.head'_iff.1 h
  cases hp.symm.trans hq
  rcases Relation.reflTransGen_iff_eq_or_transGen.1 hrest with rfl | hrest
  · exact .inl rfl
  · exact .inr hrest

/-- Where a climb is: what it has seen is live, and leads on through what it has seen up to
the block where the climb is now. -/
structure Climbed (r : Registry) (seen : List BlockId) (id : BlockId) : Prop where
  nodup : seen.Nodup
  live : ∀ x ∈ seen, r.contains x = true
  here : seen ≠ [] → id ∈ seen
  onward : ∀ x ∈ seen, x ≠ id → ∃ q ∈ seen, r.Under x q

theorem Climbed.start (r : Registry) (id : BlockId) : r.Climbed [] id :=
  ⟨List.nodup_nil, nofun, fun h => absurd rfl h, nofun⟩

theorem Climbed.step (h : r.Climbed seen id) (hp : r.Under id p) (hlive : r.contains p = true)
    (hnew : p ∉ seen) : r.Climbed (p :: seen) p where
  nodup := List.nodup_cons.2 ⟨hnew, h.nodup⟩
  live := List.forall_mem_cons.2 ⟨hlive, h.live⟩
  here _ := List.mem_cons_self ..
  onward := by
    refine List.forall_mem_cons.2 ⟨fun hne => absurd rfl hne, fun x hx _ => ?_⟩
    by_cases hxid : x = id
    · exact ⟨p, List.mem_cons_self .., hxid ▸ hp⟩
    · obtain ⟨q, hq, hu⟩ := h.onward x hx hxid
      exact ⟨q, List.mem_cons_of_mem p hq, hu⟩

/-- A climb that meets a parent a second time has seen everything above it. -/
theorem Climbed.mem_of_below (h : r.Climbed seen id) (hp : r.Under id p) (hmet : p ∈ seen)
    (hb : r.Below id target) : target ∈ seen := by
  have hclosed {y q : BlockId} (hy : y ∈ seen) (hq : r.Under y q) : q ∈ seen := by
    by_cases hyid : y = id
    · subst hyid
      cases hp.symm.trans hq
      exact hmet
    · obtain ⟨q', hq', hu⟩ := h.onward y hy hyid
      cases hu.symm.trans hq
      exact hq'
  have hid : id ∈ seen := h.here (List.ne_nil_of_mem hmet)
  induction hb with
  | single hu => exact hclosed hid hu
  | tail _ hu ih => exact hclosed ih hu

/-- With enough steps left a climb comes to whatever it started below and has not seen. -/
theorem leadsTo_of_below : ∀ (n : Nat) (seen : List BlockId) (id : BlockId),
    r.Climbed seen id → target ∉ seen → r.size < n + seen.length → r.Below id target →
    r.leadsTo target n seen id = true
  | 0, seen, id, hc, _, hsize, _ => by
    have hle := length_le_size hc.nodup hc.live
    omega
  | n + 1, seen, id, hc, hnot, hsize, hb => by
    obtain ⟨p, hp, -⟩ := Relation.TransGen.head'_iff.1 hb
    have hparent : r.parentId? id = some p := hp
    by_cases he : p = target
    · simp [leadsTo, hparent, he]
    · have hnew : p ∉ seen := fun hmet => hnot (hc.mem_of_below hp hmet hb)
      have hrest : r.Below p target := (hb.of_under hp).resolve_left he
      have hclimb : r.leadsTo target n (p :: seen) p = true := by
        refine leadsTo_of_below n (p :: seen) p (hc.step hp hrest.contains hnew) ?_ ?_ hrest
        · exact fun h => (List.mem_cons.1 h).elim (fun h => he h.symm) hnot
        · rw [List.length_cons]
          omega
      simp [leadsTo, hparent, he, hnew, hclimb]

/-- The parents of a block lead back to it if it is above itself. -/
theorem inParentCycle_iff : r.inParentCycle id = true ↔ r.Below id id := by
  constructor
  · exact below_of_leadsTo _ _ _
  · exact leadsTo_of_below _ [] id (.start r id) List.not_mem_nil (by simp)

/-! ## Violations -/

theorem missing_ne_nil {e : Edge} (h : e.place ≠ .none) : missing e ≠ [] := by
  obtain ⟨place, child⟩ := e
  cases place with
  | none => exact absurd rfl h
  | container id => simp [missing]
  | input id slot => simp [missing]

theorem unconfirmed_ne_nil {e : Edge} (h : e.place ≠ .none) : unconfirmed e ≠ [] := by
  obtain ⟨place, child⟩ := e
  cases place with
  | none => exact absurd rfl h
  | container id => simp [unconfirmed]
  | input id slot => simp [unconfirmed]

/-- Edges violate nothing if their children refer back to them, each is held once, and none
was held before. -/
theorem edgeViolations_eq_nil_iff : ∀ (es : List Edge) (held : List BlockId),
    (∀ e ∈ es, e.place ≠ .none) →
    (r.edgeViolations held es = [] ↔ (∀ e ∈ es, r.parent? e.child = some e.place) ∧
      (es.map Edge.child).Nodup ∧ ∀ e ∈ es, e.child ∉ held)
  | [], _, _ => by simp [edgeViolations]
  | e :: es, held, hplaces => by
    obtain ⟨hplace, hplaces⟩ := List.forall_mem_cons.1 hplaces
    have hrest := edgeViolations_eq_nil_iff es (e.child :: held) hplaces
    simp only [edgeViolations, List.map_cons, List.nodup_cons, List.forall_mem_cons]
    cases hc : r.get? e.child with
    | none =>
      have hparent : r.parent? e.child ≠ some e.place := by simp [parent?, hc]
      simp [missing_ne_nil hplace, hparent]
    | some c =>
      have hparent : r.parent? e.child = some e.place ↔ c.parent = e.place := by
        rw [parent?_of_get? hc, Option.some.injEq]
      have hfresh : (∀ f ∈ es, f.child ∉ e.child :: held) ↔
          e.child ∉ es.map Edge.child ∧ ∀ f ∈ es, f.child ∉ held := by
        simp only [List.mem_cons, not_or, List.mem_map, not_exists, not_and]
        exact forall₂_and
      have hone : (if c.parent = e.place then [] else unconfirmed e) = [] ↔ c.parent = e.place := by
        split <;> simp [*, unconfirmed_ne_nil hplace]
      have htwice : (if held.contains e.child then [Violation.heldTwice e.child] else []) = [] ↔
          e.child ∉ held := by simp
      simp only [List.append_eq_nil_iff, hone, htwice, hrest, hfresh, hparent]
      tauto

theorem place_ne_none_of_mem_edges {e : Edge} (h : e ∈ r.edges) : e.place ≠ .none := by
  obtain ⟨id, b, -, he⟩ := mem_edges_iff.1 h
  exact ne_none_of_id? (place_id?_of_mem_edgesOf he)

theorem mem_heldIds_iff :
    id ∈ r.heldIds ↔ r.contains id = true ∧ id ∈ r.edges.map Edge.child := by
  rw [heldIds, List.mem_filter, and_comm]

/-- A block violates nothing if it is held, or refers to no live parent, and is not above
itself. -/
theorem blockViolations_eq_nil_iff {b : Block} (hb : r.get? id = some b) :
    r.blockViolations r.heldIds id b = [] ↔
      (∀ p, r.Under id p → r.contains p = true → id ∈ r.edges.map Edge.child) ∧
        ¬ r.Below id id := by
  have hparent : r.parentId? id = b.parent.id? := by rw [parentId?, hb]; rfl
  have hheld : id ∈ r.heldIds ↔ id ∈ r.edges.map Edge.child := by
    rw [mem_heldIds_iff, and_iff_right (contains_of_get? hb)]
  have hcycle : (if r.inParentCycle id then [Violation.aboveItself id] else []) = [] ↔
      ¬ r.Below id id := by
    rw [← inParentCycle_iff]
    simp
  rw [blockViolations, List.append_eq_nil_iff, hcycle, ← hparent]
  refine and_congr_left fun _ => ?_
  cases hp : r.parentId? id with
  | none => simp [Under, hp]
  | some p =>
    simp only [Under, hp, Option.some.injEq, forall_eq', ← hheld]
    by_cases h : id ∈ r.heldIds <;> simp [h]

/-- The edges and the blocks of a registry violate nothing. -/
theorem validate_eq_nil_iff_edges : r.validate = [] ↔
    (∀ e ∈ r.edges, r.parent? e.child = some e.place) ∧ (r.edges.map Edge.child).Nodup ∧
      (∀ id p, r.Under id p → r.contains p = true → id ∈ r.edges.map Edge.child) ∧
      ∀ id, ¬ r.Below id id := by
  have hedges : r.edgeViolations [] r.edges = [] ↔
      (∀ e ∈ r.edges, r.parent? e.child = some e.place) ∧ (r.edges.map Edge.child).Nodup := by
    rw [edgeViolations_eq_nil_iff _ _ fun e he => place_ne_none_of_mem_edges he]
    simp
  have hblocks : (r.entries.flatMap fun e => r.blockViolations r.heldIds e.1 e.2) = [] ↔
      (∀ id p, r.Under id p → r.contains p = true → id ∈ r.edges.map Edge.child) ∧
        ∀ id, ¬ r.Below id id := by
    rw [List.flatMap_eq_nil_iff]
    constructor
    · intro h
      refine ⟨fun id p hu => ?_, fun id hb => ?_⟩
      · obtain ⟨b, hb⟩ := contains_iff.1 hu.contains
        exact ((blockViolations_eq_nil_iff hb).1 (h _ (get?_eq_some_iff.1 hb))).1 p hu
      · obtain ⟨b, hb'⟩ := contains_iff.1 hb.contains
        exact ((blockViolations_eq_nil_iff hb').1 (h _ (get?_eq_some_iff.1 hb'))).2 hb
    · rintro ⟨hheld, hacyclic⟩ ⟨id, b⟩ he
      exact (blockViolations_eq_nil_iff (get?_eq_some_iff.2 he)).2 ⟨hheld id, hacyclic id⟩
  rw [validate, List.append_eq_nil_iff, hedges, hblocks, and_assoc]

/-- A well-formed registry passes validation. -/
theorem WellFormed.validate_eq_nil (wf : r.WellFormed) : r.validate = [] := by
  refine validate_eq_nil_iff_edges.2 ⟨fun e he => ?_, wf.heldOnce, fun id p hu _ => ?_, wf.acyclic⟩
  · exact wf.confirmed (wf.mem_edges_iff_holds.1 he)
  · obtain ⟨place, hplace, hid⟩ := under_iff.1 hu
    have hholds := wf.held hplace (ne_none_of_id? hid)
    exact List.mem_map.2 ⟨⟨place, id⟩, wf.mem_edges_iff_holds.2 hholds, rfl⟩

/-! ## Consistent registries -/

/-- The edges of a registry are written down alike on both sides. -/
structure Consistent (r : Registry) : Prop where
  /-- What a body lists is live and refers back to it. -/
  nested : ∀ {id b child}, r.get? id = some b → child ∈ b.nested →
    r.parent? child = some (.container id)
  /-- What is over an input is live and refers back to it. -/
  inputs : ∀ {id b slot s child}, r.get? id = some b → (slot, s) ∈ b.slots →
    s.child = some child → r.parent? child = some (.input id slot)
  /-- No id comes twice in all bodies and inputs. -/
  heldOnce : (r.entries.flatMap fun e => e.2.listed).Nodup
  /-- A block that refers to a live parent is held by some block. -/
  held : ∀ {id p}, r.Under id p → r.contains p = true →
    ∃ holder b, r.get? holder = some b ∧ id ∈ b.listed
  /-- The parents of a block do not lead back to it. -/
  acyclic : ∀ id, ¬ r.Below id id

theorem map_child_edges : r.edges.map Edge.child = r.entries.flatMap fun e => e.2.listed := by
  rw [edges, List.map_flatMap]
  refine List.flatMap_congr fun e _ => ?_
  rw [edgesOf, Block.listed, List.map_append, List.map_map, List.map_filterMap]
  congr 1
  · exact List.map_id _
  · refine List.filterMap_congr fun s _ => ?_
    cases s.2.child <;> rfl

theorem mem_listed_iff : id ∈ r.entries.flatMap (fun e => e.2.listed) ↔
    ∃ holder b, r.get? holder = some b ∧ id ∈ b.listed := by
  simp only [List.mem_flatMap, Prod.exists, get?_eq_some_iff]

/-- Every listed edge is confirmed by its child if what bodies list and what is over inputs
refers back. -/
theorem edges_confirmed_iff : (∀ e ∈ r.edges, r.parent? e.child = some e.place) ↔
    ∀ id b, r.get? id = some b →
      (∀ child ∈ b.nested, r.parent? child = some (.container id)) ∧
        ∀ s ∈ b.slots, ∀ child, s.2.child = some child →
          r.parent? child = some (.input id s.1) := by
  constructor
  · intro h id b hb
    refine ⟨fun child hc => ?_, fun s hs child hc => ?_⟩
    · exact h ⟨.container id, child⟩
        (mem_edges_iff.2 ⟨id, b, hb, mem_edgesOf_iff.2 (.inl ⟨rfl, hc⟩)⟩)
    · exact h ⟨.input id s.1, child⟩
        (mem_edges_iff.2 ⟨id, b, hb, mem_edgesOf_iff.2 (.inr ⟨s, hs, rfl, hc⟩)⟩)
  · intro h e he
    obtain ⟨id, b, hb, he⟩ := mem_edges_iff.1 he
    obtain ⟨hnested, hinputs⟩ := h id b hb
    rcases mem_edgesOf_iff.1 he with ⟨hplace, hc⟩ | ⟨s, hs, hplace, hc⟩
    · rw [hplace]
      exact hnested e.child hc
    · rw [hplace]
      exact hinputs s hs e.child hc

/-- Validation finds nothing exactly in the consistent registries. -/
theorem validate_eq_nil_iff : r.validate = [] ↔ r.Consistent := by
  rw [validate_eq_nil_iff_edges, edges_confirmed_iff, map_child_edges]
  simp only [mem_listed_iff]
  constructor
  · rintro ⟨hconfirmed, honce, hheld, hacyclic⟩
    exact {
      nested := fun hb hc => (hconfirmed _ _ hb).1 _ hc
      inputs := fun hb hs hc => (hconfirmed _ _ hb).2 _ hs _ hc
      heldOnce := honce
      held := fun hu hp => hheld _ _ hu hp
      acyclic := hacyclic }
  · intro h
    refine ⟨fun id b hb => ⟨fun child hc => ?_, fun s hs child hc => ?_⟩, h.heldOnce,
      fun id p hu hp => h.held hu hp, h.acyclic⟩
    · exact h.nested hb hc
    · exact h.inputs hb hs hc

end Registry

end Blockwork
