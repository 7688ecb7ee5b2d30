import Blockwork.Proofs.Registry.WellFormed

/-!
# Ancestors

Climbing remembers what it has seen and counts its steps.  In a well-formed
registry neither ends the climb: no block is above itself, and a lineage has no
more blocks than the registry.  So `ancestors` lists the whole lineage of a block,
and it is everything above the block.

The depth of a block, the length of its lineage, grows by one from a parent to its
child and stays below the number of blocks.  Walks downward are bounded by it.
-/

namespace Blockwork.Registry

variable {r : Registry} {id p a : BlockId} {l : List BlockId}

/-- What is above a block, nearest first, up to a block without a parent. -/
inductive Lineage (r : Registry) : BlockId → List BlockId → Prop
  /-- Nothing is above a block without a parent. -/
  | root {id : BlockId} : r.parentId? id = none → Lineage r id []
  /-- The parent is above a block, with what is above the parent. -/
  | step {id p : BlockId} {l : List BlockId} :
      r.Under id p → Lineage r p l → Lineage r id (p :: l)

namespace Lineage

theorem unique {l' : List BlockId} (h : r.Lineage id l) (h' : r.Lineage id l') : l = l' := by
  induction h generalizing l' with
  | root hr =>
    cases h' with
    | root _ => rfl
    | step hu _ => cases hr.symm.trans hu
  | step hu _ ih =>
    cases h' with
    | root hr => cases hr.symm.trans hu
    | step hu' hl =>
      cases hu.symm.trans hu'
      rw [ih hl]

/-- A lineage is everything above its block. -/
theorem mem_iff (h : r.Lineage id l) : a ∈ l ↔ r.Below id a := by
  induction h with
  | root hr =>
    refine ⟨fun h => absurd h List.not_mem_nil, fun h => ?_⟩
    obtain ⟨q, hq, -⟩ := Relation.TransGen.head'_iff.1 h
    cases hr.symm.trans hq
  | @step id p l hu _ ih =>
    rw [List.mem_cons, ih]
    constructor
    · rintro (rfl | h)
      · exact .single hu
      · exact .head hu h
    · intro h
      obtain ⟨q, hq, hqa⟩ := Relation.TransGen.head'_iff.1 h
      cases hu.symm.trans hq
      exact Relation.reflTransGen_iff_eq_or_transGen.1 hqa

end Lineage

theorem mem_roots_iff : id ∈ r.roots ↔ r.parent? id = some .none := by
  simp only [roots, List.mem_map, List.mem_filter, Prod.exists, parent?_eq_some_iff,
    get?_eq_some_iff, Parent.isNone_iff]
  constructor
  · rintro ⟨x, b, h, rfl⟩
    exact ⟨b, h⟩
  · rintro ⟨b, h⟩
    exact ⟨id, b, h, rfl⟩

theorem contains_of_mem_roots (h : id ∈ r.roots) : r.contains id = true :=
  contains_of_parent? (mem_roots_iff.1 h)

theorem mem_roots_of_parentId? (hid : r.contains id = true) (hr : r.parentId? id = none) :
    id ∈ r.roots := by
  obtain ⟨b, hb⟩ := contains_iff.1 hid
  rw [parentId?, hb] at hr
  exact mem_roots_iff.2 (parent?_eq_some_iff.2 ⟨b, hb, Parent.id?_eq_none_iff.1 hr⟩)

namespace WellFormed

/-- What is above a block is live. -/
theorem contains_of_below (wf : r.WellFormed) (h : r.Below id a) : r.contains a = true := by
  obtain ⟨q, -, hq⟩ := Relation.TransGen.tail'_iff.1 h
  exact wf.contains_of_under hq

theorem lineage_nodup (wf : r.WellFormed) (h : r.Lineage id l) : (id :: l).Nodup := by
  induction h with
  | root _ => simp
  | @step id p l hu hl ih =>
    exact List.nodup_cons.2 ⟨fun hm => wf.acyclic id ((hl.step hu).mem_iff.1 hm), ih⟩

/-- A climb with enough steps left lists the lineage.  `seen` is what it came
through, so everything in it is the block or below it. -/
theorem lineage_climb (wf : r.WellFormed) :
    ∀ (n : Nat) (seen : List BlockId) (id : BlockId),
      seen.Nodup → (∀ x ∈ seen, r.contains x = true ∧ Relation.ReflTransGen r.Under x id) →
      r.size < n + seen.length → r.Lineage id (r.climb n seen id)
  | 0, seen, id, hn, hs, hsize => by
    have := length_le_size hn fun x hx => (hs x hx).1
    omega
  | n + 1, seen, id, hn, hs, hsize => by
    cases hp : r.parentId? id with
    | none =>
      simp only [climb, hp]
      exact .root hp
    | some p =>
      have hlive : r.contains p = true := wf.contains_of_under hp
      have hnew : p ∉ seen := fun hm => wf.acyclic p (.tail' (hs p hm).2 hp)
      have hif : (seen.contains p || !r.contains p) = false := by simp [hnew, hlive]
      simp only [climb, hp, hif, Bool.false_eq_true, if_false]
      refine .step hp (lineage_climb wf n (p :: seen) p (List.nodup_cons.2 ⟨hnew, hn⟩) ?_ ?_)
      · intro x hx
        rcases List.mem_cons.1 hx with rfl | hx
        · exact ⟨hlive, .refl⟩
        · exact ⟨(hs x hx).1, (hs x hx).2.tail hp⟩
      · rw [List.length_cons]
        omega

/-- The ancestors of a block are its lineage. -/
theorem lineage_ancestors (wf : r.WellFormed) (id : BlockId) : r.Lineage id (r.ancestors id) := by
  by_cases h : r.contains id = true
  · refine wf.lineage_climb r.size [id] id (List.nodup_singleton id) ?_ (by simp)
    intro x hx
    cases List.mem_singleton.1 hx
    exact ⟨h, .refl⟩
  · have hp : r.parentId? id = none := by rw [parentId?, not_contains_iff.1 h]; rfl
    have hc : r.ancestors id = [] := by
      unfold ancestors
      cases r.size <;> simp [climb, hp]
    rw [hc]
    exact .root hp

/-- The ancestors of a block are everything above it. -/
theorem mem_ancestors_iff (wf : r.WellFormed) : a ∈ r.ancestors id ↔ r.Below id a :=
  (wf.lineage_ancestors id).mem_iff

theorem ancestors_of_under (wf : r.WellFormed) (h : r.Under id p) :
    r.ancestors id = p :: r.ancestors p :=
  (wf.lineage_ancestors id).unique (.step h (wf.lineage_ancestors p))

theorem depth_of_under (wf : r.WellFormed) (h : r.Under id p) : r.depth id = r.depth p + 1 := by
  rw [depth, wf.ancestors_of_under h, List.length_cons, depth]

theorem depth_lt_size (wf : r.WellFormed) (h : r.contains id = true) : r.depth id < r.size := by
  have hl := wf.lineage_ancestors id
  refine length_le_size (wf.lineage_nodup hl) fun x hx => ?_
  rcases List.mem_cons.1 hx with rfl | hx
  · exact h
  · exact wf.contains_of_below (hl.mem_iff.1 hx)

/-- Every live block is at the top level or below a block that is. -/
theorem exists_root (wf : r.WellFormed) (hid : r.contains id = true) :
    ∃ root ∈ r.roots, Relation.ReflTransGen r.Under id root := by
  have hlineage := wf.lineage_ancestors id
  generalize r.ancestors id = above at hlineage
  induction hlineage with
  | root hr => exact ⟨_, mem_roots_of_parentId? hid hr, .refl⟩
  | step hu _ ih =>
    obtain ⟨root, hroot, hbelow⟩ := ih (wf.contains_of_under hu)
    exact ⟨root, hroot, .head hu hbelow⟩

/-- Who hears of a change at a block is the block and everything above it. -/
theorem mem_chain_iff (wf : r.WellFormed) :
    a ∈ id :: r.ancestors id ↔ Relation.ReflTransGen r.Under id a := by
  rw [List.mem_cons, wf.mem_ancestors_iff, Relation.reflTransGen_iff_eq_or_transGen]
  rfl

end WellFormed

end Blockwork.Registry
