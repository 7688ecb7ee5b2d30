import Blockwork.Geometry.Fixed
import Blockwork.Proofs.Board.Changes
import Blockwork.Proofs.Bundle.SnapshotRoundTrip
import Blockwork.Proofs.Registry.Descendants

/-!
# What a removal takes along

Removing a block deletes what a walk down from it has collected.  Nothing has to be
right about the registry for that: its references may dangle or run in circles.  The
walk never enters a block that it has seen, so it collects no block twice.  It never
runs out of steps, because a step is used up only by entering a live block that was not
seen before, and there are no more steps than live blocks.  When the walk is over, all
live children of what it has collected have been collected, so nothing is left out that
can be reached through live children.

The block itself comes last.  In a well-formed registry every block comes behind what
is below it, and what is collected is the block with its descendants.
-/

namespace Blockwork

namespace Registry

variable {r r' : Registry} {id c x : BlockId} {ids added gone : List BlockId} {n : Nat}
variable {st st₁ st' : List BlockId × List BlockId}

/-! ## Collecting on any registry -/

theorem contains_of_reached (hid : r.contains id = true)
    (h : Relation.ReflTransGen r.LiveChild id x) : r.contains x = true := by
  rcases Relation.ReflTransGen.cases_tail h with rfl | ⟨y, -, hx⟩
  · exact hid
  · exact hx.2

/-- Of the live blocks at most `n` are not among those seen. -/
def Ample (r : Registry) (n : Nat) (seen : List BlockId) : Prop :=
  ∃ l : List BlockId, l.Nodup ∧ (∀ x ∈ l, x ∈ seen ∧ r.contains x = true) ∧ r.size ≤ n + l.length

theorem Ample.mono {seen seen' : List BlockId} (h : r.Ample n seen) (hs : seen ⊆ seen') :
    r.Ample n seen' := by
  obtain ⟨l, hl, hmem, hsize⟩ := h
  exact ⟨l, hl, fun x hx => ⟨hs (hmem x hx).1, (hmem x hx).2⟩, hsize⟩

theorem Ample.enter {seen : List BlockId} (h : r.Ample (n + 1) seen) (hid : id ∉ seen)
    (hlive : r.contains id = true) : r.Ample n (id :: seen) := by
  obtain ⟨l, hl, hmem, hsize⟩ := h
  refine ⟨id :: l, List.nodup_cons.2 ⟨fun hm => hid (hmem id hm).1, hl⟩, ?_, ?_⟩
  · intro x hx
    rcases List.mem_cons.1 hx with rfl | hx
    · exact ⟨List.mem_cons_self .., hlive⟩
    · exact ⟨List.mem_cons_of_mem _ (hmem x hx).1, (hmem x hx).2⟩
  · simp only [List.length_cons]
    omega

/-- No live block is left to be seen when there are no steps left. -/
theorem Ample.mem_of_zero {seen : List BlockId} (h : r.Ample 0 seen)
    (hlive : r.contains id = true) : id ∈ seen := by
  by_contra hid
  obtain ⟨l, hl, hmem, hsize⟩ := h
  have hlen : (id :: l).length ≤ r.size := by
    refine length_le_size (List.nodup_cons.2 ⟨fun hm => hid (hmem id hm).1, hl⟩) ?_
    intro x hx
    rcases List.mem_cons.1 hx with rfl | hx
    · exact hlive
    · exact (hmem x hx).2
  simp only [List.length_cons] at hlen
  omega

/-- What collecting from some blocks adds to what was collected, on any registry. -/
structure Gathers (r : Registry) (ids : List BlockId) (st st' : List BlockId × List BlockId)
    (added : List BlockId) : Prop where
  collected : st'.2 = st.2 ++ added
  kept : st.1 ⊆ st'.1
  nodup : added.Nodup
  /-- What is added was not seen before. -/
  fresh : ∀ x ∈ added, x ∉ st.1 ∧ x ∈ st'.1
  reached : ∀ x ∈ added, ∃ id ∈ ids,
    r.contains id = true ∧ Relation.ReflTransGen r.LiveChild id x
  found : ∀ id ∈ ids, r.contains id = true → id ∈ st'.1
  /-- A live block that has come to be seen is added, and its live children are seen. -/
  closed : ∀ x ∈ st'.1, x ∈ st.1 ∨
    (r.contains x = true → x ∈ added ∧ ∀ c, r.LiveChild x c → c ∈ st'.1)

theorem Gathers.none (h : ∀ id ∈ ids, r.contains id = true → id ∈ st.1) :
    r.Gathers ids st st [] where
  collected := (List.append_nil _).symm
  kept := List.Subset.refl _
  nodup := List.nodup_nil
  fresh := nofun
  reached := nofun
  found := h
  closed _ hx := .inl hx

/-- A dead block is seen and not collected. -/
theorem Gathers.dead (hid : ¬ r.contains id = true) :
    r.Gathers [id] st (id :: st.1, st.2) [] where
  collected := (List.append_nil _).symm
  kept := List.subset_cons_self ..
  nodup := List.nodup_nil
  fresh := nofun
  reached := nofun
  found x hx hlive := absurd (List.mem_singleton.1 hx ▸ hlive) hid
  closed x hx := by
    rcases List.mem_cons.1 hx with rfl | hx
    · exact .inr fun hlive => absurd hlive hid
    · exact .inl hx

/-- Collecting from one block and then from others. -/
theorem Gathers.cons {added₁ added₂ : List BlockId} (h₁ : r.Gathers [c] st st₁ added₁)
    (h₂ : r.Gathers ids st₁ st' added₂) : r.Gathers (c :: ids) st st' (added₁ ++ added₂) where
  collected := by rw [h₂.collected, h₁.collected, List.append_assoc]
  kept := List.Subset.trans h₁.kept h₂.kept
  nodup := by
    refine List.nodup_append.2 ⟨h₁.nodup, h₂.nodup, ?_⟩
    rintro x hx y hy rfl
    exact (h₂.fresh x hy).1 (h₁.fresh x hx).2
  fresh x hx := by
    rcases List.mem_append.1 hx with hx | hx
    · exact ⟨(h₁.fresh x hx).1, h₂.kept (h₁.fresh x hx).2⟩
    · exact ⟨fun hs => (h₂.fresh x hx).1 (h₁.kept hs), (h₂.fresh x hx).2⟩
  reached x hx := by
    rcases List.mem_append.1 hx with hx | hx
    · obtain ⟨y, hy, h⟩ := h₁.reached x hx
      exact ⟨y, List.mem_singleton.1 hy ▸ List.mem_cons_self .., h⟩
    · obtain ⟨y, hy, h⟩ := h₂.reached x hx
      exact ⟨y, List.mem_cons_of_mem _ hy, h⟩
  found x hx hlive := by
    rcases List.mem_cons.1 hx with rfl | hx
    · exact h₂.kept (h₁.found x (List.mem_singleton_self x) hlive)
    · exact h₂.found x hx hlive
  closed x hx := by
    rcases h₂.closed x hx with hx | hdone
    · rcases h₁.closed x hx with hx | hdone
      · exact .inl hx
      · refine .inr fun hlive => ⟨List.mem_append_left _ (hdone hlive).1, fun c hc => ?_⟩
        exact h₂.kept ((hdone hlive).2 c hc)
    · exact .inr fun hlive => ⟨List.mem_append_right _ (hdone hlive).1, (hdone hlive).2⟩

/-- A block that was not seen is collected behind what its children add. -/
theorem Gathers.enter (hid : id ∉ st.1) (hlive : r.contains id = true)
    (h : r.Gathers (r.childrenOf id) (id :: st.1, st.2) st₁ added) :
    r.Gathers [id] st (st₁.1, st₁.2 ++ [id]) (added ++ [id]) where
  collected := by rw [h.collected, List.append_assoc]
  kept := fun x hx => h.kept (List.mem_cons_of_mem _ hx)
  nodup := by
    refine List.nodup_append.2 ⟨h.nodup, List.nodup_singleton id, ?_⟩
    rintro x hx y hy rfl
    exact (h.fresh x hx).1 (List.mem_singleton.1 hy ▸ List.mem_cons_self ..)
  fresh x hx := by
    rcases List.mem_append.1 hx with hx | hx
    · exact ⟨fun hs => (h.fresh x hx).1 (List.mem_cons_of_mem _ hs), (h.fresh x hx).2⟩
    · cases List.mem_singleton.1 hx
      exact ⟨hid, h.kept (List.mem_cons_self ..)⟩
  reached x hx := by
    refine ⟨id, List.mem_singleton_self id, hlive, ?_⟩
    rcases List.mem_append.1 hx with hx | hx
    · obtain ⟨c, hc, hclive, hcx⟩ := h.reached x hx
      exact .head ⟨hc, hclive⟩ hcx
    · cases List.mem_singleton.1 hx
      exact .refl
  found x hx _ := by
    cases List.mem_singleton.1 hx
    exact h.kept (List.mem_cons_self ..)
  closed x hx := by
    rcases h.closed x hx with hx | hdone
    · rcases List.mem_cons.1 hx with rfl | hx
      · exact .inr fun _ =>
          ⟨List.mem_append_right _ (List.mem_singleton_self x), fun c hc => h.found c hc.1 hc.2⟩
      · exact .inl hx
    · exact .inr fun hlive => ⟨List.mem_append_left _ (hdone hlive).1, (hdone hlive).2⟩

theorem gathers_children {collect : BlockId → List BlockId × List BlockId →
      List BlockId × List BlockId}
    (hstep : ∀ c st, r.Ample n st.1 → ∃ added, r.Gathers [c] st (collect c st) added) :
    ∀ (cs : List BlockId) (st : List BlockId × List BlockId), r.Ample n st.1 →
      ∃ added, r.Gathers cs st (cs.foldl (fun st c => collect c st) st) added
  | [], st, _ => ⟨[], .none nofun⟩
  | c :: cs, st, hn => by
    obtain ⟨added₁, h₁⟩ := hstep c st hn
    obtain ⟨added₂, h₂⟩ := gathers_children hstep cs (collect c st) (hn.mono h₁.kept)
    exact ⟨added₁ ++ added₂, h₁.cons h₂⟩

/-- A collection with enough steps left, by induction on the steps. -/
theorem gathers_collect (r : Registry) :
    ∀ (n : Nat) (id : BlockId) (st : List BlockId × List BlockId), r.Ample n st.1 →
      ∃ added, r.Gathers [id] st (r.collect n id st) added
  | 0, id, st, hn => by
    refine ⟨[], .none fun x _ hlive => ?_⟩
    exact hn.mem_of_zero hlive
  | n + 1, id, st, hn => by
    by_cases hseen : id ∈ st.1
    · have hc : r.collect (n + 1) id st = st := by simp [collect, hseen]
      rw [hc]
      exact ⟨[], .none fun x hx _ => List.mem_singleton.1 hx ▸ hseen⟩
    · cases hb : r.get? id with
      | none =>
        have hc : r.collect (n + 1) id st = (id :: st.1, st.2) := by simp [collect, hseen, hb]
        rw [hc]
        exact ⟨[], .dead (not_contains_iff.2 hb)⟩
      | some b =>
        have hlive : r.contains id = true := contains_of_get? hb
        have hchildren : r.childrenOf id = b.children := by rw [childrenOf, hb]
        have hc : r.collect (n + 1) id st =
            ((b.children.foldl (fun st c => r.collect n c st) (id :: st.1, st.2)).1,
              (b.children.foldl (fun st c => r.collect n c st) (id :: st.1, st.2)).2 ++ [id]) := by
          simp [collect, hseen, hb]
        obtain ⟨added, h⟩ := gathers_children (fun c st => gathers_collect r n c st)
          b.children (id :: st.1, st.2) (hn.enter hseen hlive)
        rw [hc]
        exact ⟨added ++ [id], .enter hseen hlive (hchildren ▸ h)⟩

theorem gathers_subtree (r : Registry) (id : BlockId) :
    r.Gathers [id] ([], []) (r.collect (r.size + 1) id ([], [])) (r.subtree id) := by
  obtain ⟨added, h⟩ := gathers_collect r (r.size + 1) id ([], [])
    ⟨[], List.nodup_nil, nofun, by simp⟩
  have hadded : r.subtree id = added := h.collected
  rw [hadded]
  exact h

theorem nodup_subtree (r : Registry) (id : BlockId) : (r.subtree id).Nodup :=
  (gathers_subtree r id).nodup

/-- On any registry the subtree of a live block is what is reached from it through live
children. -/
theorem mem_subtree_iff_reached (hid : r.contains id = true) :
    x ∈ r.subtree id ↔ Relation.ReflTransGen r.LiveChild id x := by
  have h := gathers_subtree r id
  constructor
  · intro hx
    obtain ⟨y, hy, -, hyx⟩ := h.reached x hx
    exact List.mem_singleton.1 hy ▸ hyx
  · intro hx
    have hseen : x ∈ (r.collect (r.size + 1) id ([], [])).1 := by
      induction hx with
      | refl => exact h.found id (List.mem_singleton_self id) hid
      | @tail y z hy hz ih =>
        rcases h.closed y ih with hm | hdone
        · cases hm
        · exact (hdone (contains_of_reached hid hy)).2 z hz
    rcases h.closed x hseen with hm | hdone
    · cases hm
    · exact (hdone (contains_of_reached hid hx)).1

theorem getLast?_subtree (hid : r.contains id = true) : (r.subtree id).getLast? = some id := by
  obtain ⟨b, hb⟩ := contains_iff.1 hid
  simp [subtree, collect, hb]

/-! ## What is left -/

/-- Some blocks are gone.  The others are in the same order, and are as they were but for
the children among those that are gone. -/
structure Cascades (r r' : Registry) (gone : List BlockId) : Prop where
  ids : r'.ids = r.ids.filter (· ∉ gone)
  left : ∀ x, x ∉ gone → r'.get? x = (r.get? x).map fun b => { b with
    slots := Table.mapValues b.slots fun s => { s with child := s.child.filter (· ∉ gone) }
    nested := b.nested.filter (· ∉ gone) }
  unmentioned : ∀ x b, r'.get? x = some b → ∀ c ∈ gone,
    c ∉ b.nested ∧ ∀ s ∈ b.slots, s.2.child ≠ some c

/-- Scrubbing empties the inputs and bodies of what is gone, and that is all. -/
theorem scrub_eq (gone : List BlockId) (b : Block) : scrub gone b = { b with
    slots := Table.mapValues b.slots fun s => { s with child := s.child.filter (· ∉ gone) }
    nested := b.nested.filter (· ∉ gone) } := by
  have hslot (s : Slot) : (if s.child.any gone.contains then { s with child := none } else s) =
      { s with child := s.child.filter (· ∉ gone) } := by
    obtain ⟨literal, child⟩ := s
    cases child with
    | none => rfl
    | some c => by_cases hc : c ∈ gone <;> simp [hc, Option.filter]
  simp only [scrub, hslot]
  simp

theorem cascades_remove (r : Registry) (gone : List BlockId) :
    r.Cascades (r.remove gone) gone where
  ids := by
    rw [ids_remove]
    simp
  left x hx := by
    rw [get?_remove, if_neg hx]
    exact congrArg (fun f => (r.get? x).map f) (funext (scrub_eq gone))
  unmentioned x b hb c hc := by
    obtain ⟨-, b₀, -, rfl⟩ := get?_remove_eq_some_iff.1 hb
    rw [scrub_eq]
    refine ⟨fun hm => ?_, fun s hs hchild => ?_⟩
    · simpa [hc] using (List.mem_filter.1 hm).2
    · obtain ⟨s₀, -, rfl⟩ := List.mem_map.1 hs
      have hkept := (Option.filter_eq_some_iff.1 hchild).2
      simp [hc] at hkept

end Registry

namespace Board

variable {σ : Type} [Geometry σ] {id : BlockId}

/-- Whatever the registry, removing a live block lists it with all that is reached from it
through live children, each block once and the block itself last.  These are deleted, no
other block mentions them any more, and nothing else has changed.  In a well-formed
registry these are the block and what has it as an ancestor, each behind whatever has it
as an ancestor, and the registry stays well formed. -/
theorem remove_cascades (b : Board σ) (h : b.registry.contains id = true) :
    ∃ gone b', remove id b = (.ok gone, b') ∧ gone.Nodup ∧
      (∀ x ∈ gone, b.registry.contains x = true) ∧ gone.getLast? = some id ∧
      (∀ x, x ∈ gone ↔ Relation.ReflTransGen b.registry.LiveChild id x) ∧
      b.registry.Cascades b'.registry gone ∧
      (b.registry.WellFormed →
        (∀ x, x ∈ gone ↔ x = id ∨ id ∈ b.registry.ancestors x) ∧
        (∀ before x after, gone = before ++ x :: after →
          ∀ y, x ∈ b.registry.ancestors y → y ∈ before) ∧
        b'.registry.WellFormed) := by
  obtain ⟨c, hc⟩ := Registry.contains_iff.1 h
  obtain ⟨heard, hrun, -⟩ := remove_run hc
  refine ⟨_, _, hrun, Registry.nodup_subtree _ _, fun x hx => ?_, Registry.getLast?_subtree h,
    fun x => Registry.mem_subtree_iff_reached h, ?_, fun wf => ⟨fun x => ?_, ?_, ?_⟩⟩
  · exact Registry.contains_of_reached h ((Registry.mem_subtree_iff_reached h).1 hx)
  · rw [registry_notices, registry_notices]
    exact Registry.cascades_remove b.registry _
  · rw [wf.mem_subtree_iff h, wf.mem_ancestors_iff, Relation.reflTransGen_iff_eq_or_transGen,
      eq_comm]
    rfl
  · intro before x after he y hy
    exact (wf.childrenFirst_subtree h).mem_of_below (wf.mem_ancestors_iff.1 hy) he
  · rw [registry_notices, registry_notices]
    exact wf.remove (wf.downward_subtree h)

/-- Two containers within each other, a third block that holds one of them twice, and a
reference to a block that is not there. -/
def tangledBoard : Board FixedGeometry where
  layout := {}
  registry := {
    entries := [
      ("a", Bundle.sampleBlock .container none ["b", "ghost"] (.container "b")),
      ("b", Bundle.sampleBlock .container (some "a") ["a", "b"] (.container "a")),
      ("c", Bundle.sampleBlock .container (some "b") ["b", "d"] .none),
      ("d", Bundle.sampleBlock .command none [] (.container "a"))]
    nodup := by decide }

/-- Removing one of two containers within each other takes both, and removing a container
of a well-formed registry takes its command and its value. -/
theorem remove_cascades_tangledBoard :
    (∃ b', remove "a" tangledBoard = (.ok ["b", "a"], b') ∧ b'.registry.ids = ["c", "d"] ∧
      (b'.registry.get? "c").map Block.children = some ["d"]) ∧
    ∃ gone b', remove "a" ({ layout := {}, registry := Bundle.sampleRegistry } :
        Board FixedGeometry) = (.ok gone, b') ∧
      (∀ x, x ∈ gone ↔ x = "a" ∨ "a" ∈ Bundle.sampleRegistry.ancestors x) ∧
      b'.registry.WellFormed := by
  constructor
  · obtain ⟨gone, b', hrun, -, -, -, -, hleft, -⟩ :=
      remove_cascades tangledBoard (show tangledBoard.registry.contains "a" = true by decide)
    obtain rfl : ["b", "a"] = gone := Except.ok.inj (congrArg Prod.fst hrun)
    refine ⟨b', hrun, ?_, ?_⟩
    · rw [hleft.ids]
      decide
    · rw [hleft.left "c" (by decide)]
      decide
  · obtain ⟨gone, b', hrun, -, -, -, -, -, hwf⟩ := remove_cascades
      ({ layout := {}, registry := Bundle.sampleRegistry } : Board FixedGeometry)
      (show Bundle.sampleRegistry.contains "a" = true by decide)
    exact ⟨gone, b', hrun, (hwf Bundle.wellFormed_sampleRegistry).1,
      (hwf Bundle.wellFormed_sampleRegistry).2.2⟩

end Board

end Blockwork
