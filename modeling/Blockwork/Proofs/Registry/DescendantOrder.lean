import Blockwork.Proofs.Bundle.SnapshotRoundTrip
import Blockwork.Proofs.Code.VisitedBlocks
import Blockwork.Proofs.Registry.Descendants

/-!
# The order of the descendants

A depth-first list puts behind every block all that is below it, before the next block beside
it.  Every live block of a well-formed registry has one such list of what is below it, and
`descendants` holds the same blocks.  It takes blocks off its stack in the depth-first order.
But it notes them earlier: when a block is taken off, its children are noted there and then,
and the last one first.  So what it lists are the children of one block after another, turned
around.

The two lists agree as long as nothing branches.  Where a block has two children, the first of
them comes behind the last.
-/

namespace Blockwork.Registry

open Blockwork.Bundle (branchingRegistry wellFormed_branchingRegistry)

/-! ## Depth-first lists -/

/-- The list has the blocks in their order, each followed by all that is below it. -/
inductive DepthFirst (r : Registry) : List BlockId → List BlockId → Prop
  | nil : DepthFirst r [] []
  | cons {c : BlockId} {below cs rest : List BlockId} :
      DepthFirst r (r.childrenOf c) below → DepthFirst r cs rest →
      DepthFirst r (c :: cs) (c :: (below ++ rest))

variable {r : Registry} {id start x : BlockId} {stack found cs l l' : List BlockId}

namespace DepthFirst

/-- There is one order. -/
theorem unique (h : r.DepthFirst cs l) (h' : r.DepthFirst cs l') : l = l' := by
  induction h generalizing l' with
  | nil =>
    cases h'
    rfl
  | cons _ _ ihbelow ihrest =>
    cases h' with
    | cons hbelow hrest => rw [ihbelow hbelow, ihrest hrest]

theorem exists_of_forall (h : ∀ c ∈ cs, ∃ l, r.DepthFirst (r.childrenOf c) l) :
    ∃ l, r.DepthFirst cs l := by
  induction cs with
  | nil => exact ⟨[], .nil⟩
  | cons c cs ih =>
    obtain ⟨hc, hcs⟩ := List.forall_mem_cons.1 h
    obtain ⟨below, hbelow⟩ := hc
    obtain ⟨rest, hrest⟩ := ih hcs
    exact ⟨_, .cons hbelow hrest⟩

theorem mem_iff (wf : r.WellFormed) (h : r.DepthFirst cs l) :
    x ∈ l ↔ ∃ c ∈ cs, Relation.ReflTransGen r.Under x c := by
  induction h with
  | nil => simp
  | @cons c below cs rest _ _ ihbelow ihrest =>
    have hc : Relation.ReflTransGen r.Under x c ↔ x = c ∨ x ∈ below := by
      rw [Relation.ReflTransGen.cases_tail_iff, eq_comm, ihbelow]
      simp only [wf.mem_childrenOf_iff, and_comm]
    rw [List.mem_cons, List.mem_append, ihrest, List.exists_mem_cons_iff, hc, or_assoc]

/-- Blocks that are equally deep have nothing below them in common. -/
theorem nodup (wf : r.WellFormed) {d : Nat} (h : r.DepthFirst cs l) (hcs : cs.Nodup)
    (hdepth : ∀ c ∈ cs, r.depth c = d) : l.Nodup := by
  induction h generalizing d with
  | nil => exact List.nodup_nil
  | @cons c below cs rest hbelow hrest ihbelow ihrest =>
    obtain ⟨hc, hcs⟩ := List.nodup_cons.1 hcs
    obtain ⟨hdc, hdcs⟩ := List.forall_mem_cons.1 hdepth
    have hchild {a : BlockId} (ha : a ∈ r.childrenOf c) : r.depth a = r.depth c + 1 :=
      wf.depth_of_under (wf.mem_childrenOf_iff.1 ha)
    -- what is below `c` is deeper, and it is not below a block beside `c`
    have habove {x : BlockId} (hx : Relation.ReflTransGen r.Under x c) : x ∉ rest := by
      intro hm
      obtain ⟨a, ha, hxa⟩ := (hrest.mem_iff wf).1 hm
      exact hc (wf.eq_of_above hx hxa (hdc.trans (hdcs a ha).symm) ▸ ha)
    have hunder {x : BlockId} (hx : x ∈ below) : r.Below x c := by
      obtain ⟨a, ha, hxa⟩ := (hbelow.mem_iff wf).1 hx
      exact .tail' hxa (wf.mem_childrenOf_iff.1 ha)
    refine List.nodup_cons.2 ⟨fun hm => ?_, ?_⟩
    · rcases List.mem_append.1 hm with hm | hm
      · exact wf.acyclic c (hunder hm)
      · exact habove .refl hm
    · refine List.nodup_append.2 ⟨ihbelow (wf.nodup_childrenOf c) fun a ha => hchild ha,
        ihrest hcs hdcs, ?_⟩
      rintro x hx y hy rfl
      exact habove (hunder hx).to_reflTransGen hy

/-- A block goes before what is below it. -/
theorem whole (h : r.DepthFirst (r.childrenOf id) l) : r.DepthFirst [id] (id :: l) := by
  have hwhole : r.DepthFirst [id] (id :: (l ++ [])) := h.cons .nil
  rwa [List.append_nil] at hwhole

end DepthFirst

/-- Everything below a live block has a depth-first list. -/
theorem WellFormed.exists_depthFirst (wf : r.WellFormed) (hid : r.contains id = true) :
    ∃ l, r.DepthFirst (r.childrenOf id) l := by
  refine wf.child_induction (P := fun id => ∃ l, r.DepthFirst (r.childrenOf id) l) ?_ id hid
  intro id b _ ih
  exact DepthFirst.exists_of_forall fun c hc => ih c (wf.mem_childrenOf_iff.1 hc)

/-! ## What the walk notes -/

/-- The children of one block after another, those of each turned around. -/
def noted (r : Registry) (l : List BlockId) : List BlockId :=
  l.flatMap fun x => (r.childrenOf x).reverse

@[simp]
theorem noted_nil : r.noted [] = [] := rfl

@[simp]
theorem noted_cons : r.noted (x :: l) = (r.childrenOf x).reverse ++ r.noted l := List.flatMap_cons

@[simp]
theorem noted_append : r.noted (l ++ l') = r.noted l ++ r.noted l' := List.flatMap_append

/-- Every block of a depth-first list is one of the first blocks or a child of another. -/
theorem DepthFirst.perm_noted (h : r.DepthFirst cs l) : (cs ++ r.noted l).Perm l := by
  induction h with
  | nil => exact .nil
  | @cons c below cs rest _ _ ihbelow ihrest =>
    have hbelow : ((r.childrenOf c).reverse ++ r.noted below).Perm below :=
      ((List.reverse_perm _).append_right _).trans ihbelow
    rw [noted_cons, noted_append, List.cons_append, ← List.append_assoc (r.childrenOf c).reverse]
    refine .cons c ((List.perm_append_comm_assoc ..).trans ?_)
    exact hbelow.append ihrest

theorem foldl_noteChild_new (hnodup : (start :: (found ++ cs)).Nodup)
    (hlive : ∀ c ∈ cs, r.contains c = true) :
    cs.foldl (r.noteChild start) (stack, found) = (cs.reverse ++ stack, found ++ cs) := by
  induction cs generalizing stack found with
  | nil => simp
  | cons c cs ih =>
    obtain ⟨hc, hcs⟩ := List.forall_mem_cons.1 hlive
    have hnew : r.noteChild start (stack, found) c = (c :: stack, found ++ [c]) := by
      rw [noteChild, if_neg]
      simp only [List.nodup_cons, List.nodup_append, List.mem_append, List.mem_cons] at hnodup
      grind
    rw [List.foldl_cons, hnew, ih (by simpa using hnodup) hcs]
    simp

/-- The walk takes the blocks of a depth-first list off its stack one after another. -/
theorem DepthFirst.spread (h : r.DepthFirst cs l) {n : Nat}
    (hnodup : (start :: (found ++ r.noted l)).Nodup)
    (hlive : ∀ x ∈ r.noted l, r.contains x = true) :
    r.spread start (l.length + n) (cs ++ stack) found =
      r.spread start n stack (found ++ r.noted l) := by
  induction h generalizing n stack found with
  | nil => simp
  | @cons c below cs rest _ _ ihbelow ihrest =>
    rw [noted_cons, noted_append] at hnodup hlive ⊢
    simp only [List.forall_mem_append] at hlive
    obtain ⟨hc, hbelow, hrest⟩ := hlive
    have hrounds : (c :: (below ++ rest)).length + n = (below.length + (rest.length + n)) + 1 := by
      simp
      omega
    have hround : r.spread start ((c :: (below ++ rest)).length + n) (c :: cs ++ stack) found =
        r.spread start (below.length + (rest.length + n)) (r.childrenOf c ++ (cs ++ stack))
          (found ++ (r.childrenOf c).reverse) := by
      rw [hrounds, List.cons_append, Registry.spread, foldl_noteChild_new ?_ hc,
        List.reverse_reverse]
      exact hnodup.sublist (by simp)
    rw [hround, ihbelow ?_ hbelow, ihrest ?_ hrest]
    · simp
    · simpa using hnodup
    · exact hnodup.sublist (by simp)

/-- The descendants of a block are what the walk notes along the depth-first list. -/
theorem WellFormed.descendants_eq (wf : r.WellFormed) (hid : r.contains id = true)
    (h : r.DepthFirst (r.childrenOf id) l) : r.descendants id = r.noted (id :: l) := by
  have hwhole := h.whole
  have hperm : (id :: r.noted (id :: l)).Perm (id :: l) := hwhole.perm_noted
  have hnodup : (id :: l).Nodup :=
    hwhole.nodup wf (d := r.depth id) (List.nodup_singleton id) (by simp)
  have hlive : ∀ x ∈ id :: l, r.contains x = true := by
    intro x hx
    obtain ⟨c, hc, hxc⟩ := (hwhole.mem_iff wf).1 hx
    rw [List.mem_singleton.1 hc] at hxc
    rcases Relation.ReflTransGen.cases_head hxc with rfl | ⟨p, hp, -⟩
    · exact hid
    · exact hp.contains
  have hsize := length_le_size hnodup hlive
  have hspread : r.spread id ((id :: l).length + (r.size + 1 - (id :: l).length)) ([id] ++ []) [] =
      r.spread id (r.size + 1 - (id :: l).length) [] ([] ++ r.noted (id :: l)) :=
    hwhole.spread (hperm.nodup_iff.2 hnodup) fun x hx =>
      hlive x (hperm.subset (List.mem_cons_of_mem id hx))
  rw [Nat.add_sub_cancel' (by omega)] at hspread
  rw [descendants]
  refine hspread.trans ?_
  cases r.size + 1 - (id :: l).length <;> rfl

/-! ## Where it is depth first -/

/-- What is noted comes in the order of the list if nothing branches. -/
theorem DepthFirst.noted_eq_iff (wf : r.WellFormed) (h : r.DepthFirst cs l) (hcs : cs.Nodup) :
    cs.reverse ++ r.noted l = l ↔
      cs.length ≤ 1 ∧ ∀ x ∈ l, (r.childrenOf x).length ≤ 1 := by
  induction h with
  | nil => simp
  | @cons c below cs rest _ hrest ihbelow _ =>
    cases hrest with
    | nil =>
      have hsplit : [c].reverse ++ r.noted (c :: (below ++ [])) =
          c :: ((r.childrenOf c).reverse ++ r.noted below) := by
        simp
      rw [hsplit, List.append_nil, List.cons.injEq, ihbelow (wf.nodup_childrenOf c)]
      simp
    | @cons c' below' cs' rest' =>
      -- the last of the blocks is noted first, and it is not `c`
      obtain ⟨a, as, has⟩ : ∃ a as, (c' :: cs').reverse = a :: as :=
        List.exists_cons_of_ne_nil (by simp)
      have ha : a ∈ c' :: cs' := List.mem_reverse.1 (has ▸ List.mem_cons_self ..)
      refine iff_of_false (fun heq => ?_) (by simp)
      rw [List.reverse_cons, has] at heq
      exact (List.nodup_cons.1 hcs).1 ((List.cons.inj heq).1 ▸ ha)

/-- The descendants of a live block are what is below it, as the depth-first list has it.  They
are in that order exactly if neither the block nor any block below it has two children. -/
theorem WellFormed.descendants_order (wf : r.WellFormed) (hid : r.contains id = true) :
    (r.DepthFirst (r.childrenOf id) (r.descendants id) ↔
      ∀ x, Relation.ReflTransGen r.Under x id → (r.childrenOf x).length ≤ 1) ∧
    ∃ l, r.DepthFirst (r.childrenOf id) l ∧ (r.descendants id).Perm l ∧
      r.descendants id = (id :: l).flatMap fun x => (r.childrenOf x).reverse := by
  obtain ⟨l, hl⟩ := wf.exists_depthFirst hid
  have hdesc := wf.descendants_eq hid hl
  have hwhole := hl.whole
  refine ⟨?_, l, hl, ?_, hdesc⟩
  · have horder : r.DepthFirst (r.childrenOf id) (r.descendants id) ↔ r.noted (id :: l) = l := by
      rw [hdesc]
      exact ⟨fun h => h.unique hl, fun h => h.symm ▸ hl⟩
    have hbranch : [id].reverse ++ r.noted (id :: l) = id :: l ↔
        [id].length ≤ 1 ∧ ∀ x ∈ id :: l, (r.childrenOf x).length ≤ 1 :=
      hwhole.noted_eq_iff wf (List.nodup_singleton id)
    have hmem {x : BlockId} : x ∈ id :: l ↔ Relation.ReflTransGen r.Under x id := by
      rw [hwhole.mem_iff wf]
      simp
    rw [horder]
    simpa [hmem] using hbranch
  · rw [hdesc]
    exact (List.perm_cons id).1 hwhole.perm_noted

theorem descendants_order_branching :
    branchingRegistry.WellFormed ∧ branchingRegistry.contains "a" = true ∧
      ¬ branchingRegistry.DepthFirst (branchingRegistry.childrenOf "a")
        (branchingRegistry.descendants "a") ∧
      ∃ l, branchingRegistry.DepthFirst (branchingRegistry.childrenOf "a") l ∧
        (branchingRegistry.descendants "a").Perm l ∧
        branchingRegistry.descendants "a" =
          ("a" :: l).flatMap fun x => (branchingRegistry.childrenOf x).reverse := by
  have hid : branchingRegistry.contains "a" = true := by decide
  obtain ⟨horder, hlist⟩ := wellFormed_branchingRegistry.descendants_order hid
  refine ⟨wellFormed_branchingRegistry, hid, fun h => ?_, hlist⟩
  exact absurd (horder.1 h "a" .refl) (by decide)

/-- The block in the first one is listed at the end, behind the second one. -/
theorem not_descendants_depthFirst :
    ¬ ∀ (r : Registry) (id : BlockId), r.WellFormed → r.contains id = true →
      r.DepthFirst (r.childrenOf id) (r.descendants id) := by
  intro h
  have hlisted : branchingRegistry.DepthFirst ["b", "d"] ["d", "b", "c"] :=
    h branchingRegistry "a" wellFormed_branchingRegistry (by decide)
  have hc : branchingRegistry.DepthFirst ["c"] ["c"] :=
    @DepthFirst.cons _ "c" [] [] [] .nil .nil
  have hd : branchingRegistry.DepthFirst ["d"] ["d"] :=
    @DepthFirst.cons _ "d" [] [] [] .nil .nil
  have hdeep : branchingRegistry.DepthFirst ["b", "d"] ["b", "c", "d"] :=
    @DepthFirst.cons _ "b" ["c"] ["d"] ["d"] hc hd
  exact absurd (hlisted.unique hdeep) (by decide)

end Blockwork.Registry
