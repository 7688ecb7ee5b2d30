import Blockwork.Proofs.Board.RemovalCascade
import Blockwork.Proofs.Registry.Validation

/-!
# Walks come to an end

The walks are defined with a bound on their steps.  Here they are described without one.  A
*run* of a walk goes on for as long as the tests of the walk allow it, and notes which blocks
it enters.  A walk that went on for ever would have no run.

On any registry, whatever its references, every walk has exactly one run, with the answer that
the bounded walk gives.  So the bound never stops a walk.  No run enters a block twice, each
for a reason of its own:

* A climb enters its start and then what it lists, and it lists no block that it has seen.
* A climb in search of a cycle sees every block but its start before it enters it, and it is
  over when it meets the start.
* The walk down with a stack enters what it takes off.  A block is put on the stack once, when
  it is found, so what is entered is the start and what is found.
* A collection marks a block as seen when it enters it, and goes past what is marked.

In a well-formed registry the walk down from a block finds those blocks from which the climb
up comes to it, and a climb lists everything up to the top level.
-/

namespace Blockwork.Registry

open Blockwork.Bundle (branchingRegistry wellFormed_branchingRegistry)

variable {r : Registry} {id start target p a b : BlockId} {n : Nat} {answer answer' : Bool}
variable {seen ids entered entered' l l' : List BlockId} {st : List BlockId × List BlockId}

/-! ## One run -/

/-- A walk, given by its runs, has exactly one.  The run enters no block twice and gives the
answer. -/
def EndsWith {α : Type} (run : List BlockId → α → Prop) (answer : α) : Prop :=
  ∃ entered, entered.Nodup ∧ ∀ l a, run l a ↔ l = entered ∧ a = answer

theorem EndsWith.of_unique {α : Type} {run : List BlockId → α → Prop} {answer : α}
    (hrun : run entered answer) (hnodup : entered.Nodup)
    (hunique : ∀ {l a}, run l a → l = entered ∧ a = answer) : EndsWith run answer := by
  refine ⟨entered, hnodup, fun l a => ⟨hunique, ?_⟩⟩
  rintro ⟨rfl, rfl⟩
  exact hrun

/-! ## Climbing -/

/-- A run of a climb from a block, with what was seen before, what is entered and what is
listed. -/
inductive ClimbRun (r : Registry) :
    List BlockId → BlockId → List BlockId → List BlockId → Prop
  | top {seen : List BlockId} {id : BlockId} : r.parentId? id = none → ClimbRun r seen id [id] []
  /-- The parent was seen, or is not live. -/
  | stop {seen : List BlockId} {id p : BlockId} : r.parentId? id = some p →
      p ∈ seen ∨ ¬ r.contains p = true → ClimbRun r seen id [id] []
  | step {seen entered above : List BlockId} {id p : BlockId} : r.parentId? id = some p →
      p ∉ seen → r.contains p = true → ClimbRun r (p :: seen) p entered above →
      ClimbRun r seen id (id :: entered) (p :: above)

namespace ClimbRun

theorem entered_eq (h : ClimbRun r seen id entered l) : entered = id :: l := by
  induction h with
  | top _ => rfl
  | stop _ _ => rfl
  | step _ _ _ _ ih => rw [ih]

/-- What a climb lists is live and was not seen, and nothing is listed twice. -/
theorem fresh (h : ClimbRun r seen id entered l) :
    l.Nodup ∧ ∀ x ∈ l, x ∉ seen ∧ r.contains x = true := by
  induction h with
  | top _ => exact ⟨List.nodup_nil, nofun⟩
  | stop _ _ => exact ⟨List.nodup_nil, nofun⟩
  | step _ hnew hlive _ ih =>
    obtain ⟨hnodup, hfresh⟩ := ih
    refine ⟨List.nodup_cons.2 ⟨fun hp => (hfresh _ hp).1 (List.mem_cons_self ..), hnodup⟩, ?_⟩
    refine List.forall_mem_cons.2 ⟨⟨hnew, hlive⟩, fun x hx => ?_⟩
    exact ⟨fun hs => (hfresh x hx).1 (List.mem_cons_of_mem _ hs), (hfresh x hx).2⟩

theorem unique (h : ClimbRun r seen id entered l) (h' : ClimbRun r seen id entered' l') :
    entered' = entered ∧ l' = l := by
  induction h generalizing entered' l' with
  | top hp =>
    cases h' with
    | top _ => exact ⟨rfl, rfl⟩
    | stop hp' _ => cases hp.symm.trans hp'
    | step hp' _ _ _ => cases hp.symm.trans hp'
  | stop hp hend =>
    cases h' with
    | top _ => exact ⟨rfl, rfl⟩
    | stop _ _ => exact ⟨rfl, rfl⟩
    | step hp' hnew hlive _ =>
      cases hp.symm.trans hp'
      exact (hend.elim hnew fun hdead => hdead hlive).elim
  | step hp hnew hlive _ ih =>
    cases h' with
    | top hp' => cases hp.symm.trans hp'
    | stop hp' hend =>
      cases hp.symm.trans hp'
      exact (hend.elim hnew fun hdead => hdead hlive).elim
    | step hp' _ _ hrest =>
      cases hp.symm.trans hp'
      obtain ⟨rfl, rfl⟩ := ih hrest
      exact ⟨rfl, rfl⟩

end ClimbRun

/-- A climb that has seen live blocks only, and has enough steps left, is a run. -/
theorem climbRun_climb : ∀ (n : Nat) (seen : List BlockId) (id : BlockId),
    seen.Nodup → (∀ x ∈ seen, r.contains x = true) → r.size < n + seen.length →
    ∃ entered, ClimbRun r seen id entered (r.climb n seen id)
  | 0, seen, id, hnodup, hlive, hsize => by
    have hle := length_le_size hnodup hlive
    omega
  | n + 1, seen, id, hnodup, hlive, hsize => by
    cases hp : r.parentId? id with
    | none =>
      simp only [climb, hp]
      exact ⟨_, .top hp⟩
    | some p =>
      by_cases hend : p ∈ seen ∨ ¬ r.contains p = true
      · have hstop : (seen.contains p || !r.contains p) = true := by simpa using hend
        simp only [climb, hp, hstop, if_true]
        exact ⟨_, .stop hp hend⟩
      · obtain ⟨hnew, hplive⟩ : p ∉ seen ∧ r.contains p = true := by simpa using hend
        have hgo : (seen.contains p || !r.contains p) = false := by simp [hnew, hplive]
        obtain ⟨entered, hrest⟩ := climbRun_climb n (p :: seen) p
          (List.nodup_cons.2 ⟨hnew, hnodup⟩) (List.forall_mem_cons.2 ⟨hplive, hlive⟩)
          (by rw [List.length_cons]; omega)
        simp only [climb, hp, hgo, Bool.false_eq_true, if_false]
        exact ⟨_, .step hp hnew hplive hrest⟩

theorem climbRun_ancestors (r : Registry) (id : BlockId) :
    ∃ entered, ClimbRun r [id] id entered (r.ancestors id) := by
  by_cases hid : r.contains id = true
  · refine climbRun_climb r.size [id] id (List.nodup_singleton id) ?_ (by simp)
    exact List.forall_mem_singleton.2 hid
  · have hp : r.parentId? id = none := by rw [parentId?, not_contains_iff.1 hid]; rfl
    have hnone : r.ancestors id = [] := by
      unfold ancestors
      cases r.size <;> simp [climb, hp]
    rw [hnone]
    exact ⟨_, .top hp⟩

/-! ## Climbing in search of a cycle -/

/-- A run of a climb in search of `target`, with what was seen before, what is entered and
whether `target` was met. -/
inductive CycleRun (r : Registry) (target : BlockId) :
    List BlockId → BlockId → List BlockId → Bool → Prop
  | top {seen : List BlockId} {id : BlockId} : r.parentId? id = none →
      CycleRun r target seen id [id] false
  | met {seen : List BlockId} {id : BlockId} : r.parentId? id = some target →
      CycleRun r target seen id [id] true
  | again {seen : List BlockId} {id p : BlockId} : r.parentId? id = some p → p ≠ target →
      p ∈ seen → CycleRun r target seen id [id] false
  | step {seen entered : List BlockId} {id p : BlockId} {answer : Bool} :
      r.parentId? id = some p → p ≠ target → p ∉ seen →
      CycleRun r target (p :: seen) p entered answer →
      CycleRun r target seen id (id :: entered) answer

namespace CycleRun

/-- Behind the block where it starts, a climb enters nothing that it has seen, and not the
block it searches. -/
theorem fresh (h : CycleRun r target seen id entered answer) : ∃ rest, entered = id :: rest ∧
    rest.Nodup ∧ ∀ x ∈ rest, x ∉ seen ∧ x ≠ target := by
  induction h with
  | top _ => exact ⟨[], rfl, List.nodup_nil, nofun⟩
  | met _ => exact ⟨[], rfl, List.nodup_nil, nofun⟩
  | again _ _ _ => exact ⟨[], rfl, List.nodup_nil, nofun⟩
  | @step _ _ _ p _ _ hne hnew _ ih =>
    obtain ⟨rest, rfl, hnodup, hfresh⟩ := ih
    refine ⟨p :: rest, rfl, ?_, List.forall_mem_cons.2 ⟨⟨hnew, hne⟩, fun x hx => ?_⟩⟩
    · exact List.nodup_cons.2 ⟨fun hp => (hfresh p hp).1 (List.mem_cons_self ..), hnodup⟩
    · exact ⟨fun hs => (hfresh x hx).1 (List.mem_cons_of_mem p hs), (hfresh x hx).2⟩

theorem unique (h : CycleRun r target seen id entered answer)
    (h' : CycleRun r target seen id entered' answer') : entered' = entered ∧ answer' = answer := by
  induction h generalizing entered' answer' with
  | top hp =>
    cases h' with
    | top _ => exact ⟨rfl, rfl⟩
    | met hp' => cases hp.symm.trans hp'
    | again hp' _ _ => cases hp.symm.trans hp'
    | step hp' _ _ _ => cases hp.symm.trans hp'
  | met hp =>
    cases h' with
    | top hp' => cases hp.symm.trans hp'
    | met _ => exact ⟨rfl, rfl⟩
    | again hp' hne _ => exact absurd (Option.some.inj (hp'.symm.trans hp)) hne
    | step hp' hne _ _ => exact absurd (Option.some.inj (hp'.symm.trans hp)) hne
  | again hp hne hmem =>
    cases h' with
    | top _ => exact ⟨rfl, rfl⟩
    | met hp' => exact absurd (Option.some.inj (hp.symm.trans hp')) hne
    | again _ _ _ => exact ⟨rfl, rfl⟩
    | step hp' _ hnew _ =>
      cases hp.symm.trans hp'
      exact absurd hmem hnew
  | step hp hne hnew _ ih =>
    cases h' with
    | top hp' => cases hp.symm.trans hp'
    | met hp' => exact absurd (Option.some.inj (hp.symm.trans hp')) hne
    | again hp' _ hmem =>
      cases hp.symm.trans hp'
      exact absurd hmem hnew
    | step hp' _ _ hrest =>
      cases hp.symm.trans hp'
      obtain ⟨rfl, rfl⟩ := ih hrest
      exact ⟨rfl, rfl⟩

end CycleRun

/-- A climb in search of its start is a run if it has enough steps left.  What it has come
through, `past`, is the start and what it has seen, but for the block where it is. -/
theorem cycleRun_leadsTo : ∀ (n : Nat) (seen past : List BlockId) (id : BlockId),
    seen ++ [target] = id :: past → (id :: past).Nodup → (∀ x ∈ past, r.contains x = true) →
    r.size < n + past.length →
      ∃ entered, CycleRun r target seen id entered (r.leadsTo target n seen id)
  | 0, seen, past, id, _, hnodup, hlive, hsize => by
    have hle := length_le_size (List.nodup_cons.1 hnodup).2 hlive
    omega
  | n + 1, seen, past, id, hpast, hnodup, hlive, hsize => by
    cases hp : r.parentId? id with
    | none =>
      simp only [leadsTo, hp]
      exact ⟨_, .top hp⟩
    | some p =>
      by_cases he : p = target
      · subst he
        simp only [leadsTo, hp, if_true]
        exact ⟨_, .met hp⟩
      · by_cases hmem : p ∈ seen
        · have hagain : r.leadsTo target (n + 1) seen id = false := by simp [leadsTo, hp, he, hmem]
          rw [hagain]
          exact ⟨_, .again hp he hmem⟩
        · have hgo : r.leadsTo target (n + 1) seen id = r.leadsTo target n (p :: seen) p := by
            simp [leadsTo, hp, he, hmem]
          have hnew : p ∉ id :: past := by
            rw [← hpast]
            simp [hmem, he]
          have hid : r.contains id = true := Under.contains hp
          obtain ⟨entered, hrest⟩ := cycleRun_leadsTo n (p :: seen) (id :: past) p
            (congrArg (p :: ·) hpast) (List.nodup_cons.2 ⟨hnew, hnodup⟩)
            (List.forall_mem_cons.2 ⟨hid, hlive⟩) (by rw [List.length_cons]; omega)
          rw [hgo]
          exact ⟨_, .step hp he hmem hrest⟩

theorem cycleRun_inParentCycle (r : Registry) (id : BlockId) :
    ∃ entered, CycleRun r id [] id entered (r.inParentCycle id) :=
  cycleRun_leadsTo (r.size + 1) [] [] id rfl (List.nodup_singleton id) nofun (by simp)

/-! ## Going down with a stack -/

/-- A run of the walk down from `start`, from a stack and what was found, with what is entered
and what is found in the end. -/
inductive SpreadRun (r : Registry) (start : BlockId) :
    List BlockId × List BlockId → List BlockId → List BlockId → Prop
  | done {found : List BlockId} : SpreadRun r start ([], found) [] found
  | enter {id : BlockId} {stack found entered l : List BlockId} :
      SpreadRun r start ((r.childrenOf id).reverse.foldl (r.noteChild start) (stack, found))
        entered l →
      SpreadRun r start (id :: stack, found) (id :: entered) l

namespace SpreadRun

/-- What is entered is what is on the stack and what will be found. -/
theorem perm (h : SpreadRun r start st entered l) :
    ∃ added, l = st.2 ++ added ∧ entered.Perm (st.1 ++ added) := by
  induction h with
  | done => exact ⟨[], by simp⟩
  | @enter id stack found _ _ _ ih =>
    obtain ⟨noted, hfold, -, -⟩ := foldl_noteChild r start (r.childrenOf id).reverse stack found
    rw [hfold] at ih
    obtain ⟨added, rfl, hperm⟩ := ih
    have hturned : ((noted.reverse ++ stack) ++ added).Perm (noted ++ (stack ++ added)) := by
      rw [List.append_assoc]
      exact (List.reverse_perm noted).append_right _
    refine ⟨noted ++ added, List.append_assoc .., .cons id (hperm.trans ?_)⟩
    exact hturned.trans (List.perm_append_comm_assoc ..)

theorem unique (h : SpreadRun r start st entered l) (h' : SpreadRun r start st entered' l') :
    entered' = entered ∧ l' = l := by
  induction h generalizing entered' l' with
  | done =>
    cases h'
    exact ⟨rfl, rfl⟩
  | enter _ ih =>
    cases h' with
    | enter hrest =>
      obtain ⟨rfl, rfl⟩ := ih hrest
      exact ⟨rfl, rfl⟩

end SpreadRun

theorem spreadRun_spread : ∀ (n : Nat) (stack found : List BlockId),
    r.Spreading start stack found → stack.length + (r.size - found.length) ≤ n →
    ∃ entered, SpreadRun r start (stack, found) entered (r.spread start n stack found)
  | 0, stack, found, _, hn => by
    have hempty : stack = [] := List.length_eq_zero_iff.1 (by omega)
    subst hempty
    exact ⟨_, .done⟩
  | n + 1, [], found, _, _ => ⟨_, .done⟩
  | n + 1, id :: stack, found, h, hn => by
    obtain ⟨stack', found', hfold, hstep, hless⟩ := h.round
    rw [List.length_cons] at hn
    obtain ⟨entered, hrest⟩ := spreadRun_spread n stack' found' hstep (by omega)
    rw [spread, hfold]
    exact ⟨_, .enter (hfold ▸ hrest)⟩

theorem spreadRun_descendants (r : Registry) (id : BlockId) :
    ∃ entered, SpreadRun r id ([id], []) entered (r.descendants id) :=
  spreadRun_spread (r.size + 1) [id] [] .initial (by simp; omega)

theorem nodup_descendants (r : Registry) (id : BlockId) : (id :: r.descendants id).Nodup :=
  List.nodup_cons.2 ⟨(spreading_descendants r id).fresh, (spreading_descendants r id).nodup⟩

/-! ## Collecting -/

/-- A run of a collection from some ids, one after the other, with what is entered.  It leads
from a state to another, and a state is the ids seen and the ids collected. -/
inductive CollectRun (r : Registry) : List BlockId → List BlockId × List BlockId →
    List BlockId → List BlockId × List BlockId → Prop
  | nil {st : List BlockId × List BlockId} : CollectRun r [] st [] st
  | skip {ids entered : List BlockId} {st st' : List BlockId × List BlockId} {id : BlockId} :
      id ∈ st.1 → CollectRun r ids st entered st' → CollectRun r (id :: ids) st entered st'
  /-- There is no block to collect. -/
  | dead {ids entered : List BlockId} {st st' : List BlockId × List BlockId} {id : BlockId} :
      id ∉ st.1 → r.get? id = none → CollectRun r ids (id :: st.1, st.2) entered st' →
      CollectRun r (id :: ids) st (id :: entered) st'
  /-- The block is collected behind what its children lead to. -/
  | enter {ids inside entered : List BlockId} {st below st' : List BlockId × List BlockId}
      {id : BlockId} {b : Block} : id ∉ st.1 → r.get? id = some b →
      CollectRun r b.children (id :: st.1, st.2) inside below →
      CollectRun r ids (below.1, below.2 ++ [id]) entered st' →
      CollectRun r (id :: ids) st (id :: (inside ++ entered)) st'

namespace CollectRun

/-- What is entered was not seen before, and is marked as seen. -/
theorem fresh (h : CollectRun r ids st entered st') : st'.1 = entered.reverse ++ st.1 ∧
    entered.Nodup ∧ ∀ x ∈ entered, x ∉ st.1 := by
  induction h with
  | nil => exact ⟨rfl, List.nodup_nil, nofun⟩
  | skip _ _ ih => exact ih
  | dead hnew _ _ ih =>
    obtain ⟨hseen, hnodup, hfresh⟩ := ih
    refine ⟨by simp [hseen], List.nodup_cons.2 ⟨fun hid => ?_, hnodup⟩, ?_⟩
    · exact hfresh _ hid (List.mem_cons_self ..)
    · exact List.forall_mem_cons.2 ⟨hnew, fun x hx hs => hfresh x hx (List.mem_cons_of_mem _ hs)⟩
  | @enter _ inside entered st below _ id _ hnew _ _ _ ihinside ihrest =>
    obtain ⟨hbelow, hinside, hfresh⟩ := ihinside
    obtain ⟨hseen, hrest, hlater⟩ := ihrest
    have hout {x : BlockId} (hx : x ∈ entered) : x ∉ inside ∧ x ≠ id ∧ x ∉ st.1 := by
      simpa [hbelow] using hlater x hx
    refine ⟨by simp [hseen, hbelow], List.nodup_cons.2 ⟨fun hid => ?_, ?_⟩, ?_⟩
    · rcases List.mem_append.1 hid with hid | hid
      · exact hfresh id hid (List.mem_cons_self ..)
      · exact (hout hid).2.1 rfl
    · refine List.nodup_append.2 ⟨hinside, hrest, ?_⟩
      rintro x hx y hy rfl
      exact (hout hy).1 hx
    · refine List.forall_mem_cons.2 ⟨hnew, List.forall_mem_append.2 ⟨fun x hx hs => ?_, ?_⟩⟩
      · exact hfresh x hx (List.mem_cons_of_mem id hs)
      · exact fun x hx => (hout hx).2.2

theorem unique {st₁ : List BlockId × List BlockId} (h : CollectRun r ids st entered st')
    (h' : CollectRun r ids st entered' st₁) : entered' = entered ∧ st₁ = st' := by
  induction h generalizing entered' st₁ with
  | nil =>
    cases h'
    exact ⟨rfl, rfl⟩
  | skip hseen _ ih =>
    cases h' with
    | skip _ hrest => exact ih hrest
    | dead hnew _ _ => exact absurd hseen hnew
    | enter hnew _ _ _ => exact absurd hseen hnew
  | dead hnew hnone _ ih =>
    cases h' with
    | skip hseen _ => exact absurd hseen hnew
    | dead _ _ hrest =>
      obtain ⟨rfl, rfl⟩ := ih hrest
      exact ⟨rfl, rfl⟩
    | enter _ hb _ _ => cases hnone.symm.trans hb
  | enter hnew hb _ _ ihinside ihrest =>
    cases h' with
    | skip hseen _ => exact absurd hseen hnew
    | dead _ hnone _ => cases hnone.symm.trans hb
    | enter _ hb' hinside hrest =>
      cases hb.symm.trans hb'
      obtain ⟨rfl, rfl⟩ := ihinside hinside
      obtain ⟨rfl, rfl⟩ := ihrest hrest
      exact ⟨rfl, rfl⟩

theorem append {ids' : List BlockId} {st₁ : List BlockId × List BlockId}
    (h : CollectRun r ids st entered st₁) (h' : CollectRun r ids' st₁ entered' st') :
    CollectRun r (ids ++ ids') st (entered ++ entered') st' := by
  induction h with
  | nil => exact h'
  | skip hseen _ ih => exact .skip hseen (ih h')
  | dead hnew hnone _ ih => exact .dead hnew hnone (ih h')
  | enter hnew hb hinside _ _ ih =>
    rw [List.cons_append, List.cons_append, List.append_assoc]
    exact .enter hnew hb hinside (ih h')

end CollectRun

theorem collectRun_children {collect : BlockId → List BlockId × List BlockId →
      List BlockId × List BlockId}
    (hstep : ∀ c st, r.Ample n st.1 → ∃ entered, CollectRun r [c] st entered (collect c st)) :
    ∀ (cs : List BlockId) (st : List BlockId × List BlockId), r.Ample n st.1 →
      ∃ entered, CollectRun r cs st entered (cs.foldl (fun st c => collect c st) st)
  | [], st, _ => ⟨[], .nil⟩
  | c :: cs, st, hn => by
    obtain ⟨entered, hc⟩ := hstep c st hn
    have hkept : st.1 ⊆ (collect c st).1 := by
      rw [hc.fresh.1]
      exact List.subset_append_right ..
    obtain ⟨entered', hcs⟩ := collectRun_children hstep cs (collect c st) (hn.mono hkept)
    exact ⟨entered ++ entered', hc.append hcs⟩

/-- A collection is a run if it has a step left when all live blocks have been seen. -/
theorem collectRun_collect (r : Registry) :
    ∀ (n : Nat) (id : BlockId) (st : List BlockId × List BlockId), 0 < n → r.Ample (n - 1) st.1 →
      ∃ entered, CollectRun r [id] st entered (r.collect n id st)
  | n + 1, id, st, _, hn => by
    rw [Nat.add_sub_cancel] at hn
    by_cases hseen : id ∈ st.1
    · have hc : r.collect (n + 1) id st = st := by simp [collect, hseen]
      rw [hc]
      exact ⟨_, .skip hseen .nil⟩
    · cases hb : r.get? id with
      | none =>
        have hc : r.collect (n + 1) id st = (id :: st.1, st.2) := by simp [collect, hseen, hb]
        rw [hc]
        exact ⟨_, .dead hseen hb .nil⟩
      | some b =>
        have hlive : r.contains id = true := contains_of_get? hb
        have hpos : 0 < n := by
          refine Nat.pos_of_ne_zero ?_
          rintro rfl
          exact hseen (hn.mem_of_zero hlive)
        have hc : r.collect (n + 1) id st =
            ((b.children.foldl (fun st c => r.collect n c st) (id :: st.1, st.2)).1,
              (b.children.foldl (fun st c => r.collect n c st) (id :: st.1, st.2)).2 ++ [id]) := by
          simp [collect, hseen, hb]
        rw [← Nat.sub_add_cancel hpos] at hn
        obtain ⟨inside, hinside⟩ := collectRun_children
          (fun c st => collectRun_collect r n c st hpos) b.children (id :: st.1, st.2)
          (hn.enter hseen hlive)
        rw [hc]
        exact ⟨_, .enter hseen hb hinside .nil⟩

/-- A run of a collection from a block on its own, with what is entered and what is
collected. -/
def SubtreeRun (r : Registry) (id : BlockId) (entered l : List BlockId) : Prop :=
  ∃ seen, CollectRun r [id] ([], []) entered (seen, l)

theorem subtreeRun_subtree (r : Registry) (id : BlockId) :
    ∃ entered, SubtreeRun r id entered (r.subtree id) := by
  obtain ⟨entered, h⟩ := collectRun_collect r (r.size + 1) id ([], []) (Nat.succ_pos _)
    ⟨[], List.nodup_nil, nofun, by simp⟩
  exact ⟨entered, _, h⟩

theorem contains_of_mem_subtree (h : a ∈ r.subtree id) : r.contains a = true := by
  obtain ⟨x, -, hx, hreach⟩ := (gathers_subtree r id).reached a h
  exact contains_of_reached hx hreach

/-! ## All four -/

/-- On any registry each walk has one run, which ends, enters no block twice, and gives what
the bounded walk gives.  What is listed is live and listed once, and a block is neither among
its ancestors nor among its descendants.  A block is found to be in a cycle exactly if its
parents lead back to it. -/
theorem walks_end (r : Registry) (id : BlockId) :
    EndsWith (ClimbRun r [id] id) (r.ancestors id) ∧
    EndsWith (SpreadRun r id ([id], [])) (r.descendants id) ∧
    EndsWith (SubtreeRun r id) (r.subtree id) ∧
    EndsWith (CycleRun r id [] id) (r.inParentCycle id) ∧
    (id :: r.ancestors id).Nodup ∧ (id :: r.descendants id).Nodup ∧ (r.subtree id).Nodup ∧
    (∀ x, x ∈ r.ancestors id ∨ x ∈ r.descendants id ∨ x ∈ r.subtree id → r.contains x = true) ∧
    (r.inParentCycle id = true ↔ r.Below id id) := by
  obtain ⟨climbed, hclimb⟩ := climbRun_ancestors r id
  obtain ⟨spread, hspread⟩ := spreadRun_descendants r id
  obtain ⟨collected, seen, hcollect⟩ := subtreeRun_subtree r id
  obtain ⟨searched, hsearch⟩ := cycleRun_inParentCycle r id
  have hancestors : (id :: r.ancestors id).Nodup :=
    List.nodup_cons.2 ⟨fun hid => (hclimb.fresh.2 id hid).1 (List.mem_singleton_self id),
      hclimb.fresh.1⟩
  have hdescendants := nodup_descendants r id
  refine ⟨.of_unique hclimb ?_ hclimb.unique, .of_unique hspread ?_ hspread.unique,
    .of_unique ⟨seen, hcollect⟩ hcollect.fresh.2.1 ?_, .of_unique hsearch ?_ hsearch.unique,
    hancestors, hdescendants, nodup_subtree r id, ?_, inParentCycle_iff⟩
  · rwa [hclimb.entered_eq]
  · obtain ⟨added, hadded, hperm⟩ := hspread.perm
    rw [List.nil_append] at hadded
    rw [← hadded] at hperm
    exact hperm.nodup_iff.2 hdescendants
  · rintro l a ⟨seen', h⟩
    obtain ⟨rfl, hst⟩ := hcollect.unique h
    exact ⟨rfl, congrArg Prod.snd hst⟩
  · obtain ⟨rest, rfl, hnodup, hfresh⟩ := hsearch.fresh
    exact List.nodup_cons.2 ⟨fun hid => (hfresh id hid).2 rfl, hnodup⟩
  · rintro x (hx | hx | hx)
    · exact (hclimb.fresh.2 x hx).2
    · exact (spreading_descendants r id).live x hx
    · exact contains_of_mem_subtree hx

/-! ## Up and down -/

namespace Lineage

theorem isChain (h : r.Lineage id l) : (id :: l).IsChain r.Under := by
  induction h with
  | root _ => exact .singleton _
  | step hu _ ih => exact .cons_cons hu ih

/-- A lineage ends at the top level. -/
theorem getLast?_mem_roots (wf : r.WellFormed) (h : r.Lineage id l) (hid : r.contains id = true) :
    ∃ root ∈ r.roots, (id :: l).getLast? = some root := by
  induction h with
  | root hr => exact ⟨_, mem_roots_of_parentId? hid hr, rfl⟩
  | step hu _ ih =>
    obtain ⟨root, hroot, hlast⟩ := ih (wf.contains_of_under hu)
    exact ⟨root, hroot, by rw [List.getLast?_cons_cons, hlast]⟩

end Lineage

/-- In a well-formed registry the walk down from a block finds a live block exactly if the
climb from that one lists the first.  The walk down finds no block twice, and not the one
where it starts.  The climb goes from each block to its parent, up to the top level. -/
theorem WellFormed.walks_agree (wf : r.WellFormed) (a : BlockId) (hb : r.contains b = true) :
    (b ∈ r.descendants a ↔ a ∈ r.ancestors b) ∧
    (b ∈ r.descendants a ↔ r.isDescendant b a = true) ∧
    (r.descendants a).Nodup ∧ a ∉ r.descendants a ∧
    (b :: r.ancestors b).IsChain r.Under ∧
    ∃ root ∈ r.roots, (b :: r.ancestors b).getLast? = some root := by
  have hagree : b ∈ r.descendants a ↔ a ∈ r.ancestors b := by
    rw [wf.mem_descendants_iff, wf.mem_ancestors_iff]
  have hlineage := wf.lineage_ancestors b
  obtain ⟨hfresh, hnodup⟩ := List.nodup_cons.1 (nodup_descendants r a)
  refine ⟨hagree, ?_, hnodup, hfresh, hlineage.isChain, hlineage.getLast?_mem_roots wf hb⟩
  rw [hagree, isDescendant, List.contains_iff_mem]

theorem walks_agree_branching :
    branchingRegistry.WellFormed ∧ branchingRegistry.contains "c" = true ∧
      "c" ∈ branchingRegistry.descendants "a" ∧ "a" ∈ branchingRegistry.ancestors "c" ∧
      branchingRegistry.isDescendant "c" "a" = true ∧
      ("c" :: branchingRegistry.ancestors "c").IsChain branchingRegistry.Under ∧
      ∃ root ∈ branchingRegistry.roots,
        ("c" :: branchingRegistry.ancestors "c").getLast? = some root := by
  have hc : branchingRegistry.contains "c" = true := by decide
  have hup : "a" ∈ branchingRegistry.ancestors "c" := by decide
  obtain ⟨hagree, hbelow, -, -, hchain, hroot⟩ := wellFormed_branchingRegistry.walks_agree "a" hc
  have hdown := hagree.2 hup
  exact ⟨wellFormed_branchingRegistry, hc, hdown, hup, hbelow.1 hdown, hchain, hroot⟩

end Blockwork.Registry
