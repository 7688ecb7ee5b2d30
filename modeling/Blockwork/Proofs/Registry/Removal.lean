import Blockwork.Proofs.Registry.Unlink

/-!
# Removing a block with everything below it

`subtree` collects a block behind what is below it.  On the way it may meet a block
that it has seen, and then it goes no further.  What was seen is either collected
with everything below it, or is above the block at hand, and in a well-formed
registry no block is above itself.  So the subtree of a block is the block with
everything below it, and a block comes behind whatever refers to it.

Nothing outside a subtree is below anything in it.  A well-formed registry stays
well formed without such a set of blocks.
-/

namespace Blockwork

/-- What is over an input when some blocks are gone. -/
@[simp] theorem Block.childAt?_scrub (removed : List BlockId) (b : Block) (slot : String) :
    (Registry.scrub removed b).childAt? slot = (b.childAt? slot).filter (!removed.contains ·) := by
  simp only [Block.childAt?, Block.slot?, Registry.scrub, Table.lookup_mapValues]
  cases b.slots.lookup slot with
  | none => rfl
  | some s =>
    obtain ⟨literal, child⟩ := s
    cases child with
    | none => simp
    | some c => by_cases hc : c ∈ removed <;> simp [hc, Option.filter]

namespace Registry

variable {r : Registry} {id c x p : BlockId} {place : Parent} {l removed : List BlockId}
variable {st : List BlockId × List BlockId} {n : Nat}

/-! ## What is collected -/

/-- The children of a block are what refers to it. -/
theorem WellFormed.mem_childrenOf_iff (wf : r.WellFormed) : c ∈ r.childrenOf id ↔ r.Under c id := by
  rw [childrenOf]
  constructor
  · intro h
    cases hb : r.get? id with
    | none => simp [hb] at h
    | some b =>
      simp only [hb, Block.children, List.mem_append, Block.inputChildren, List.mem_filter,
        List.mem_filterMap] at h
      rcases h with h | ⟨⟨s, hs, hc⟩, -⟩
      · exact wf.under_of_mem_nested hb h
      · have hslot := Table.lookup_of_mem (wf.slots_nodup hb) hs
        have hheld : r.Holds (.input id s.1) c :=
          ⟨b, hb, Block.childAt?_eq_some_iff.2 ⟨s.2, hslot, hc⟩⟩
        exact wf.under_of_holds hheld rfl
  · intro h
    obtain ⟨place, hp, hid⟩ := under_iff.1 h
    have hheld := wf.held hp (ne_none_of_id? hid)
    cases place with
    | none => cases hid
    | container q =>
      cases hid
      obtain ⟨b, hb, hc⟩ := hheld
      simpa [hb, Block.children] using .inl hc
    | input q slot =>
      cases hid
      obtain ⟨b, hb, hc⟩ := hheld
      obtain ⟨s, hs, hc⟩ := Block.childAt?_eq_some_iff.1 hc
      obtain ⟨cb, hcb⟩ := contains_iff.1 h.contains
      have hmem : c ∈ b.inputChildren :=
        List.mem_filter.2 ⟨List.mem_filterMap.2 ⟨(slot, s), Table.mem_of_lookup hs, hc⟩,
          by simpa using wf.named hcb⟩
      simpa [hb, Block.children] using .inr hmem

/-- Whatever refers to a block of a list is in the list. -/
def Downward (r : Registry) (l : List BlockId) : Prop := ∀ x ∈ l, ∀ c, r.Under c x → c ∈ l

theorem Downward.mem_of_below (h : r.Downward l) (hx : Relation.ReflTransGen r.Under c x)
    (hl : x ∈ l) : c ∈ l := by
  induction hx using Relation.ReflTransGen.head_induction_on with
  | refl => exact hl
  | head hu _ ih => exact h _ ih _ hu

/-- Whatever refers to a block of a list comes before it. -/
def ChildrenFirst (r : Registry) (l : List BlockId) : Prop :=
  ∀ before x after, l = before ++ x :: after → ∀ c, r.Under c x → c ∈ before

theorem ChildrenFirst.downward (h : r.ChildrenFirst l) : r.Downward l := by
  intro x hx c hc
  obtain ⟨before, after, rfl⟩ := List.append_of_mem hx
  exact List.mem_append_left _ (h before x after rfl c hc)

theorem ChildrenFirst.concat (h : r.ChildrenFirst l) (hid : ∀ c, r.Under c id → c ∈ l) :
    r.ChildrenFirst (l ++ [id]) := by
  intro before x after he c hc
  rcases List.eq_nil_or_concat after with rfl | ⟨after, y, rfl⟩
  · obtain ⟨rfl, hx⟩ := List.append_inj' he rfl
    cases hx
    exact hid c hc
  · rw [List.concat_eq_append, ← List.cons_append, ← List.append_assoc] at he
    obtain ⟨rfl, -⟩ := List.append_inj' he rfl
    exact h before x after rfl c hc

/-- Everything below a block comes before it. -/
theorem ChildrenFirst.mem_of_below (h : r.ChildrenFirst l) (hc : r.Below c x) :
    ∀ {before after : List BlockId}, l = before ++ x :: after → c ∈ before := by
  induction hc with
  | single hu => exact fun he => h _ _ _ he _ hu
  | @tail y x _ hu ih =>
    intro before after he
    obtain ⟨first, rest, rfl⟩ := List.append_of_mem (h _ _ _ he _ hu)
    have he' : l = first ++ y :: (rest ++ x :: after) := by simp [he]
    exact List.mem_append_left _ (ih he')

/-- The state of a collection before it comes to `id`: a block has been collected
behind whatever refers to it, and what was seen besides is above `id`. -/
structure Collected (r : Registry) (id : BlockId) (st : List BlockId × List BlockId) : Prop where
  /-- A block has been collected behind whatever refers to it. -/
  ordered : r.ChildrenFirst st.2
  /-- What was seen has been collected, or is above. -/
  seen : ∀ x ∈ st.1, x ∈ st.2 ∨ r.Below id x

/-- What collecting a block does to the state. -/
structure Collects (r : Registry) (id : BlockId) (st st' : List BlockId × List BlockId) : Prop where
  /-- The state is as before. -/
  collected : r.Collected id st'
  /-- The block has been collected with everything below it, and nothing else. -/
  mem_iff : ∀ x, x ∈ st'.2 ↔ x ∈ st.2 ∨ Relation.ReflTransGen r.Under x id

/-- What was seen before a child is the parent or above it. -/
theorem collected_of_under (h : r.Under c id) :
    r.Collected c st ↔
      r.ChildrenFirst st.2 ∧ ∀ x ∈ st.1, x ∈ st.2 ∨ Relation.ReflTransGen r.Under id x := by
  have hbelow (x : BlockId) : r.Below c x ↔ Relation.ReflTransGen r.Under id x := by
    rw [Below, Relation.TransGen.head'_iff]
    refine ⟨?_, fun hx => ⟨id, h, hx⟩⟩
    rintro ⟨q, hq, hx⟩
    cases h.symm.trans hq
    exact hx
  refine ⟨fun hc => ⟨hc.ordered, fun x hx => ?_⟩, fun hc => ⟨hc.1, fun x hx => ?_⟩⟩
  · exact (hc.seen x hx).imp_right (hbelow x).1
  · exact (hc.2 x hx).imp_right (hbelow x).2

/-- Collecting the children of a block one after the other. -/
theorem collects_children (collect : BlockId → List BlockId × List BlockId →
      List BlockId × List BlockId)
    (hstep : ∀ c st, r.Under c id → r.Collected c st → r.Collects c st (collect c st)) :
    ∀ (cs : List BlockId) (st : List BlockId × List BlockId),
      (∀ c ∈ cs, r.Under c id) → r.ChildrenFirst st.2 →
      (∀ x ∈ st.1, x ∈ st.2 ∨ Relation.ReflTransGen r.Under id x) →
      let st' := cs.foldl (fun st c => collect c st) st
      r.ChildrenFirst st'.2 ∧ (∀ x ∈ st'.1, x ∈ st'.2 ∨ Relation.ReflTransGen r.Under id x) ∧
        ∀ x, x ∈ st'.2 ↔ x ∈ st.2 ∨ ∃ c ∈ cs, Relation.ReflTransGen r.Under x c
  | [], st, _, hd, hs => ⟨hd, hs, fun x => by simp⟩
  | c :: cs, st, hc, hd, hs => by
    have hu : r.Under c id := hc c (List.mem_cons_self ..)
    have h := hstep c st hu ((collected_of_under hu).2 ⟨hd, hs⟩)
    obtain ⟨hd', hs'⟩ := (collected_of_under hu).1 h.collected
    obtain ⟨hord, hseen, hmem⟩ := collects_children collect hstep cs (collect c st)
      (fun x hx => hc x (List.mem_cons_of_mem _ hx)) hd' hs'
    refine ⟨hord, hseen, fun x => ?_⟩
    rw [List.foldl_cons, hmem, h.mem_iff]
    simp [or_assoc]

/-- A collection with enough steps left collects a block with everything below it. -/
theorem WellFormed.collects (wf : r.WellFormed) :
    ∀ (n : Nat) (id : BlockId) (st : List BlockId × List BlockId),
      r.contains id = true → r.size ≤ n + r.depth id → r.Collected id st →
      r.Collects id st (r.collect n id st)
  | 0, id, st, hlive, hsize, _ => by
    have := wf.depth_lt_size hlive
    omega
  | n + 1, id, st, hlive, hsize, hst => by
    obtain ⟨b, hb⟩ := contains_iff.1 hlive
    by_cases hseen : id ∈ st.1
    · -- it is not above itself, so it has been collected
      have hid : id ∈ st.2 := (hst.seen id hseen).resolve_right (wf.acyclic id)
      have hc : r.collect (n + 1) id st = st := by simp [collect, hseen]
      rw [hc]
      exact ⟨hst, fun x =>
        ⟨.inl, fun h => h.elim (fun h => h) (hst.ordered.downward.mem_of_below · hid)⟩⟩
    · have hstep (c : BlockId) (st : List BlockId × List BlockId) (hu : r.Under c id)
          (hc : r.Collected c st) : r.Collects c st (r.collect n c st) := by
        refine wf.collects n c st hu.contains ?_ hc
        have := wf.depth_of_under hu
        omega
      have hchild (c : BlockId) : c ∈ b.children ↔ r.Under c id := by
        rw [← wf.mem_childrenOf_iff, childrenOf, hb]
      obtain ⟨hord, habove, hmem⟩ := collects_children (r.collect n) hstep b.children
        (id :: st.1, st.2) (fun c hc => (hchild c).1 hc) hst.ordered fun x hx => by
          rcases List.mem_cons.1 hx with rfl | hx
          · exact .inr .refl
          · exact (hst.seen x hx).imp_right Relation.TransGen.to_reflTransGen
      have hc : r.collect (n + 1) id st =
          ((b.children.foldl (fun st c => r.collect n c st) (id :: st.1, st.2)).1,
            (b.children.foldl (fun st c => r.collect n c st) (id :: st.1, st.2)).2 ++ [id]) := by
        simp [collect, hseen, hb]
      have hall (x : BlockId) :
          x ∈ (b.children.foldl (fun st c => r.collect n c st) (id :: st.1, st.2)).2 ++ [id] ↔
            x ∈ st.2 ∨ Relation.ReflTransGen r.Under x id := by
        rw [List.mem_append, hmem, List.mem_singleton, or_assoc]
        refine or_congr_right ⟨?_, fun hx => ?_⟩
        · rintro (⟨c, hc, hx⟩ | rfl)
          · exact hx.tail ((hchild c).1 hc)
          · exact .refl
        · rcases Relation.ReflTransGen.cases_tail hx with rfl | ⟨c, hx, hu⟩
          · exact .inr rfl
          · exact .inl ⟨c, (hchild c).2 hu, hx⟩
      rw [hc]
      refine ⟨⟨hord.concat fun c hu => ?_, fun x hx => ?_⟩, hall⟩
      · exact (hmem c).2 (.inr ⟨c, (hchild c).2 hu, .refl⟩)
      · rcases habove x hx with hx | hx
        · exact .inl (List.mem_append_left _ hx)
        · rcases Relation.reflTransGen_iff_eq_or_transGen.1 hx with rfl | hx
          · exact .inl (List.mem_append_right _ (List.mem_singleton_self _))
          · exact .inr hx

theorem WellFormed.collects_subtree (wf : r.WellFormed) (h : r.contains id = true) :
    r.Collects id ([], []) (r.collect (r.size + 1) id ([], [])) :=
  wf.collects (r.size + 1) id ([], []) h (by omega)
    ⟨fun _ _ _ he => absurd he (by simp), nofun⟩

/-- The subtree of a block is the block with everything below it. -/
theorem WellFormed.mem_subtree_iff (wf : r.WellFormed) (h : r.contains id = true) :
    x ∈ r.subtree id ↔ Relation.ReflTransGen r.Under x id := by
  simpa [subtree] using (wf.collects_subtree h).mem_iff x

theorem WellFormed.childrenFirst_subtree (wf : r.WellFormed) (h : r.contains id = true) :
    r.ChildrenFirst (r.subtree id) := (wf.collects_subtree h).collected.ordered

theorem WellFormed.downward_subtree (wf : r.WellFormed) (h : r.contains id = true) :
    r.Downward (r.subtree id) := (wf.childrenFirst_subtree h).downward

/-! ## Who is touched -/

theorem mem_touched_iff : x ∈ r.touched removed ↔
    x ∉ removed ∧ ∃ b, r.get? x = some b ∧ mentions removed b = true := by
  simp only [touched, List.mem_map, List.mem_filter, Bool.and_eq_true, Prod.exists]
  constructor
  · rintro ⟨y, b, ⟨hmem, hout, hm⟩, rfl⟩
    exact ⟨by simpa using hout, b, get?_eq_some_iff.2 hmem, hm⟩
  · rintro ⟨hout, b, hb, hm⟩
    exact ⟨x, b, ⟨get?_eq_some_iff.1 hb, by simpa using hout, hm⟩, rfl⟩

theorem nodup_touched (r : Registry) (removed : List BlockId) : (r.touched removed).Nodup :=
  r.nodup.sublist (List.filter_sublist.map Prod.fst)

/-- A block is touched by a removal if it stays and holds what is removed. -/
theorem mentions_of_not_touched {b : Block} (hb : r.get? x = some b) (hx : x ∉ removed)
    (h : x ∉ r.touched removed) : mentions removed b = false := by
  by_contra hm
  exact h (mem_touched_iff.2 ⟨hx, b, hb, by simpa using hm⟩)

/-- A block that mentions nothing of what is removed is not changed by scrubbing. -/
theorem scrub_of_not_mentions {b : Block} (h : mentions removed b = false) :
    scrub removed b = b := by
  obtain ⟨hslots, hnested⟩ := Bool.or_eq_false_iff.1 h
  have hs : Table.mapValues b.slots (fun s =>
      if s.child.any removed.contains then { s with child := none } else s) = b.slots := by
    rw [Table.mapValues]
    conv_rhs => rw [← List.map_id b.slots]
    refine List.map_congr_left fun s hs => ?_
    have hfree := List.any_eq_false.1 hslots s hs
    simp [hfree]
  have hn : b.nested.filter (fun id => !removed.contains id) = b.nested := by
    refine List.filter_eq_self.2 fun c hc => ?_
    simpa using List.any_eq_false.1 hnested c hc
  rw [scrub, hs, hn]

/-! ## What removing does to a block -/

/-- The same change of several blocks. -/
theorem get?_foldl_modify (f : Block → Block) {ids : List BlockId} (hn : ids.Nodup)
    (r : Registry) (x : BlockId) : (ids.foldl (fun r id => r.modify id f) r).get? x =
      if x ∈ ids then (r.get? x).map f else r.get? x := by
  induction ids generalizing r with
  | nil => simp
  | cons id ids ih =>
    obtain ⟨hid, hn⟩ := List.nodup_cons.1 hn
    rw [List.foldl_cons, ih hn, get?_modify]
    by_cases hx : x = id
    · simp [hx, hid]
    · simp [hx]

theorem ids_foldl_modify (f : Block → Block) (ids : List BlockId) (r : Registry) :
    (ids.foldl (fun r id => r.modify id f) r).ids = r.ids := by
  induction ids generalizing r with
  | nil => rfl
  | cons id ids ih => simp [ih]

@[simp] theorem ids_scrubAround : (r.scrubAround removed).ids = r.ids :=
  ids_foldl_modify (scrub removed) (r.touched removed) r

/-- Outside what is removed it is as if every block were scrubbed. -/
theorem get?_scrubAround (hx : x ∉ removed) :
    (r.scrubAround removed).get? x = (r.get? x).map (scrub removed) := by
  rw [scrubAround, get?_foldl_modify _ (nodup_touched ..)]
  split
  · rfl
  · next hfree =>
    cases hb : r.get? x with
    | none => rfl
    | some b =>
      exact congrArg some (scrub_of_not_mentions (mentions_of_not_touched hb hx hfree)).symm

@[simp] theorem ids_remove :
    (r.remove removed).ids = r.ids.filter fun x => !removed.contains x := by
  have hkeep : (r.remove removed).ids =
      (r.scrubAround removed).ids.filter fun x => !removed.contains x :=
    Table.names_keep (r.scrubAround removed).entries fun x => !removed.contains x
  rw [hkeep, ids_scrubAround]

@[simp] theorem get?_remove : (r.remove removed).get? x =
    if x ∈ removed then none else (r.get? x).map (scrub removed) := by
  by_cases hx : x ∈ removed <;> simp [remove, hx, get?_scrubAround]

theorem get?_remove_eq_some_iff {b : Block} : (r.remove removed).get? x = some b ↔
    x ∉ removed ∧ ∃ c, r.get? x = some c ∧ scrub removed c = b := by
  by_cases hx : x ∈ removed <;> simp [hx]

@[simp] theorem parent?_remove : (r.remove removed).parent? x =
    if x ∈ removed then none else r.parent? x := by
  by_cases hx : x ∈ removed <;> simp [parent?, hx, scrub, Function.comp_def]

/-- What is left of a body or an input whose block is left. -/
theorem holds_remove (wf : r.WellFormed) (h : r.Downward removed) :
    (r.remove removed).Holds place x ↔ r.Holds place x ∧ x ∉ removed := by
  have hleft {p : BlockId} (hp : place.id? = some p) (hx : r.Holds place x) (hn : x ∉ removed) :
      p ∉ removed := fun hm => hn (h p hm x (wf.under_of_holds hx hp))
  cases place with
  | none => simp [Holds]
  | container p =>
    constructor
    · rintro ⟨_, hr, hx⟩
      obtain ⟨-, b, hb, rfl⟩ := get?_remove_eq_some_iff.1 hr
      obtain ⟨hx, hn⟩ := List.mem_filter.1 hx
      exact ⟨⟨b, hb, hx⟩, by simpa using hn⟩
    · rintro ⟨hh, hn⟩
      obtain ⟨b, hb, hx⟩ := id hh
      refine ⟨_, get?_remove_eq_some_iff.2 ⟨hleft rfl hh hn, b, hb, rfl⟩, ?_⟩
      exact List.mem_filter.2 ⟨hx, by simpa using hn⟩
  | input p slot =>
    constructor
    · rintro ⟨_, hr, hx⟩
      obtain ⟨-, b, hb, rfl⟩ := get?_remove_eq_some_iff.1 hr
      rw [Block.childAt?_scrub, Option.filter_eq_some_iff] at hx
      exact ⟨⟨b, hb, hx.1⟩, by simpa using hx.2⟩
    · rintro ⟨hh, hn⟩
      obtain ⟨b, hb, hx⟩ := id hh
      refine ⟨_, get?_remove_eq_some_iff.2 ⟨hleft rfl hh hn, b, hb, rfl⟩, ?_⟩
      rw [Block.childAt?_scrub, Option.filter_eq_some_iff]
      exact ⟨hx, by simpa using hn⟩

/-- Without some blocks and everything below them a registry stays well formed. -/
theorem WellFormed.remove (wf : r.WellFormed) (h : r.Downward removed) :
    (r.remove removed).WellFormed where
  named hr := by
    obtain ⟨-, b, hb, -⟩ := get?_remove_eq_some_iff.1 hr
    exact wf.named hb
  slots_nodup hr := by
    obtain ⟨-, b, hb, rfl⟩ := get?_remove_eq_some_iff.1 hr
    simpa [scrub] using wf.slots_nodup hb
  nested_nodup hr := by
    obtain ⟨-, b, hb, rfl⟩ := get?_remove_eq_some_iff.1 hr
    exact (wf.nested_nodup hb).filter _
  confirmed hh := by
    obtain ⟨hh, hx⟩ := (holds_remove wf h).1 hh
    rw [parent?_remove, if_neg hx]
    exact wf.confirmed hh
  held hp hne := by
    rw [parent?_remove] at hp
    split at hp
    · cases hp
    · next hx => exact (holds_remove wf h).2 ⟨wf.held hp hne, hx⟩
  hasBody hr hn := by
    obtain ⟨-, b, hb, rfl⟩ := get?_remove_eq_some_iff.1 hr
    have hne : b.nested ≠ [] := by
      intro he
      simp [scrub, he] at hn
    have hk := wf.hasBody hb hne
    exact hk
  fitsInput hh hr := by
    obtain ⟨-, b, hb, rfl⟩ := get?_remove_eq_some_iff.1 hr
    have hk := wf.fitsInput ((holds_remove wf h).1 hh).1 hb
    exact hk
  acyclic x hb := by
    refine wf.acyclic x (hb.mono fun hu => hu.mono fun _ hp => ?_)
    rw [parent?_remove] at hp
    split at hp
    · cases hp
    · exact hp

end Registry

end Blockwork
