import Blockwork.Proofs.Registry.Removal

/-!
# Descendants

`descendants` works off a stack.  What it has found is reached through live children, and
a block that was found and has left the stack has had all its live children noted.  Every
round takes one block off the stack, and a block goes on the stack when it is found, so
there are no more rounds than live blocks and one.  When the stack is empty, what was
found is everything that can be reached.

In a well-formed registry the children of a block are what refers to it, and so the
descendants of a block are what is below it.
-/

namespace Blockwork.Registry

variable {r : Registry} {start id x c : BlockId} {stack found cs : List BlockId}

/-- A block holds a live one. -/
def LiveChild (r : Registry) (id c : BlockId) : Prop :=
  c ∈ r.childrenOf id ∧ r.contains c = true

/-- Noting children adds those that are live and not known yet, each once, to what was
found and to the stack. -/
theorem foldl_noteChild (r : Registry) (start : BlockId) (cs : List BlockId) :
    ∀ stack found : List BlockId, ∃ added : List BlockId,
      cs.foldl (r.noteChild start) (stack, found) = (added.reverse ++ stack, found ++ added) ∧
        added.Nodup ∧
        ∀ x, x ∈ added ↔ x ∈ cs ∧ r.contains x = true ∧ x ≠ start ∧ x ∉ found := by
  induction cs with
  | nil =>
    intro stack found
    exact ⟨[], by simp, List.nodup_nil, by simp⟩
  | cons c cs ih =>
    intro stack found
    by_cases hskip : c = start ∨ c ∈ found ∨ r.contains c = false
    · have hnote : r.noteChild start (stack, found) c = (stack, found) := by
        rw [noteChild, if_pos]
        simpa [or_assoc] using hskip
      obtain ⟨added, hfold, hnodup, hmem⟩ := ih stack found
      refine ⟨added, by rw [List.foldl_cons, hnote, hfold], hnodup, ?_⟩
      intro x
      rw [hmem, List.mem_cons]
      constructor
      · rintro ⟨hx, hrest⟩
        exact ⟨.inr hx, hrest⟩
      · rintro ⟨rfl | hx, hlive, hne, hnew⟩
        · simp [hne, hnew, hlive] at hskip
        · exact ⟨hx, hlive, hne, hnew⟩
    · obtain ⟨hne, hnew, hlive⟩ : c ≠ start ∧ c ∉ found ∧ r.contains c = true := by
        simpa using hskip
      have hnote : r.noteChild start (stack, found) c = (c :: stack, found ++ [c]) := by
        rw [noteChild, if_neg]
        simp [hne, hnew, hlive]
      obtain ⟨added, hfold, hnodup, hmem⟩ := ih (c :: stack) (found ++ [c])
      refine ⟨c :: added, by rw [List.foldl_cons, hnote, hfold]; simp, ?_, ?_⟩
      · refine List.nodup_cons.2 ⟨fun hc => ?_, hnodup⟩
        exact ((hmem c).1 hc).2.2.2 (by simp)
      · intro x
        rw [List.mem_cons, List.mem_cons, hmem]
        constructor
        · rintro (rfl | ⟨hx, hlive', hne', hnew'⟩)
          · exact ⟨.inl rfl, hlive, hne, hnew⟩
          · exact ⟨.inr hx, hlive', hne', fun hf => hnew' (List.mem_append_left _ hf)⟩
        · rintro ⟨rfl | hx, hlive', hne', hnew'⟩
          · exact .inl rfl
          · by_cases hxc : x = c
            · exact .inl hxc
            · exact .inr ⟨hx, hlive', hne', by simp [hnew', hxc]⟩

/-- The state of the walk from `start`, with what is on the stack and what was found. -/
structure Spreading (r : Registry) (start : BlockId) (stack found : List BlockId) : Prop where
  nodup : found.Nodup
  live : ∀ x ∈ found, r.contains x = true
  fresh : start ∉ found
  reached : ∀ x ∈ found, Relation.ReflTransGen r.LiveChild start x
  /-- What is on the stack is the start or was found. -/
  stacked : ∀ x ∈ stack, x ∈ start :: found
  /-- The children of what has left the stack were noted. -/
  noted : ∀ x ∈ start :: found, x ∉ stack → ∀ c, r.LiveChild x c → c ∈ start :: found

theorem Spreading.initial : r.Spreading start [start] [] where
  nodup := List.nodup_nil
  live := nofun
  fresh := List.not_mem_nil
  reached := nofun
  stacked _ hx := hx
  noted _ hx hstack := absurd hx hstack

/-- One round: a block is taken off the stack and its children are noted. -/
theorem Spreading.step {added : List BlockId} (h : r.Spreading start (id :: stack) found)
    (hnodup : added.Nodup)
    (hadded : ∀ x, x ∈ added ↔
      x ∈ r.childrenOf id ∧ r.contains x = true ∧ x ≠ start ∧ x ∉ found) :
    r.Spreading start (added.reverse ++ stack) (found ++ added) := by
  have hknown : ∀ x, x ∈ start :: (found ++ added) ↔ x ∈ start :: found ∨ x ∈ added := by
    intro x
    simp [or_assoc]
  have hid : id ∈ start :: found := h.stacked id (List.mem_cons_self ..)
  constructor
  · refine List.nodup_append.2 ⟨h.nodup, hnodup, ?_⟩
    rintro x hx y hy rfl
    exact ((hadded x).1 hy).2.2.2 hx
  · intro x hx
    rcases List.mem_append.1 hx with hx | hx
    · exact h.live x hx
    · exact ((hadded x).1 hx).2.1
  · intro hx
    rcases List.mem_append.1 hx with hx | hx
    · exact h.fresh hx
    · exact ((hadded start).1 hx).2.2.1 rfl
  · intro x hx
    rcases List.mem_append.1 hx with hx | hx
    · exact h.reached x hx
    · obtain ⟨hchild, hlive, -, -⟩ := (hadded x).1 hx
      have hreach : Relation.ReflTransGen r.LiveChild start id := by
        rcases List.mem_cons.1 hid with rfl | hid
        · exact .refl
        · exact h.reached id hid
      exact hreach.tail ⟨hchild, hlive⟩
  · intro x hx
    rw [hknown]
    rcases List.mem_append.1 hx with hx | hx
    · exact .inr (List.mem_reverse.1 hx)
    · exact .inl (h.stacked x (List.mem_cons_of_mem _ hx))
  · intro x hx hstack c hc
    obtain ⟨hnew, hstack⟩ : x ∉ added ∧ x ∉ stack := by simpa using hstack
    have hx : x ∈ start :: found := ((hknown x).1 hx).resolve_right hnew
    rw [hknown]
    by_cases hxid : x = id
    · subst hxid
      by_cases hc' : c ∈ start :: found
      · exact .inl hc'
      · obtain ⟨hne, hcnew⟩ := not_or.1 (List.mem_cons.not.1 hc')
        exact .inr ((hadded c).2 ⟨hc.1, hc.2, hne, hcnew⟩)
    · exact .inl (h.noted x hx (by simp [hxid, hstack]) c hc)

/-- A round leaves a state of the walk, and a block less to be taken off or found. -/
theorem Spreading.round (h : r.Spreading start (id :: stack) found) : ∃ stack' found',
    (r.childrenOf id).reverse.foldl (r.noteChild start) (stack, found) = (stack', found') ∧
      r.Spreading start stack' found' ∧
      stack'.length + (r.size - found'.length) ≤ stack.length + (r.size - found.length) := by
  obtain ⟨added, hfold, hnodup, hmem⟩ :=
    foldl_noteChild r start (r.childrenOf id).reverse stack found
  have hstep := h.step hnodup fun x => by rw [hmem, List.mem_reverse]
  have hsize := length_le_size hstep.nodup hstep.live
  refine ⟨_, _, hfold, hstep, ?_⟩
  simp only [List.length_append, List.length_reverse] at hsize ⊢
  omega

/-- With enough rounds left the walk empties its stack. -/
theorem spreading_spread : ∀ (n : Nat) (stack found : List BlockId),
    r.Spreading start stack found → stack.length + (r.size - found.length) ≤ n →
    r.Spreading start [] (r.spread start n stack found)
  | 0, stack, found, h, hn => by
    have hempty : stack = [] := List.length_eq_zero_iff.1 (by omega)
    subst hempty
    exact h
  | n + 1, [], found, h, _ => h
  | n + 1, id :: stack, found, h, hn => by
    obtain ⟨stack', found', hfold, hstep, hless⟩ := h.round
    rw [List.length_cons] at hn
    rw [spread, hfold]
    exact spreading_spread n stack' found' hstep (by omega)

theorem spreading_descendants (r : Registry) (id : BlockId) :
    r.Spreading id [] (r.descendants id) :=
  spreading_spread (r.size + 1) [id] [] .initial (by simp; omega)

/-- The descendants of a block are the other blocks that are reached from it through live
children. -/
theorem mem_descendants_iff :
    x ∈ r.descendants id ↔ x ≠ id ∧ Relation.ReflTransGen r.LiveChild id x := by
  have h := spreading_descendants r id
  constructor
  · intro hx
    exact ⟨fun he => h.fresh (he ▸ hx), h.reached x hx⟩
  · rintro ⟨hne, hx⟩
    have hknown : x ∈ id :: r.descendants id := by
      clear hne
      induction hx with
      | refl => exact List.mem_cons_self ..
      | tail _ hc ih => exact h.noted _ ih List.not_mem_nil _ hc
    exact (List.mem_cons.1 hknown).resolve_left hne

/-- In a well-formed registry the descendants of a block are what is below it. -/
theorem WellFormed.mem_descendants_iff (wf : r.WellFormed) :
    x ∈ r.descendants id ↔ r.Below x id := by
  have hchild : r.LiveChild = Function.swap r.Under := by
    funext p c
    refine propext ⟨fun hc => wf.mem_childrenOf_iff.1 hc.1, fun hc => ?_⟩
    exact ⟨wf.mem_childrenOf_iff.2 hc, Under.contains hc⟩
  rw [Registry.mem_descendants_iff, hchild, Relation.reflTransGen_swap,
    Relation.reflTransGen_iff_eq_or_transGen]
  constructor
  · rintro ⟨hne, rfl | hx⟩
    · exact absurd rfl hne
    · exact hx
  · intro hx
    refine ⟨?_, .inr hx⟩
    rintro rfl
    exact wf.acyclic x hx

end Blockwork.Registry
