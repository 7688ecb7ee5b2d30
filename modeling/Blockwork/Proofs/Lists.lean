import Blockwork.Proofs.Steps

/-!
# Lists

What is true of all lists: steps that are taken for one item after the other, the first hit
in a list, and sorting.
-/

namespace Blockwork

variable {ε α β γ : Type}

/-! ## A step for every item -/

theorem mapM_isSome_iff {f : α → Option β} {l : List α} :
    (l.mapM f).isSome = true ↔ ∀ a ∈ l, (f a).isSome = true := by
  induction l with
  | nil => simp
  | cons a l ih =>
    rw [List.mapM_cons, List.forall_mem_cons, ← ih]
    cases f a with
    | none => simp
    | some b => cases l.mapM f <;> simp

theorem mapM_eq_map {f : α → Except ε β} {g : α → β} {l : List α}
    (h : ∀ a ∈ l, f a = .ok (g a)) : l.mapM f = .ok (l.map g) := by
  induction l with
  | nil => rfl
  | cons a l ih =>
    obtain ⟨ha, hl⟩ := List.forall_mem_cons.1 h
    rw [List.mapM_cons, ha, ih hl]
    rfl

/-- What works out for every item in one way works out for all of them in another, if that
does what the first does. -/
theorem mapM_ok_mono {f g : α → Except ε β} :
    ∀ {xs : List α} {ys : List β}, (∀ x ∈ xs, ∀ y, f x = .ok y → g x = .ok y) →
      xs.mapM f = .ok ys → xs.mapM g = .ok ys
  | [], _, _, h => h
  | x :: xs, ys, hfg, h => by
    rw [List.mapM_cons] at h ⊢
    obtain ⟨y, hy, h⟩ := except_bind_eq_ok.1 h
    obtain ⟨zs, hzs, h⟩ := except_bind_eq_ok.1 h
    have hx := hfg x (List.mem_cons_self ..) y hy
    have hxs := mapM_ok_mono (fun x hx => hfg x (List.mem_cons_of_mem _ hx)) hzs
    exact except_bind_eq_ok.2 ⟨y, hx, except_bind_eq_ok.2 ⟨zs, hxs, h⟩⟩

/-! ## The first hit -/

theorem findSome?_map_of_mem {f : α → Option β} {g : α → Option γ} {k : γ → β}
    {l : List α} (h : ∀ a ∈ l, f a = (g a).map k) : l.findSome? f = (l.findSome? g).map k := by
  induction l with
  | nil => rfl
  | cons a l ih =>
    have hrest := ih fun x hx => h x (List.mem_cons_of_mem a hx)
    rw [List.findSome?_cons, List.findSome?_cons, h a (List.mem_cons_self ..)]
    cases g a with
    | none => exact hrest
    | some b => rfl

/-! ## Stable sorting -/

/-- Sorting leaves items in their order that are sorted already. -/
theorem filter_mergeSort {le : α → α → Bool}
    (htrans : ∀ a b c, le a b → le b c → le a c) (htotal : ∀ a b, le a b || le b a)
    {l : List α} {p : α → Bool} (h : (l.filter p).Pairwise fun a b => le a b) :
    (l.mergeSort le).filter p = l.filter p := by
  have hsub : (l.filter p).Sublist (l.mergeSort le) :=
    List.sublist_mergeSort htrans htotal h List.filter_sublist
  have hsub := hsub.filter p
  rw [List.filter_filter] at hsub
  simp only [Bool.and_self] at hsub
  have hlength := ((List.mergeSort_perm l le).filter p).length_eq
  exact (hsub.eq_of_length hlength.symm).symm

end Blockwork
