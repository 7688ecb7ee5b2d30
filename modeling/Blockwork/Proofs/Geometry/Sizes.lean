import Blockwork.Geometry.Estimated
import Blockwork.Proofs.Lists
import Blockwork.Proofs.Registry.Edit

/-!
# Sizes

The layout remembers the sizes that it has worked out.  What it has to work out is the size
of a block when nothing is remembered, which `freshSizeWithin` says, following a number of
levels of bodies.  A size that is found stays
the same when more levels are followed, so a block has at most one size, and in a
well-formed registry, where depth grows from level to level, every live block has
one.

The size of a block depends on nothing but the labels, kinds and bodies at or below
it.  An edit that changes no body at or below a block leaves its size alone.
-/

namespace Blockwork.EstimatedLayout

variable {r r' : Registry} {id c : BlockId} {e e' : Extent} {h h' : Nat}

/-! ## Sizes without memory -/

/-- The height of a stack of blocks, given how to find their sizes. -/
def freshBodyBy (r : Registry) (size : BlockId → Except Fault Extent) (nested : List BlockId) :
    Except Fault Nat := do
  let extents ← (nested.filter r.contains).mapM size
  return stackHeight (extents.map Extent.height)

/-- The size of a block, given how to find the height of its stack. -/
def freshSizeBy (r : Registry) (body : List BlockId → Except Fault Nat) (id : BlockId) :
    Except Fault Extent := do
  let b ← r.require id
  let height ←
    if b.kind.hasBody then (body b.nested).map (bodyOffset + ·) else .ok (plainHeight b.kind)
  return ⟨labelWidth b.label, height⟩

/-- The size of a block when nothing is remembered, following `n` levels of
bodies. -/
def freshSizeWithin (r : Registry) : Nat → BlockId → Except Fault Extent
  | 0 => freshSizeBy r fun _ => .error (.breakdown .endless)
  | n + 1 => freshSizeBy r (freshBodyBy r (freshSizeWithin r n))

/-! ## Sizes by levels -/

/-- A block has a size, found by following enough levels. -/
def Sized (r : Registry) (id : BlockId) (e : Extent) : Prop :=
  ∃ n, freshSizeWithin r n id = .ok e

/-- The body of a block has a height, found by following enough levels. -/
def Stacked (r : Registry) (id : BlockId) (h : Nat) : Prop :=
  ∃ n b, r.get? id = some b ∧ freshBodyBy r (freshSizeWithin r n) b.nested = .ok h

theorem freshBodyBy_mono {f g : BlockId → Except Fault Extent} {nested : List BlockId}
    (hfg : ∀ c e, f c = .ok e → g c = .ok e) (hf : freshBodyBy r f nested = .ok h) :
    freshBodyBy r g nested = .ok h := by
  obtain ⟨es, hes, hn⟩ := except_bind_eq_ok.1 hf
  exact except_bind_eq_ok.2 ⟨es, mapM_ok_mono (fun c _ e => hfg c e) hes, hn⟩

/-- The size of a block by the height of its stack, if it has a body. -/
theorem freshSizeBy_ok_iff {body : List BlockId → Except Fault Nat} :
    freshSizeBy r body id = .ok e ↔ ∃ b, r.get? id = some b ∧
      ((b.kind.hasBody = true ∧ ∃ h, body b.nested = .ok h ∧
          e = ⟨labelWidth b.label, bodyOffset + h⟩) ∨
        (b.kind.hasBody = false ∧ e = ⟨labelWidth b.label, plainHeight b.kind⟩)) := by
  unfold freshSizeBy
  simp only [except_bind_eq_ok, Registry.require_ok_iff]
  refine exists_congr fun b => and_congr_right fun _ => ?_
  cases hk : b.kind.hasBody with
  | false =>
    simp only [Bool.false_eq_true, false_and, if_false, true_and, false_or]
    exact ⟨fun he => (Except.ok.inj he).symm, fun he => congrArg _ he.symm⟩
  | true =>
    simp only [if_true, true_and, Bool.true_eq_false, false_and, or_false]
    cases body b.nested with
    | error f => simp [Except.map]
    | ok n =>
      constructor
      · intro he
        exact ⟨n, rfl, (Except.ok.inj he).symm⟩
      · rintro ⟨m, hm, rfl⟩
        cases hm
        rfl

/-- One more level does not change a size that was found. -/
theorem freshSizeWithin_succ : ∀ (n : Nat) (id : BlockId) (e : Extent),
    freshSizeWithin r n id = .ok e → freshSizeWithin r (n + 1) id = .ok e
  | 0, id, e, hn => by
    obtain ⟨b, hb, ⟨-, h, hbody, -⟩ | hplain⟩ := freshSizeBy_ok_iff.1 hn
    · cases hbody
    · exact freshSizeBy_ok_iff.2 ⟨b, hb, .inr hplain⟩
  | n + 1, id, e, hn => by
    obtain ⟨b, hb, ⟨hk, h, hbody, he⟩ | hplain⟩ := freshSizeBy_ok_iff.1 hn
    · have hbody' := freshBodyBy_mono (freshSizeWithin_succ n) hbody
      exact freshSizeBy_ok_iff.2 ⟨b, hb, .inl ⟨hk, h, hbody', he⟩⟩
    · exact freshSizeBy_ok_iff.2 ⟨b, hb, .inr hplain⟩

theorem freshSizeWithin_le {n m : Nat} (hnm : n ≤ m) (hn : freshSizeWithin r n id = .ok e) :
    freshSizeWithin r m id = .ok e := by
  induction hnm with
  | refl => exact hn
  | step _ ih => exact freshSizeWithin_succ _ _ _ ih

/-- What has a size is live. -/
theorem Sized.live (hs : Sized r id e) : r.contains id = true := by
  obtain ⟨n, hn⟩ := hs
  cases n <;> obtain ⟨b, hb, -⟩ := freshSizeBy_ok_iff.1 hn <;> exact Registry.contains_of_get? hb

theorem Stacked.live (hs : Stacked r id h) : r.contains id = true := by
  obtain ⟨n, b, hb, -⟩ := hs
  exact Registry.contains_of_get? hb

/-- A block has one size. -/
theorem Sized.unique (h : Sized r id e) (h' : Sized r id e') : e = e' := by
  obtain ⟨n, hn⟩ := h
  obtain ⟨m, hm⟩ := h'
  have hn := freshSizeWithin_le (Nat.le_max_left n m) hn
  have hm := freshSizeWithin_le (Nat.le_max_right n m) hm
  exact Except.ok.inj (hn.symm.trans hm)

/-- A body has one height. -/
theorem Stacked.unique (hs : Stacked r id h) (hs' : Stacked r id h') : h = h' := by
  obtain ⟨n, b, hb, hn⟩ := hs
  obtain ⟨m, c, hc, hm⟩ := hs'
  cases hb.symm.trans hc
  have hn := freshBodyBy_mono (fun _ _ => freshSizeWithin_le (Nat.le_max_left n m)) hn
  have hm := freshBodyBy_mono (fun _ _ => freshSizeWithin_le (Nat.le_max_right n m)) hm
  exact Except.ok.inj (hn.symm.trans hm)

/-- A block without a body has the size of its label. -/
theorem sized_plain {b : Block} (hb : r.get? id = some b) (hk : b.kind.hasBody = false) :
    Sized r id ⟨labelWidth b.label, plainHeight b.kind⟩ :=
  ⟨0, freshSizeBy_ok_iff.2 ⟨b, hb, .inr ⟨hk, rfl⟩⟩⟩

/-- The size of a block with a body follows from the height of its body. -/
theorem Stacked.sized {b : Block} (hb : r.get? id = some b) (hk : b.kind.hasBody = true)
    (hs : Stacked r id h) : Sized r id ⟨labelWidth b.label, bodyOffset + h⟩ := by
  obtain ⟨n, c, hc, hn⟩ := hs
  cases hb.symm.trans hc
  exact ⟨n + 1, freshSizeBy_ok_iff.2 ⟨b, hb, .inl ⟨hk, h, hn, rfl⟩⟩⟩

/-- The height of a body follows from the sizes of the live blocks in it. -/
theorem stacked_of_sized {b : Block} {es : List Extent} (hb : r.get? id = some b)
    (hs : List.Forall₂ (Sized r) (b.nested.filter r.contains) es) :
    Stacked r id (stackHeight (es.map Extent.height)) := by
  have hn : ∃ n, (b.nested.filter r.contains).mapM (freshSizeWithin r n) = .ok es := by
    generalize b.nested.filter r.contains = cs at hs
    induction hs with
    | nil => exact ⟨0, rfl⟩
    | @cons c e cs es hc _ ih =>
      obtain ⟨n, hn⟩ := hc
      obtain ⟨m, hm⟩ := ih
      refine ⟨max n m, ?_⟩
      rw [List.mapM_cons, freshSizeWithin_le (Nat.le_max_left n m) hn]
      have hm := mapM_ok_mono (fun _ _ _ => freshSizeWithin_le (Nat.le_max_right n m)) hm
      exact except_bind_eq_ok.2 ⟨e, rfl, except_bind_eq_ok.2 ⟨es, hm, rfl⟩⟩
  obtain ⟨n, hn⟩ := hn
  exact ⟨n, b, hb, except_bind_eq_ok.2 ⟨es, hn, rfl⟩⟩

/-! ## What a size depends on -/

/-- Blocks, with everything in their bodies, whose labels, kinds and bodies are the
same in two registries. -/
structure SameBelow (r r' : Registry) (D : BlockId → Prop) : Prop where
  /-- The blocks are the same. -/
  same : ∀ x, D x → ∃ b c, r.get? x = some b ∧ r'.get? x = some c ∧
    c.label = b.label ∧ c.kind = b.kind ∧ c.nested = b.nested
  /-- What is in their bodies is among them. -/
  down : ∀ x b, D x → r.get? x = some b → ∀ c ∈ b.nested, D c

variable {D : BlockId → Prop}

theorem freshBodyBy_kept (hD : SameBelow r r' D) {f g : BlockId → Except Fault Extent}
    (hfg : ∀ c e, D c → f c = .ok e → g c = .ok e) {x : BlockId} {b : Block} (hx : D x)
    (hb : r.get? x = some b) (hf : freshBodyBy r f b.nested = .ok h) :
    freshBodyBy r' g b.nested = .ok h := by
  have hfilter : b.nested.filter r.contains = b.nested.filter r'.contains := by
    refine List.filter_congr fun c hc => ?_
    obtain ⟨d, d', hd, hd', -⟩ := hD.same c (hD.down x b hx hb c hc)
    rw [Registry.contains_of_get? hd, Registry.contains_of_get? hd']
  obtain ⟨es, hes, hn⟩ := except_bind_eq_ok.1 hf
  rw [hfilter] at hes
  refine except_bind_eq_ok.2 ⟨es, mapM_ok_mono (fun c hc e => hfg c e ?_) hes, hn⟩
  exact hD.down x b hx hb c (List.mem_of_mem_filter hc)

theorem freshSizeWithin_kept (hD : SameBelow r r' D) : ∀ (n : Nat) (id : BlockId) (e : Extent),
    D id → freshSizeWithin r n id = .ok e → freshSizeWithin r' n id = .ok e
  | 0, id, e, hid, hn => by
    obtain ⟨b, c, hb, hc, hlabel, hkind, -⟩ := hD.same id hid
    obtain ⟨b', hb', ⟨-, h, hbody, -⟩ | ⟨hk, he⟩⟩ := freshSizeBy_ok_iff.1 hn
    · cases hbody
    · cases hb.symm.trans hb'
      exact freshSizeBy_ok_iff.2 ⟨c, hc, .inr ⟨hkind ▸ hk, by rw [he, hlabel, hkind]⟩⟩
  | n + 1, id, e, hid, hn => by
    obtain ⟨b, c, hb, hc, hlabel, hkind, hnested⟩ := hD.same id hid
    obtain ⟨b', hb', ⟨hk, h, hbody, he⟩ | ⟨hk, he⟩⟩ := freshSizeBy_ok_iff.1 hn
    · cases hb.symm.trans hb'
      have hbody := freshBodyBy_kept hD (freshSizeWithin_kept hD n) hid hb hbody
      rw [← hnested] at hbody
      exact freshSizeBy_ok_iff.2 ⟨c, hc, .inl ⟨hkind ▸ hk, h, hbody, by rw [he, hlabel]⟩⟩
    · cases hb.symm.trans hb'
      exact freshSizeBy_ok_iff.2 ⟨c, hc, .inr ⟨hkind ▸ hk, by rw [he, hlabel, hkind]⟩⟩

theorem Sized.kept (hD : SameBelow r r' D) (hid : D id) (h : Sized r id e) : Sized r' id e := by
  obtain ⟨n, hn⟩ := h
  exact ⟨n, freshSizeWithin_kept hD n id e hid hn⟩

theorem Stacked.kept (hD : SameBelow r r' D) (hid : D id) (hs : Stacked r id h) :
    Stacked r' id h := by
  obtain ⟨n, b, hb, hn⟩ := hs
  obtain ⟨b', c, hb', hc, -, -, hnested⟩ := hD.same id hid
  cases hb.symm.trans hb'
  refine ⟨n, c, hc, ?_⟩
  rw [hnested]
  exact freshBodyBy_kept hD (freshSizeWithin_kept hD n) hid hb hn

/-- What an edit leaves the same: the blocks that are live before and after, and have
no changed block at or below them. -/
theorem sameBelow_of_edit {changed gone : List BlockId} (wf : r.WellFormed)
    (hedit : r.Edit r' changed gone) :
    SameBelow r r' fun x => r.contains x = true ∧ r'.contains x = true ∧
      ∀ y, Relation.ReflTransGen r'.Under y x → y ∉ changed := by
  have hsame (x : BlockId) (h : r.contains x = true ∧ r'.contains x = true ∧
      ∀ y, Relation.ReflTransGen r'.Under y x → y ∉ changed) :
      ∃ b c, r.get? x = some b ∧ r'.get? x = some c ∧
        c.label = b.label ∧ c.kind = b.kind ∧ c.nested = b.nested := by
    obtain ⟨hx, hx', hbelow⟩ := h
    obtain ⟨b, hb⟩ := Registry.contains_iff.1 hx
    obtain ⟨c, hc⟩ := Registry.contains_iff.1 hx'
    exact ⟨b, c, hb, hc, hedit.kept (hbelow x .refl) hb hc⟩
  refine ⟨hsame, fun x b h hb c hc => ?_⟩
  obtain ⟨b₁, b', hb₁, hb', -, -, hnested⟩ := hsame x h
  cases hb.symm.trans hb₁
  have hunder : r'.Under c x := (wf.edit hedit).under_of_mem_nested hb' (hnested ▸ hc)
  exact ⟨(wf.under_of_mem_nested hb hc).contains, hunder.contains,
    fun y hy => h.2.2 y (hy.tail hunder)⟩

end Blockwork.EstimatedLayout
