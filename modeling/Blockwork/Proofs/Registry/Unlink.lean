import Blockwork.Proofs.Registry.Link

/-!
# Unlinking, and changes that touch no edge

Unlinking takes the edge to a block away on both sides and gives the block a
position.  Nothing else changes, so what places hold is what they held without
that block.

A change that keeps the kind of every block, its edges and the names of its inputs
keeps a registry well formed.
-/

namespace Blockwork.Registry

variable {r r' : Registry} {child p x y : BlockId} {holder place : Parent} {position : Point}

/-! ## What unlinking does to a block -/

/-- The slots of a block when the edge to a child is gone. -/
def slotsUnlinked (child id : BlockId) (slots : List (String × Slot)) :
    Parent → List (String × Slot)
  | .input holder slot =>
      if id = holder then
        Table.modify slots slot fun s =>
          if s.child = some child then { s with child := none } else s
      else slots
  | _ => slots

/-- A block when the edge to a child is gone. -/
def unlinked (child : BlockId) (holder : Parent) (position : Point) (id : BlockId) (b : Block) :
    Block :=
  { b with
    slots := slotsUnlinked child id b.slots holder
    nested := if holder = .container id then b.nested.filter (· ≠ child) else b.nested
    parent := if id = child then .none else b.parent
    position := if id = child then position else b.position }

@[simp] theorem get?_unlink : (r.unlink child holder position).get? x =
    (r.get? x).map (unlinked child holder position x) := by
  cases holder with
  | none =>
    simp only [unlink, dropEdge, get?_modify]
    refine congrArg (fun f => (r.get? x).map f) (funext fun b => ?_)
    rcases eq_or_ne x child with rfl | hx <;> simp [unlinked, slotsUnlinked, *]
  | container c =>
    simp only [unlink, dropEdge, get?_modify, Option.map_map]
    refine congrArg (fun f => (r.get? x).map f) (funext fun b => ?_)
    rcases eq_or_ne x c with rfl | hc <;> rcases eq_or_ne x child with rfl | hx <;>
      simp [unlinked, slotsUnlinked, *, Ne.symm]
  | input c slot =>
    simp only [unlink, dropEdge, get?_modify, Option.map_map]
    refine congrArg (fun f => (r.get? x).map f) (funext fun b => ?_)
    rcases eq_or_ne x c with rfl | hc <;> rcases eq_or_ne x child with rfl | hx <;>
      simp [unlinked, slotsUnlinked, Block.modifySlot, *]

theorem exists_of_get?_unlink {c : Block}
    (hc : (r.unlink child holder position).get? x = some c) :
    ∃ b, r.get? x = some b ∧ unlinked child holder position x b = c := by
  rw [get?_unlink] at hc
  exact Option.map_eq_some_iff.1 hc

@[simp] theorem contains_unlink : (r.unlink child holder position).contains x = r.contains x := by
  simp [contains]

@[simp] theorem names_slotsUnlinked {id : BlockId} (slots : List (String × Slot)) :
    Table.names (slotsUnlinked child id slots holder) = Table.names slots := by
  cases holder with
  | none => rfl
  | container c => rfl
  | input c slot =>
    rw [slotsUnlinked]
    split <;> simp

@[simp] theorem childAt?_unlinked {id : BlockId} {b : Block} {slot : String} :
    (unlinked child holder position id b).childAt? slot =
      if holder = .input id slot ∧ b.childAt? slot = some child then none else b.childAt? slot := by
  rw [Block.childAt?, Block.slot?, unlinked]
  cases holder with
  | none => simp [slotsUnlinked, Block.childAt?, Block.slot?]
  | container c => simp [slotsUnlinked, Block.childAt?, Block.slot?]
  | input c name =>
    rcases eq_or_ne id c with rfl | hc
    · simp only [slotsUnlinked, if_true, Table.lookup_modify, Parent.input.injEq, true_and,
        Block.childAt?, Block.slot?]
      rcases eq_or_ne slot name with rfl | hn
      · cases b.slots.lookup slot with
        | none => simp
        | some s => by_cases hs : s.child = some child <;> simp [hs]
      · simp [hn, hn.symm]
    · simp [slotsUnlinked, hc, hc.symm, Block.childAt?, Block.slot?]

@[simp] theorem parent?_unlink (hc : r.contains child = true) :
    (r.unlink child holder position).parent? x =
      if x = child then some .none else r.parent? x := by
  rw [parent?, get?_unlink, Option.map_map, parent?]
  rcases eq_or_ne x child with rfl | hx
  · obtain ⟨b, hb⟩ := contains_iff.1 hc
    simp [hb, unlinked]
  · rw [if_neg hx]
    cases r.get? x <;> simp [unlinked, hx]

/-- When a block is unlinked from where it lives, it is held nowhere. -/
theorem holds_unlink (wf : r.WellFormed) (h : r.parent? child = some holder) :
    (r.unlink child holder position).Holds place x ↔ r.Holds place x ∧ x ≠ child := by
  have hplace (hh : r.Holds place child) : holder = place :=
    Option.some.inj (h.symm.trans (wf.confirmed hh))
  cases place with
  | none => simp [Holds]
  | container c =>
    simp only [Holds, get?_unlink, Option.map_eq_some_iff]
    constructor
    · rintro ⟨_, ⟨b, hb, rfl⟩, hx⟩
      simp only [unlinked] at hx
      split at hx
      · have hm := List.mem_filter.1 hx
        exact ⟨⟨b, hb, hm.1⟩, by simpa using hm.2⟩
      · next hne =>
        refine ⟨⟨b, hb, hx⟩, ?_⟩
        rintro rfl
        exact hne (hplace ⟨b, hb, hx⟩)
    · rintro ⟨⟨b, hb, hx⟩, hne⟩
      refine ⟨_, ⟨b, hb, rfl⟩, ?_⟩
      simp only [unlinked]
      split
      · exact List.mem_filter.2 ⟨hx, by simpa using hne⟩
      · exact hx
  | input c slot =>
    simp only [Holds, get?_unlink, Option.map_eq_some_iff]
    constructor
    · rintro ⟨_, ⟨b, hb, rfl⟩, hx⟩
      rw [childAt?_unlinked] at hx
      split at hx
      · cases hx
      · next hne =>
        refine ⟨⟨b, hb, hx⟩, ?_⟩
        rintro rfl
        exact hne ⟨hplace ⟨b, hb, hx⟩, hx⟩
    · rintro ⟨⟨b, hb, hx⟩, hne⟩
      refine ⟨_, ⟨b, hb, rfl⟩, ?_⟩
      rw [childAt?_unlinked, if_neg fun hc => hne (Option.some.inj (hx.symm.trans hc.2))]
      exact hx

theorem under_unlink (hc : r.contains child = true) :
    (r.unlink child holder position).Under x p ↔ r.Under x p ∧ x ≠ child := by
  simp only [under_iff, parent?_unlink hc]
  by_cases hx : x = child <;> simp [hx, Parent.id?]

/-- Taking a block out of its place keeps a registry well formed. -/
theorem WellFormed.unlink (wf : r.WellFormed) (h : r.parent? child = some holder) :
    (r.unlink child holder position).WellFormed where
  named hc := by
    obtain ⟨b, hb, -⟩ := exists_of_get?_unlink hc
    exact wf.named hb
  slots_nodup hc := by
    obtain ⟨b, hb, rfl⟩ := exists_of_get?_unlink hc
    exact (names_slotsUnlinked b.slots).symm ▸ wf.slots_nodup hb
  nested_nodup hc := by
    obtain ⟨b, hb, rfl⟩ := exists_of_get?_unlink hc
    simp only [unlinked]
    split
    · exact (wf.nested_nodup hb).filter _
    · exact wf.nested_nodup hb
  confirmed hh := by
    obtain ⟨hh, hx⟩ := (holds_unlink wf h).1 hh
    rw [parent?_unlink (contains_of_parent? h), if_neg hx]
    exact wf.confirmed hh
  held hp hne := by
    rw [parent?_unlink (contains_of_parent? h)] at hp
    split at hp
    · exact absurd (Option.some.inj hp).symm hne
    · next hx => exact (holds_unlink wf h).2 ⟨wf.held hp hne, hx⟩
  hasBody hc hn := by
    obtain ⟨b, hb, rfl⟩ := exists_of_get?_unlink hc
    have hne : b.nested ≠ [] := by
      rintro he
      simp [unlinked, he] at hn
    have hk := wf.hasBody hb hne
    exact hk
  fitsInput hh hc := by
    obtain ⟨b, hb, rfl⟩ := exists_of_get?_unlink hc
    have hk := wf.fitsInput ((holds_unlink wf h).1 hh).1 hb
    exact hk
  acyclic x hb :=
    wf.acyclic x (hb.mono fun hu => ((under_unlink (contains_of_parent? h)).1 hu).1)

/-! ## Changes that touch no edge -/

/-- Two blocks of one label, kind and body placeholder with the same edges and inputs of
the same names. -/
structure Alike (b c : Block) : Prop where
  label : c.label = b.label
  kind : c.kind = b.kind
  containerVar : c.containerVar = b.containerVar
  nested : c.nested = b.nested
  parent : c.parent = b.parent
  names : Table.names c.slots = Table.names b.slots
  child : ∀ slot, c.childAt? slot = b.childAt? slot

/-- A registry whose blocks are alike is well formed as well. -/
theorem WellFormed.of_alike (wf : r.WellFormed) {f : BlockId → Block → Block}
    (hf : ∀ x b, Alike b (f x b)) (hg : ∀ x, r'.get? x = (r.get? x).map (f x)) :
    r'.WellFormed := by
  have hget {x : BlockId} {c : Block} (h : r'.get? x = some c) :
      ∃ b, r.get? x = some b ∧ Alike b c := by
    rw [hg, Option.map_eq_some_iff] at h
    obtain ⟨b, hb, rfl⟩ := h
    exact ⟨b, hb, hf x b⟩
  have hparent (x : BlockId) : r'.parent? x = r.parent? x := by
    rw [parent?, hg, Option.map_map, parent?]
    exact congrArg (fun f => (r.get? x).map f) (funext fun b => (hf x b).parent)
  have hholds (place : Parent) (x : BlockId) : r'.Holds place x ↔ r.Holds place x := by
    cases place with
    | none => exact Iff.rfl
    | container c => simp [Holds, hg, (hf c _).nested]
    | input c slot => simp [Holds, hg, (hf c _).child]
  have hunder (x p : BlockId) : r'.Under x p ↔ r.Under x p := by
    simp only [under_iff, hparent]
  exact {
    named := fun h => by
      obtain ⟨b, hb, -⟩ := hget h
      exact wf.named hb
    slots_nodup := fun h => by
      obtain ⟨b, hb, ha⟩ := hget h
      exact ha.names ▸ wf.slots_nodup hb
    nested_nodup := fun h => by
      obtain ⟨b, hb, ha⟩ := hget h
      exact ha.nested ▸ wf.nested_nodup hb
    confirmed := fun h => by
      rw [hparent]
      exact wf.confirmed ((hholds _ _).1 h)
    held := fun h hne => by
      rw [hparent] at h
      exact (hholds _ _).2 (wf.held h hne)
    hasBody := fun h hn => by
      obtain ⟨b, hb, ha⟩ := hget h
      rw [ha.kind]
      exact wf.hasBody hb (ha.nested ▸ hn)
    fitsInput := fun h hc => by
      obtain ⟨b, hb, ha⟩ := hget hc
      rw [ha.kind]
      exact wf.fitsInput ((hholds _ _).1 h) hb
    acyclic := fun x hb => wf.acyclic x (hb.mono (hunder _ _).1) }

theorem Alike.refl (b : Block) : Alike b b := ⟨rfl, rfl, rfl, rfl, rfl, rfl, fun _ => rfl⟩

theorem Alike.trans {b c d : Block} (h : Alike b c) (h' : Alike c d) : Alike b d where
  label := h'.label.trans h.label
  kind := h'.kind.trans h.kind
  containerVar := h'.containerVar.trans h.containerVar
  nested := h'.nested.trans h.nested
  parent := h'.parent.trans h.parent
  names := h'.names.trans h.names
  child slot := (h'.child slot).trans (h.child slot)

theorem WellFormed.modify (wf : r.WellFormed) {id : BlockId} {f : Block → Block}
    (hf : ∀ b, Alike b (f b)) : (r.modify id f).WellFormed := by
  refine wf.of_alike (f := fun x b => if x = id then f b else b) (fun x b => ?_)
    (get?_modify r id · f)
  split
  · exact hf b
  · exact .refl b

theorem alike_place (position : Point) (b : Block) : Alike b { b with position } :=
  ⟨rfl, rfl, rfl, rfl, rfl, rfl, fun _ => rfl⟩

/-- Setting a literal text touches no edge. -/
theorem alike_setLiteral (name literal : String) (b : Block) :
    Alike b (b.modifySlot name fun s => { s with literal }) where
  label := rfl
  kind := rfl
  containerVar := rfl
  nested := rfl
  parent := rfl
  names := Table.names_modify ..
  child slot := by
    rw [Block.childAt?, Block.slot?_modifySlot, Block.childAt?]
    split
    · rw [Option.bind_map]
      rfl
    · rfl

end Blockwork.Registry
