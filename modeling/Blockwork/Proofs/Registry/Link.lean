import Blockwork.Proofs.Registry.AttachRules

/-!
# Linking and unlinking

Linking writes an edge down on both sides and unlinking takes it away on both
sides.  What that does to a block depends on its id alone (`get?_link`,
`get?_unlink`), and from that follow the effects on what places hold and on what
blocks refer to.  Both keep a registry well formed.

What is left of a block without its edges is its shell.  Linking touches no shell.
-/

namespace Blockwork

/-- A block without its edges. -/
def Block.shell (b : Block) : Block :=
  { b with
    slots := Table.mapValues b.slots fun s => { s with child := none }
    nested := []
    parent := .none }

theorem Table.mapValues_modify {α β : Type} {f : α → α} {g : α → β} (h : ∀ a, g (f a) = g a)
    (t : List (String × α)) (name : String) :
    mapValues (modify t name f) g = mapValues t g := by
  rw [mapValues, mapValues, modify, List.map_map]
  refine List.map_congr_left fun e _ => ?_
  by_cases he : e.1 = name <;> simp [modifyEntry, he, h]

namespace Registry

variable {r : Registry} {child id p x y : BlockId} {place : Parent} {position : Point}

/-! ## What linking does to a block -/

/-- The slots of a block behind a new edge. -/
def slotsLinked (child : BlockId) (id : BlockId) (slots : List (String × Slot)) :
    Parent → List (String × Slot)
  | .input holder slot =>
      if id = holder then Table.modify slots slot fun s => { s with child := some child } else slots
  | _ => slots

/-- A block behind a new edge. -/
def linked (child : BlockId) (place : Parent) (id : BlockId) (b : Block) : Block :=
  { b with
    slots := slotsLinked child id b.slots place
    nested := if place = .container id then b.nested ++ [child] else b.nested
    parent := if id = child then place else b.parent }

@[simp] theorem get?_link (h : place ≠ .none) :
    (r.link child place).get? x = (r.get? x).map (linked child place x) := by
  cases place with
  | none => exact absurd rfl h
  | container c =>
    simp only [link, linkBody, get?_modify, Option.map_map]
    refine congrArg (fun f => (r.get? x).map f) (funext fun b => ?_)
    rcases eq_or_ne x c with rfl | hc <;> rcases eq_or_ne x child with rfl | hx <;>
      simp [linked, slotsLinked, *, Ne.symm]
  | input c slot =>
    simp only [link, linkInput, get?_modify, Option.map_map]
    refine congrArg (fun f => (r.get? x).map f) (funext fun b => ?_)
    rcases eq_or_ne x c with rfl | hc <;> rcases eq_or_ne x child with rfl | hx <;>
      simp [linked, slotsLinked, Block.modifySlot, *]

theorem exists_of_get?_link (h : place ≠ .none) {c : Block}
    (hc : (r.link child place).get? x = some c) :
    ∃ b, r.get? x = some b ∧ linked child place x b = c := by
  rw [get?_link h] at hc
  exact Option.map_eq_some_iff.1 hc

@[simp] theorem ids_link : (r.link child place).ids = r.ids := by
  cases place with
  | none => rfl
  | container c => simp [link, linkBody]
  | input c slot => simp [link, linkInput]

@[simp] theorem contains_link : (r.link child place).contains x = r.contains x := by
  rw [Bool.eq_iff_iff, ← mem_ids_iff, ids_link, mem_ids_iff]

@[simp] theorem childAt?_linked {b : Block} {slot : String} :
    (linked child place id b).childAt? slot =
      if place = .input id slot then (b.slot? slot).map fun _ => child else b.childAt? slot := by
  rw [Block.childAt?, Block.slot?, linked]
  cases place with
  | none => simp [slotsLinked, Block.childAt?, Block.slot?]
  | container c => simp [slotsLinked, Block.childAt?, Block.slot?]
  | input c name =>
    by_cases hc : id = c
    · subst hc
      simp only [slotsLinked, if_true, Table.lookup_modify, Parent.input.injEq, true_and]
      by_cases hn : slot = name
      · subst hn
        simp only [if_true, Block.slot?]
        cases b.slots.lookup slot <;> rfl
      · rw [if_neg hn, if_neg (Ne.symm hn), Block.childAt?, Block.slot?]
    · have hne : Parent.input c name ≠ .input id slot := fun h => hc (Parent.input.inj h).1.symm
      rw [slotsLinked, if_neg hc, if_neg hne, Block.childAt?, Block.slot?]

@[simp] theorem names_slotsLinked (slots : List (String × Slot)) :
    Table.names (slotsLinked child id slots place) = Table.names slots := by
  cases place with
  | none => rfl
  | container c => rfl
  | input c slot =>
    rw [slotsLinked]
    split <;> simp

@[simp] theorem shell_linked (b : Block) : (linked child place id b).shell = b.shell := by
  have hs : Table.mapValues (slotsLinked child id b.slots place)
      (fun s => ({ s with child := none } : Slot)) =
      Table.mapValues b.slots fun s => { s with child := none } := by
    cases place with
    | none => rfl
    | container c => rfl
    | input c slot =>
      rw [slotsLinked]
      split
      · refine Table.mapValues_modify ?_ _ _
        exact fun _ => rfl
      · rfl
  simp only [Block.shell, linked, hs]

/-- Linking touches no shell. -/
theorem mapBlocks_shell_link : (r.link child place).mapBlocks Block.shell =
    r.mapBlocks Block.shell := by
  by_cases h : place = .none
  · rw [h]
    rfl
  · refine ext_get? ?_ fun x => ?_
    · simp
    · simp [h, Function.comp_def]

@[simp] theorem parent?_link (h : place ≠ .none) (hc : r.contains child = true) :
    (r.link child place).parent? x = if x = child then some place else r.parent? x := by
  rw [parent?, get?_link h, Option.map_map, parent?]
  by_cases hx : x = child
  · obtain ⟨b, hb⟩ := contains_iff.1 hc
    simp [hx, hb, linked]
  · rw [if_neg hx]
    cases r.get? x <;> simp [linked, hx]

theorem Admits.ne_none (h : r.Admits child place) : place ≠ .none := by
  rintro rfl
  exact h.room

theorem Admits.live (h : r.Admits child place) : r.contains child = true :=
  contains_of_parent? h.free

/-- In a well-formed registry an admitted block is held nowhere yet. -/
theorem WellFormed.not_holds (wf : r.WellFormed) (h : r.parent? child = some .none)
    (place : Parent) : ¬ r.Holds place child := by
  intro hh
  cases (wf.confirmed hh).symm.trans h
  exact hh

/-- An input that is admitted to is empty. -/
theorem WellFormed.slot_empty (wf : r.WellFormed) {slot : String}
    (h : r.Admits child (.input p slot)) :
    ∃ c s, r.get? p = some c ∧ c.slot? slot = some s ∧ s.child = none := by
  obtain ⟨-, c, s, -, -, hc, hs, hfree⟩ := h.room
  refine ⟨c, s, hc, hs, ?_⟩
  cases hch : s.child with
  | none => rfl
  | some other =>
    have hh : r.Holds (.input p slot) other :=
      ⟨c, hc, Block.childAt?_eq_some_iff.2 ⟨s, hs, hch⟩⟩
    exact absurd (hfree other hch (wf.contains_of_holds hh) ▸ hh) (wf.not_holds h.free _)

theorem holds_link (wf : r.WellFormed) (h : r.Admits child place) {place' : Parent} :
    (r.link child place).Holds place' x ↔ r.Holds place' x ∨ (place' = place ∧ x = child) := by
  cases place' with
  | none => simp [Holds, h.ne_none.symm]
  | container c =>
    simp only [Holds, get?_link h.ne_none, Option.map_eq_some_iff]
    constructor
    · rintro ⟨_, ⟨b, hb, rfl⟩, hx⟩
      by_cases hp : place = .container c
      · simp only [linked, hp, if_true, List.mem_append, List.mem_singleton] at hx
        exact hx.imp (fun hx => ⟨b, hb, hx⟩) fun hx => ⟨hp.symm, hx⟩
      · simp only [linked, if_neg hp] at hx
        exact .inl ⟨b, hb, hx⟩
    · rintro (⟨b, hb, hx⟩ | ⟨rfl, rfl⟩)
      · refine ⟨_, ⟨b, hb, rfl⟩, ?_⟩
        simp only [linked]
        split
        · exact List.mem_append_left _ hx
        · exact hx
      · obtain ⟨b, hb, -⟩ := h.room
        exact ⟨_, ⟨b, hb, rfl⟩, by simp [linked]⟩
  | input c slot =>
    simp only [Holds, get?_link h.ne_none, Option.map_eq_some_iff]
    by_cases hp : place = .input c slot
    · subst hp
      obtain ⟨b, s, hb, hs, hempty⟩ := wf.slot_empty h
      have hold : b.childAt? slot = none := by rw [Block.childAt?, hs, Option.bind_some, hempty]
      have hnew : (linked child (.input c slot) c b).childAt? slot = some child := by simp [hs]
      simp only [hb, Option.some.injEq, exists_eq_left', hold, hnew]
      simp [eq_comm]
    · have hsame (b : Block) : (linked child place c b).childAt? slot = b.childAt? slot := by
        simp [hp]
      constructor
      · rintro ⟨_, ⟨b, hb, rfl⟩, hx⟩
        exact .inl ⟨b, hb, hsame b ▸ hx⟩
      · rintro (⟨b, hb, hx⟩ | ⟨he, -⟩)
        · exact ⟨_, ⟨b, hb, rfl⟩, (hsame b).symm ▸ hx⟩
        · exact absurd he.symm hp

/-! ## Linking keeps a registry well formed -/

theorem under_link (h : r.Admits child place) :
    (r.link child place).Under x p ↔ r.Under x p ∨ (x = child ∧ place.id? = some p) := by
  simp only [under_iff, parent?_link h.ne_none h.live]
  by_cases hx : x = child
  · subst hx
    simp [h.free, Parent.id?]
  · simp [hx]

/-- Whatever is above a block behind a new edge was above it before, or the climb
passes through the edge. -/
theorem below_link (h : r.Admits child place) (hp : place.id? = some p)
    (hb : (r.link child place).Below x y) :
    r.Below x y ∨
      (Relation.ReflTransGen r.Under x child ∧ Relation.ReflTransGen r.Under p y) := by
  induction hb with
  | single hu =>
    rcases (under_link h).1 hu with hu | ⟨rfl, hq⟩
    · exact .inl (.single hu)
    · cases hp.symm.trans hq
      exact .inr ⟨.refl, .refl⟩
  | tail _ hu ih =>
    rcases (under_link h).1 hu with hu | ⟨rfl, hq⟩
    · exact ih.imp (fun hxz => hxz.tail hu) fun hxz => ⟨hxz.1, hxz.2.tail hu⟩
    · cases hp.symm.trans hq
      refine .inr ⟨?_, .refl⟩
      exact ih.elim (fun hxz => hxz.to_reflTransGen) fun hxz => hxz.1

/-- What was above a block stays above it. -/
theorem Below.link (h : r.Admits child place) (hb : r.Below x y) :
    (r.link child place).Below x y :=
  hb.mono fun hu => (under_link h).2 (.inl hu)

theorem WellFormed.not_below_of_outside (wf : r.WellFormed) (h : r.Outside child p) :
    ¬ Relation.ReflTransGen r.Under p child := by
  intro hb
  rcases Relation.reflTransGen_iff_eq_or_transGen.1 hb with he | hb
  · exact h.1 he.symm
  · exact h.2 (wf.mem_ancestors_iff.2 hb)

/-- A new edge that the rules allow keeps a registry well formed. -/
theorem WellFormed.link (wf : r.WellFormed) (h : r.Admits child place) :
    (r.link child place).WellFormed where
  named hc := by
    obtain ⟨b, hb, -⟩ := exists_of_get?_link h.ne_none hc
    exact wf.named hb
  slots_nodup hc := by
    obtain ⟨b, hb, rfl⟩ := exists_of_get?_link h.ne_none hc
    exact (names_slotsLinked b.slots).symm ▸ wf.slots_nodup hb
  nested_nodup {id _} hc := by
    obtain ⟨b, hb, rfl⟩ := exists_of_get?_link h.ne_none hc
    simp only [linked]
    split
    · have hnew : child ∉ b.nested := fun hm =>
        wf.not_holds h.free (.container id) ⟨b, hb, hm⟩
      exact List.nodup_append.2 ⟨wf.nested_nodup hb, List.nodup_singleton _,
        fun a ha c hc he => hnew (List.mem_singleton.1 hc ▸ he ▸ ha)⟩
    · exact wf.nested_nodup hb
  confirmed {place' x} hh := by
    rw [parent?_link h.ne_none h.live]
    rcases (holds_link wf h).1 hh with hold | ⟨rfl, rfl⟩
    · have hx : x ≠ child := by
        rintro rfl
        exact wf.not_holds h.free place' hold
      rw [if_neg hx]
      exact wf.confirmed hold
    · rw [if_pos rfl]
  held {place' x} hp hne := by
    rw [parent?_link h.ne_none h.live] at hp
    refine (holds_link wf h).2 ?_
    split at hp
    · next hx => exact .inr ⟨(Option.some.inj hp).symm, hx⟩
    · exact .inl (wf.held hp hne)
  hasBody {id _} hc hn := by
    obtain ⟨b, hb, rfl⟩ := exists_of_get?_link h.ne_none hc
    by_cases hp : place = .container id
    · subst hp
      obtain ⟨c, hc, hk⟩ := h.room
      exact Option.some.inj (hb.symm.trans hc) ▸ hk
    · simp only [linked, if_neg hp] at hn ⊢
      exact wf.hasBody hb hn
  fitsInput {id slot x _} hh hc := by
    obtain ⟨b, hb, rfl⟩ := exists_of_get?_link h.ne_none hc
    rcases (holds_link wf h).1 hh with hh | ⟨rfl, rfl⟩
    · have hk := wf.fitsInput hh hb
      exact hk
    · obtain ⟨c, -, -, hc, hk, -⟩ := h.room
      exact Option.some.inj (hc.symm.trans hb) ▸ hk
  acyclic x hb := by
    obtain ⟨p, -, hp, -⟩ := h.room.holder
    rcases below_link h hp hb with hb | ⟨hxc, hpx⟩
    · exact wf.acyclic x hb
    · exact wf.not_below_of_outside (h.outside p hp) (hpx.trans hxc)

end Registry

end Blockwork
