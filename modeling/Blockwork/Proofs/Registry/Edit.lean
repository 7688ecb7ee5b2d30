import Blockwork.Proofs.Registry.BodyNames
import Blockwork.Proofs.Registry.Removal

/-!
# Edits

Whatever is done to the blocks is one of six edits.  Each keeps a registry well
formed, and each names the blocks whose bodies or inputs it changes.  All other
blocks keep their label, their kind and their body.

That an input refers to a block that is not live is a case that the editor
provides for.  In a well-formed registry it does not occur.
-/

namespace Blockwork

/-! ## New blocks -/

/-- A block without parent and children. -/
structure Block.Loose (b : Block) : Prop where
  /-- The inputs have different names. -/
  slots_nodup : (Table.names b.slots).Nodup
  /-- The body is empty. -/
  nested : b.nested = []
  /-- The block is at the top level. -/
  parent : b.parent = .none
  /-- The inputs are empty. -/
  child : ∀ slot, b.childAt? slot = none

/-- A block that a definition makes has the inputs that its label names. -/
theorem Block.names_ofDefinition {d : Definition} {position : Point} {b : Block}
    (h : Block.ofDefinition d position = .ok b) : Table.names b.slots = d.inputNames := by
  obtain ⟨v, -, hb⟩ := except_bind_eq_ok.1 h
  cases hb
  rw [Table.names, List.map_map]
  exact List.map_id _

/-- A block that a definition makes has neither parent nor children. -/
theorem Block.loose_ofDefinition {d : Definition} {position : Point} {b : Block}
    (h : Block.ofDefinition d position = .ok b) : b.Loose := by
  have hnames := Block.names_ofDefinition h
  obtain ⟨v, -, hb⟩ := except_bind_eq_ok.1 h
  cases hb
  refine ⟨?_, rfl, rfl, fun slot => ?_⟩
  · rw [hnames]
    exact Label.nodup_keepFirst _
  · rw [Block.childAt?, Option.bind_eq_none_iff]
    intro s hs
    obtain ⟨name, -, he⟩ := List.mem_map.1 (Table.mem_of_lookup hs)
    rw [← (Prod.mk.inj he).2]

theorem Block.Loose.of_alike {b c : Block} (h : b.Loose) (ha : Registry.Alike b c) : c.Loose where
  slots_nodup := ha.names ▸ h.slots_nodup
  nested := ha.nested.trans h.nested
  parent := ha.parent.trans h.parent
  child slot := (ha.child slot).trans (h.child slot)

namespace Registry

variable {r r' : Registry} {id child p x : BlockId} {place : Parent} {b : Block}

@[simp] theorem parent?_insert (hb : b.Loose) :
    (r.insert id b).parent? x = if x = id then some .none else r.parent? x := by
  by_cases hx : x = id <;> simp [parent?, hx, hb.parent]

theorem holds_insert (hb : b.Loose) (hnew : r.contains id = false) :
    (r.insert id b).Holds place x ↔ r.Holds place x := by
  have hget : r.get? id = none := not_contains_iff.1 (by simp [hnew])
  cases place with
  | none => exact Iff.rfl
  | container p =>
    by_cases hp : p = id
    · subst hp
      simp [Holds, hget, hb.nested]
    · simp [Holds, hp]
  | input p slot =>
    by_cases hp : p = id
    · subst hp
      simp [Holds, hget, hb.child]
    · simp [Holds, hp]

/-- A new block without parent and children keeps a registry well formed. -/
theorem WellFormed.insert (wf : r.WellFormed) (hid : id ≠ "") (hnew : r.contains id = false)
    (hb : b.Loose) : (r.insert id b).WellFormed := by
  have hcases {x : BlockId} {c : Block} (h : (r.insert id b).get? x = some c) :
      x = id ∧ c = b ∨ r.get? x = some c := by
    rw [get?_insert] at h
    split at h
    · next hx => exact .inl ⟨hx, (Option.some.inj h).symm⟩
    · exact .inr h
  have hparent {x : BlockId} {place : Parent} (hne : place ≠ .none) :
      (r.insert id b).parent? x = some place ↔ r.parent? x = some place := by
    rw [parent?_insert hb]
    split
    · next hx =>
      subst hx
      have hp : r.parent? x = none := by
        rw [parent?, not_contains_iff.1 (by simp [hnew])]
        rfl
      simp [hp, hne.symm]
    · rfl
  exact {
    named := fun h => by
      rcases hcases h with ⟨rfl, -⟩ | h
      · exact hid
      · exact wf.named h
    slots_nodup := fun h => by
      rcases hcases h with ⟨-, rfl⟩ | h
      · exact hb.slots_nodup
      · exact wf.slots_nodup h
    nested_nodup := fun h => by
      rcases hcases h with ⟨-, rfl⟩ | h
      · rw [hb.nested]
        exact List.nodup_nil
      · exact wf.nested_nodup h
    confirmed := fun {place x} h => by
      rw [holds_insert hb hnew] at h
      have hne : place ≠ .none := by
        rintro rfl
        exact h
      exact (hparent hne).2 (wf.confirmed h)
    held := fun h hne => (holds_insert hb hnew).2 (wf.held ((hparent hne).1 h) hne)
    hasBody := fun h hn => by
      rcases hcases h with ⟨-, rfl⟩ | h
      · exact absurd hb.nested hn
      · exact wf.hasBody h hn
    fitsInput := fun h hc => by
      rw [holds_insert hb hnew] at h
      rcases hcases hc with ⟨rfl, -⟩ | hc
      · have := wf.contains_of_holds h
        simp [hnew] at this
      · exact wf.fitsInput h hc
    acyclic := fun x h => wf.acyclic x (h.mono fun hu => hu.mono fun hne => (hparent hne).1) }

/-- A registry of named blocks without parents and children. -/
def Loose (r : Registry) : Prop := ∀ {id b}, r.get? id = some b → id ≠ "" ∧ b.Loose

theorem loose_empty : empty.Loose := nofun

theorem Loose.insert (h : r.Loose) (hid : id ≠ "") (hb : b.Loose) : (r.insert id b).Loose := by
  intro x c hc
  rw [get?_insert] at hc
  split at hc
  · next hx =>
    cases hc
    exact ⟨hx ▸ hid, hb⟩
  · exact h hc

theorem Loose.not_holds (h : r.Loose) (place : Parent) (x : BlockId) : ¬ r.Holds place x := by
  cases place with
  | none => exact id
  | container p =>
    rintro ⟨b, hb, hx⟩
    rw [(h hb).2.nested] at hx
    cases hx
  | input p slot =>
    rintro ⟨b, hb, hx⟩
    cases ((h hb).2.child slot).symm.trans hx

theorem Loose.parent? (h : r.Loose) (hx : r.contains x = true) : r.parent? x = some .none := by
  obtain ⟨b, hb⟩ := contains_iff.1 hx
  rw [parent?_of_get? hb, (h hb).2.parent]

theorem Loose.wellFormed (h : r.Loose) : r.WellFormed where
  named hb := (h hb).1
  slots_nodup hb := (h hb).2.slots_nodup
  nested_nodup hb := (h hb).2.nested ▸ List.nodup_nil
  confirmed hh := absurd hh (h.not_holds _ _)
  held hp hne := by
    rw [h.parent? (contains_of_parent? hp)] at hp
    exact absurd (Option.some.inj hp).symm hne
  hasBody hb hn := absurd (h hb).2.nested hn
  fitsInput hh _ := absurd hh (h.not_holds _ _)
  acyclic x hb := by
    obtain ⟨p, hu, -⟩ := Relation.TransGen.head'_iff.1 hb
    obtain ⟨place, hp, hid⟩ := under_iff.1 hu
    rw [h.parent? (contains_of_parent? hp)] at hp
    exact ne_none_of_id? hid (Option.some.inj hp).symm

/-! ## What is done to the blocks -/

/-- One edit of the blocks, with the blocks whose bodies or inputs it changes, and
with those that are gone. -/
inductive Edit (r : Registry) : Registry → List BlockId → List BlockId → Prop
  /-- A block is attached where the rules allow it. -/
  | link {child : BlockId} {place : Parent} {p : BlockId} :
      r.Admits child place → place.id? = some p → Edit r (r.link child place) [p] []
  /-- A block is taken out of its place. -/
  | unlink {child : BlockId} {place : Parent} {p : BlockId} (position : Point) :
      r.parent? child = some place → place.id? = some p →
      Edit r (r.unlink child place position) [p] []
  /-- A block that is not live is taken out of an input. -/
  | empty {id child : BlockId} {slot : String} :
      r.Holds (.input id slot) child → r.contains child = false →
      Edit r (r.modify id fun b => b.modifySlot slot fun s => { s with child := none }) [] []
  /-- A block is removed with everything below it. -/
  | remove {id : BlockId} :
      r.contains id = true →
      Edit r (r.remove (r.subtree id)) (r.touched (r.subtree id)) (r.subtree id)
  /-- The position or a literal text of a block is set. -/
  | adjust (id : BlockId) {f : Block → Block} :
      (∀ b, Alike b (f b)) → Edit r (r.modify id f) [] []
  /-- A block is made. -/
  | insert {id : BlockId} {b : Block} :
      id ≠ "" → r.contains id = false → b.Loose → b.BodyNamed → Edit r (r.insert id b) [] []

variable {changed gone : List BlockId}

/-- Every edit keeps a registry well formed. -/
theorem WellFormed.edit (wf : r.WellFormed) (h : r.Edit r' changed gone) : r'.WellFormed := by
  cases h with
  | link h _ => exact wf.link h
  | unlink _ h _ => exact wf.unlink h
  | empty hh hdead =>
    have := wf.contains_of_holds hh
    simp [hdead] at this
  | remove h => exact wf.remove (wf.downward_subtree h)
  | adjust id hf => exact wf.modify hf
  | insert hid hnew hb _ => exact wf.insert hid hnew hb

/-- A block that is not gone stays live. -/
theorem Edit.live (h : r.Edit r' changed gone) (hx : r.contains x = true) (hg : x ∉ gone) :
    r'.contains x = true := by
  obtain ⟨b, hb⟩ := contains_iff.1 hx
  cases h with
  | link _ _ => simpa using hx
  | unlink _ _ _ => simpa using hx
  | empty _ _ => simpa using hx
  | remove _ => simp [contains, hg, hb]
  | adjust id hf => simpa using hx
  | @insert id c _ hnew _ _ =>
    have hne : x ≠ id := by
      rintro rfl
      simp [hnew] at hx
    simp [contains, hne, hb]

/-- A block that an edit does not change keeps its label, its kind and its body. -/
theorem Edit.kept (h : r.Edit r' changed gone) {c : Block} (hx : x ∉ changed)
    (hb : r.get? x = some b) (hc : r'.get? x = some c) :
    c.label = b.label ∧ c.kind = b.kind ∧ c.nested = b.nested := by
  cases h with
  | @link child place p h hp =>
    rw [get?_link h.ne_none, hb] at hc
    cases hc
    have hne : place ≠ .container x := by
      rintro rfl
      cases hp
      simp at hx
    exact ⟨rfl, rfl, if_neg hne⟩
  | @unlink child place p position _ hp =>
    rw [get?_unlink, hb] at hc
    cases hc
    have hne : place ≠ .container x := by
      rintro rfl
      cases hp
      simp at hx
    exact ⟨rfl, rfl, if_neg hne⟩
  | empty _ _ =>
    rw [get?_modify, hb] at hc
    cases hc
    dsimp only
    split <;> exact ⟨rfl, rfl, rfl⟩
  | @remove id _ =>
    obtain ⟨hs, d, hd, rfl⟩ := get?_remove_eq_some_iff.1 hc
    cases hb.symm.trans hd
    have hm := mentions_of_not_touched hb hs hx
    have hkept := List.any_eq_false.1 (Bool.or_eq_false_iff.1 hm).2
    exact ⟨rfl, rfl, List.filter_eq_self.2 fun a ha => by simpa using hkept a ha⟩
  | adjust id hf =>
    rw [get?_modify, hb] at hc
    cases hc
    dsimp only
    split
    · exact ⟨(hf b).label, (hf b).kind, (hf b).nested⟩
    · exact ⟨rfl, rfl, rfl⟩
  | @insert id _ _ hnew _ _ =>
    have hne : x ≠ id := by
      rintro rfl
      simp [contains, hb] at hnew
    obtain rfl : b = c := by simpa [hne, hb] using hc
    exact ⟨rfl, rfl, rfl⟩

/-- No edit takes the name of a body placeholder away. -/
theorem Edit.bodiesNamed (h : r.Edit r' changed gone) (hn : r.BodiesNamed) : r'.BodiesNamed := by
  cases h with
  | link h _ =>
    refine hn.of_get? fun hc => ?_
    obtain ⟨b, hb, rfl⟩ := exists_of_get?_link h.ne_none hc
    exact ⟨b, hb, rfl, rfl⟩
  | unlink _ _ _ =>
    refine hn.of_get? fun hc => ?_
    obtain ⟨b, hb, rfl⟩ := exists_of_get?_unlink hc
    exact ⟨b, hb, rfl, rfl⟩
  | empty _ _ =>
    refine hn.of_get? fun hc => ?_
    rw [get?_modify] at hc
    obtain ⟨b, hb, rfl⟩ := Option.map_eq_some_iff.1 hc
    refine ⟨b, hb, ?_⟩
    split <;> exact ⟨rfl, rfl⟩
  | remove _ =>
    refine hn.of_get? fun hc => ?_
    obtain ⟨-, b, hb, rfl⟩ := get?_remove_eq_some_iff.1 hc
    exact ⟨b, hb, rfl, rfl⟩
  | adjust id hf =>
    refine hn.of_get? fun hc => ?_
    rw [get?_modify] at hc
    obtain ⟨b, hb, rfl⟩ := Option.map_eq_some_iff.1 hc
    refine ⟨b, hb, ?_⟩
    split
    · exact ⟨(hf b).kind, (hf b).containerVar⟩
    · exact ⟨rfl, rfl⟩
  | insert _ _ _ hb => exact hn.insert hb

end Registry

end Blockwork
