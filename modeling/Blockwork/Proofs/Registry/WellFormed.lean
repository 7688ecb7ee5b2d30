import Mathlib.Data.List.Nodup
import Mathlib.Logic.Relation
import Blockwork.Registry.Validate
import Blockwork.Proofs.Registry.Lookup

/-!
# Well-formed registries

A registry is well formed when its edges make a forest and obey the rules of
kinds.  An edge is written down with its holder and with the child, so the two
have to agree: what a place holds refers back to exactly that place, and what
refers to a place is held there.  No block is above itself.

Two more conditions are about how tables are kept.  No id is empty, since an empty
id is the same as none when children are listed, and the inputs of a block have
different names.

`Holds` is what a holder knows of an edge and `parent?` what the child knows.  Most
of the theory is about these two and does not look at blocks.
-/

namespace Blockwork

/-- The block over an input. -/
def Block.childAt? (b : Block) (slot : String) : Option BlockId := (b.slot? slot).bind Slot.child

theorem Block.childAt?_eq_some_iff {b : Block} {slot : String} {child : BlockId} :
    b.childAt? slot = some child ↔ ∃ s, b.slot? slot = some s ∧ s.child = some child :=
  Option.bind_eq_some_iff

theorem Parent.id?_eq_none_iff {place : Parent} : place.id? = Option.none ↔ place = .none := by
  cases place <;> simp [id?]

theorem Parent.isNone_iff {place : Parent} : place.isNone = true ↔ place = .none := by
  cases place <;> simp [isNone]

namespace Registry

variable {r : Registry}

/-! ## Edges from both sides -/

/-- Where a live block says that it lives. -/
def parent? (r : Registry) (id : BlockId) : Option Parent := (r.get? id).map Block.parent

/-- A place holds a block.  The top level holds none. -/
def Holds (r : Registry) : Parent → BlockId → Prop
  | .none, _ => False
  | .container id, child => ∃ b, r.get? id = some b ∧ child ∈ b.nested
  | .input id slot, child => ∃ b, r.get? id = some b ∧ b.childAt? slot = some child

/-- A block refers to another as its parent. -/
def Under (r : Registry) (child parent : BlockId) : Prop := r.parentId? child = some parent

/-- A block has another among its parent, the parent of that, and so on. -/
def Below (r : Registry) : BlockId → BlockId → Prop := Relation.TransGen r.Under

/-- The edges of a registry make a forest that obeys the rules of kinds. -/
structure WellFormed (r : Registry) : Prop where
  /-- No id is empty. -/
  named : ∀ {id b}, r.get? id = some b → id ≠ ""
  /-- The inputs of a block have different names. -/
  slots_nodup : ∀ {id b}, r.get? id = some b → (Table.names b.slots).Nodup
  /-- No body lists a block twice. -/
  nested_nodup : ∀ {id b}, r.get? id = some b → b.nested.Nodup
  /-- What a place holds is live and refers back to exactly that place. -/
  confirmed : ∀ {place child}, r.Holds place child → r.parent? child = some place
  /-- What refers to a place is held there. -/
  held : ∀ {place child}, r.parent? child = some place → place ≠ .none → r.Holds place child
  /-- Only blocks of kinds with a body have nested blocks. -/
  hasBody : ∀ {id b}, r.get? id = some b → b.nested ≠ [] → b.kind.hasBody = true
  /-- Only blocks of kinds that fit are in inputs. -/
  fitsInput : ∀ {id slot child b},
    r.Holds (.input id slot) child → r.get? child = some b → b.kind.fitsInput = true
  /-- No block is above itself. -/
  acyclic : ∀ id, ¬ r.Below id id

theorem parent?_eq_some_iff {id : BlockId} {place : Parent} :
    r.parent? id = some place ↔ ∃ b, r.get? id = some b ∧ b.parent = place :=
  Option.map_eq_some_iff

theorem parent?_of_get? {id : BlockId} {b : Block} (h : r.get? id = some b) :
    r.parent? id = some b.parent := by
  rw [parent?, h]
  rfl

theorem contains_of_parent? {id : BlockId} {place : Parent} (h : r.parent? id = some place) :
    r.contains id = true := by
  obtain ⟨b, hb, -⟩ := parent?_eq_some_iff.1 h
  exact contains_of_get? hb

theorem under_iff {child p : BlockId} :
    r.Under child p ↔ ∃ place, r.parent? child = some place ∧ place.id? = some p := by
  rw [Under, parentId?, parent?]
  cases r.get? child <;> simp

theorem Under.contains {child p : BlockId} (h : r.Under child p) : r.contains child = true := by
  obtain ⟨place, hp, -⟩ := under_iff.1 h
  exact contains_of_parent? hp

theorem ne_none_of_id? {place : Parent} {p : BlockId} (h : place.id? = some p) : place ≠ .none := by
  rintro rfl
  cases h

theorem Under.mono {s : Registry} {child p : BlockId} (hu : r.Under child p)
    (h : ∀ {place}, place ≠ .none → r.parent? child = some place → s.parent? child = some place) :
    s.Under child p := by
  obtain ⟨place, hp, hid⟩ := under_iff.1 hu
  exact under_iff.2 ⟨place, h (ne_none_of_id? hid) hp, hid⟩

theorem Below.mono {s : Registry} {x y : BlockId} (hb : r.Below x y)
    (h : ∀ {c p}, r.Under c p → s.Under c p) : s.Below x y :=
  Relation.TransGen.mono (fun _ _ hu => h hu) x y hb

theorem Holds.exists_id? {place : Parent} {child : BlockId} (h : r.Holds place child) :
    ∃ p, place.id? = some p ∧ r.contains p = true := by
  cases place with
  | none => exact h.elim
  | container p =>
    obtain ⟨b, hb, -⟩ := h
    exact ⟨p, rfl, contains_of_get? hb⟩
  | input p slot =>
    obtain ⟨b, hb, -⟩ := h
    exact ⟨p, rfl, contains_of_get? hb⟩

namespace WellFormed

theorem contains_of_holds (wf : r.WellFormed) {place : Parent} {child : BlockId}
    (h : r.Holds place child) : r.contains child = true :=
  contains_of_parent? (wf.confirmed h)

/-- The parent of a block is live. -/
theorem contains_of_under (wf : r.WellFormed) {child p : BlockId} (h : r.Under child p) :
    r.contains p = true := by
  obtain ⟨place, hc, hp⟩ := under_iff.1 h
  obtain ⟨q, hq, hlive⟩ := (wf.held hc (ne_none_of_id? hp)).exists_id?
  exact Option.some.inj (hp.symm.trans hq) ▸ hlive

theorem under_of_holds (wf : r.WellFormed) {place : Parent} {child p : BlockId}
    (h : r.Holds place child) (hp : place.id? = some p) : r.Under child p :=
  under_iff.2 ⟨place, wf.confirmed h, hp⟩

theorem under_of_mem_nested (wf : r.WellFormed) {id child : BlockId} {b : Block}
    (hb : r.get? id = some b) (h : child ∈ b.nested) : r.Under child id :=
  under_iff.2 ⟨.container id, wf.confirmed ⟨b, hb, h⟩, rfl⟩

/-- A block has one place. -/
theorem holds_unique (wf : r.WellFormed) {place place' : Parent} {child : BlockId}
    (h : r.Holds place child) (h' : r.Holds place' child) : place = place' :=
  Option.some.inj ((wf.confirmed h).symm.trans (wf.confirmed h'))

end WellFormed

/-! ## The list of edges -/

theorem mem_edgesOf_iff {id : BlockId} {b : Block} {e : Edge} :
    e ∈ edgesOf id b ↔ (e.place = .container id ∧ e.child ∈ b.nested) ∨
      ∃ s ∈ b.slots, e.place = .input id s.1 ∧ s.2.child = some e.child := by
  simp only [edgesOf, List.mem_append, List.mem_map, List.mem_filterMap, Option.map_eq_some_iff]
  constructor
  · rintro (⟨c, hc, rfl⟩ | ⟨s, hs, c, hc, rfl⟩)
    · exact .inl ⟨rfl, hc⟩
    · exact .inr ⟨s, hs, rfl, hc⟩
  · obtain ⟨place, child⟩ := e
    rintro (⟨rfl, hc⟩ | ⟨s, hs, rfl, hc⟩)
    · exact .inl ⟨child, hc, rfl⟩
    · exact .inr ⟨s, hs, child, hc, rfl⟩

theorem place_id?_of_mem_edgesOf {id : BlockId} {b : Block} {e : Edge} (h : e ∈ edgesOf id b) :
    e.place.id? = some id := by
  rcases mem_edgesOf_iff.1 h with ⟨hp, -⟩ | ⟨s, -, hp, -⟩ <;> rw [hp] <;> rfl

theorem mem_edges_iff {e : Edge} :
    e ∈ r.edges ↔ ∃ id b, r.get? id = some b ∧ e ∈ edgesOf id b := by
  simp only [edges, List.mem_flatMap, Prod.exists, get?_eq_some_iff]

namespace WellFormed

/-- The listed edges are what places hold. -/
theorem mem_edges_iff_holds (wf : r.WellFormed) {e : Edge} :
    e ∈ r.edges ↔ r.Holds e.place e.child := by
  obtain ⟨place, child⟩ := e
  rw [mem_edges_iff]
  constructor
  · rintro ⟨id, b, hb, he⟩
    rcases mem_edgesOf_iff.1 he with ⟨rfl, hc⟩ | ⟨s, hs, rfl, hc⟩
    · exact ⟨b, hb, hc⟩
    · refine ⟨b, hb, Block.childAt?_eq_some_iff.2 ⟨s.2, ?_, hc⟩⟩
      exact Table.lookup_of_mem (wf.slots_nodup hb) hs
  · intro h
    cases place with
    | none => exact h.elim
    | container id =>
      obtain ⟨b, hb, hc⟩ := h
      exact ⟨id, b, hb, mem_edgesOf_iff.2 (.inl ⟨rfl, hc⟩)⟩
    | input id slot =>
      obtain ⟨b, hb, hc⟩ := h
      obtain ⟨s, hs, hc⟩ := Block.childAt?_eq_some_iff.1 hc
      exact ⟨id, b, hb, mem_edgesOf_iff.2 (.inr ⟨(slot, s), Table.mem_of_lookup hs, rfl, hc⟩)⟩

theorem edgesOf_nodup (wf : r.WellFormed) {id : BlockId} {b : Block} (hb : r.get? id = some b) :
    (edgesOf id b).Nodup := by
  refine List.nodup_append.2 ⟨?_, ?_, ?_⟩
  · exact (wf.nested_nodup hb).map fun _ _ h => (Edge.mk.inj h).2
  · -- an edge names its input, and no two inputs have one name
    refine List.Pairwise.filterMap _ ?_ (List.pairwise_map.1 (wf.slots_nodup hb))
    rintro s t hst e he f hf rfl
    obtain ⟨c, -, rfl⟩ := Option.map_eq_some_iff.1 he
    obtain ⟨d, -, hd⟩ := Option.map_eq_some_iff.1 hf
    exact hst (Parent.input.inj (Edge.mk.inj hd).1).2.symm
  · rintro e he _ hf rfl
    obtain ⟨c, -, rfl⟩ := List.mem_map.1 he
    obtain ⟨s, -, hs⟩ := List.mem_filterMap.1 hf
    obtain ⟨d, -, hd⟩ := Option.map_eq_some_iff.1 hs
    cases hd

/-- No block is held twice. -/
theorem heldOnce (wf : r.WellFormed) : (r.edges.map Edge.child).Nodup := by
  have hedges : r.edges.Nodup := by
    refine List.nodup_flatMap.2 ⟨fun e he => wf.edgesOf_nodup (get?_eq_some_iff.2 he), ?_⟩
    refine (List.pairwise_map.1 r.nodup).imp fun {a b} hab e ha hb => hab ?_
    have h := (place_id?_of_mem_edgesOf ha).symm.trans (place_id?_of_mem_edgesOf hb)
    exact Option.some.inj h
  refine hedges.map_on fun e he f hf hc => ?_
  have hp := wf.holds_unique (wf.mem_edges_iff_holds.1 he) (hc ▸ wf.mem_edges_iff_holds.1 hf)
  cases e
  cases f
  simp_all

end WellFormed

end Registry

end Blockwork
