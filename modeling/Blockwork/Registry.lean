import Blockwork.Block.Basic

/-!
# The registry

The registry holds every live block by id, in the order in which they were
created.  An id has one block, which is part of the type.  Nothing is said about
the references between the blocks: they may dangle, disagree or run in circles,
and what a sound registry is comes later.

What every operation does to `get?` is said by a lemma.
-/

namespace Blockwork

/-- The live blocks by id, in order of creation. -/
structure Registry where
  /-- The ids with their blocks. -/
  entries : List (BlockId × Block)
  /-- No id has two blocks. -/
  nodup : (Table.names entries).Nodup

namespace Registry

/-- The registry without blocks. -/
def empty : Registry := ⟨[], List.nodup_nil⟩

/-- The ids, in order of creation. -/
def ids (r : Registry) : List BlockId := Table.names r.entries

/-- The number of blocks. -/
def size (r : Registry) : Nat := r.entries.length

/-- The block of an id. -/
def get? (r : Registry) (id : BlockId) : Option Block := r.entries.lookup id

/-- Whether an id has a block. -/
def contains (r : Registry) (id : BlockId) : Bool := (r.get? id).isSome

/-- The block of an id, as a fault if there is none. -/
def require (r : Registry) (id : BlockId) : Except Fault Block :=
  match r.get? id with
  | some b => .ok b
  | none => .error (.blockNotFound (.str id))

/-- The blocks at the top level, in order of creation. -/
def roots (r : Registry) : List BlockId :=
  (r.entries.filter fun e => e.2.parent.isNone).map Prod.fst

/-! ## Changing blocks -/

/-- Set the block of an id.  An id that has a block keeps its place. -/
def insert (r : Registry) (id : BlockId) (b : Block) : Registry :=
  ⟨Table.set r.entries id b, Table.nodup_names_set r.nodup⟩

/-- Change the block of an id, if it has one. -/
def modify (r : Registry) (id : BlockId) (f : Block → Block) : Registry :=
  ⟨Table.modify r.entries id f, by
    rw [Table.names_modify]
    exact r.nodup⟩

/-- Change every block. -/
def mapBlocks (r : Registry) (f : Block → Block) : Registry :=
  ⟨Table.mapValues r.entries f, by
    rw [Table.names_mapValues]
    exact r.nodup⟩

/-- Drop the blocks of some ids, and leave every reference as it is. -/
def eraseAll (r : Registry) (ids : List BlockId) : Registry :=
  ⟨Table.keep r.entries fun id => !ids.contains id, Table.nodup_names_keep _ r.nodup⟩

/-- Drop the block of an id, and leave every reference as it is. -/
def erase (r : Registry) (id : BlockId) : Registry := r.eraseAll [id]

/-! ## What the operations do to `get?` -/

@[simp] theorem get?_insert (r : Registry) (id x : BlockId) (b : Block) :
    (r.insert id b).get? x = if x = id then some b else r.get? x :=
  Table.lookup_set r.entries id x b

@[simp] theorem get?_modify (r : Registry) (id x : BlockId) (f : Block → Block) :
    (r.modify id f).get? x = (r.get? x).map fun b => if x = id then f b else b := by
  rw [get?, modify, Table.lookup_modify, get?]
  by_cases h : x = id <;> simp [h]

@[simp] theorem get?_mapBlocks (r : Registry) (x : BlockId) (f : Block → Block) :
    (r.mapBlocks f).get? x = (r.get? x).map f :=
  Table.lookup_mapValues r.entries x f

@[simp] theorem get?_eraseAll (r : Registry) (ids : List BlockId) (x : BlockId) :
    (r.eraseAll ids).get? x = if ids.contains x then none else r.get? x := by
  rw [get?, eraseAll, Table.lookup_keep]
  by_cases h : x ∈ ids <;> simp [h, get?]

@[simp] theorem get?_erase (r : Registry) (id x : BlockId) :
    (r.erase id).get? x = if x = id then none else r.get? x := by
  rw [erase, get?_eraseAll]
  by_cases h : x = id <;> simp [h]

@[simp] theorem ids_modify (r : Registry) (id : BlockId) (f : Block → Block) :
    (r.modify id f).ids = r.ids :=
  Table.names_modify r.entries id f

@[simp] theorem contains_modify (r : Registry) (id x : BlockId) (f : Block → Block) :
    (r.modify id f).contains x = r.contains x := by
  by_cases h : x = id <;> simp [contains, get?_modify, h]

end Registry

end Blockwork
