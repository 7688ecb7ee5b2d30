import Blockwork.Registry

/-!
# Walks

Four walks follow the references between blocks.  `ancestors` climbs from a block
along the parents.  `descendants` and `subtree` go down through bodies and inputs.
`inParentCycle` asks whether the parents of a block lead back to it.

All four end on every registry, however its references run.  Each remembers what
it has seen and enters a live block once, so the number of live blocks bounds it,
and every recursion here is on that number.

`descendants` lists the children of a block when it leaves the block, the last
child first, and goes on with the first child.  `subtree` lists a block behind
everything it found below it.
-/

namespace Blockwork.Registry

/-! ## Up -/

/-- The id of the parent that a block refers to. -/
def parentId? (r : Registry) (id : BlockId) : Option BlockId :=
  (r.get? id).bind fun b => b.parent.id?

/-- Climb from a block while the parent is live and not seen yet. -/
def climb (r : Registry) : Nat → List BlockId → BlockId → List BlockId
  | 0, _, _ => []
  | n + 1, seen, id =>
      match r.parentId? id with
      | none => []
      | some p =>
          if seen.contains p || !r.contains p then [] else p :: climb r n (p :: seen) p

/-- The live ancestors of a block, nearest first. -/
def ancestors (r : Registry) (id : BlockId) : List BlockId := r.climb r.size [id] id

/-- The number of live ancestors. -/
def depth (r : Registry) (id : BlockId) : Nat := (r.ancestors id).length

/-- Whether one block is among the ancestors of another. -/
def isDescendant (r : Registry) (id ancestor : BlockId) : Bool :=
  (r.ancestors id).contains ancestor

/-- Whether the parents from `id` on lead to `target` before they end or come
back to what was seen. -/
def leadsTo (r : Registry) (target : BlockId) : Nat → List BlockId → BlockId → Bool
  | 0, _, _ => false
  | n + 1, seen, id =>
      match r.parentId? id with
      | none => false
      | some p =>
          if p = target then true
          else if seen.contains p then false
          else leadsTo r target n (p :: seen) p

/-- Whether the parents of a block lead back to it. -/
def inParentCycle (r : Registry) (id : BlockId) : Bool := r.leadsTo id (r.size + 1) [] id

/-! ## Down -/

/-- The ids that a block holds, none if it is not live. -/
def childrenOf (r : Registry) (id : BlockId) : List BlockId :=
  match r.get? id with
  | some b => b.children
  | none => []

/-- Note a child and put it on the stack, unless it is dead or known. -/
def noteChild (r : Registry) (start : BlockId) (st : List BlockId × List BlockId)
    (child : BlockId) : List BlockId × List BlockId :=
  if child = start || st.2.contains child || !r.contains child then st
  else (child :: st.1, st.2 ++ [child])

/-- Take a block from the stack and note its children, the last one first. -/
def spread (r : Registry) (start : BlockId) : Nat → List BlockId → List BlockId → List BlockId
  | 0, _, found => found
  | _ + 1, [], found => found
  | n + 1, id :: stack, found =>
      let st := (r.childrenOf id).reverse.foldl (r.noteChild start) (stack, found)
      spread r start n st.1 st.2

/-- The live descendants of a block. -/
def descendants (r : Registry) (id : BlockId) : List BlockId :=
  r.spread id (r.size + 1) [id] []

/-- Add a block and what is below it to what was collected.  The state is the
ids seen and the ids collected. -/
def collect (r : Registry) :
    Nat → BlockId → List BlockId × List BlockId → List BlockId × List BlockId
  | 0, _, st => st
  | n + 1, id, st =>
      if st.1.contains id then st
      else
        match r.get? id with
        | none => (id :: st.1, st.2)
        | some b =>
            let below := b.children.foldl (fun st child => collect r n child st) (id :: st.1, st.2)
            (below.1, below.2 ++ [id])

/-- A block with everything below it, the block last. -/
def subtree (r : Registry) (id : BlockId) : List BlockId :=
  (r.collect (r.size + 1) id ([], [])).2

end Blockwork.Registry
