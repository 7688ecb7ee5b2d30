import Blockwork.Registry.Walk

/-!
# Validation

A registry is consistent when its edges are written down alike on both sides:
every child is live and refers back to the very place that holds it, no block is
held twice, every block with a live parent is held somewhere, and no block is
above itself.  `validate` lists what violates this, edge by edge in the order of
creation, and then block by block.
-/

namespace Blockwork

/-- A violation of consistency. -/
inductive Violation
  /-- A body holds a block that is not live. -/
  | nestsMissing (block child : BlockId)
  /-- An input holds a block that is not live. -/
  | inputMissing (block : BlockId) (slot : String) (child : BlockId)
  /-- A block in a body does not refer back to it. -/
  | notInContainer (child container : BlockId)
  /-- A block in an input does not refer back to it. -/
  | notInInput (child block : BlockId) (slot : String)
  /-- A block is held a second time. -/
  | heldTwice (child : BlockId)
  /-- A block refers to a parent that does not hold it. -/
  | notHeld (block parent : BlockId)
  /-- A block is above itself. -/
  | aboveItself (block : BlockId)
deriving DecidableEq, Repr

def Violation.message : Violation → String
  | .nestsMissing block child => s!"Block {block} nests missing block {child}"
  | .inputMissing block slot child =>
      "Input " ++ block ++ "." ++ slot ++ " references missing block " ++ child
  | .notInContainer child container =>
      s!"Block {child} does not point back to container {container}"
  | .notInInput child block slot =>
      "Block " ++ child ++ " does not point back to input " ++ block ++ "." ++ slot
  | .heldTwice child => s!"Block {child} has more than one parent"
  | .notHeld block parent => s!"Block {block} claims parent {parent} which does not hold it"
  | .aboveItself block => s!"Block {block} contains itself"

namespace Registry

/-- An edge as its holder knows it: the place, and the child in it. -/
structure Edge where
  place : Parent
  child : BlockId
deriving DecidableEq, Repr

/-- The edges that a block holds, those of the body first. -/
def edgesOf (id : BlockId) (b : Block) : List Edge :=
  b.nested.map (⟨.container id, ·⟩) ++
    b.slots.filterMap fun s => s.2.child.map (⟨.input id s.1, ·⟩)

/-- All edges, holder by holder in order of creation. -/
def edges (r : Registry) : List Edge := r.entries.flatMap fun e => edgesOf e.1 e.2

/-- The violation of an edge to a block that is not live. -/
def missing (e : Edge) : List Violation :=
  match e.place with
  | .none => []
  | .container id => [.nestsMissing id e.child]
  | .input id slot => [.inputMissing id slot e.child]

/-- The violation of an edge that the child does not confirm. -/
def unconfirmed (e : Edge) : List Violation :=
  match e.place with
  | .none => []
  | .container id => [.notInContainer e.child id]
  | .input id slot => [.notInInput e.child id slot]

/-- The violations of edges, when some blocks are known to be held. -/
def edgeViolations (r : Registry) : List BlockId → List Edge → List Violation
  | _, [] => []
  | held, e :: es =>
      match r.get? e.child with
      | none => missing e ++ edgeViolations r held es
      | some c =>
          (if c.parent = e.place then [] else unconfirmed e) ++
            (if held.contains e.child then [.heldTwice e.child] else []) ++
            edgeViolations r (e.child :: held) es

/-- The live blocks that some edge holds. -/
def heldIds (r : Registry) : List BlockId := (r.edges.map Edge.child).filter r.contains

def blockViolations (r : Registry) (held : List BlockId) (id : BlockId) (b : Block) :
    List Violation :=
  (match b.parent.id? with
    | some p => if !held.contains id && r.contains p then [.notHeld id p] else []
    | none => []) ++
    (if r.inParentCycle id then [.aboveItself id] else [])

/-- Everything that violates consistency. -/
def validate (r : Registry) : List Violation :=
  r.edgeViolations [] r.edges ++
    r.entries.flatMap fun e => r.blockViolations r.heldIds e.1 e.2

end Registry

end Blockwork
