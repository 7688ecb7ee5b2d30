import Blockwork.Geometry.Basic

/-!
# Estimated geometry

Without a renderer the layout is estimated from the labels.  A block is as wide as
its label, eight units for a character and sixty-four for a placeholder, and at
least 140.  A plain block is 30 high, a value 28.  A block with a body adds to its
header of 22 the height of the body, which is the sum of its stacked blocks with a
gap of eight below each, a padding of twelve, and at least 80.  Sizes are whole
numbers.

Nested blocks lie ten to the right of their container and start 34 below its upper
edge.  A block in an input lies where the input is.  The position of a block that
has no live parent is the one it keeps.

Sizes and heights of bodies are remembered until the layout is told that the
children of the block have changed.  Sizes of blocks whose bodies hold themselves
have no value, and the walk for them is an `endless` breakdown.
-/

namespace Blockwork

/-- The width and height of a block. -/
structure Extent where
  width : Nat
  height : Nat
deriving DecidableEq, Repr

/-- What the estimated layout remembers, and where blocks are deleted. -/
structure EstimatedLayout where
  /-- The rectangle where dropped blocks are deleted. -/
  trash : Option Rect := none
  /-- The sizes worked out so far. -/
  sizes : List (BlockId × Extent) := []
  /-- The heights of bodies worked out so far. -/
  bodyHeights : List (BlockId × Nat) := []

namespace EstimatedLayout

/-! ## Measures -/

/-- The least width of a block. -/
def minWidth : Nat := 140
/-- The width around a label. -/
def labelPadding : Nat := 12
/-- The width of a character. -/
def charWidth : Nat := 8
def placeholderWidth : Nat := 64
/-- The distance from an input to what follows it. -/
def slotAdvance : Nat := 66
/-- The extent of an input. -/
def slotExtent : Extent := ⟨60, 22⟩
/-- The height of a plain block. -/
def headerHeight : Nat := 30
def valueHeight : Nat := 28
/-- The height of a block with a body, without the body. -/
def bodyOffset : Nat := 22
/-- The distance of a body from the sides of its block. -/
def bodyInset : Nat := 10
/-- The height of a body around its blocks. -/
def bodyPadding : Nat := 12
/-- The least height of a body. -/
def minBodyHeight : Nat := 80
/-- The gap below a stacked block. -/
def stackGap : Nat := 8

/-- A measure, but no less than a least one. -/
def atLeast (least n : Nat) : Nat := if n < least then least else n

/-- The sum of measures. -/
def total : List Nat → Nat
  | [] => 0
  | n :: ns => n + total ns

/-- Whether a part of a label names an input. -/
def namesInput (part : List Char) : Bool := (Label.partName? part).isSome

/-- The width of a block with this label. -/
def labelWidth (label : String) : Nat :=
  atLeast minWidth (labelPadding +
    total ((Label.parts label).map fun p =>
      if namesInput p then placeholderWidth else p.length * charWidth))

/-- The height of a body, from the heights of its blocks. -/
def stackHeight (heights : List Nat) : Nat :=
  atLeast minBodyHeight (total (heights.map (· + stackGap)) + bodyPadding)

/-- The height of a block without a body. -/
def plainHeight (k : Kind) : Nat := if k.fitsInput then valueHeight else headerHeight

/-- The distance of an input from the left edge, from the parts of the label and
what lies to the left of them. -/
def slotShift (name : String) : Nat → List (List Char) → Option Nat
  | _, [] => none
  | x, p :: ps =>
      match Label.partName? p with
      | some n => if String.ofList n = name then some x else slotShift name (x + slotAdvance) ps
      | none => slotShift name (x + p.length * charWidth) ps

/-! ## Sizes -/

/-- A question to the estimated layout. -/
abbrev Ask (α : Type) := Query EstimatedLayout α

/-- The block of an id. -/
def block (id : BlockId) : Ask Block := do .ofExcept ((← read).registry.require id)

def rememberSize (id : BlockId) (e : Extent) : Ask Unit :=
  modify fun l => { l with sizes := (id, e) :: l.sizes }

/-- Remember the height of a body. -/
def rememberBody (id : BlockId) (h : Nat) : Ask Unit :=
  modify fun l => { l with bodyHeights := (id, h) :: l.bodyHeights }

/-- The height of the body of a block, given how to find the sizes of its
blocks. -/
def bodyHeightBy (size : BlockId → Ask Extent) (id : BlockId) : Ask Nat := do
  match (← get).bodyHeights.lookup id with
  | some h => return h
  | none =>
      let b ← block id
      let extents ← (b.nested.filter (← read).registry.contains).mapM size
      let h := stackHeight (extents.map Extent.height)
      rememberBody id h
      return h

/-- The size of a block, given how to find the height of its body. -/
def sizeBy (body : BlockId → Ask Nat) (id : BlockId) : Ask Extent := do
  match (← get).sizes.lookup id with
  | some e => return e
  | none =>
      let b ← block id
      let height ←
        if b.kind.hasBody then do pure (bodyOffset + (← body id)) else pure (plainHeight b.kind)
      let e : Extent := ⟨labelWidth b.label, height⟩
      rememberSize id e
      return e

/-- The size of a block, following `n` levels of bodies. -/
def sizeWithin : Nat → BlockId → Ask Extent
  | 0 => sizeBy fun _ => .ofBreakdown (.error .endless)
  | n + 1 => sizeBy (bodyHeightBy (sizeWithin n))

/-- The size of a block. -/
def size (id : BlockId) : Ask Extent := do sizeWithin ((← read).registry.size + 1) id

/-- The height of the body of a block. -/
def bodyHeight (id : BlockId) : Ask Nat := do
  bodyHeightBy (sizeWithin ((← read).registry.size + 1)) id

/-! ## Positions -/

/-- A whole number as a coordinate. -/
def units (n : Nat) : Float := Decimal.ofNat n

/-- The place of an input within its block, to the right and downward, if the
label has it. -/
def slotOffset (id : BlockId) (name : String) : Ask (Option Point) := do
  match (← read).registry.get? id with
  | none => return none
  | some b =>
      if (b.slot? name).isNone then return none
      let down ←
        if b.kind.hasBody then pure 8.0
        else do pure (units (← size id).height / 2.0 - 10.0)
      return (slotShift name 10 (Label.parts b.label)).map fun x => ⟨units x, down⟩

/-- The height of the live blocks stacked above a child. -/
def heightAbove (child : BlockId) : List BlockId → Ask Nat
  | [] => return 0
  | sibling :: rest => do
      if sibling = child then return 0
      let own ←
        if (← read).registry.contains sibling then do pure ((← size sibling).height + stackGap)
        else pure 0
      return own + (← heightAbove child rest)

/-- The upper left corner of a block, climbing `n` parents.  A block seen before
counts as one without a parent. -/
def originWithin : Nat → List BlockId → BlockId → Ask Point
  | 0, _, id => do return (← block id).position
  | n + 1, seen, id => do
      let b ← block id
      if seen.contains id then return b.position
      let r := (← read).registry
      match b.parent with
      | .none => return b.position
      | .container p =>
          match r.get? p with
          | none => return b.position
          | some holder =>
              let o ← originWithin n (id :: seen) p
              let above ← heightAbove id holder.nested
              return ⟨o.x + units bodyInset, o.y + units headerHeight + 4.0 + units above⟩
      | .input p name =>
          match r.get? p with
          | none => return b.position
          | some _ =>
              let o ← originWithin n (id :: seen) p
              return (← slotOffset p name).elim o o.add

/-- The upper left corner of a block. -/
def origin (id : BlockId) : Ask Point := do originWithin ((← read).registry.size + 1) [] id

/-- The rectangle of a block. -/
def boundingBox (id : BlockId) : Ask Rect := do
  let o ← origin id
  let e ← size id
  return ⟨o.x, o.y, units e.width, units e.height⟩

/-- The rectangle of an input. -/
def slotRect (id : BlockId) (name : String) : Ask (Option Rect) := do
  match ← slotOffset id name with
  | none => return none
  | some d =>
      let o ← origin id
      return some ⟨o.x + d.x, o.y + d.y, units slotExtent.width, units slotExtent.height⟩

/-- The rectangle of a body. -/
def bodyRect (id : BlockId) : Ask (Option Rect) := do
  match (← read).registry.get? id with
  | none => return none
  | some b =>
      if !b.kind.hasBody then return none
      let o ← origin id
      let e ← size id
      let h ← bodyHeight id
      return some ⟨o.x + units bodyInset, o.y + units headerHeight - 8.0,
        units e.width - 2.0 * units bodyInset, units h⟩

/-- Drop what is remembered of a block. -/
def drop (id : BlockId) (l : EstimatedLayout) : EstimatedLayout :=
  { l with
    sizes := l.sizes.filter (·.1 ≠ id)
    bodyHeights := l.bodyHeights.filter (·.1 ≠ id) }

/-- Drop everything that is remembered. -/
def clear (l : EstimatedLayout) : EstimatedLayout := { l with sizes := [], bodyHeights := [] }

end EstimatedLayout

instance : Geometry EstimatedLayout where
  boundingBox := EstimatedLayout.boundingBox
  screenPoint p := do return (← read).viewport.toScreen p
  workspacePoint p := do .ofBreakdown ((← read).viewport.toWorkspace p)
  slotRect := EstimatedLayout.slotRect
  bodyRect := EstimatedLayout.bodyRect
  workspaceRect := do
    let v := (← read).viewport
    return ⟨0.0, 0.0, v.width, v.height⟩
  deletionRect := do return (← get).trash
  childrenChanged := EstimatedLayout.drop
  forget := EstimatedLayout.drop
  reset := EstimatedLayout.clear

end Blockwork
