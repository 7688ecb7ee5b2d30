import Blockwork.Registry.Walk

/-!
# Attaching and detaching

A block is attached to the end of a body, or to an input.  It must be live, and
so must its parent.  A body needs a kind with a body, an input a block of a kind
that fits, a slot of the name, and no other live block in it.  The block must not
have a parent, and it must not become part of itself.  The rules are asked in this
order, so the first that is broken names the fault.

A move asks the same rules, only that the block may have a parent, and it may
take the place it already has.

The functions here change the edges and nothing else.  The next module tells the
layout about it.
-/

namespace Blockwork.Registry

/-! ## The rules -/

/-- A condition, as a fault if it does not hold. -/
def demand (holds : Bool) (fault : AttachFault) : Except Fault Unit :=
  if holds then .ok () else .error (.attach fault)

/-- A block to be attached has no parent. -/
def demandFree (id : BlockId) (b : Block) : Except Fault Unit :=
  match b.parent.id? with
  | none => .ok ()
  | some p => .error (.attach (.notFree id p))

/-- A block does not become part of itself. -/
def demandAcyclic (r : Registry) (child target : BlockId) : Except Fault Unit :=
  demand (!(target = child || r.isDescendant target child)) (.cycle child target)

/-- The rules for a body. -/
def checkBody (r : Registry) (child container : BlockId) (moving : Bool) : Except Fault Unit := do
  let b ← r.require child
  let c ← r.require container
  demand c.kind.hasBody (.noBody container c.kind)
  unless moving do demandFree child b
  r.demandAcyclic child container

/-- The rules for an input. -/
def checkInput (r : Registry) (child parent : BlockId) (slot : String) (moving : Bool) :
    Except Fault Unit := do
  let b ← r.require child
  let p ← r.require parent
  demand b.kind.fitsInput (.misfit child b.kind)
  match p.slot? slot with
  | none => .error (.attach (.noInput parent (.str slot)))
  | some s =>
      match s.child with
      | some other =>
          demand (!(r.contains other && other != child)) (.occupied parent slot other)
      | none => .ok ()
  unless moving do demandFree child b
  r.demandAcyclic child parent

/-- The rules for a body or an input, for a block that may have a parent. -/
def checkMove (r : Registry) (child parent : BlockId) : Option String → Except Fault Unit
  | none => r.checkBody child parent true
  | some slot => r.checkInput child parent slot true

/-! ## The edges -/

/-- Write an edge to the end of a body, with the parent and with the child. -/
def linkBody (r : Registry) (child container : BlockId) : Registry :=
  (r.modify container fun b => { b with nested := b.nested ++ [child] }).modify child
    fun b => { b with parent := .container container }

/-- Write an edge to an input, with the parent and with the child. -/
def linkInput (r : Registry) (child parent : BlockId) (slot : String) : Registry :=
  (r.modify parent fun b => b.modifySlot slot fun s => { s with child := some child }).modify child
    fun b => { b with parent := .input parent slot }

/-- Attach a block to the end of a body. -/
def attachToBody (r : Registry) (child container : BlockId) : Except Fault Registry := do
  r.checkBody child container false
  .ok (r.linkBody child container)

/-- Attach a block to an input. -/
def attachToInput (r : Registry) (child parent : BlockId) (slot : String) :
    Except Fault Registry := do
  r.checkInput child parent slot false
  .ok (r.linkInput child parent slot)

/-- Take the edge to a child out of its holder. -/
def dropEdge (r : Registry) (child : BlockId) : Parent → Registry
  | .none => r
  | .container id => r.modify id fun b => { b with nested := b.nested.filter (· ≠ child) }
  | .input id slot =>
      r.modify id fun b => b.modifySlot slot fun s =>
        if s.child = some child then { s with child := none } else s

/-- Make a block one of the top level at a position. -/
def unlink (r : Registry) (child : BlockId) (holder : Parent) (position : Point) : Registry :=
  (r.dropEdge child holder).modify child fun b => { b with parent := .none, position }

/-! ## Scrubbing -/

/-- Whether a block refers to one of some ids as its child. -/
def mentions (removed : List BlockId) (b : Block) : Bool :=
  b.slots.any (fun s => s.2.child.any removed.contains) || b.nested.any removed.contains

/-- A block without children among some ids. -/
def scrub (removed : List BlockId) (b : Block) : Block :=
  { b with
    slots := Table.mapValues b.slots fun s =>
      if s.child.any removed.contains then { s with child := none } else s
    nested := b.nested.filter fun id => !removed.contains id }

/-- The blocks outside some ids that refer to one of them as a child. -/
def touched (r : Registry) (removed : List BlockId) : List BlockId :=
  (r.entries.filter fun e => !removed.contains e.1 && mentions removed e.2).map Prod.fst

/-- Drop every reference to some blocks as a child, but those that they hold
themselves. -/
def scrubAround (r : Registry) (removed : List BlockId) : Registry :=
  (r.touched removed).foldl (fun r id => r.modify id (scrub removed)) r

/-- Drop some blocks, and every reference to them as a child. -/
def remove (r : Registry) (removed : List BlockId) : Registry :=
  (r.scrubAround removed).eraseAll removed

end Blockwork.Registry
