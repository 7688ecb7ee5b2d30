import Blockwork.Json.Display
import Blockwork.Unicode.Blank
import Blockwork.Unicode.Lowercase

/-!
# Kinds of blocks

A block is a command, a container, a function, a reporter or a boolean.
Containers and functions hold a stack of blocks in their body.  Reporters and
booleans fit into inputs.  Commands and containers take a block dropped below
them.  The name of a kind is read in any case and with blanks around it.
-/

namespace Blockwork

/-- The kind of a block. -/
inductive Kind
  /-- A statement. -/
  | command
  /-- A statement with a body. -/
  | container
  /-- A definition with a body. -/
  | function
  /-- A value. -/
  | reporter
  /-- A truth value. -/
  | boolean
deriving DecidableEq, Repr

namespace Kind

/-- All kinds. -/
def all : List Kind := [.command, .container, .function, .reporter, .boolean]

/-- The name of a kind. -/
def name : Kind → String
  | .command => "command"
  | .container => "container"
  | .function => "function"
  | .reporter => "reporter"
  | .boolean => "boolean"

/-- Whether blocks of this kind hold a stack of blocks. -/
def hasBody : Kind → Bool
  | .container | .function => true
  | _ => false

/-- Whether blocks of this kind fit into inputs. -/
def fitsInput : Kind → Bool
  | .reporter | .boolean => true
  | _ => false

/-- Whether a block can be dropped below blocks of this kind. -/
def stackable : Kind → Bool
  | .command | .container => true
  | _ => false

/-- The kind of a name. -/
def ofName? (s : String) : Option Kind := all.find? (·.name == s)

/-- The kind that a value names.  A value without a text names none. -/
def ofJson? (v : Json) : Option Kind :=
  if v.isWritable then ofName? (Unicode.lower (Unicode.strip v.display)) else none

end Kind

end Blockwork
