import Blockwork.Fault
import Blockwork.Web.Address

/-!
# Routes

A route is what a path stands for.  Each piece of the path has to be there, so
`/api/blocks//attach` is no route, and nothing may follow, not even a slash.  An
index is written in decimal digits of any script, `Decimal.maxDigits` of them at most.

    /api/palette                          GET, POST
    /api/palette/INDEX                    DELETE
    /api/blocks                           GET, POST
    /api/blocks/ID                        DELETE
    /api/blocks/ID/inputs/NAME            POST
    /api/blocks/ID/attach                 POST
    /api/blocks/ID/detach                 POST
    /api/blocks/ID/release-inputs         POST
    /api/drag/start, move, end            POST
    /api/generate                         POST
    /api/export/VARIANT                   GET
    /api/import                           POST
    /api/workspace/save, load, clear      POST
    /api/canvas/state                     GET

Files are shown below `/static/`.  There are none, but their paths are known.
-/

namespace Blockwork.Web

/-- What is asked of a route. -/
inductive Method
  /-- To show something. -/
  | get
  /-- To show something, without the answer. -/
  | head
  /-- To do something. -/
  | post
  /-- To remove something. -/
  | delete
  /-- To name the methods. -/
  | options
  /-- Anything else. -/
  | other
deriving DecidableEq, Repr

/-- A character in upper case, as far as it leads to ASCII letters.  Beside the small
letters these are the dotless i, the long s, and the ligatures of s and t. -/
def upperChar (c : Char) : List Char :=
  if c.toNat = 0x131 then ['I']
  else if c.toNat = 0x17f then ['S']
  else if c.toNat = 0xfb05 || c.toNat = 0xfb06 then ['S', 'T']
  else [c.toUpper]

/-- The method of a name, in any case. -/
def Method.ofName (name : String) : Method :=
  let upper := String.ofList (name.toList.flatMap upperChar)
  if upper = "GET" then .get
  else if upper = "HEAD" then .head
  else if upper = "POST" then .post
  else if upper = "DELETE" then .delete
  else if upper = "OPTIONS" then .options
  else .other

/-- What a path stands for. -/
inductive Route
  | palette
  /-- A definition of the palette. -/
  | entry (index : Nat)
  | blocks
  | block (id : BlockId)
  /-- The text of an input. -/
  | input (id : BlockId) (name : String)
  /-- Giving a block a parent. -/
  | attach (id : BlockId)
  /-- Bringing a block to the top level. -/
  | detach (id : BlockId)
  /-- Bringing the blocks of all inputs to the top level. -/
  | release (id : BlockId)
  /-- Picking up a block. -/
  | dragStart
  /-- Moving the dragged block. -/
  | dragMove
  /-- Dropping the dragged block. -/
  | dragEnd
  /-- The code of the workspace. -/
  | code
  /-- An export. -/
  | bundle (variant : String)
  /-- Reading a bundle. -/
  | reading
  /-- Saving the workspace. -/
  | save
  /-- Loading what was saved. -/
  | load
  /-- Clearing the workspace. -/
  | clear
  | overview
deriving DecidableEq, Repr

namespace Route

/-- The index that decimal digits write. -/
def index? (piece : List Char) : Option Nat :=
  if piece = [] || Decimal.maxDigits < piece.length then none
  else (piece.mapM Unicode.digitValue?).map Decimal.ofDigits

/-- The route of a block with something behind its id. -/
def ofBlock? (id : BlockId) : List (List Char) → Option Route
  | [] => some (.block id)
  | [verb] =>
      if verb = "attach".toList then some (.attach id)
      else if verb = "detach".toList then some (.detach id)
      else if verb = "release-inputs".toList then some (.release id)
      else none
  | [noun, name] =>
      if noun = "inputs".toList && name ≠ [] then some (.input id (String.ofList name)) else none
  | _ => none

/-- The routes without variable pieces. -/
def fixed : List (String × Route) := [
  ("api/palette", .palette),
  ("api/blocks", .blocks),
  ("api/drag/start", .dragStart),
  ("api/drag/move", .dragMove),
  ("api/drag/end", .dragEnd),
  ("api/generate", .code),
  ("api/import", .reading),
  ("api/workspace/save", .save),
  ("api/workspace/load", .load),
  ("api/workspace/clear", .clear),
  ("api/canvas/state", .overview)]

/-- The route of the pieces of a path, if some of them vary. -/
def ofPieces? : List (List Char) → Option Route
  | ['a', 'p', 'i'] :: noun :: piece :: rest =>
      if piece = [] then none
      else if noun = "blocks".toList then ofBlock? (String.ofList piece) rest
      else if rest ≠ [] then none
      else if noun = "palette".toList then (index? piece).map .entry
      else if noun = "export".toList then some (.bundle (String.ofList piece))
      else none
  | _ => none

/-- The route of a path. -/
def ofPath? (path : List Char) : Option Route :=
  (fixed.lookup (String.ofList path)).or (ofPieces? (cutAt '/' path))

/-- The rules of a route, each a list of methods.  Where something can be shown, it
can be shown without the answer as well.  A list is shown by one rule and added to by
another. -/
def rules : Route → List (List Method)
  | .palette | .blocks => [[.get, .head], [.post]]
  | .entry _ | .block _ => [[.delete]]
  | .bundle _ | .overview => [[.get, .head]]
  | _ => [[.post]]

end Route

/-- Whether a path is that of a file.  The name of a file does not start with a
slash, and holds no line feed behind its first character. -/
def isFilePath (path : List Char) : Bool :=
  match Text.dropLiteral? "static/".toList path with
  | some (c :: cs) => c ≠ '/' && !cs.contains '\n'
  | _ => false

/-- The rules of a path, if it is known. -/
def rulesOf? (path : List Char) : Option (List (List Method)) :=
  if isFilePath path then some [[.get, .head]] else (Route.ofPath? path).map Route.rules

/-- Whether a rule knows a method.  Every rule can be asked for its methods. -/
def knows (method : Method) (rule : List Method) : Bool :=
  method = .options || rule.contains method

/-- A path with every run of slashes as one. -/
def mergeSlashes : List Char → List Char
  | [] => []
  | c :: cs =>
      let rest := mergeSlashes cs
      if c = '/' && rest.head? = some '/' then rest else c :: rest

example : Route.ofPath? "api/palette/007".toList = some (.entry 7) := by decide +kernel
example : Route.ofPath? "api/blocks/a/inputs/".toList = none := by decide +kernel
example : mergeSlashes ['a', '/', '/', '/', 'b', '/', '/'] = ['a', '/', 'b', '/'] := by decide

end Blockwork.Web
