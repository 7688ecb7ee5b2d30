import Blockwork.Web.Request
import Blockwork.Workspace.Overview
import Blockwork.Workspace.Share

/-!
# Answering requests

Every route is a step on the workspace that leads to a reply.  A reply is wrapped
with `success` true.  A fault is wrapped with `success` false and its message, and
with its details if it has any: a fault of the request has status 400, and a
breakdown has status 500 and says no more than that it was not expected.  A path
that is no route has status 404, a method that the route does not know 405, and
neither says anything.  Where merging runs of slashes would give a route, the
answer points there with status 308.  No rule is for sockets, so a socket is refused
with status 400, or with 405 if some rule of the path does not know its method.

An answer lists the members of every object by name.  Languages that cannot be
compared cannot be listed, so an answer with a template for null and one for a
text is a breakdown, although the step has been taken.
-/

namespace Blockwork.Web

variable {σ : Type}

/-! ## Replies -/

/-- What a request leads to. -/
structure Reply where
  status : Nat := 200
  data : Json

/-- A value that is a text. -/
def isText : Json → Bool
  | .str _ => true
  | _ => false

/-- A value that is a number. -/
def isNumber : Json → Bool
  | .bool _ | .int _ | .float _ => true
  | _ => false

/-- Whether the languages of templates can be listed by name. -/
def listable (t : Templates) : Bool :=
  let keys := t.entries.map Prod.fst
  keys.length ≤ 1 || keys.all isText || keys.all isNumber

/-- Templates that an answer lists. -/
def demandListable (t : Templates) : Except Fault Unit :=
  if listable t then .ok () else .error (.breakdown .wrongType)

/-- A definition in an answer. -/
def showDefinition (d : Definition) : Except Fault Json := do
  demandListable d.templates
  return d.toJson Templates.writtenName

/-- A definition in an answer, with its display name. -/
def showEntry (d : Definition) : Except Fault Json := do
  match ← showDefinition d with
  | .obj members => return .obj (members ++ [("displayName", .str d.displayName)])
  | v => return v

/-- A block in an answer. -/
def showBlock (id : BlockId) : WorkspaceM σ Json := do
  let b ← Workspace.require id
  Workspace.ofExcept (demandListable b.templates)
  return Bundle.record Templates.writtenName id b

/-- Ids in an answer. -/
def showIds (ids : List BlockId) : Json := .arr (ids.map .str)

/-! ## The palette -/

/-- List the palette, or what matches the query `q`. -/
def listPalette (a : Address) : WorkspaceM σ Reply := do
  let p := (← get).palette
  let query := (a.value? "q").getD ""
  let found ← if query = "" then pure p
    else Workspace.ofExcept (p.search query Palette.defaultLimit)
  return { data := .arr (← Workspace.ofExcept (found.mapM showEntry)) }

/-- The draft that a body describes. -/
def draftOf (payload : Json) : Except Fault Palette.Draft := do
  return {
    label := (← field? payload "label").getD (.str "")
    kind := ((← field payload "kind").orElse (← field payload "type")).orElse (.str "command")
    color := (← field payload "color").orElse (.str "#4C97FF")
    templates := ← field payload "templates"
    containerVar := ← field payload "containerVar" }

/-- Add a definition to the palette. -/
def addDefinition (payload : Json) : WorkspaceM σ Reply := do
  let index ← Workspace.addDraft (← Workspace.ofExcept (draftOf payload))
  let d ← Workspace.entry index
  return {
    status := 201
    data := .obj [
      ("index", .int index),
      ("definition", ← Workspace.ofExcept (showDefinition d))] }

/-- Remove a definition from the palette. -/
def removeDefinition (index : Nat) : WorkspaceM σ Reply := do
  let d ← Workspace.removeEntry index
  return { data := .obj [("removed", ← Workspace.ofExcept (showDefinition d))] }

/-! ## Blocks -/

def listBlocks : WorkspaceM σ Reply := do
  let r ← Workspace.blocks
  let records ← r.ids.mapM showBlock
  return { data := .obj [("instances", .arr records), ("roots", showIds r.roots)] }

/-- Make a block from the palette. -/
def createBlock (payload : Json) : WorkspaceM σ Reply := do
  unless ← Workspace.ofExcept (mentions payload "index") do throw (.request .noIndex)
  let i ← Workspace.ofExcept (index payload "index")
  let x ← Workspace.ofExcept (coordinate payload "x" 10.0)
  let y ← Workspace.ofExcept (coordinate payload "y" 10.0)
  let id ← Workspace.addEntry i ⟨x, y⟩
  return { status := 201, data := ← showBlock id }

/-- Set the text of an input. -/
def setInput (id : BlockId) (name : String) (payload : Json) : WorkspaceM σ Reply := do
  let v ← Workspace.ofExcept (field? payload "value")
  Workspace.setInput id name (v.getD (.str ""))
  return { data := ← showBlock id }

variable [Provider σ]

def removeBlock (id : BlockId) : WorkspaceM σ Reply := do
  return { data := .obj [("removed", showIds (← Workspace.remove id))] }

/-- Give a block a parent: the body of another block, or an input of it. -/
def attachBlock (id : BlockId) (payload : Json) : WorkspaceM σ Reply := do
  let parent ← Workspace.ofExcept (field payload "parentId")
  unless parent.isTruthy do throw (.request .noParent)
  let slot ← Workspace.ofExcept (field payload "varname")
  let _ ← Workspace.require id
  let parent ← Workspace.ofExcept (blockId parent)
  match slot.given? with
  | none => Workspace.move id parent none
  | some (.str name) => Workspace.move id parent (some name)
  | some v => Workspace.refuseInput id parent v
  return { data := ← showBlock id }

/-- Bring a block to the top level. -/
def detachBlock (id : BlockId) : WorkspaceM σ Reply := do
  let detached ← Workspace.detach id
  return { data := .obj [("detached", .bool detached), ("block", ← showBlock id)] }

/-- Bring the blocks of all inputs to the top level. -/
def releaseInputs (id : BlockId) : WorkspaceM σ Reply := do
  return { data := .obj [("released", showIds (← Workspace.releaseInputs id))] }

/-! ## Dragging -/

/-- Pick up a block that is there, or one made from the palette. -/
def pickUp (payload : Json) (p : Point) : WorkspaceM σ BlockId := do
  match ← Workspace.ofExcept (field payload "paletteIndex") with
  | .null =>
      match (← Workspace.ofExcept (field payload "blockId")).given? with
      | none => throw (.request .nothingToDrag)
      | some v =>
          Workspace.demandNoDrag
          let id ← Workspace.ofExcept (blockId v)
          let _ ← Workspace.startDrag id p
          return id
  | _ => Workspace.startPaletteDrag (← Workspace.ofExcept (index payload "paletteIndex")) p

def startDrag (payload : Json) : WorkspaceM σ Reply := do
  let p ← Workspace.ofExcept (pointer payload)
  let id ← pickUp payload p
  return { data := .obj [("blockId", .str id), ("state", .str DragState.dragging.name)] }

/-- Move the dragged block. -/
def moveDrag (payload : Json) : WorkspaceM σ Reply := do
  Workspace.moveDrag (← Workspace.ofExcept (pointer payload))
  let id := ((← Workspace.activeDrag).block).getD ""
  let b ← Workspace.require id
  return { data := .obj [
    ("blockId", .str id), ("x", .float b.position.x), ("y", .float b.position.y)] }

/-- A target in an answer. -/
def showTarget (t : Target) : Json :=
  .obj [("kind", .str t.name), ("parentId", .ofText? t.block?), ("varname", .ofText? t.slot?)]

/-- Drop the dragged block. -/
def endDrag (payload : Json) : WorkspaceM σ Reply := do
  let state ← Workspace.endDrag (← Workspace.ofExcept (pointer payload))
  let s := (← get).lastDrag.getD {}
  return { data := .obj [
    ("blockId", .ofText? s.block),
    ("state", .str state.name),
    ("target", showTarget (s.target.getD .nowhere)),
    ("removed", showIds s.removed)] }

/-! ## Code, bundles and saving -/

omit [Provider σ] in
def generateCode (payload : Json) : WorkspaceM σ Reply := do
  let language ← Workspace.ofExcept (field payload "language")
  let language := language.orElse (← get).settings.defaultLanguage
  return { data := .obj [("language", language), ("code", .str (← Workspace.generate language))] }

omit [Provider σ] in
def exportBundle (variant : String) (a : Address) : WorkspaceM σ Reply := do
  let language := Json.ofText? (a.value? "language")
  let data ← Workspace.exported Templates.writtenName (.str variant) language
  let w ← get
  if variant ≠ Bundle.Variant.instances.name then
    Workspace.ofExcept (w.palette.forM fun d => demandListable d.templates)
  if variant ≠ Bundle.Variant.definitions.name then
    Workspace.ofExcept (w.board.registry.entries.forM fun e => demandListable e.2.templates)
  return { data }

/-- What an import has done. -/
def showImported (i : Workspace.Imported) : Json :=
  .obj ([
    ("applied", .arr (i.parts.map .str)),
    ("definition_count", .int i.definitions),
    ("block_count", .int i.blocks)] ++
    match i.code with
    | some (code, language) => [("code", .str code), ("language", .str language)]
    | none => [])

/-- Import a bundle.  A body that is not JSON, or is null, is read as a text. -/
def importBundle (r : Request) : WorkspaceM σ Reply := do
  let payload := match r.json? with
    | none | some .null => .str r.body
    | some v => v
  return { data := showImported (← Workspace.importBundle payload) }

omit [Provider σ] in
def saveWorkspace : WorkspaceM σ Reply := do
  let s ← Workspace.save
  return { data := .obj [
    ("key", s.key), ("definition_count", .int s.definitions), ("block_count", .int s.blocks)] }

/-- Load what was saved. -/
def loadWorkspace : WorkspaceM σ Reply := do
  let loaded ← Workspace.load
  return { data := .obj [
    ("loaded", .bool loaded), ("block_count", .int (← Workspace.blocks).size)] }

def clearWorkspace : WorkspaceM σ Reply := do
  Workspace.clear
  return { data := .obj [("cleared", .bool true)] }

/-! ## Answers -/

/-- The step of a route, for one of its methods. -/
def step (r : Request) (a : Address) : Route → Method → WorkspaceM σ Reply
  | .palette, .post => addDefinition r.payload
  | .palette, _ => listPalette a
  | .entry i, _ => removeDefinition i
  | .blocks, .post => createBlock r.payload
  | .blocks, _ => listBlocks
  | .block id, _ => removeBlock id
  | .input id name, _ => setInput id name r.payload
  | .attach id, _ => attachBlock id r.payload
  | .detach id, _ => detachBlock id
  | .release id, _ => releaseInputs id
  | .dragStart, _ => startDrag r.payload
  | .dragMove, _ => moveDrag r.payload
  | .dragEnd, _ => endDrag r.payload
  | .code, _ => generateCode r.payload
  | .bundle variant, _ => exportBundle variant a
  | .reading, _ => importBundle r
  | .save, _ => saveWorkspace
  | .load, _ => loadWorkspace
  | .clear, _ => clearWorkspace
  | .overview, _ => do return { data := Workspace.overview (← get) }

/-- An answer. -/
structure Response where
  status : Nat
  /-- The body, if the answer has one. -/
  body : Option Json

/-- The answer for a fault. -/
def faultResponse (f : Fault) : Response :=
  match f.message? with
  | some message =>
      ⟨400, some (.obj ([("success", .bool false), ("error", .str message)] ++
        if f.details.isEmpty then [] else [("details", .obj f.details)]))⟩
  | none => ⟨500, some (.obj [("success", .bool false), ("error", .str "unexpected")])⟩

/-- The answer of a step. -/
def responseOf : Except Fault Reply → Response
  | .ok r => ⟨r.status, some (.obj [("success", .bool true), ("data", r.data)])⟩
  | .error f => faultResponse f

/-- Take the step of a route.  What is only shown may be shown without the
answer. -/
def takeStep (r : Request) (a : Address) (route : Route) (method : Method) :
    StateM (Workspace σ) Response := do
  let response := responseOf (← step r a route method)
  return if method = .head then { response with body := none } else response

/-- The answer for a path that is no route. -/
def strayResponse (path : List Char) (method : Method) : Response :=
  match rulesOf? (mergeSlashes path) with
  | none => ⟨404, none⟩
  | some rules => if rules.any (knows method) then ⟨308, none⟩ else ⟨405, none⟩

/-- The answer for a socket. -/
def socketResponse (path : List Char) (method : Method) : Response :=
  match rulesOf? (mergeSlashes path) with
  | none => ⟨404, none⟩
  | some rules => if rules.all (knows method) then ⟨400, none⟩ else ⟨405, none⟩

/-- Answer a request. -/
def answer (r : Request) : StateM (Workspace σ) Response := do
  let a := Address.ofTarget r.target
  let method := Method.ofName r.method
  if a.socket then return socketResponse a.path method
  match rulesOf? a.path with
  | none => return strayResponse a.path method
  | some rules =>
      if method = .options then return ⟨200, none⟩
      if !rules.any (knows method) then return ⟨405, none⟩
      match Route.ofPath? a.path with
      | some route => takeStep r a route method
      | none => return ⟨404, none⟩

end Blockwork.Web
