import Blockwork.Workspace.Basic

/-!
# Code, snapshots and saving

A workspace generates code, exports bundles and imports them, and is saved in the
store under the key of the settings.  All but generating wait until no block is
being dragged.

An import is read completely before anything changes.  Its definitions replace the
palette, its blocks replace the blocks, and what it does not have stays.
-/

namespace Blockwork.Workspace

variable {σ : Type}

/-- What code is generated with. -/
def generator (w : Workspace σ) : Code.Generator := ⟨w.languages, w.settings.defaultLanguage⟩

/-- The code of the workspace for a language. -/
def generate (language : Json) : WorkspaceM σ String := do
  let w ← get
  ofExcept (Definition.lift (Code.generate w.generator w.board.registry language))

/-- The code of one block.  The answer has the functions defined so far and
afterwards. -/
def blockCode (language : Json) (indent : String) (functions : Code.Functions) (id : BlockId) :
    WorkspaceM σ (Except Fault String × Code.Functions) := do
  let w ← get
  let (r, functions) :=
    (Code.blockCode w.generator w.board.registry language indent id).run functions
  return (Definition.lift r, functions)

/-- The snapshot of the workspace. -/
def snapshot (naming : Templates.Naming) : WorkspaceM σ Json := do
  demandNoDrag
  let w ← get
  return Bundle.snapshot naming w.palette w.board.registry

/-- An export.  A language that does not count as given is the default one. -/
def exported (naming : Templates.Naming) (variant language : Json) : WorkspaceM σ Json := do
  demandNoDrag
  match Bundle.Variant.ofJson? variant with
  | none => throw (.naming variant (.payload (.unknownVariant variant)))
  | some v =>
      let language := language.orElse (← get).settings.defaultLanguage
      let code ← match v with
        | .project => generate language
        | _ => pure ""
      let w ← get
      return Bundle.exported naming v w.palette w.board.registry code language

/-- What an import has done. -/
structure Imported where
  /-- The names of the parts that were there. -/
  parts : List String
  /-- The number of definitions afterwards. -/
  definitions : Nat
  /-- The number of blocks afterwards. -/
  blocks : Nat
  /-- The code with its language, if they were there. -/
  code : Option (String × String)

variable [Provider σ]

/-- Replace all blocks, and lay them out anew. -/
def replaceBlocks (r : Registry) : BoardM σ Unit := do
  Board.setBlocks r
  Board.ask Provider.reset
  Board.refresh

/-- Import a bundle, from a value or from a text that holds one. -/
def importBundle (payload : Json) : WorkspaceM σ Imported := do
  demandNoDrag
  let contents ← ofExcept (Bundle.read payload)
  match contents.definitions with
  | some palette => modify fun w => { w with palette }
  | none => pure ()
  match contents.registry with
  | some r => onBoard (replaceBlocks r)
  | none => pure ()
  changed
  let w ← get
  return ⟨contents.parts, w.palette.length, w.board.registry.size, contents.code⟩

/-! ## Saving -/

def demandStore : WorkspaceM σ Store := do
  match (← get).store with
  | some s => return s
  | none => throw (.store .absent)

/-- What saving has written: the key, the number of definitions and that of
blocks. -/
structure Saved where
  key : Json
  /-- The number of definitions. -/
  definitions : Nat
  /-- The number of blocks. -/
  blocks : Nat

/-- Save the snapshot. -/
def save : WorkspaceM σ Saved := do
  let store ← demandStore
  demandNoDrag
  let w ← get
  let text ← ofExcept (Definition.lift (Bundle.snapshotText w.palette w.board.registry))
  let store ← ofExcept (store.keep w.settings.storageKey (.str text))
  modify fun w => { w with store := some store }
  return ⟨w.settings.storageKey, w.palette.length, w.board.registry.size⟩

/-- Load the saved snapshot.  The answer is whether there was one. -/
def load : WorkspaceM σ Bool := do
  let store ← demandStore
  match ← ofExcept (store.underKey (← get).settings.storageKey store.load? (.ok none)) with
  | none => return false
  | some text =>
      let _ ← importBundle (.str text)
      return true

/-- Drop all blocks, go back to the standard palette, and delete the saved
snapshot. -/
def clear : WorkspaceM σ Unit := do
  demandNoDrag
  onBoard (Board.setBlocks .empty)
  ask Provider.reset
  modify fun w => { w with palette := .standard }
  match (← get).store with
  | some store =>
      let key := (← get).settings.storageKey
      let (_, store) ← ofExcept (store.underKey key store.delete (.ok (false, store)))
      modify fun w => { w with store := some store }
  | none => pure ()
  changed

end Blockwork.Workspace
