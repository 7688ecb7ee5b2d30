import Blockwork.Code.Language
import Blockwork.Decimal.Numeral
import Blockwork.Store.Basic
import Blockwork.Unicode.Blank

/-!
# Settings

A setting is looked up in three places: in the store, in the environment, and in
the defaults.  A stored setting counts as it is.  A variable of the environment
counts without the blanks at its ends, and not at all when it is blank.  A width
or height that is no numeral gives way to the default.  Settings that are looked up
are texts, but a workspace can be given others.
-/

namespace Blockwork

/-- The variables of the environment. -/
abbrev Environment := List (String × String)

/-- A variable without the blanks at its ends, if anything is left. -/
def Environment.value? (env : Environment) (name : String) : Option String :=
  match (env.lookup name).map Unicode.strip with
  | some v => if v = "" then none else some v
  | none => none

/-- The settings of a workspace. -/
structure Settings where
  /-- The key under which the workspace is saved. -/
  storageKey : Json := .str "block_editor.save"
  /-- The language of code when none is named. -/
  defaultLanguage : Json := .str Code.standardLanguage
  /-- The width of the screen. -/
  width : Float := 1920.0
  /-- The height of the screen. -/
  height : Float := 1080.0

namespace Settings

/-- A setting, from the store or the environment. -/
def lookup? (store : Option Store) (env : Environment) (key : Json) (envVar : String) :
    Except Fault (Option String) := do
  let stored ← match store with
    | some s => s.underKey key s.setting? (.ok none)
    | none => .ok none
  return stored.or (env.value? envVar)

/-- A setting that is a number. -/
def number (store : Option Store) (env : Environment) (key envVar : String) (default : Float) :
    Except Fault Float := do
  return ((← lookup? store env (.str key) envVar).bind Decimal.readFloat?).getD default

/-- The settings in effect. -/
def load (store : Option Store) (env : Environment) : Except Fault Settings := do
  let defaults : Settings := {}
  let storageKey ← lookup? store env (.str "storage_key") "BLOCK_EDITOR_STORAGE_KEY"
  let language ← lookup? store env (.str "default_language") "BLOCK_EDITOR_DEFAULT_LANGUAGE"
  let width ← number store env "workspace_width" "BLOCK_EDITOR_WORKSPACE_WIDTH" defaults.width
  let height ← number store env "workspace_height" "BLOCK_EDITOR_WORKSPACE_HEIGHT" defaults.height
  return {
    storageKey := (storageKey.map .str).getD defaults.storageKey
    defaultLanguage := (language.map .str).getD defaults.defaultLanguage
    width
    height }

/-! ## The path of the store -/

/-- The parts of a path between its slashes. -/
def pathParts (part : List Char) : List Char → List (List Char)
  | [] => [part]
  | '/' :: cs => part :: pathParts [] cs
  | c :: cs => pathParts (part ++ [c]) cs

/-- Add a part to a path, its last part first.  An empty part and a single point
stay where they are, and two points go up. -/
def walkPart (path : List (List Char)) (part : List Char) : List (List Char) :=
  if part = [] || part = ['.'] then path
  else if part = ['.', '.'] then
    match path with
    | [] => [part]
    | top :: rest => if top = ['.', '.'] then part :: path else rest
  else part :: path

/-- A relative path without detours. -/
def plainPath (s : String) : String :=
  match (pathParts [] s.toList).foldl walkPart [] with
  | [] => "."
  | p :: ps => String.ofList (ps.foldl (fun done q => q ++ '/' :: done) p)

/-- The path of the store, relative to the working directory. -/
def storePath (env : Environment) : String :=
  plainPath ((env.value? "BLOCK_EDITOR_DB_PATH").getD "block_editor.db")

example : (pathParts [] ['a', '/', '/', 'b']).foldl walkPart [] = [['b'], ['a']] := by decide

end Settings

end Blockwork
