import Blockwork.Code.Language
import Blockwork.Code.Placeholder
import Blockwork.Code.Quotes
import Blockwork.Registry

/-!
# Generating code

The code of a block is its template with the placeholders filled in.  The template
is the one for the language, or else the one for the default language, or else
empty.  Inputs come first, in the order of the slots: the code of the block over
the input, or the literal text.  Then the code of the body goes where the body
placeholder is.  In an indented language every line break is followed by the
indentation of its level.  Last, quotes are dropped (`dropQuotes`).

A text that reads `name = %body`, up to blanks, defines a function.  It generates
nothing.  The code of its body goes into the table of functions under the name,
and a later text that is just the name, up to blanks, becomes that code, brought
to the indentation of its place.

The table is all that one block leaves for the next.  Generation goes down along
the children, and the number of live blocks bounds how deep.
-/

namespace Blockwork.Code

open Blockwork.Unicode (isBlank isWord strip)
open Blockwork.Text (dropLiteral? replaceAll)

/-! ## Functions -/

/-- The code of the body of a function, and the indentation of its lines. -/
structure Hoisted where
  /-- The code. -/
  body : String
  /-- The indentation it was generated at. -/
  indent : String
deriving DecidableEq, Repr

/-- The functions defined so far, by name. -/
abbrev Functions := List (String × Hoisted)

/-- Define a function.  A name that is defined again keeps its place. -/
def Functions.define (fs : Functions) (name : String) (h : Hoisted) : Functions :=
  Table.set fs name h

@[simp] theorem Functions.lookup_define (fs : Functions) (name x : String) (h : Hoisted) :
    (fs.define name h).lookup x = if x = name then some h else fs.lookup x :=
  Table.lookup_set fs name x h

/-- The name that a text defines as the code of the body, if it does. -/
def definedName? (text bodyVar : List Char) : Option (List Char) :=
  let rest := text.dropWhile isBlank
  match rest.takeWhile isWord, (rest.dropWhile isWord).dropWhile isBlank with
  | [], _ => none
  | name, '=' :: rest =>
      match dropLiteral? ('%' :: bodyVar) (rest.dropWhile isBlank) with
      | some rest => if rest.all isBlank then some name else none
      | none => none
  | _, _ => none

/-- A text with another indentation behind its line breaks. -/
def reindent (text old new : String) : String :=
  String.ofList (replaceAll ('\n' :: old.toList) ('\n' :: new.toList) text.toList)

/-- The code of a function at the indentation of a call. -/
def Hoisted.at (h : Hoisted) (language : Language) (indent : String) : String :=
  if !language.indented || h.indent = indent then h.body else reindent h.body h.indent indent

/-! ## Blocks -/

/-- What generation is done with. -/
structure Generator where
  /-- The table of languages. -/
  languages : List Language := standardLanguages
  /-- The default language. -/
  defaultLanguage : Json := .str standardLanguage

/-- A step of generation.  It may break down, and keeps the functions. -/
abbrev GenM := ExceptT Breakdown (StateM Functions)

/-- Texts that are not empty, with a separator between them. -/
def joinCode (separator : String) (codes : List String) : String :=
  joinTexts separator (codes.filter (· ≠ ""))

/-- The template of a block for a language.  The default language is looked up only
where it is needed, and a list or an object cannot be. -/
def selectTemplate (g : Generator) (b : Block) (language : Json) : Except Breakdown Json :=
  match (b.templates.get? language).bind Json.given? with
  | some template => .ok template
  | none =>
      if g.defaultLanguage.isScalar then
        .ok (((b.templates.get? g.defaultLanguage).bind Json.given?).getD (.str ""))
      else .error .wrongType

/-- A value as a text. -/
def demandText : Json → GenM String
  | .str s => return s
  | _ => throw .wrongType

/-- The template of a block at an indentation. -/
def indentTemplate (language : Language) (indent : String) (template : Json) : GenM Json :=
  if language.indented && indent ≠ "" then
    match template with
    | .str s => return .str (reindent s "" indent)
    | _ => throw .missingOperation
  else return template

/-- Fill in the inputs of a block, one after the other. -/
def fillInputs (r : Registry) (code : BlockId → GenM String) :
    Json → List (String × Slot) → GenM Json
  | text, [] => return text
  | text, (name, slot) :: rest => do
      let value ← match slot.child with
        | some child => if r.contains child then code child else pure slot.literal
        | none => pure slot.literal
      let s ← demandText text
      fillInputs r code (.str (substitute s name value)) rest

/-- The codes of blocks, one after the other. -/
def codes (code : BlockId → GenM String) : List BlockId → GenM (List String)
  | [] => return []
  | id :: ids => do return (← code id) :: (← codes code ids)

/-- Put the code of the body into the text of a block, or define a function.  The
answer is the text, unless a function was defined. -/
def fillBody (b : Block) (text : Json) (inner childIndent : String) : GenM (Option String) :=
  match b.containerVar.bind Json.given? with
  | some v => do
      let bodyVar ← demandText v
      let s ← demandText text
      match definedName? s.toList bodyVar.toList with
      | some name =>
          modify (·.define (String.ofList name) ⟨inner, childIndent⟩)
          return none
      | none => return some (substitute s bodyVar inner)
  | none => do return some (substituteFallback (← demandText text) inner)

/-- The code for the finished text of a block: that of a function if it is a call
of one. -/
def finishText (language : Language) (indent : String) (text : String) : GenM String := do
  match (← get).lookup (strip text) with
  | some h => return h.at language indent
  | none => return dropQuotes text

/-- The code of a block, given how to find that of its children. -/
def blockCodeBy (g : Generator) (r : Registry) (name : Json)
    (code : String → BlockId → GenM String) (indent : String) (b : Block) : GenM String := do
  let language ← (Language.find g.languages name : Except Breakdown Language)
  let childIndent ← (language.deeper indent : Except Breakdown String)
  let template ← (selectTemplate g b name : Except Breakdown Json)
  let template ← indentTemplate language indent template
  let text ← fillInputs r (code childIndent) template b.slots
  let nested ← codes (code childIndent) (b.nested.filter r.contains)
  let separator := if language.indented then "\n" ++ childIndent else "\n"
  match ← fillBody b text (joinCode separator nested) childIndent with
  | some text => finishText language indent text
  | none => return ""

/-- The code of a block, following `n` levels of children.  A block that is not
live has none. -/
def blockCodeWithin (g : Generator) (r : Registry) (name : Json) :
    Nat → String → BlockId → GenM String
  | n, indent, id =>
      match r.get? id with
      | none => return ""
      | some b =>
          match n with
          | 0 => throw .endless
          | n + 1 => blockCodeBy g r name (blockCodeWithin g r name n) indent b

/-- The code of a block at an indentation. -/
def blockCode (g : Generator) (r : Registry) (name : Json) (indent : String) (id : BlockId) :
    GenM String :=
  blockCodeWithin g r name (r.size + 1) indent id

/-- The code of all blocks at the top level, in order of creation.  A language
that does not count as given is the default one. -/
def generate (g : Generator) (r : Registry) (language : Json) : Except Breakdown String :=
  let name := language.orElse g.defaultLanguage
  ((codes (blockCode g r name "") r.roots).run []).1.map (joinCode "\n")

end Blockwork.Code
