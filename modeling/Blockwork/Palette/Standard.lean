import Blockwork.Block.Definition

/-!
# The standard palette

The palette starts with nine definitions that cover every kind of block.  Each has
templates for JavaScript, Python and C.
-/

namespace Blockwork

/-- A definition with a template for each of the three languages. -/
def standardDefinition (label : String) (kind : Kind) (color javascript python c : String) :
    Definition where
  label := label
  kind := kind
  color := .str color
  templates := ⟨[(.str "javascript", .str javascript), (.str "python", .str python),
    (.str "c", .str c)]⟩

/-- The definitions that the palette starts with. -/
def standardDefinitions : List Definition := [
    standardDefinition "say %text" .command "#4C97FF"
      "console.log(%text);" "print(%text)" "printf(\"%s\\n\", %text);",
    standardDefinition "wait %seconds seconds" .command "#FFAB19"
      "await new Promise(r => setTimeout(r, %seconds * 1000));"
      "import time\ntime.sleep(%seconds)" "sleep(%seconds);",
    standardDefinition "repeat %times times" .container "#FF6680"
      "for (let i = 0; i < %times; i++) \x7b\n%body\n\x7d"
      "for i in range(%times):\n    %body"
      "for (int i = 0; i < %times; i++) \x7b\n%body\n\x7d",
    standardDefinition "if %condition then" .container "#2EBA55"
      "if (%condition) \x7b\n%body\n\x7d" "if %condition:\n    %body"
      "if (%condition) \x7b\n%body\n\x7d",
    standardDefinition "if %condition then else" .container "#1E90FF"
      "if (%condition) \x7b\n%then\n\x7d else \x7b\n%else\n\x7d"
      "if %condition:\n    %then\nelse:\n    %else"
      "if (%condition) \x7b\n%then\n\x7d else \x7b\n%else\n\x7d",
    standardDefinition "define %name" .function "#FF8C1A"
      "%name = %body" "%name = %body" "%name = %body",
    standardDefinition "call %name" .command "#FF8C1A" "%name" "%name" "%name",
    standardDefinition "%a + %b" .reporter "#FFCA28" "(%a + %b)" "(%a + %b)" "(%a + %b)",
    standardDefinition "%a > %b" .boolean "#F44336" "(%a > %b)" "(%a > %b)" "(%a > %b)"]

end Blockwork
