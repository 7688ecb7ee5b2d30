import Blockwork.Proofs.Code.Indentation
import Blockwork.Proofs.Code.PercentNames

/-!
# Filling in one by one and all at once

The generator fills in the inputs of a block one after the other, each time in the whole text
that has come about so far, and the body last.  So what goes in first is read again for what
goes in later.

Where names are separated in the template, and the values of the inputs have no percent signs,
nothing comes of that.  The text is the one that a single pass over the template makes: behind
every percent sign the longest run of word characters is read as a name, an input of that name
gives its value, otherwise a body placeholder of that name gives the body, and all else is
copied.  A pass does not know the order of the inputs.
-/

namespace Blockwork.Code

open Text (Pattern dropLiteral? IsName Separated fillNames named)
open Unicode (isWord startsWithWord)

/-! ## One name -/

section Names

variable {name value cs rest indent : List Char} {c : Char}

/-- A placeholder of a name stands where the longest run of word characters behind a percent
sign is the name. -/
theorem placeholderAt?_percent (hname : IsName name) (rest : List Char) :
    placeholderAt? name ('%' :: rest) =
      if rest.takeWhile isWord = name then some (name.length + 1) else none := by
  have hdrop : dropLiteral? ('%' :: name) ('%' :: rest) = dropLiteral? name rest := by
    simp [dropLiteral?]
  rw [placeholderAt?, hdrop]
  by_cases hrun : rest.takeWhile isWord = name
  · have hsplit : rest = name ++ rest.dropWhile isWord := by
      rw [← hrun, List.takeWhile_append_dropWhile]
    rw [if_pos hrun, Text.dropLiteral?_eq_some_iff.2 hsplit]
    simp [Text.startsWithWord_dropWhile]
  · rw [if_neg hrun]
    cases hd : dropLiteral? name rest with
    | none => rfl
    | some tail =>
      cases hword : startsWithWord tail with
      | true => simp [hword]
      | false =>
        rw [Text.dropLiteral?_eq_some_iff.1 hd, Text.takeWhile_name hname hword] at hrun
        exact absurd rfl hrun

theorem placeholderAt?_of_ne (hc : c ≠ '%') (cs : List Char) :
    placeholderAt? name (c :: cs) = none := by
  rw [placeholderAt?]
  simp [dropLiteral?, Ne.symm hc]

/-- The names of a list have one value, and no other name has any. -/
def sameValue? (names : List (List Char)) (value name : List Char) : Option (List Char) :=
  if name ∈ names then some value else none

/-- Filling in one name is a pass that knows one name. -/
theorem substituteChars_eq (hname : IsName name) (cs value : List Char) :
    substituteChars cs name value = fillNames (sameValue? [name] value) cs := by
  have hpattern : placeholder name value = named (sameValue? [name] value) := by
    funext b cs
    cases cs with
    | nil => rfl
    | cons c cs =>
      by_cases hc : c = '%'
      · subst hc
        rw [placeholder, placeholderAt?_percent hname, named, sameValue?]
        by_cases hrun : cs.takeWhile isWord = name <;> simp [hrun]
      · rw [placeholder, placeholderAt?_of_ne hc, Text.named_of_ne hc]
        rfl
  rw [substituteChars, hpattern, fillNames]

theorem isName_of_mem_fallbackNames : ∀ name ∈ fallbackNames, IsName name := by decide +kernel

theorem fallback_eq (value : List Char) :
    fallback value = named (sameValue? fallbackNames value) := by
  have hfound (names : List (List Char)) (h : ∀ name ∈ names, IsName name) (cs : List Char) :
      names.findSome? (placeholderAt? · ('%' :: cs)) =
        if cs.takeWhile isWord ∈ names then some ((cs.takeWhile isWord).length + 1) else none := by
    induction names with
    | nil => rfl
    | cons name names ih =>
      obtain ⟨hname, hnames⟩ := List.forall_mem_cons.1 h
      rw [List.findSome?_cons, placeholderAt?_percent hname, ih hnames]
      by_cases hrun : cs.takeWhile isWord = name <;> simp [hrun]
  funext b cs
  cases cs with
  | nil => rfl
  | cons c cs =>
    by_cases hc : c = '%'
    · subst hc
      rw [fallback, hfound _ isName_of_mem_fallbackNames, named, sameValue?]
      by_cases hrun : cs.takeWhile isWord ∈ fallbackNames <;> simp [hrun]
    · have hnone : fallbackNames.findSome? (placeholderAt? · (c :: cs)) = none :=
        List.findSome?_eq_none_iff.2 fun name _ => placeholderAt?_of_ne hc cs
      rw [fallback, hnone, Text.named_of_ne hc]
      rfl

/-! ## Laying out -/

theorem not_percent_overhang (hindent : '%' ∉ indent) (c : Char) : '%' ∉ overhang indent c := by
  rw [overhang]
  split
  · exact hindent
  · exact List.not_mem_nil

/-- An indentation without percent signs leaves the names of a template separated. -/
theorem separated_hang (hindent : '%' ∉ indent) (h : Separated cs) :
    Separated (hang indent cs) := by
  induction cs with
  | nil => exact h
  | cons c cs ih =>
    obtain ⟨hhead, hcs⟩ := Text.separated_cons_iff.1 h
    have hover := not_percent_overhang hindent c
    refine Text.separated_cons_iff.2 ⟨?_, Separated.append hover (ih hcs)⟩
    rintro rfl
    rw [overhang_of_ne (by decide), List.nil_append, dropWhile_hang not_isWord_newline]
    have hrest := hhead rfl
    cases hd : cs.dropWhile isWord with
    | nil => exact nofun
    | cons d rest =>
      rw [hd] at hrest
      exact hrest

end Names

/-! ## Inputs and body -/

section Values

variable {b : Block} {template inner : String} {values : List (String × String)} {cs : List Char}

/-- What a name stands for in a list of names with values, the first if there are several. -/
def inputValue? (values : List (String × String)) (name : List Char) : Option (List Char) :=
  (values.lookup (String.ofList name)).map String.toList

/-- Fill in names one after the other. -/
def fillEach (text : String) (values : List (String × String)) : String :=
  values.foldl (fun text v => substitute text v.1 v.2) text

/-- The names that stand for the body of a block. -/
def bodyNames (b : Block) : List (List Char) :=
  match b.containerVar.bind Json.given? with
  | some (.str v) => [v.toList]
  | some _ => []
  | none => fallbackNames

/-- What a name stands for in the template of a block: the value of an input, or else the
body. -/
def blockValue? (b : Block) (values : List (String × String)) (inner : String)
    (name : List Char) : Option (List Char) :=
  inputValue? values name <|> sameValue? (bodyNames b) inner.toList name

/-- The template of a block with the inputs and the body filled in, in one pass. -/
def fillAtOnce (b : Block) (template : String) (values : List (String × String))
    (inner : String) : String :=
  String.ofList (fillNames (blockValue? b values inner) template.toList)

theorem inputValue?_cons (e : String × String) (values : List (String × String))
    (name : List Char) : inputValue? (e :: values) name =
      (sameValue? [e.1.toList] e.2.toList name <|> inputValue? values name) := by
  obtain ⟨x, value⟩ := e
  by_cases hx : name = x.toList
  · simp [inputValue?, sameValue?, hx]
  · have hne : String.ofList name ≠ x := by
      rintro rfl
      exact hx String.toList_ofList.symm
    rw [inputValue?, Table.lookup_cons_of_ne hne, sameValue?, if_neg (by simpa using hx)]
    rfl

/-- Inputs whose values have no percent signs are filled in one after the other as in one
pass, whatever clean values have been filled in before. -/
theorem fillNames_fillEach {g : List Char → Option (List Char)} (hcs : Separated cs)
    (hg : ∀ w v, g w = some v → '%' ∉ v) (hnames : ∀ e ∈ values, IsName e.1.toList)
    (hclean : ∀ e ∈ values, '%' ∉ e.2.toList) :
    (fillEach (String.ofList (fillNames g cs)) values).toList =
      fillNames (fun w => g w <|> inputValue? values w) cs := by
  induction values generalizing g with
  | nil =>
    have hnone : (fun w => g w <|> inputValue? [] w) = g := by
      funext w
      cases g w <;> rfl
    rw [hnone]
    exact String.toList_ofList
  | cons e values ih =>
    obtain ⟨hname, hnames⟩ := List.forall_mem_cons.1 hnames
    obtain ⟨hvalue, hclean⟩ := List.forall_mem_cons.1 hclean
    let h := fun w => g w <|> sameValue? [e.1.toList] e.2.toList w
    have hstep : substitute (String.ofList (fillNames g cs)) e.1 e.2 =
        String.ofList (fillNames h cs) := by
      rw [substitute, String.toList_ofList, substituteChars_eq hname,
        Text.fillNames_fillNames hcs hg]
    have hh : ∀ w v, h w = some v → '%' ∉ v := by
      intro w v hv
      cases hgw : g w with
      | some u =>
        have huv : some u = some v := by simpa [h, hgw] using hv
        exact Option.some.inj huv ▸ hg w u hgw
      | none =>
        have hlast : w = e.1.toList ∧ e.2.toList = v := by simpa [h, hgw, sameValue?] using hv
        exact hlast.2 ▸ hvalue
    have hall : (fun w => g w <|> inputValue? (e :: values) w) =
        fun w => h w <|> inputValue? values w := by
      funext w
      rw [inputValue?_cons]
      cases hgw : g w <;> simp [h, hgw]
    have hrest := ih hh hnames hclean
    rw [← hstep] at hrest
    rw [hall]
    exact hrest

theorem toList_fillEach (hcs : Separated template.toList)
    (hnames : ∀ e ∈ values, IsName e.1.toList) (hclean : ∀ e ∈ values, '%' ∉ e.2.toList) :
    (fillEach template values).toList = fillNames (inputValue? values) template.toList := by
  have hall := fillNames_fillEach (g := fun _ => none) hcs nofun hnames hclean
  rw [Text.fillNames_none, String.ofList_toList] at hall
  exact hall

end Values

/-! ## What a block is filled in with -/

variable {g : Generator} {r : Registry} {lang : Json} {language : Language} {n : Nat}
variable {id : BlockId} {b : Block} {I : String} {T U : Functions}

/-- The value of an input: the code of the block over it, or else its literal. -/
def slotValue (r : Registry) (code : BlockId → GenM String) (slot : Slot) : GenM String :=
  match slot.child with
  | some child => if r.contains child then code child else pure slot.literal
  | none => pure slot.literal

/-- The names of inputs with their values. -/
def inputValues (r : Registry) (code : BlockId → GenM String) :
    List (String × Slot) → GenM (List (String × String))
  | [] => return []
  | (x, slot) :: rest => do
      let value ← slotValue r code slot
      return (x, value) :: (← inputValues r code rest)

theorem fillInputs_cons (code : BlockId → GenM String) (text : Json) (x : String) (slot : Slot)
    (rest : List (String × Slot)) : fillInputs r code text ((x, slot) :: rest) = (do
      let value ← slotValue r code slot
      let s ← demandText text
      fillInputs r code (.str (substitute s x value)) rest) := by
  rw [fillInputs, slotValue]
  cases slot.child with
  | none => rfl
  | some child =>
    dsimp only
    split <;> rfl

theorem fillInputs_eq (code : BlockId → GenM String) (slots : List (String × Slot))
    (s : String) : fillInputs r code (.str s) slots = (do
      return .str (fillEach s (← inputValues r code slots))) := by
  induction slots generalizing s with
  | nil => rfl
  | cons e slots ih =>
    obtain ⟨x, slot⟩ := e
    simp only [fillInputs_cons, inputValues, demandText, pure_bind, bind_assoc, ih]
    rfl

theorem names_inputValues {code : BlockId → GenM String} {slots : List (String × Slot)}
    {values : List (String × String)} (h : inputValues r code slots T = (.ok values, U)) :
    Table.names values = Table.names slots := by
  induction slots generalizing T values with
  | nil =>
    cases h
    rfl
  | cons e slots ih =>
    obtain ⟨x, slot⟩ := e
    rw [inputValues] at h
    obtain ⟨value, T₁, -, h⟩ := run_bind_eq_ok.1 h
    obtain ⟨rest, T₂, hrest, h⟩ := run_bind_eq_ok.1 h
    cases h
    exact congrArg (x :: ·) (ih hrest)

/-- A template as it is laid out: with the indentation behind its line breaks, in an indented
language. -/
def layOut (language : Language) (indent template : String) : String :=
  if language.indented then hangText indent template else template

theorem indentTemplate_layOut (language : Language) (indent template : String) :
    indentTemplate language indent (.str template) = pure (.str (layOut language indent template)) := by
  rw [layOut]
  cases hl : language.indented with
  | true => exact indentTemplate_text hl indent template
  | false =>
    rw [indentTemplate, hl]
    rfl

theorem separated_layOut {selected : String} (hI : '%' ∉ I.toList)
    (h : Separated selected.toList) (language : Language) :
    Separated (layOut language I selected).toList := by
  rw [layOut]
  split
  · rw [toList_hangText]
    exact separated_hang hI h
  · exact h

theorem liftM_eq_ok {α : Type} {x : Except Breakdown α} {a : α} :
    (liftM x : GenM α) T = (.ok a, U) ↔ x = .ok a ∧ U = T := by
  constructor
  · intro h
    cases x <;> cases h
    exact ⟨rfl, rfl⟩
  · rintro ⟨rfl, rfl⟩
    rfl

/-- The language of a block, the indentation of its children and its template as it is laid
out. -/
def opening (g : Generator) (name : Json) (indent : String) (b : Block) :
    GenM (Language × String × Json) := do
  let language ← (Language.find g.languages name : Except Breakdown Language)
  let childIndent ← (language.deeper indent : Except Breakdown String)
  let template ← (selectTemplate g b name : Except Breakdown Json)
  let template ← indentTemplate language indent template
  return (language, childIndent, template)

theorem blockCodeBy_eq (code : String → BlockId → GenM String) (indent : String) (b : Block) :
    blockCodeBy g r lang code indent b = (do
      let (language, childIndent, template) ← opening g lang indent b
      let text ← fillInputs r (code childIndent) template b.slots
      let nested ← codes (code childIndent) (b.nested.filter r.contains)
      let separator := if language.indented then "\n" ++ childIndent else "\n"
      finished language indent
        (← fillBody b text (joinCode separator nested) childIndent)) := by
  simp only [blockCodeBy, opening, bind_assoc, pure_bind]
  rfl

theorem opening_eq_ok {childIndent : String} {template : Json} :
    opening g lang I b T = (.ok (language, childIndent, template), U) ↔
      Language.find g.languages lang = .ok language ∧ language.deeper I = .ok childIndent ∧
      ∃ selected, selectTemplate g b lang = .ok selected ∧
        indentTemplate language I selected T = (.ok template, U) := by
  rw [opening]
  constructor
  · intro h
    obtain ⟨language', T₁, hrun₁, hrest₁⟩ := run_bind_eq_ok.1 h
    obtain ⟨hfind, rfl⟩ := liftM_eq_ok.1 hrun₁
    obtain ⟨childIndent', T₂, hrun₂, hrest₂⟩ := run_bind_eq_ok.1 hrest₁
    obtain ⟨hdeeper, rfl⟩ := liftM_eq_ok.1 hrun₂
    obtain ⟨selected, T₃, hrun₃, hrest₃⟩ := run_bind_eq_ok.1 hrest₂
    obtain ⟨hselect, rfl⟩ := liftM_eq_ok.1 hrun₃
    obtain ⟨template', T₄, hrun₄, hrest₄⟩ := run_bind_eq_ok.1 hrest₃
    cases hrest₄
    exact ⟨hfind, hdeeper, selected, hselect, hrun₄⟩
  · rintro ⟨hfind, hdeeper, selected, hselect, hindent⟩
    simp only [hfind, hdeeper, hselect, liftM_ok, pure_bind]
    rw [run_bind_ok hindent]
    rfl

/-- What the generator fills a block in with, when it comes to the block at an indentation with
a table of functions, and follows `n` levels of children. -/
structure Filling (g : Generator) (r : Registry) (lang : Json) (n : Nat) (indent : String)
    (b : Block) (T : Functions) where
  language : Language
  childIndent : String
  /-- The template that is selected for the language. -/
  selected : String
  /-- The values of the inputs, in the order of the inputs. -/
  values : List (String × String)
  /-- The codes of the body. -/
  nested : List String
  /-- The table behind the inputs. -/
  midway : Functions
  /-- The table behind the body. -/
  after : Functions
  find_eq : Language.find g.languages lang = .ok language
  deeper_eq : language.deeper indent = .ok childIndent
  select_eq : selectTemplate g b lang = .ok (.str selected)
  values_eq : inputValues r (blockCodeWithin g r lang n childIndent) b.slots T =
    (.ok values, midway)
  nested_eq : codes (blockCodeWithin g r lang n childIndent) (b.nested.filter r.contains) midway =
    (.ok nested, after)

namespace Filling

/-- The template as it is laid out. -/
def template (f : Filling g r lang n I b T) : String := layOut f.language I f.selected

/-- The codes of the body as one text. -/
def inner (f : Filling g r lang n I b T) : String :=
  joinCode (if f.language.indented then "\n" ++ f.childIndent else "\n") f.nested

/-- The text behind the inputs. -/
def filled (f : Filling g r lang n I b T) : String := fillEach f.template f.values

/-- The text that one pass over the template makes. -/
def atOnce (f : Filling g r lang n I b T) : String := fillAtOnce b f.template f.values f.inner

variable {f : Filling g r lang n I b T}

theorem fillInputs_run (f : Filling g r lang n I b T) :
    fillInputs r (blockCodeWithin g r lang n f.childIndent) (.str f.template) b.slots T =
      (.ok (.str f.filled), f.midway) := by
  rw [fillInputs_eq, run_bind_ok f.values_eq]
  rfl

/-- The code of a block comes from what the block is filled in with. -/
theorem blockCodeWithin_run (f : Filling g r lang n I b T) (hb : r.get? id = some b) :
    blockCodeWithin g r lang (n + 1) I id T = (do
      finished f.language I (← fillBody b (.str f.filled) f.inner f.childIndent)) f.after := by
  have hopen : opening g lang I b T = (.ok (f.language, f.childIndent, .str f.template), T) := by
    refine opening_eq_ok.2 ⟨f.find_eq, f.deeper_eq, .str f.selected, f.select_eq, ?_⟩
    rw [indentTemplate_layOut]
    rfl
  rw [blockCodeWithin_live hb, blockCodeBy_eq, run_bind_ok hopen]
  dsimp only
  rw [run_bind_ok f.fillInputs_run, run_bind_ok f.nested_eq]
  rfl

theorem isName_values (f : Filling g r lang n I b T) (h : ∀ e ∈ b.slots, IsName e.1.toList) :
    ∀ e ∈ f.values, IsName e.1.toList := by
  intro e he
  have hname : e.1 ∈ Table.names b.slots := by
    rw [← names_inputValues f.values_eq]
    exact List.mem_map_of_mem he
  obtain ⟨d, hd, hde⟩ := List.mem_map.1 hname
  exact hde ▸ h d hd

/-- A block that the generator returns the code of has been filled in. -/
theorem exists_of_ok (hb : r.get? id = some b)
    (htemplates : ∀ e ∈ b.templates.entries, ∃ s, e.2 = .str s) {code : String} {V : Functions}
    (hrun : blockCodeWithin g r lang (n + 1) I id T = (.ok code, V)) :
    Nonempty (Filling g r lang n I b T) := by
  rw [blockCodeWithin_live hb, blockCodeBy_eq] at hrun
  obtain ⟨⟨language, childIndent, template⟩, T₁, hopen, hrest₁⟩ := run_bind_eq_ok.1 hrun
  obtain ⟨hfind, hdeeper, selected, hselect, hlay⟩ := opening_eq_ok.1 hopen
  obtain ⟨text, rfl⟩ := selectTemplate_text htemplates hselect
  rw [indentTemplate_layOut] at hlay
  cases hlay
  obtain ⟨filled, midway, hfill, hrest₂⟩ := run_bind_eq_ok.1 hrest₁
  rw [fillInputs_eq] at hfill
  obtain ⟨values, _, hvalues, hfilled⟩ := run_bind_eq_ok.1 hfill
  cases hfilled
  obtain ⟨nested, after, hnested, -⟩ := run_bind_eq_ok.1 hrest₂
  exact ⟨{
    language, childIndent, values, nested, midway, after
    selected := text
    find_eq := hfind
    deeper_eq := hdeeper
    select_eq := hselect
    values_eq := hvalues
    nested_eq := hnested }⟩

end Filling

/-! ## One pass -/

/-- Filling in the body is a pass that knows the names of the body, where no function is
defined. -/
theorem fillBody_run {text inner childIndent : String}
    (hvar : ∀ v, b.containerVar.bind Json.given? = some v → ∃ s, v = .str s ∧ IsName s.toList)
    (hplain : ∀ s, b.containerVar.bind Json.given? = some (.str s) →
      definedName? text.toList s.toList = none) :
    fillBody b (.str text) inner childIndent =
      pure (some (String.ofList
        (fillNames (sameValue? (bodyNames b) inner.toList) text.toList))) := by
  rw [fillBody, bodyNames]
  cases hv : b.containerVar.bind Json.given? with
  | none =>
    dsimp only [demandText]
    rw [pure_bind, substituteFallback, fallback_eq, fillNames]
  | some v =>
    obtain ⟨s, rfl, hs⟩ := hvar v hv
    dsimp only [demandText]
    rw [pure_bind, pure_bind, hplain s hv, substitute, substituteChars_eq hs]

/-- The order in which inputs are listed does not matter to what their names stand for. -/
theorem inputValue?_perm {values order : List (String × String)} (h : order.Perm values)
    (hnodup : (Table.names values).Nodup) : inputValue? order = inputValue? values := by
  have hnodup' : (Table.names order).Nodup := (h.map Prod.fst).nodup_iff.2 hnodup
  funext name
  refine congrArg (Option.map String.toList) (Option.ext fun value => ?_)
  rw [Table.lookup_eq_some_iff hnodup', Table.lookup_eq_some_iff hnodup]
  exact h.mem_iff

namespace Filling

/-- What keeps that which is filled in from being read again: names of word characters,
separated in the selected template, and values of the inputs without percent signs.  The
block is not the definition of a function. -/
structure Clean (f : Filling g r lang n I b T) : Prop where
  names : ∀ e ∈ b.slots, IsName e.1.toList
  bodyVar : ∀ v, b.containerVar.bind Json.given? = some v → ∃ s, v = .str s ∧ IsName s.toList
  separated : Separated f.selected.toList
  values : ∀ e ∈ f.values, '%' ∉ e.2.toList
  plain : ∀ s, b.containerVar.bind Json.given? = some (.str s) →
    definedName? f.filled.toList s.toList = none

variable {f : Filling g r lang n I b T}

theorem Clean.separated_template (h : f.Clean)
    (hlaid : '%' ∈ I.toList → Separated f.template.toList) : Separated f.template.toList := by
  by_cases hI : '%' ∈ I.toList
  · exact hlaid hI
  · exact separated_layOut hI h.separated f.language

/-- The inputs in any order, and then the body, are filled in as in one pass. -/
theorem Clean.fillBody_fillEach (h : f.Clean)
    (hlaid : '%' ∈ I.toList → Separated f.template.toList) {order : List (String × String)}
    (hmem : ∀ e ∈ order, e ∈ f.values) (hsame : inputValue? order = inputValue? f.values) :
    fillBody b (.str (fillEach f.template order)) f.inner f.childIndent f.after =
      (.ok (some f.atOnce), f.after) := by
  have hsep := h.separated_template hlaid
  have hvalue : ∀ w v, inputValue? f.values w = some v → '%' ∉ v := by
    intro w v hv
    obtain ⟨value, hlookup, rfl⟩ := Option.map_eq_some_iff.1 hv
    exact h.values _ (Table.mem_of_lookup hlookup)
  have hfilled : (fillEach f.template order).toList =
      fillNames (inputValue? f.values) f.template.toList := by
    rw [toList_fillEach hsep (fun e he => f.isName_values h.names e (hmem e he))
      (fun e he => h.values e (hmem e he)), hsame]
  have hplain : ∀ s, b.containerVar.bind Json.given? = some (.str s) →
      definedName? (fillEach f.template order).toList s.toList = none := by
    intro s hs
    have hself : f.filled.toList = fillNames (inputValue? f.values) f.template.toList :=
      toList_fillEach hsep (f.isName_values h.names) h.values
    rw [hfilled, ← hself]
    exact h.plain s hs
  rw [fillBody_run h.bodyVar hplain, hfilled, Text.fillNames_fillNames hsep hvalue]
  rfl

end Filling

/-- Where names are separated in the selected template of a block and the values of its inputs
have no percent signs, the loop over the inputs and the body behind it make the text of one
pass over the template as it is laid out, and so does every other order of the inputs.  The
indentation is taken to keep the names separated, as all indentations without percent signs
do. -/
theorem fill_at_once (hb : r.get? id = some b)
    (htemplates : ∀ e ∈ b.templates.entries, ∃ s, e.2 = .str s) :
    (∀ code V, blockCodeWithin g r lang (n + 1) I id T = (.ok code, V) →
      Nonempty (Filling g r lang n I b T)) ∧
    ∀ f : Filling g r lang n I b T, f.Clean →
      ('%' ∈ I.toList → Separated f.template.toList) →
      fillInputs r (blockCodeWithin g r lang n f.childIndent) (.str f.template) b.slots T =
        (.ok (.str f.filled), f.midway) ∧
      fillBody b (.str f.filled) f.inner f.childIndent f.after =
        (.ok (some f.atOnce), f.after) ∧
      blockCodeWithin g r lang (n + 1) I id T = finishText f.language I f.atOnce f.after ∧
      ((Table.names b.slots).Nodup → ∀ order : List (String × String), order.Perm f.values →
        fillBody b (.str (fillEach f.template order)) f.inner f.childIndent f.after =
          (.ok (some f.atOnce), f.after)) := by
  refine ⟨fun code V hrun => Filling.exists_of_ok hb htemplates hrun, fun f hclean hlaid => ?_⟩
  have hbody : fillBody b (.str f.filled) f.inner f.childIndent f.after =
      (.ok (some f.atOnce), f.after) :=
    hclean.fillBody_fillEach hlaid (fun e he => he) rfl
  refine ⟨f.fillInputs_run, hbody, ?_, ?_⟩
  · rw [f.blockCodeWithin_run hb, run_bind_ok hbody]
    rfl
  · intro hnodup order horder
    rw [← names_inputValues f.values_eq] at hnodup
    exact hclean.fillBody_fillEach hlaid (fun e he => horder.mem_iff.1 he)
      (inputValue?_perm horder hnodup)

def sampleLoop : Block where
  label := "loop %n"
  kind := .container
  color := .str "#FFAB19"
  templates := ⟨[(.str "javascript", .str "loop(%n) %body")]⟩
  containerVar := none
  position := ⟨0.0, 0.0⟩
  slots := [("n", { child := some "e" })]
  nested := ["p"]
  parent := .none

/-- A loop with a block over its input, and a percent sign in the code of its body. -/
def sampleNest : Registry where
  entries := [
    ("l", sampleLoop),
    ("e", { sampleLoop with
      kind := .reporter
      templates := ⟨[(.str "javascript", .str "3")]⟩
      slots := []
      nested := []
      parent := .input "l" "n" }),
    ("p", { sampleLoop with
      kind := .command
      templates := ⟨[(.str "javascript", .str "say(5%n)")]⟩
      slots := []
      nested := []
      parent := .container "l" })]
  nodup := by decide

/-- The percent sign that comes in with the body stays. -/
theorem fill_at_once_sampleNest :
    ∃ f : Filling {} sampleNest (.str "javascript") 1 "" sampleLoop [],
      f.Clean ∧ f.atOnce = "loop(3) say(5%n)" ∧
      blockCodeWithin {} sampleNest (.str "javascript") 2 "" "l" [] =
        finishText f.language "" f.atOnce f.after := by
  let f : Filling {} sampleNest (.str "javascript") 1 "" sampleLoop [] := {
    language := { name := .str "javascript" }
    childIndent := ""
    selected := "loop(%n) %body"
    values := [("n", "3")]
    nested := ["say(5%n)"]
    midway := []
    after := []
    find_eq := rfl
    deeper_eq := rfl
    select_eq := rfl
    values_eq := rfl
    nested_eq := rfl }
  have hclean : f.Clean := {
    names := by decide +kernel
    bodyVar := nofun
    separated := by decide +kernel
    values := by decide +kernel
    plain := nofun }
  have htemplates : ∀ e ∈ sampleLoop.templates.entries, ∃ s, e.2 = .str s := by
    simp [sampleLoop]
  exact ⟨f, hclean, by decide +kernel,
    ((fill_at_once rfl htemplates).2 f hclean nofun).2.2.1⟩

def sampleLine : Block where
  label := "line %a %b"
  kind := .command
  color := .str "#4C97FF"
  templates := ⟨[(.str "python", .str "\n%a")]⟩
  containerVar := none
  position := ⟨0.0, 0.0⟩
  slots := [("a", { literal := "b" }), ("b", { literal := "c" })]
  nested := []
  parent := .container "p"

/-- A line in the body of a block. -/
def sampleLines : Registry where
  entries := [
    ("p", { sampleLine with
      kind := .container
      templates := ⟨[(.str "python", .str "%body")]⟩
      slots := []
      nested := ["c"]
      parent := .none }),
    ("c", sampleLine)]
  nodup := by decide

/-- A language that is indented with percent signs. -/
def percentIndented : Generator where
  languages := [{ name := .str "python", indented := true, unit := .str "%" }]
  defaultLanguage := .str "python"

/-- An indentation with a percent sign runs into the name behind it.  Then the loop reads the
value of one input as the name of the next, unlike a single pass, and the order of the inputs
matters. -/
theorem not_fill_at_once_percentIndented :
    (∀ e ∈ sampleLine.templates.entries, ∃ s, e.2 = .str s) ∧
    generate percentIndented sampleLines (.str "python") = .ok "\nc" ∧
    ∃ f : Filling percentIndented sampleLines (.str "python") 1 "%" sampleLine [],
      f.Clean ∧ f.template = "\n%%a" ∧ f.atOnce = "\n%b" ∧
      fillBody sampleLine (.str f.filled) f.inner f.childIndent f.after = (.ok (some "\nc"), []) ∧
      f.values.reverse = [("b", "c"), ("a", "b")] ∧
      fillBody sampleLine (.str (fillEach f.template [("b", "c"), ("a", "b")])) f.inner
        f.childIndent f.after = (.ok (some "\n%b"), []) := by
  let f : Filling percentIndented sampleLines (.str "python") 1 "%" sampleLine [] := {
    language := { name := .str "python", indented := true, unit := .str "%" }
    childIndent := "%%"
    selected := "\n%a"
    values := [("a", "b"), ("b", "c")]
    nested := []
    midway := []
    after := []
    find_eq := rfl
    deeper_eq := rfl
    select_eq := rfl
    values_eq := rfl
    nested_eq := rfl }
  have hclean : f.Clean := {
    names := by decide +kernel
    bodyVar := nofun
    separated := by decide +kernel
    values := by decide +kernel
    plain := nofun }
  have hforward : f.filled = "\nc" := by decide +kernel
  have hbackward : fillEach f.template [("b", "c"), ("a", "b")] = "\n%b" := by decide +kernel
  refine ⟨by simp [sampleLine], rfl, f, hclean, by decide +kernel, by decide +kernel, ?_, rfl, ?_⟩
  · rw [hforward]
    rfl
  · rw [hbackward]
    rfl

end Blockwork.Code
