import Blockwork.Proofs.Bundle.Recovered
import Blockwork.Proofs.Code.Indentation

/-!
# Calls

A definition puts the code of its body into the table, and a call takes it out again.
The history of a run lists the definitions in the order in which they were made, each
with the table that its body was generated from and the codes that came out.  The table
of functions says no more than the history: what it has under a name is the body of the
latest definition of that name.

A call therefore writes what the children of that definition would write at the
indentation of the call, if they were generated from the table of that time.  The codes
in the history hang at the indentation of the definition, the codes of the children at
the call are the same texts hung at the indentation of the call, and a call replaces
the one indentation by the other.
-/

namespace Blockwork.Code

open Unicode (strip)

variable {g : Generator} {r : Registry} {name : Json} {language : Language} {unit : String}
variable {I J : String} {id : BlockId} {b : Block} {T U : Functions} {α β : Type}

/-! ## Histories -/

/-- A definition that was made: its name and its block, the indentation of its body,
the table that the body was generated from, and the codes of the body. -/
structure Hoisting where
  name : String
  block : Block
  indent : String
  before : Functions
  codes : List String

/-- What a definition puts into the table. -/
def Hoisting.hoisted (d : Hoisting) : Hoisted := ⟨joinCode ("\n" ++ d.indent) d.codes, d.indent⟩

/-- The table after definitions, the first made first. -/
def tableOf (es : List Hoisting) : Functions := es.foldl (fun T d => T.define d.name d.hoisted) []

/-- The latest definition of a name. -/
def latest? (es : List Hoisting) (f : String) : Option Hoisting := es.reverse.find? (·.name = f)

/-- The generator came to a live block at an indentation, with a table.  It filled in the
inputs, and then generated the body, and found that the text defines a name. -/
structure Hoisting.Made (g : Generator) (r : Registry) (name : Json) (language : Language)
    (unit : String) (T U : Functions) (d : Hoisting) : Prop where
  live : ∃ id, r.get? id = some d.block
  defines : ∃ indent text bodyVar, Indents indent.toList ∧ d.indent = indent ++ unit ∧
    inputText g r name language (blockCode g r name d.indent) indent d.block T =
      (.ok (.str text), d.before) ∧
    d.block.containerVar.bind Json.given? = some (.str bodyVar) ∧
    definedName? text.toList bodyVar.toList = some d.name.toList
  body : bodyCode r (blockCode g r name d.indent) d.block d.before = (.ok d.codes, U)

/-- The histories of generation.  While the generator fills in the inputs and while it
generates the body, other definitions may be made. -/
inductive Chronicle (g : Generator) (r : Registry) (name : Json) (language : Language)
    (unit : String) : List Hoisting → Prop
  | start : Chronicle g r name language unit []
  | hoist {es inputs bodies : List Hoisting} {d : Hoisting} :
      Chronicle g r name language unit es →
      Chronicle g r name language unit (es ++ inputs) →
      Chronicle g r name language unit (es ++ inputs ++ bodies) →
      d.before = tableOf (es ++ inputs) →
      d.Made g r name language unit (tableOf es) (tableOf (es ++ inputs ++ bodies)) →
      Chronicle g r name language unit (es ++ inputs ++ bodies ++ [d])

theorem tableOf_concat (es : List Hoisting) (d : Hoisting) :
    tableOf (es ++ [d]) = (tableOf es).define d.name d.hoisted :=
  List.foldl_concat ..

theorem lookup_tableOf (es : List Hoisting) (f : String) :
    (tableOf es).lookup f = (latest? es f).map Hoisting.hoisted := by
  induction es using List.reverseRecOn with
  | nil => rfl
  | append_singleton es d ih =>
    rw [latest?] at ih
    by_cases hd : d.name = f
    · simp [tableOf_concat, latest?, hd]
    · simp [tableOf_concat, latest?, hd, Ne.symm hd, ih]

theorem mem_of_latest? {es : List Hoisting} {f : String} {d : Hoisting}
    (h : latest? es f = some d) : d ∈ es :=
  List.mem_reverse.1 (List.mem_of_find?_eq_some h)

theorem Hoisting.Made.indents {d : Hoisting} (hl : Indented g name language unit)
    (h : d.Made g r name language unit T U) : Indents d.indent.toList := by
  obtain ⟨indent, _, _, hindent, heq, -⟩ := h.defines
  rw [heq]
  exact hl.deeper hindent

theorem Hoisting.Made.oneLine {d : Hoisting} (h : d.Made g r name language unit T U) :
    OneLine d.name := by
  obtain ⟨_, _, _, _, _, _, _, hname⟩ := h.defines
  exact not_newline_of_definedName? hname

/-! ## Runs have histories -/

/-- A table that a history leaves which continues another. -/
def Continues (g : Generator) (r : Registry) (name : Json) (language : Language) (unit : String)
    (es : List Hoisting) (U : Functions) : Prop :=
  ∃ es', U = tableOf (es ++ es') ∧ Chronicle g r name language unit (es ++ es')

/-- Whether a step fails or not, all it does to the table is to continue its history. -/
structure Recounts (g : Generator) (r : Registry) (name : Json) (language : Language)
    (unit : String) (m : GenM α) : Prop where
  run : ∀ {es}, Chronicle g r name language unit es →
    Continues g r name language unit es (m (tableOf es)).2

theorem Chronicle.continues {es : List Hoisting} (h : Chronicle g r name language unit es) :
    Continues g r name language unit es (tableOf es) :=
  ⟨[], by rw [List.append_nil], by rwa [List.append_nil]⟩

theorem Continues.trans {es es' : List Hoisting}
    (h : Continues g r name language unit (es ++ es') U) :
    Continues g r name language unit es U := by
  obtain ⟨es'', hU, hes⟩ := h
  rw [List.append_assoc] at hU hes
  exact ⟨es' ++ es'', hU, hes⟩

namespace Recounts

variable {m : GenM α} {f : α → GenM β}

/-- A step that leaves the table as it is. -/
theorem still (h : ∀ T, (m T).2 = T) : Recounts g r name language unit m where
  run hes := by
    rw [h]
    exact hes.continues

theorem pure (a : α) : Recounts g r name language unit (Pure.pure a) := .still fun _ => rfl

theorem demandText (v : Json) : Recounts g r name language unit (demandText v) := by
  cases v <;> exact .still fun _ => rfl

theorem bind (h : Recounts g r name language unit m)
    (hf : ∀ a, Recounts g r name language unit (f a)) :
    Recounts g r name language unit (m >>= f) where
  run {es} hes := by
    refine run_bind (P := Continues g r name language unit es) (h.run hes) fun a U _ hU => ?_
    obtain ⟨es', rfl, hes'⟩ := hU
    exact ((hf a).run hes').trans

end Recounts

theorem recounts_fillInputs {code : BlockId → GenM String} {slots : List (String × Slot)}
    (h : ∀ e ∈ slots, ∀ c, e.2.child = some c → Recounts g r name language unit (code c))
    (text : Json) : Recounts g r name language unit (fillInputs r code text slots) := by
  induction slots generalizing text with
  | nil => exact .pure text
  | cons e slots ih =>
    obtain ⟨input, slot⟩ := e
    have hrest (value : String) : Recounts g r name language unit
        (do fillInputs r code (.str (substitute (← demandText text) input value)) slots) :=
      .bind (.demandText text) fun s => ih (fun e he => h e (List.mem_cons_of_mem _ he)) _
    rw [fillInputs]
    cases hc : slot.child with
    | none => exact hrest slot.literal
    | some c =>
      dsimp only
      split
      · exact .bind (h _ (List.mem_cons_self ..) c hc) hrest
      · exact hrest slot.literal

theorem recounts_codes {code : BlockId → GenM String} {ids : List BlockId}
    (h : ∀ c ∈ ids, Recounts g r name language unit (code c)) :
    Recounts g r name language unit (codes code ids) := by
  induction ids with
  | nil => exact .pure []
  | cons c ids ih =>
    refine .bind (h c (List.mem_cons_self ..)) fun s => ?_
    exact .bind (ih fun x hx => h x (List.mem_cons_of_mem c hx)) fun ss => .pure (s :: ss)

theorem recounts_inputText (wf : r.WellFormed) (hb : r.get? id = some b)
    {code : BlockId → GenM String}
    (h : ∀ c, r.Under c id → Recounts g r name language unit (code c)) (indent : String) :
    Recounts g r name language unit (inputText g r name language code indent b) := by
  refine .bind (.still fun T => ?_) fun template => .bind (.still fun T => ?_) fun template =>
    recounts_fillInputs (fun e he c hc => h c (wf.under_of_mem_slots hb he hc)) template
  · cases selectTemplate g b name <;> rfl
  · unfold indentTemplate
    split
    · cases template <;> rfl
    · rfl

/-- Filling in the body leaves the table as it is, unless the text defines a function. -/
theorem fillBody_table (b : Block) (text : Json) (inner childIndent : String) (T : Functions) :
    (fillBody b text inner childIndent T).2 = T ∨ ∃ s bodyVar f, text = .str s ∧
      b.containerVar.bind Json.given? = some (.str bodyVar) ∧
      definedName? s.toList bodyVar.toList = some f ∧
      (fillBody b text inner childIndent T).2 = T.define (String.ofList f) ⟨inner, childIndent⟩ := by
  rw [fillBody]
  cases hv : b.containerVar.bind Json.given? with
  | none => cases text <;> exact .inl rfl
  | some v =>
    cases v with
    | str bodyVar =>
      cases text with
      | str s =>
        simp only [demandText, pure_bind]
        cases hn : definedName? s.toList bodyVar.toList with
        | none => exact .inl rfl
        | some f => exact .inr ⟨s, bodyVar, f, rfl, rfl, hn, rfl⟩
      | _ => exact .inl rfl
    | _ => exact .inl rfl

/-- A definition goes on record with what was there when its body was generated. -/
theorem recounts_filledText (wf : r.WellFormed) (hb : r.get? id = some b)
    (hI : Indents I.toList)
    (h : ∀ c, r.Under c id → Recounts g r name language unit (blockCode g r name (I ++ unit) c)) :
    Recounts g r name language unit (filledText g r name language I (I ++ unit) b) where
  run {es} hes := by
    have hinputs := (recounts_inputText wf hb h I).run hes
    refine run_bind (P := Continues g r name language unit es) hinputs fun text U htext hU => ?_
    obtain ⟨inputs, rfl, hes'⟩ := hU
    have hbody : Recounts g r name language unit (bodyCode r (blockCode g r name (I ++ unit)) b) :=
      recounts_codes fun c hc => h c (wf.under_of_mem_nested hb (List.mem_of_mem_filter hc))
    refine Continues.trans (run_bind (P := Continues g r name language unit (es ++ inputs))
      (hbody.run hes') fun ss V hss hV => ?_)
    obtain ⟨bodies, rfl, hes''⟩ := hV
    have htable := fillBody_table b text (joinCode ("\n" ++ (I ++ unit)) ss) (I ++ unit)
      (tableOf (es ++ inputs ++ bodies))
    rcases htable with hsame | ⟨s, bodyVar, f, rfl, hvar, hname, hdefined⟩
    · rw [hsame]
      exact ⟨bodies, rfl, hes''⟩
    · let d : Hoisting := ⟨String.ofList f, b, I ++ unit, tableOf (es ++ inputs), ss⟩
      have hmade : d.Made g r name language unit (tableOf es) (tableOf (es ++ inputs ++ bodies)) :=
        { live := ⟨id, hb⟩
          defines := ⟨I, s, bodyVar, hI, rfl, htext, hvar, by rw [String.toList_ofList]; exact hname⟩
          body := hss }
      refine ⟨bodies ++ [d], ?_, ?_⟩
      · rw [hdefined, ← List.append_assoc, tableOf_concat]
        rfl
      · rw [← List.append_assoc]
        exact .hoist hes hes' hes'' rfl hmade

/-- What generation does to the table has a history. -/
theorem recounts_blockCode (hl : Indented g name language unit) (wf : r.WellFormed)
    (hid : r.contains id = true) (hI : Indents I.toList) :
    Recounts g r name language unit (blockCode g r name I id) := by
  refine wf.child_induction (P := fun id => ∀ {I : String}, Indents I.toList →
    Recounts g r name language unit (blockCode g r name I id)) ?_ id hid hI
  intro id b hb ih I hI
  rw [hl.blockCode_live wf hb]
  refine .bind (recounts_filledText wf hb hI fun c hc => ih c hc (hl.deeper hI)) fun text => ?_
  cases text with
  | none => exact .pure ""
  | some text => exact .still fun T => congrArg Prod.snd (finishText_run language I text T)

/-- Generating all code starts from the empty table, so what it does to the table has a
history from the start. -/
theorem recounts_roots (hl : Indented g name language unit) (wf : r.WellFormed) :
    Recounts g r name language unit (codes (blockCode g r name "") r.roots) := by
  refine recounts_codes fun id hid => ?_
  obtain ⟨e, he, rfl⟩ := List.mem_map.1 hid
  have hb : r.get? e.1 = some e.2 := Registry.get?_eq_some_iff.2 (List.mem_of_mem_filter he)
  exact recounts_blockCode hl wf (Registry.contains_of_get? hb) nofun

/-! ## Calls -/

/-- What a history lists was made, from a table that has a history. -/
theorem Chronicle.made {es : List Hoisting} (h : Chronicle g r name language unit es)
    {d : Hoisting} (hd : d ∈ es) : ∃ before T U, Chronicle g r name language unit before ∧
      d.before = tableOf before ∧ d.Made g r name language unit T U := by
  induction h with
  | start => cases hd
  | hoist _ hinputs _ hbefore hmade _ _ ih =>
    rcases List.mem_append.1 hd with hd | hd
    · exact ih hd
    · cases List.mem_singleton.1 hd
      exact ⟨_, _, _, hinputs, hbefore, hmade⟩

/-- The codes of a body at one indentation and at another. -/
theorem Hoisting.Made.follows (hl : Indented g name language unit) (wf : r.WellFormed)
    (htext : r.Textual) {d : Hoisting} (h : d.Made g r name language unit T U)
    (hJ : Indents J.toList) :
    Follows (HangAll d.indent J) (bodyCode r (blockCode g r name d.indent) d.block)
      (bodyCode r (blockCode g r name J) d.block) := by
  obtain ⟨id, hb⟩ := h.live
  exact follows_bodyCode wf hb fun c hc =>
    follows_blockCode hl wf htext hc.contains (h.indents hl) hJ

/-- The bodies in the table of a history hang at their indentations. -/
theorem Chronicle.related (hl : Indented g name language unit) (wf : r.WellFormed)
    (htext : r.Textual) {es : List Hoisting} (h : Chronicle g r name language unit es) :
    Related (tableOf es) (tableOf es) := by
  induction h with
  | start => exact related_nil
  | @hoist es inputs bodies d _ _ _ hbefore hmade _ hinputs hbodies =>
    rw [← hbefore] at hinputs
    obtain ⟨ss, V, hrun, hss, -⟩ :=
      (hmade.follows hl wf htext (hmade.indents hl)).run hinputs hmade.body
    rw [hmade.body] at hrun
    cases hrun
    obtain ⟨ts, hts, -⟩ := hss
    rw [tableOf_concat]
    refine hbodies.define hmade.oneLine ?_
    rw [Hoisting.hoisted, hts]
    exact ⟨_, joinCode_hangText _ ts, joinCode_hangText _ ts⟩

/-- A block whose text is the name of a function, up to blanks, writes what the children
in the body of its latest definition write at the indentation of the block, from the
table that the body was generated from. -/
theorem blockCode_of_call (hl : Indented g name language unit) (wf : r.WellFormed)
    (htext : r.Textual) {es : List Hoisting} (hes : Chronicle g r name language unit es)
    (hb : r.get? id = some b) (hJ : Indents J.toList) {text : String}
    (hrun : filledText g r name language J (J ++ unit) b (tableOf es) = (.ok (some text), U)) :
    Continues g r name language unit es U ∧
    ∀ all d, Chronicle g r name language unit all → U = tableOf all →
      latest? all (strip text) = some d →
      ∃ ss V, bodyCode r (blockCode g r name J) d.block d.before = (.ok ss, V) ∧
        blockCode g r name J id (tableOf es) = (.ok (joinCode ("\n" ++ J) ss), U) := by
  constructor
  · have hcontinues := (recounts_filledText wf hb hJ fun c hc =>
      recounts_blockCode hl wf hc.contains (hl.deeper hJ)).run hes
    rw [hrun] at hcontinues
    exact hcontinues
  · rintro all d hall rfl hd
    obtain ⟨before, T, V, hbefore, heq, hmade⟩ := hall.made (mem_of_latest? hd)
    have hrelated := hbefore.related hl wf htext
    rw [← heq] at hrelated
    obtain ⟨ss, W, hss, hhang, -⟩ := (hmade.follows hl wf htext hJ).run hrelated hmade.body
    refine ⟨ss, W, hss, ?_⟩
    obtain ⟨ts, hts, rfl⟩ := hhang
    have hbody : d.hoisted.body = hangText d.hoisted.indent (joinCode "\n" ts) := by
      rw [Hoisting.hoisted, hts]
      exact joinCode_hangText _ ts
    have hcall : (tableOf all).lookup (strip text) = some d.hoisted := by
      rw [lookup_tableOf, hd]
      rfl
    rw [hl.blockCode_live wf hb, run_bind_ok hrun, joinCode_hangText]
    show finishText language J text (tableOf all) = _
    rw [finishText_run, hcall]
    dsimp only
    rw [Hoisted.at_of_hangText hl.indented hbody]

/-- A block with a template for an indented language. -/
def codeBlock (label : String) (kind : Kind) (template : String) (slots : List (String × Slot))
    (nested : List BlockId) (parent : Parent) : Block where
  label := label
  kind := kind
  color := .str "#4C97FF"
  templates := ⟨[(.str "python", .str template)]⟩
  containerVar := if kind.hasBody then some (.str "body") else none
  position := ⟨0.0, 0.0⟩
  slots := slots
  nested := nested
  parent := parent

def sampleDefinition : Block :=
  codeBlock "define %name" .container "%name = %body" [("name", { literal := "greet" })] ["p"] .none

def sampleCall : Block :=
  codeBlock "call %name" .command "%name" [("name", { literal := "greet" })] [] .none

/-- A definition with a body of two lines, and a call at the top level. -/
def sampleCalls : Registry where
  entries := [
    ("d", sampleDefinition),
    ("p", codeBlock "say" .command "say(1)\nsay(2)" [] [] (.container "d")),
    ("c", sampleCall)]
  nodup := by decide

/-- The record of such a block. -/
def codeRecord (id label kind template : String) (literals : List (String × Json))
    (body : List Json) : Json :=
  .obj [("id", .str id), ("label", .str label), ("kind", .str kind),
    ("templates", .obj [("python", .str template)]), ("inputs", .obj literals),
    ("nestedChildIds", .arr body)]

theorem wellFormed_sampleCalls : sampleCalls.WellFormed :=
  Bundle.wellFormed_of_registryOf (v := .arr [
    codeRecord "d" "define %name" "container" "%name = %body"
      [("name", .obj [("literal", .str "greet")])] [.str "p"],
    codeRecord "p" "say" "command" "say(1)\nsay(2)" [] [],
    codeRecord "c" "call %name" "command" "%name"
      [("name", .obj [("literal", .str "greet")])] []]) rfl

theorem textual_sampleCalls : sampleCalls.Textual := by
  intro id b hb
  have hm := Registry.get?_eq_some_iff.1 hb
  have hline : OneLine "body" ∧ OneLine "name" ∧ OneLine "greet" := by
    refine ⟨?_, ?_, ?_⟩ <;> unfold OneLine <;> decide
  simp only [sampleCalls, List.mem_cons, List.not_mem_nil, or_false, Prod.mk.injEq] at hm
  rcases hm with ⟨-, rfl⟩ | ⟨-, rfl⟩ | ⟨-, rfl⟩ <;>
    refine ⟨?_, ?_, ?_⟩ <;> simp [sampleDefinition, sampleCall, codeBlock, Kind.hasBody, hline]

/-- The definition of the sample, as it was made. -/
def sampleHoisting : Hoisting := ⟨"greet", sampleDefinition, "    ", [], ["say(1)\n    say(2)"]⟩

theorem chronicle_sampleHoisting :
    Chronicle {} sampleCalls (.str "python") { name := .str "python", indented := true } "    "
      [sampleHoisting] := by
  refine @Chronicle.hoist _ _ _ _ _ [] [] [] sampleHoisting .start .start .start rfl ?_
  exact {
    live := ⟨"d", rfl⟩
    defines := ⟨"", "greet = %body", "body", nofun, rfl, rfl, rfl, by decide +kernel⟩
    body := rfl }

/-- The call writes the lines of the body without their indentation. -/
theorem blockCode_of_call_sampleCalls :
    ∃ ss V, bodyCode sampleCalls (blockCode {} sampleCalls (.str "python") "") sampleDefinition [] =
        (.ok ss, V) ∧
      blockCode {} sampleCalls (.str "python") "" "c" (tableOf [sampleHoisting]) =
        (.ok (joinCode ("\n" ++ "") ss), tableOf [sampleHoisting]) := by
  have hl : Indented {} (.str "python") { name := .str "python", indented := true } "    " :=
    { found := rfl, indented := rfl, unit_eq := rfl, blank := by simp [Indents] }
  have hrun : filledText {} sampleCalls (.str "python") { name := .str "python", indented := true } ""
      ("" ++ "    ") sampleCall (tableOf [sampleHoisting]) =
      (.ok (some "greet"), tableOf [sampleHoisting]) := rfl
  have hb : sampleCalls.get? "c" = some sampleCall := rfl
  have hJ : Indents "".toList := nofun
  exact (blockCode_of_call hl wellFormed_sampleCalls textual_sampleCalls chronicle_sampleHoisting
    hb hJ hrun).2 [sampleHoisting] sampleHoisting chronicle_sampleHoisting rfl rfl

end Blockwork.Code
