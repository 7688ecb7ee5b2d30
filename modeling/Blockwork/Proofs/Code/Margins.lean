import Blockwork.Proofs.Code.Calls
import Blockwork.Proofs.Code.Generable

/-!
# Margins

A text has a margin when every line break in it is followed by the indentation.  In an
indented language the code of a block has the indentation of the block as its margin, and
the code of a body that of one level more, provided that the templates are texts and what
was typed into the inputs has no line breaks.  The names of inputs and of body
placeholders may be anything.

Line breaks come from templates, from the joints of a body and from functions.  Templates
and functions are brought to the indentation where they are used.  Filling in keeps the
margin since a placeholder begins with no space and no tab: what stands behind a line
break is copied before the next placeholder can begin.  A table of functions has margins
when every body in it has the one it was generated at.
-/

namespace Blockwork

open Code (OneLine)

/-- A block whose templates are texts, with one line typed into each input. -/
structure Block.Plain (b : Block) : Prop where
  templates : ∀ e ∈ b.templates.entries, ∃ s, e.2 = .str s
  literals : ∀ e ∈ b.slots, OneLine e.2.literal

/-- A registry of such blocks. -/
def Registry.Plain (r : Registry) : Prop := ∀ {id b}, r.get? id = some b → b.Plain

namespace Code

open Text (Pattern replaceFrom replaceMatches)
open Unicode (strip)

/-! ## Texts with margins -/

section Texts

variable {indent cs as bs : List Char} {c : Char} {p : Pattern} {b : Option Char}

/-- Every line break is followed by the indentation. -/
def Margin (indent cs : List Char) : Prop :=
  ∀ before after, cs = before ++ '\n' :: after → indent <+: after

theorem margin_nil : Margin indent [] := by
  intro before after h
  cases before <;> cases h

theorem Margin.tail (h : Margin indent (as ++ bs)) : Margin indent bs := by
  rintro before after rfl
  exact h (as ++ before) after (by simp)

theorem margin_cons_iff :
    Margin indent (c :: cs) ↔ (c = '\n' → indent <+: cs) ∧ Margin indent cs := by
  constructor
  · intro h
    have hrest : Margin indent ([c] ++ cs) := h
    exact ⟨fun hc => h [] cs (by rw [hc]; rfl), hrest.tail⟩
  · rintro ⟨hfirst, hcs⟩ before after h
    cases before with
    | nil =>
      cases h
      exact hfirst rfl
    | cons d before =>
      cases h
      exact hcs before after rfl

theorem Margin.append (ha : Margin indent as) (hb : Margin indent bs) :
    Margin indent (as ++ bs) := by
  induction as with
  | nil => exact hb
  | cons a as ih =>
    obtain ⟨hfirst, has⟩ := margin_cons_iff.1 ha
    refine margin_cons_iff.2 ⟨fun h => ?_, ih has⟩
    exact (hfirst h).trans (List.prefix_append as bs)

theorem margin_of_line (h : '\n' ∉ cs) : Margin indent cs := by
  rintro before after rfl
  simp at h

/-- A text that hangs at an indentation has it as its margin. -/
theorem margin_hang (h : '\n' ∉ indent) (cs : List Char) : Margin indent (hang indent cs) := by
  induction cs with
  | nil => exact margin_nil
  | cons c cs ih =>
    rw [hang_cons, margin_cons_iff]
    by_cases hc : c = '\n'
    · rw [overhang, if_pos hc]
      exact ⟨fun _ => List.prefix_append .., (margin_of_line h).append ih⟩
    · rw [overhang_of_ne hc]
      exact ⟨fun h => absurd h hc, ih⟩

/-- A text with a margin is another text that hangs. -/
theorem Margin.exists_hang : ∀ {cs : List Char}, Margin indent cs → ∃ ds, cs = hang indent ds
  | [], _ => ⟨[], rfl⟩
  | c :: cs, h => by
    obtain ⟨hfirst, hcs⟩ := margin_cons_iff.1 h
    by_cases hc : c = '\n'
    · subst hc
      obtain ⟨rest, rfl⟩ := hfirst rfl
      obtain ⟨ds, rfl⟩ := Margin.exists_hang hcs.tail
      exact ⟨'\n' :: ds, by rw [hang_cons, overhang, if_pos rfl]⟩
    · obtain ⟨ds, rfl⟩ := Margin.exists_hang hcs
      exact ⟨c :: ds, (hang_cons_of_ne hc).symm⟩
termination_by cs => cs.length

/-- Replacing keeps the margin, where the pattern begins with no space and no tab. -/
theorem Margin.replaceFrom (hindent : Indents indent)
    (hskip : ∀ (b : Option Char) (c : Char) (cs : List Char), c = ' ' ∨ c = '\t' →
      p b (c :: cs) = none)
    (hout : ∀ {b cs out n}, p b cs = some (out, n) → Margin indent out) :
    ∀ (cs : List Char) (k : Nat) (b : Option Char), Margin indent cs →
      Margin indent (Text.replaceFrom p k b cs)
  | [], k, b, h => by
    rw [Text.replaceFrom]
    exact h
  | c :: cs, k + 1, b, h =>
    Margin.replaceFrom hindent hskip hout cs k (some c) (margin_cons_iff.1 h).2
  | c :: cs, 0, b, h => by
    obtain ⟨hfirst, hcs⟩ := margin_cons_iff.1 h
    rw [Text.replaceFrom]
    cases hp : p b (c :: cs) with
    | some found =>
      exact (hout hp).append (Margin.replaceFrom hindent hskip hout cs _ _ hcs)
    | none =>
      refine margin_cons_iff.2 ⟨fun hc => ?_, Margin.replaceFrom hindent hskip hout cs 0 _ hcs⟩
      -- what follows the line break is copied up to the end of the indentation
      obtain ⟨rest, rfl⟩ := hfirst hc
      rw [replaceFrom_copy fun b x hx cs => hskip b x cs (hindent x hx)]
      exact List.prefix_append ..

end Texts

variable {g : Generator} {r : Registry} {name : Json} {language : Language} {unit : String}
variable {I : String} {id : BlockId} {b : Block} {T : Functions} {α β : Type}

/-- Every line break of a text is followed by the indentation. -/
def HasMargin (indent text : String) : Prop := Margin indent.toList text.toList

theorem OneLine.hasMargin {s : String} (h : OneLine s) (I : String) : HasMargin I s :=
  margin_of_line h

theorem hasMargin_hangText (hI : Indents I.toList) (t : String) : HasMargin I (hangText I t) := by
  rw [HasMargin, toList_hangText]
  exact margin_hang hI.not_newline _

theorem HasMargin.exists_hangText {s : String} (h : HasMargin I s) : ∃ t, s = hangText I t := by
  obtain ⟨ds, hds⟩ := Margin.exists_hang h
  exact ⟨String.ofList ds, by rw [hangText_ofList, ← hds, String.ofList_toList]⟩

/-- A margin of one level more is a margin. -/
theorem HasMargin.outdent {s : String} (h : HasMargin (I ++ unit) s) : HasMargin I s := by
  intro before after hs
  have hdeep := h before after hs
  rw [String.toList_append] at hdeep
  exact (List.prefix_append ..).trans hdeep

theorem HasMargin.substitute {text value : String} (hI : Indents I.toList) (ht : HasMargin I text)
    (hv : HasMargin I value) (name : String) : HasMargin I (substitute text name value) := by
  rw [HasMargin, Code.substitute, String.toList_ofList]
  refine Margin.replaceFrom hI (fun b c cs hc => ?_) (fun {b cs out n} h => ?_) _ 0 none ht
  · rw [placeholder, placeholderAt?_indent cs hc]
    rfl
  · obtain ⟨_, -, h⟩ := Option.map_eq_some_iff.1 h
    cases h
    exact hv

theorem HasMargin.substituteFallback {text value : String} (hI : Indents I.toList)
    (ht : HasMargin I text) (hv : HasMargin I value) :
    HasMargin I (substituteFallback text value) := by
  obtain ⟨t, rfl⟩ := ht.exists_hangText
  obtain ⟨v, rfl⟩ := hv.exists_hangText
  rw [substituteFallback_hangText hI]
  exact hasMargin_hangText hI _

theorem HasMargin.dropQuotes {text : String} (hI : Indents I.toList) (h : HasMargin I text) :
    HasMargin I (dropQuotes text) := by
  obtain ⟨t, rfl⟩ := h.exists_hangText
  rw [dropQuotes_hangText hI]
  exact hasMargin_hangText hI _

theorem hasMargin_joinCode (hI : Indents I.toList) {ss : List String}
    (h : ∀ s ∈ ss, HasMargin I s) :
    HasMargin I (joinCode ("\n" ++ I) ss) := by
  have hall : ∃ ts : List String, ss = ts.map (hangText I) := by
    induction ss with
    | nil => exact ⟨[], rfl⟩
    | cons s ss ih =>
      obtain ⟨t, rfl⟩ := (h s (List.mem_cons_self ..)).exists_hangText
      obtain ⟨ts, rfl⟩ := ih fun s hs => h s (List.mem_cons_of_mem _ hs)
      exact ⟨t :: ts, rfl⟩
  obtain ⟨ts, rfl⟩ := hall
  rw [joinCode_hangText]
  exact hasMargin_hangText hI _

/-! ## Tables with margins -/

/-- Every body in a table has the indentation it was generated at as its margin. -/
def Functions.Margined (T : Functions) : Prop :=
  ∀ f h, T.lookup f = some h → HasMargin h.indent h.body

theorem Functions.margined_nil : Functions.Margined [] := nofun

theorem Functions.Margined.define {h : Hoisted} (hT : T.Margined) (hh : HasMargin h.indent h.body)
    (f : String) : (T.define f h).Margined := by
  intro x d hx
  rw [Functions.lookup_define] at hx
  split at hx
  · cases hx
    exact hh
  · exact hT x d hx

/-- A function is brought to the margin of where it is called. -/
theorem HasMargin.at {h : Hoisted} (hl : language.indented = true) (hh : HasMargin h.indent h.body)
    (hI : Indents I.toList) : HasMargin I (h.at language I) := by
  obtain ⟨t, ht⟩ := hh.exists_hangText
  rw [Hoisted.at_of_hangText hl ht]
  exact hasMargin_hangText hI t

/-! ## Steps that keep margins -/

/-- From a table with margins the step leaves one, whether it fails or not, and what it
returns is as it should be. -/
structure KeepsMargins (m : GenM α) (Q : α → Prop) : Prop where
  table : ∀ {T : Functions}, T.Margined → (m T).2.Margined
  answer : ∀ {T : Functions} {a : α}, T.Margined → (m T).1 = .ok a → Q a

namespace KeepsMargins

variable {m : GenM α} {f : α → GenM β} {Q : α → Prop} {R : β → Prop}

theorem still (htable : ∀ T, (m T).2 = T) (h : ∀ {T a}, (m T).1 = .ok a → Q a) :
    KeepsMargins m Q where
  table {T} hT := by rwa [htable]
  answer _ := h

theorem pure {a : α} (h : Q a) : KeepsMargins (Pure.pure a) Q :=
  .still (fun _ => rfl) fun {_ _} ha => by
    cases ha
    exact h

theorem lift (x : Except Breakdown α) : KeepsMargins (liftM x : GenM α) fun a => x = .ok a := by
  cases x <;> exact .still (fun _ => rfl) fun {_ _} ha => ha

theorem demandText (v : Json) : KeepsMargins (demandText v) fun s => v = .str s := by
  cases v with
  | str s => exact .pure rfl
  | _ => exact .still (fun _ => rfl) fun {_ _} ha => nomatch ha

theorem bind (hm : KeepsMargins m Q) (hf : ∀ a, Q a → KeepsMargins (f a) R) :
    KeepsMargins (m >>= f) R where
  table hT := run_bind (P := Functions.Margined) (hm.table hT) fun a T ha h =>
    (hf a (hm.answer hT (congrArg Prod.fst ha))).table h
  answer {T b} hT hb := by
    have hrun : (m >>= f) T = (.ok b, ((m >>= f) T).2) := Prod.ext hb rfl
    obtain ⟨a, U, ha, hrun⟩ := run_bind_eq_ok.1 hrun
    have hU : U.Margined := by
      have h := hm.table hT
      rwa [ha] at h
    exact (hf a (hm.answer hT (congrArg Prod.fst ha))).answer hU (congrArg Prod.fst hrun)

/-- A definition puts its body into the table. -/
theorem define {h : Hoisted} (hh : HasMargin h.indent h.body) (f : String) :
    KeepsMargins (modify (·.define f h) : GenM Unit) fun _ => True where
  table {T} hT := by
    show (T.define f h).Margined
    exact hT.define hh f
  answer _ _ := trivial

end KeepsMargins

theorem keepsMargins_fillInputs (hI : Indents I.toList) {code : BlockId → GenM String}
    {slots : List (String × Slot)}
    (hcode : ∀ e ∈ slots, ∀ c, e.2.child = some c → KeepsMargins (code c) (HasMargin I))
    (hslots : ∀ e ∈ slots, OneLine e.2.literal) {text : String} (ht : HasMargin I text) :
    KeepsMargins (fillInputs r code (.str text) slots) fun v => ∃ s, v = .str s ∧ HasMargin I s := by
  induction slots generalizing text with
  | nil => exact .pure ⟨text, rfl, ht⟩
  | cons e slots ih =>
    obtain ⟨input, slot⟩ := e
    have hrest (value : String) (hv : HasMargin I value) : KeepsMargins
        (do fillInputs r code (.str (substitute (← demandText (.str text)) input value)) slots)
        fun v => ∃ s, v = .str s ∧ HasMargin I s :=
      ih (fun e he => hcode e (List.mem_cons_of_mem _ he))
        (fun e he => hslots e (List.mem_cons_of_mem _ he)) (ht.substitute hI hv input)
    have hliteral := (hslots _ (List.mem_cons_self ..)).hasMargin I
    rw [fillInputs]
    cases hc : slot.child with
    | none => exact hrest slot.literal hliteral
    | some c =>
      dsimp only
      split
      · exact .bind (hcode _ (List.mem_cons_self ..) c hc) hrest
      · exact hrest slot.literal hliteral

theorem keepsMargins_codes {code : BlockId → GenM String} {ids : List BlockId}
    (h : ∀ c ∈ ids, KeepsMargins (code c) (HasMargin I)) :
    KeepsMargins (codes code ids) fun ss => ∀ s ∈ ss, HasMargin I s := by
  induction ids with
  | nil => exact .pure nofun
  | cons c ids ih =>
    refine .bind (h c (List.mem_cons_self ..)) fun s hs => ?_
    refine .bind (ih fun x hx => h x (List.mem_cons_of_mem c hx)) fun ss hss => ?_
    exact .pure (List.forall_mem_cons.2 ⟨hs, hss⟩)

theorem keepsMargins_fillBody (hI : Indents I.toList) (b : Block) {text inner : String}
    (ht : HasMargin I text) (hinner : HasMargin (I ++ unit) inner) :
    KeepsMargins (fillBody b (.str text) inner (I ++ unit)) fun t => ∀ s ∈ t, HasMargin I s := by
  rw [fillBody]
  cases b.containerVar.bind Json.given? with
  | none => exact .pure fun s hs => Option.some.inj hs ▸ ht.substituteFallback hI hinner.outdent
  | some v =>
    refine .bind (.demandText v) fun bodyVar _ => ?_
    rw [demandText, pure_bind]
    cases definedName? text.toList bodyVar.toList with
    | none => exact .pure fun s hs => Option.some.inj hs ▸ ht.substitute hI hinner.outdent bodyVar
    | some f =>
      have hdefine := KeepsMargins.define (h := ⟨inner, I ++ unit⟩) hinner (String.ofList f)
      exact hdefine.bind fun _ _ => .pure fun s hs => absurd hs (Option.not_mem_none s)

theorem keepsMargins_finishText (hl : language.indented = true) (hI : Indents I.toList)
    {text : String} (ht : HasMargin I text) :
    KeepsMargins (finishText language I text) (HasMargin I) where
  table {T} hT := by rwa [finishText_run]
  answer {T a} hT ha := by
    rw [finishText_run] at ha
    cases ha
    cases hcalled : T.lookup (strip text) with
    | none => exact ht.dropQuotes hI
    | some h => exact HasMargin.at hl (hT _ h hcalled) hI

/-! ## Blocks -/

theorem keepsMargins_bodyCode (wf : r.WellFormed) (hb : r.get? id = some b)
    (h : ∀ c, r.Under c id → KeepsMargins (blockCode g r name I c) (HasMargin I)) :
    KeepsMargins (bodyCode r (blockCode g r name I) b) fun ss => ∀ s ∈ ss, HasMargin I s :=
  keepsMargins_codes fun c hc => h c (wf.under_of_mem_nested hb (List.mem_of_mem_filter hc))

theorem keepsMargins_filledText (hl : Indented g name language unit) (wf : r.WellFormed)
    (hb : r.get? id = some b) (hplain : b.Plain) (hI : Indents I.toList)
    (h : ∀ c, r.Under c id →
      KeepsMargins (blockCode g r name (I ++ unit) c) (HasMargin (I ++ unit))) :
    KeepsMargins (filledText g r name language I (I ++ unit) b) fun t => ∀ s ∈ t, HasMargin I s := by
  have hinputs : KeepsMargins (inputText g r name language (blockCode g r name (I ++ unit)) I b)
      fun v => ∃ s, v = .str s ∧ HasMargin I s := by
    refine .bind (.lift _) fun template hselect => ?_
    obtain ⟨t, rfl⟩ := selectTemplate_text hplain.templates hselect
    rw [indentTemplate_text hl.indented, pure_bind]
    refine keepsMargins_fillInputs hI (fun e he c hc => ?_) hplain.literals
      (hasMargin_hangText hI t)
    have hchild := h c (wf.under_of_mem_slots hb he hc)
    exact ⟨hchild.table, fun hT ha => (hchild.answer hT ha).outdent⟩
  refine .bind hinputs fun text ht => .bind (keepsMargins_bodyCode wf hb h) fun ss hss => ?_
  obtain ⟨s, rfl, hs⟩ := ht
  exact keepsMargins_fillBody hI b hs (hasMargin_joinCode (hl.deeper hI) hss)

theorem keepsMargins_blockCode (hl : Indented g name language unit) (wf : r.WellFormed)
    (hplain : r.Plain) (hid : r.contains id = true) (hI : Indents I.toList) :
    KeepsMargins (blockCode g r name I id) (HasMargin I) := by
  refine wf.child_induction (P := fun id => ∀ {I : String}, Indents I.toList →
    KeepsMargins (blockCode g r name I id) (HasMargin I)) ?_ id hid hI
  intro id b hb ih I hI
  rw [hl.blockCode_live wf hb]
  refine .bind (keepsMargins_filledText hl wf hb (hplain hb) hI fun c hc =>
    ih c hc (hl.deeper hI)) fun text ht => ?_
  cases text with
  | none =>
    have hempty : OneLine "" := List.not_mem_nil
    exact .pure (hempty.hasMargin I)
  | some text => exact keepsMargins_finishText hl.indented hI (ht text rfl)

/-- A block whose templates are texts is one to generate from if the name of its body
placeholder is a text. -/
theorem generable_of_plain (hb : b.Plain) (hdefault : g.defaultLanguage.isScalar = true) :
    Generable g name b ↔ ∀ v ∈ b.containerVar.bind Json.given?, v.IsText := by
  refine ⟨Generable.bodyVar, fun hvar => ⟨?_, hvar⟩⟩
  have hselect : ∃ template, selectTemplate g b name = .ok template := by
    rw [selectTemplate]
    split
    · exact ⟨_, rfl⟩
    · exact ⟨_, if_pos hdefault⟩
  obtain ⟨template, htemplate⟩ := hselect
  obtain ⟨s, rfl⟩ := selectTemplate_text hb.templates htemplate
  exact ⟨s, htemplate⟩

/-- In the code of a block at an indentation every line break is followed by that
indentation, and in the code of its body by one level more.  Whether the generator fails or
not, the bodies in the table that it leaves have the indentations that go with them as their
margins, if those in the table that it found had.  It fails only at the name of a body
placeholder that is no text. -/
theorem margin_of_blockCode (hl : Indented g name language unit) (wf : r.WellFormed)
    (hplain : r.Plain) (hI : Indents I.toList) (hT : T.Margined) (id : BlockId) :
    (∀ code U, blockCode g r name I id T = (.ok code, U) → HasMargin I code) ∧
    (blockCode g r name I id T).2.Margined ∧
    (∀ b ss U, r.get? id = some b →
      bodyCode r (blockCode g r name (I ++ unit)) b T = (.ok ss, U) →
      (∀ s ∈ ss, HasMargin (I ++ unit) s) ∧
        HasMargin (I ++ unit) (joinCode ("\n" ++ (I ++ unit)) ss) ∧ U.Margined) ∧
    (g.defaultLanguage.isScalar = true → r.contains id = true →
      ((∃ code, (blockCode g r name I id T).1 = .ok code) ↔
        ∀ x b, Relation.ReflTransGen r.Under x id → r.get? x = some b →
          ∀ v ∈ b.containerVar.bind Json.given?, v.IsText)) := by
  have hblock (id : BlockId) (hid : r.contains id = true) :=
    keepsMargins_blockCode hl wf hplain hid hI
  refine ⟨fun code U hrun => ?_, ?_, fun b ss U hb hrun => ?_, fun hdefault hid => ?_⟩
  · by_cases hid : r.contains id = true
    · exact (hblock id hid).answer hT (congrArg Prod.fst hrun)
    · rw [blockCode_dead (Registry.not_contains_iff.1 hid)] at hrun
      cases hrun
      have hempty : OneLine "" := List.not_mem_nil
      exact hempty.hasMargin I
  · by_cases hid : r.contains id = true
    · exact (hblock id hid).table hT
    · rw [blockCode_dead (Registry.not_contains_iff.1 hid)]
      exact hT
  · have hbody := keepsMargins_bodyCode wf hb fun c hc =>
      keepsMargins_blockCode hl wf hplain hc.contains (hl.deeper hI)
    have hss := hbody.answer hT (congrArg Prod.fst hrun)
    have hU := hbody.table hT
    rw [hrun] at hU
    exact ⟨hss, hasMargin_joinCode (hl.deeper hI) hss, hU⟩
  · have hdeeper (indent : String) : ∃ childIndent, language.deeper indent = .ok childIndent :=
      Language.exists_deeper ⟨unit, hl.unit_eq⟩ indent
    rw [(succeeds_blockCode wf hl.found hdeeper id hid I).ok_iff]
    refine forall_congr' fun x => forall_congr' fun b => imp_congr_right fun _ =>
      forall_congr' fun hb => generable_of_plain (hplain hb) hdefault

theorem plain_sampleCalls : sampleCalls.Plain := by
  intro id b hb
  have htextual := textual_sampleCalls hb
  exact ⟨htextual.templates, fun e he => (htextual.inputs e he).2⟩

theorem margined_sampleHoisting : (tableOf [sampleHoisting]).Margined := by
  have hbody : sampleHoisting.hoisted.body =
      hangText sampleHoisting.hoisted.indent "say(1)\nsay(2)" := by decide +kernel
  have hindent : Indents sampleHoisting.hoisted.indent.toList := by
    simp [Indents, Hoisting.hoisted, sampleHoisting]
  have hmargin : HasMargin sampleHoisting.hoisted.indent sampleHoisting.hoisted.body := by
    rw [hbody]
    exact hasMargin_hangText hindent _
  exact Functions.margined_nil.define hmargin sampleHoisting.name

/-- A call at a tab puts the tab before the second line of the body, which was generated at
four spaces. -/
theorem margin_of_blockCode_sampleCalls :
    ∃ code, (blockCode {} sampleCalls (.str "python") "\t" "c" (tableOf [sampleHoisting])).1 =
        .ok code ∧
      code = "say(1)\n\tsay(2)" ∧ HasMargin "\t" code := by
  have hl : Indented {} (.str "python") { name := .str "python", indented := true } "    " :=
    { found := rfl, indented := rfl, unit_eq := rfl, blank := by simp [Indents] }
  have hrun : blockCode {} sampleCalls (.str "python") "\t" "c" (tableOf [sampleHoisting]) =
      (.ok "say(1)\n\tsay(2)", tableOf [sampleHoisting]) := by rfl
  have hI : Indents "\t".toList := by simp [Indents]
  refine ⟨"say(1)\n\tsay(2)", by rw [hrun], rfl, ?_⟩
  exact (margin_of_blockCode hl wellFormed_sampleCalls plain_sampleCalls hI
    margined_sampleHoisting "c").1 _ _ hrun

end Code

end Blockwork
