import Blockwork.Proofs.Code.HungPlaceholders
import Blockwork.Proofs.Code.NestedBlockCode
import Blockwork.Proofs.Steps

/-!
# One block at two indentations

The code of a block at one indentation and its code at another are one text that hangs
at the one and at the other.  Both runs read the same template, ask for the children in
the same order and find the same placeholders.  They define the same functions, with
bodies that hang where they were generated, and a call brings the body to the
indentation of the call in both.  So two runs are compared from tables that have the
same functions, hung differently, and they leave such tables.
-/

namespace Blockwork

open Code (OneLine)

/-- A block whose templates are texts and whose names and literals have no line
breaks. -/
structure Block.Textual (b : Block) : Prop where
  templates : ∀ e ∈ b.templates.entries, ∃ s, e.2 = .str s
  inputs : ∀ e ∈ b.slots, OneLine e.1 ∧ OneLine e.2.literal
  bodyVar : ∀ v, b.containerVar = some (.str v) → OneLine v

/-- A registry of such blocks. -/
def Registry.Textual (r : Registry) : Prop := ∀ {id b}, r.get? id = some b → b.Textual

namespace Code

open Unicode (strip)

variable {g : Generator} {r : Registry} {name : Json} {language : Language} {unit : String}
variable {I J : String} {id : BlockId} {b : Block} {T T' : Functions} {α β γ δ : Type}

/-! ## Texts at two indentations -/

/-- One text, hung at two indentations. -/
def Hangs (I J s s' : String) : Prop := ∃ t, s = hangText I t ∧ s' = hangText J t

/-- Texts, each hung at two indentations. -/
def HangAll (I J : String) (ss ss' : List String) : Prop :=
  ∃ ts : List String, ss = ts.map (hangText I) ∧ ss' = ts.map (hangText J)

/-- What hangs at a deeper indentation hangs at the one around it. -/
theorem Hangs.outdent {s s' : String} (hu : Indents unit.toList)
    (h : Hangs (I ++ unit) (J ++ unit) s s') : Hangs I J s s' := by
  obtain ⟨t, rfl, rfl⟩ := h
  exact ⟨hangText unit t, (hangText_hangText hu t).symm, (hangText_hangText hu t).symm⟩

theorem HangAll.cons {s s' : String} {ss ss' : List String} (h : Hangs I J s s')
    (hs : HangAll I J ss ss') : HangAll I J (s :: ss) (s' :: ss') := by
  obtain ⟨t, rfl, rfl⟩ := h
  obtain ⟨ts, rfl, rfl⟩ := hs
  exact ⟨t :: ts, rfl, rfl⟩

theorem OneLine.hangs {s : String} (h : OneLine s) (I J : String) : Hangs I J s s :=
  ⟨s, (h.hangText I).symm, (h.hangText J).symm⟩

theorem joinTexts_hangText (I : String) (ts : List String) :
    joinTexts ("\n" ++ I) (ts.map (hangText I)) = hangText I (joinTexts "\n" ts) := by
  have hline : hangText I "\n" = "\n" ++ I := by
    rw [hangText, show ("\n" : String).toList = ['\n'] from rfl, hang_cons, overhang, if_pos rfl,
      hang_nil, List.append_nil, ← String.toList_inj]
    simp
  induction ts with
  | nil =>
    have hempty : OneLine "" := List.not_mem_nil
    exact (hempty.hangText I).symm
  | cons t ts ih =>
    cases ts with
    | nil => rfl
    | cons t' ts =>
      show hangText I t ++ ("\n" ++ I) ++ joinTexts ("\n" ++ I) ((t' :: ts).map (hangText I)) =
        hangText I (t ++ "\n" ++ joinTexts "\n" (t' :: ts))
      rw [ih, hangText_append, hangText_append, hline]

/-- Codes that hang at an indentation, joined at it, hang at it. -/
theorem joinCode_hangText (I : String) (ts : List String) :
    joinCode ("\n" ++ I) (ts.map (hangText I)) = hangText I (joinCode "\n" ts) := by
  have hempty : (fun s : String => decide (s ≠ "")) ∘ hangText I = fun s => decide (s ≠ "") :=
    funext fun t => decide_eq_decide.2 (not_congr (hangText_eq_empty I t))
  rw [joinCode, List.filter_map, hempty, joinTexts_hangText, joinCode]

/-! ## Tables -/

/-- Two tables with the same functions.  The code of each hangs at two indentations, and
no name has a line break. -/
structure Related (T T' : Functions) : Prop where
  lookup : ∀ f, Option.Rel (fun h h' => Hangs h.indent h'.indent h.body h'.body) (T.lookup f)
    (T'.lookup f)
  oneLine : ∀ {f h}, T.lookup f = some h → OneLine f

theorem related_nil : Related [] [] where
  lookup _ := .none
  oneLine h := by cases h

theorem Related.define (h : Related T T') {f : String} (hf : OneLine f) {d d' : Hoisted}
    (hd : Hangs d.indent d'.indent d.body d'.body) : Related (T.define f d) (T'.define f d') where
  lookup x := by
    simp only [Functions.lookup_define]
    split
    · exact .some hd
    · exact h.lookup x
  oneLine {x _} hx := by
    rw [Functions.lookup_define] at hx
    split at hx
    · next he => exact he ▸ hf
    · exact h.oneLine hx

/-- A text that hangs at two indentations calls the same function in both tables. -/
theorem Related.lookup_hangText (h : Related T T') (I J k : String) :
    Option.Rel (fun h h' => Hangs h.indent h'.indent h.body h'.body) (T.lookup (hangText I k))
      (T'.lookup (hangText J k)) := by
  by_cases hk : OneLine k
  · rw [hk.hangText, hk.hangText]
    exact h.lookup k
  · have hlines (I : String) : ¬ OneLine (hangText I k) := by
      rw [OneLine, toList_hangText, newline_mem_hang]
      exact hk
    have hnone {x : String} (hx : ¬ OneLine x) : T.lookup x = none :=
      Option.eq_none_iff_forall_ne_some.2 fun _ hs => hx (h.oneLine hs)
    have hnone' : T'.lookup (hangText J k) = none := by
      have hJ := h.lookup (hangText J k)
      rw [hnone (hlines J)] at hJ
      cases hJ' : T'.lookup (hangText J k) with
      | none => rfl
      | some d =>
        rw [hJ'] at hJ
        cases hJ
    rw [hnone (hlines I), hnone']
    exact .none

/-- A function whose code hangs where it was generated is brought to where it is called. -/
theorem Hoisted.at_of_hangText {h : Hoisted} {t : String} (hl : language.indented = true)
    (ht : h.body = hangText h.indent t) (indent : String) :
    h.at language indent = hangText indent t := by
  rw [Hoisted.at, hl]
  split
  · next he =>
    have : h.indent = indent := by simpa using he
    rw [ht, this]
  · rw [ht, reindent_hangText]

/-! ## Two runs -/

/-- Where the first step succeeds, the second does from any related table, with a related
answer, and the tables are related again. -/
structure Follows (A : α → β → Prop) (m : GenM α) (m' : GenM β) : Prop where
  run : ∀ {T T' : Functions} {a : α} {U : Functions}, Related T T' → m T = (.ok a, U) →
    ∃ a' U', m' T' = (.ok a', U') ∧ A a a' ∧ Related U U'

namespace Follows

variable {A : α → β → Prop} {B : γ → δ → Prop}

theorem pure {a : α} {a' : β} (h : A a a') : Follows A (Pure.pure a) (Pure.pure a') where
  run {_ T' _ _} hT hrun := by
    cases hrun
    exact ⟨a', T', rfl, h, hT⟩

theorem throw (e : Breakdown) (m' : GenM β) : Follows A (throw e) m' where
  run _ hrun := by cases hrun

theorem lift (x : Except Breakdown α) :
    Follows (fun a a' => x = .ok a ∧ a' = a) (liftM x : GenM α) (liftM x) where
  run {_ T' a _} hT hrun := by
    cases x with
    | error e => cases hrun
    | ok a =>
      cases hrun
      exact ⟨a, T', rfl, ⟨rfl, rfl⟩, hT⟩

theorem bind {m : GenM α} {m' : GenM β} {f : α → GenM γ} {f' : β → GenM δ} (h : Follows A m m')
    (hf : ∀ a a', A a a' → Follows B (f a) (f' a')) : Follows B (m >>= f) (m' >>= f') where
  run hT hrun := by
    obtain ⟨a, U, ha, hc⟩ := run_bind_eq_ok.1 hrun
    obtain ⟨a', U', ha', haa, hU⟩ := h.run hT ha
    obtain ⟨c', W', hc', hcc, hW⟩ := (hf a a' haa).run hU hc
    exact ⟨c', W', run_bind_eq_ok.2 ⟨a', U', ha', hc'⟩, hcc, hW⟩

theorem mono {A' : α → β → Prop} {m : GenM α} {m' : GenM β} (h : Follows A m m')
    (hA : ∀ a a', A a a' → A' a a') : Follows A' m m' where
  run {_ _ a _} hT hrun := by
    obtain ⟨a', U', ha', haa, hU⟩ := h.run hT hrun
    exact ⟨a', U', ha', hA a a' haa, hU⟩

theorem define {f : String} (hf : OneLine f) {d d' : Hoisted}
    (hd : Hangs d.indent d'.indent d.body d'.body) :
    Follows (fun _ _ => True) (modify (·.define f d) : GenM Unit) (modify (·.define f d')) where
  run {_ T' _ _} hT hrun := by
    cases hrun
    exact ⟨(), T'.define f d', rfl, trivial, hT.define hf hd⟩

end Follows

/-! ## The parts of generation -/

/-- A value that is one text, hung at two indentations. -/
def HangsValue (I J : String) (v v' : Json) : Prop :=
  ∃ t, v = .str (hangText I t) ∧ v' = .str (hangText J t)

theorem selectTemplate_text (hb : ∀ e ∈ b.templates.entries, ∃ s, e.2 = .str s) {template : Json}
    (h : selectTemplate g b name = .ok template) : ∃ s, template = .str s := by
  have hget {key v : Json} (hv : (b.templates.get? key).bind Json.given? = some v) :
      ∃ s, v = .str s := by
    obtain ⟨w, hw, hgiven⟩ := Option.bind_eq_some_iff.1 hv
    obtain ⟨e, he, rfl⟩ := Option.map_eq_some_iff.1 hw
    rw [Json.given?] at hgiven
    split at hgiven
    · cases hgiven
      exact hb e (List.mem_of_find?_eq_some he)
    · cases hgiven
  rw [selectTemplate] at h
  split at h
  · next hv =>
    cases h
    exact hget hv
  · split at h
    · cases h
      cases hd : (b.templates.get? g.defaultLanguage).bind Json.given? with
      | none => exact ⟨"", rfl⟩
      | some v => exact hget hd
    · cases h

theorem indentTemplate_text (hl : language.indented = true) (indent s : String) :
    indentTemplate language indent (.str s) = pure (.str (hangText indent s)) := by
  rw [indentTemplate, hl, Bool.true_and]
  split
  · have h := reindent_hangText "" indent s
    rw [hangText_empty] at h
    rw [h]
  · next he =>
    have : indent = "" := by simpa using he
    rw [this, hangText_empty]

theorem follows_demandText {v v' : Json} (h : HangsValue I J v v') :
    Follows (Hangs I J) (demandText v) (demandText v') := by
  obtain ⟨t, rfl, rfl⟩ := h
  exact .pure ⟨t, rfl, rfl⟩

theorem follows_demandText_same (v : Json) :
    Follows (fun s s' => v = .str s ∧ s' = s) (demandText v) (demandText v) := by
  cases v with
  | str s => exact .pure ⟨rfl, rfl⟩
  | _ => exact .throw ..

theorem follows_fillInputs (hI : Indents I.toList) (hJ : Indents J.toList)
    {code code' : BlockId → GenM String} {slots : List (String × Slot)}
    (hcode : ∀ e ∈ slots, ∀ c, e.2.child = some c → Follows (Hangs I J) (code c) (code' c))
    (hslots : ∀ e ∈ slots, OneLine e.1 ∧ OneLine e.2.literal) {text text' : Json}
    (ht : HangsValue I J text text') :
    Follows (HangsValue I J) (fillInputs r code text slots) (fillInputs r code' text' slots) := by
  induction slots generalizing text text' with
  | nil => exact .pure ht
  | cons e slots ih =>
    obtain ⟨input, slot⟩ := e
    obtain ⟨hinput, hliteral⟩ := hslots _ (List.mem_cons_self ..)
    have hrest {value value' : String} (hvalue : Hangs I J value value') :
        Follows (HangsValue I J)
          (do fillInputs r code (.str (substitute (← demandText text) input value)) slots)
          (do fillInputs r code' (.str (substitute (← demandText text') input value')) slots) := by
      refine .bind (follows_demandText ht) fun s s' hs => ?_
      refine ih (fun e he => hcode e (List.mem_cons_of_mem _ he))
        (fun e he => hslots e (List.mem_cons_of_mem _ he)) ?_
      obtain ⟨v, rfl, rfl⟩ := hvalue
      obtain ⟨t, rfl, rfl⟩ := hs
      exact ⟨substitute t input v, congrArg _ (substitute_hangText hI hinput t v),
        congrArg _ (substitute_hangText hJ hinput t v)⟩
    rw [fillInputs, fillInputs]
    cases hc : slot.child with
    | none => exact hrest (hliteral.hangs I J)
    | some c =>
      dsimp only
      split
      · exact .bind (hcode _ (List.mem_cons_self ..) c hc) fun _ _ => hrest
      · exact hrest (hliteral.hangs I J)

theorem follows_codes {code code' : BlockId → GenM String} {ids : List BlockId}
    (h : ∀ c ∈ ids, Follows (Hangs I J) (code c) (code' c)) :
    Follows (HangAll I J) (codes code ids) (codes code' ids) := by
  induction ids with
  | nil => exact .pure ⟨[], rfl, rfl⟩
  | cons c ids ih =>
    refine .bind (h c (List.mem_cons_self ..)) fun s s' hs => ?_
    refine .bind (ih fun x hx => h x (List.mem_cons_of_mem c hx)) fun ss ss' hss => ?_
    exact .pure (.cons hs hss)

theorem follows_fillBody (hI : Indents I.toList) (hJ : Indents J.toList) (hu : Indents unit.toList)
    (hb : b.Textual) {text text' : Json} (ht : HangsValue I J text text') {inner inner' : String}
    (hinner : Hangs (I ++ unit) (J ++ unit) inner inner') :
    Follows (Option.Rel (Hangs I J)) (fillBody b text inner (I ++ unit))
      (fillBody b text' inner' (J ++ unit)) := by
  obtain ⟨t, rfl, rfl⟩ := ht
  obtain ⟨u, hs, hs'⟩ := hinner.outdent hu
  rw [fillBody, fillBody]
  cases hv : b.containerVar.bind Json.given? with
  | none =>
    rw [hs, hs']
    exact .pure (.some ⟨substituteFallback t u, substituteFallback_hangText hI t u,
      substituteFallback_hangText hJ t u⟩)
  | some v =>
    refine .bind (follows_demandText_same v) fun bodyVar bodyVar' hsame => ?_
    obtain ⟨rfl, rfl⟩ := hsame
    have hvar : OneLine bodyVar' := by
      obtain ⟨w, hw, hgiven⟩ := Option.bind_eq_some_iff.1 hv
      rw [Json.given?] at hgiven
      split at hgiven
      · cases hgiven
        exact hb.bodyVar bodyVar' hw
      · cases hgiven
    have hname : definedName? (hangText I t).toList bodyVar'.toList =
        definedName? (hangText J t).toList bodyVar'.toList := by
      rw [toList_hangText, toList_hangText, definedName?_hang hI hvar, definedName?_hang hJ hvar]
    simp only [demandText, pure_bind, hname]
    cases hn : definedName? (hangText J t).toList bodyVar'.toList with
    | none =>
      rw [hs, hs']
      exact .pure (.some ⟨substitute t bodyVar' u, substitute_hangText hI hvar t u,
        substitute_hangText hJ hvar t u⟩)
    | some f =>
      have hf : OneLine (String.ofList f) := by
        rw [OneLine, String.toList_ofList]
        exact not_newline_of_definedName? hn
      exact .bind (.define hf hinner) fun _ _ _ => .pure .none

theorem finishText_run (language : Language) (indent text : String) (T : Functions) :
    finishText language indent text T =
      (.ok (match T.lookup (strip text) with
        | some h => h.at language indent
        | none => dropQuotes text), T) := by
  cases h : T.lookup (strip text) with
  | none =>
    show (match T.lookup (strip text) with
      | some h => pure (h.at language indent)
      | none => pure (dropQuotes text) : GenM String) T = _
    rw [h]
    rfl
  | some d =>
    show (match T.lookup (strip text) with
      | some h => pure (h.at language indent)
      | none => pure (dropQuotes text) : GenM String) T = _
    rw [h]
    rfl

theorem follows_finishText (hl : language.indented = true) (hI : Indents I.toList)
    (hJ : Indents J.toList) {text text' : String} (ht : Hangs I J text text') :
    Follows (Hangs I J) (finishText language I text) (finishText language J text') where
  run {T T' a U} hT hrun := by
    obtain ⟨t, rfl, rfl⟩ := ht
    have hcall := hT.lookup_hangText I J (strip t)
    rw [← strip_hangText hI, ← strip_hangText hJ] at hcall
    rw [finishText_run] at hrun
    cases hrun
    refine ⟨_, T', finishText_run .., ?_, hT⟩
    generalize T.lookup (strip (hangText I t)) = called,
      T'.lookup (strip (hangText J t)) = called' at hcall
    cases hcall with
    | none => exact ⟨dropQuotes t, dropQuotes_hangText hI t, dropQuotes_hangText hJ t⟩
    | some hd =>
      obtain ⟨u, hu, hu'⟩ := hd
      exact ⟨u, Hoisted.at_of_hangText hl hu I, Hoisted.at_of_hangText hl hu' J⟩

/-! ## Blocks -/

theorem follows_inputText (hl : Indented g name language unit) (wf : r.WellFormed)
    (hb : r.get? id = some b) (htext : b.Textual) (hI : Indents I.toList) (hJ : Indents J.toList)
    (ih : ∀ c, r.Under c id → Follows (Hangs (I ++ unit) (J ++ unit))
      (blockCode g r name (I ++ unit) c) (blockCode g r name (J ++ unit) c)) :
    Follows (HangsValue I J) (inputText g r name language (blockCode g r name (I ++ unit)) I b)
      (inputText g r name language (blockCode g r name (J ++ unit)) J b) := by
  refine .bind (.lift _) fun template template' htemplate => ?_
  obtain ⟨hselect, rfl⟩ := htemplate
  obtain ⟨t, rfl⟩ := selectTemplate_text htext.templates hselect
  rw [indentTemplate_text hl.indented, indentTemplate_text hl.indented, pure_bind, pure_bind]
  refine follows_fillInputs hI hJ (fun e he c hc => ?_) htext.inputs ⟨t, rfl, rfl⟩
  exact (ih c (wf.under_of_mem_slots hb he hc)).mono fun _ _ => Hangs.outdent hl.blank

theorem follows_bodyCode (wf : r.WellFormed) (hb : r.get? id = some b)
    (ih : ∀ c, r.Under c id → Follows (Hangs I J) (blockCode g r name I c) (blockCode g r name J c)) :
    Follows (HangAll I J) (bodyCode r (blockCode g r name I) b)
      (bodyCode r (blockCode g r name J) b) :=
  follows_codes fun c hc => ih c (wf.under_of_mem_nested hb (List.mem_of_mem_filter hc))

/-- The code of a block at one indentation and at another is one text, hung at both. -/
theorem follows_blockCode (hl : Indented g name language unit) (wf : r.WellFormed)
    (htext : r.Textual) (hid : r.contains id = true) (hI : Indents I.toList)
    (hJ : Indents J.toList) :
    Follows (Hangs I J) (blockCode g r name I id) (blockCode g r name J id) := by
  refine wf.child_induction (P := fun id => ∀ {I J : String}, Indents I.toList → Indents J.toList →
    Follows (Hangs I J) (blockCode g r name I id) (blockCode g r name J id)) ?_ id hid hI hJ
  intro id b hb ih I J hI hJ
  have hchild (c : BlockId) (hc : r.Under c id) :
      Follows (Hangs (I ++ unit) (J ++ unit)) (blockCode g r name (I ++ unit) c)
        (blockCode g r name (J ++ unit) c) := ih c hc (hl.deeper hI) (hl.deeper hJ)
  rw [hl.blockCode_live wf hb, hl.blockCode_live wf hb]
  have hfilled : Follows (Option.Rel (Hangs I J))
      (filledText g r name language I (I ++ unit) b) (filledText g r name language J (J ++ unit) b) := by
    refine .bind (follows_inputText hl wf hb (htext hb) hI hJ hchild) fun text text' ht => ?_
    refine .bind (follows_bodyCode wf hb hchild) fun ss ss' hss => ?_
    obtain ⟨ts, rfl, rfl⟩ := hss
    exact follows_fillBody hI hJ hl.blank (htext hb) ht
      ⟨_, joinCode_hangText _ ts, joinCode_hangText _ ts⟩
  refine .bind hfilled fun text text' ht => ?_
  cases ht with
  | none => exact .pure ⟨"", rfl, rfl⟩
  | some ht => exact follows_finishText hl.indented hI hJ ht

end Code

end Blockwork
