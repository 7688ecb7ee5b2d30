import Blockwork.Proofs.Code.NestedBlockCode
import Blockwork.Proofs.Steps

/-!
# What code can be generated from

Templates come from outside, and so do the names of body placeholders, and they may be any
values.  Code is generated by putting texts into texts, so a block whose template is no text
makes generation break down, even where there is nothing to put in.

A step of generation `Succeeds` under a condition if it returns exactly then, whatever has
been defined before.  The code of a block succeeds exactly if the template and the body
placeholder of the block and of every block below it are texts.
-/

namespace Blockwork

/-- A value that is a text. -/
def Json.IsText (v : Json) : Prop := ∃ s, v = .str s

instance (v : Json) : Decidable v.IsText :=
  match v with
  | .str s => .isTrue ⟨s, rfl⟩
  | .null | .bool _ | .int _ | .float _ | .arr _ | .obj _ => .isFalse nofun

namespace Code

variable {g : Generator} {r : Registry} {name : Json} {language : Language}
variable {id : BlockId} {b : Block} {α β : Type}

/-- The template of a block for a language and the name of its body placeholder, if it is
given, are texts. -/
structure Generable (g : Generator) (name : Json) (b : Block) : Prop where
  template : ∃ s, selectTemplate g b name = .ok (.str s)
  bodyVar : ∀ v ∈ b.containerVar.bind Json.given?, v.IsText

instance (g : Generator) (name : Json) (b : Block) : Decidable (Generable g name b) :=
  decidable_of_iff
    ((selectTemplate g b name).toOption.any (fun v => decide v.IsText) = true ∧
      ∀ v ∈ b.containerVar.bind Json.given?, v.IsText) <| by
    constructor
    · rintro ⟨htemplate, hvar⟩
      refine ⟨?_, hvar⟩
      cases h : selectTemplate g b name with
      | error e =>
        rw [h] at htemplate
        cases htemplate
      | ok v =>
        rw [h] at htemplate
        obtain ⟨s, rfl⟩ := of_decide_eq_true htemplate
        exact ⟨s, rfl⟩
    · rintro ⟨⟨s, hs⟩, hvar⟩
      rw [hs]
      exact ⟨rfl, hvar⟩

/-! ## Steps that succeed -/

/-- The step returns exactly if the condition holds, whatever has been defined, and what it
returns meets another condition. -/
structure Succeeds (m : GenM α) (P : Prop) (Q : α → Prop) : Prop where
  sound : ∀ {T a T'}, m T = (.ok a, T') → P ∧ Q a
  total : P → ∀ T, ∃ a T', m T = (.ok a, T')

namespace Succeeds

variable {m : GenM α} {f : α → GenM β} {P P' : Prop} {Q Q' : α → Prop} {R : β → Prop}

theorem pure {a : α} (hP : P) (hQ : Q a) : Succeeds (Pure.pure a) P Q where
  sound hrun := by
    cases hrun
    exact ⟨hP, hQ⟩
  total _ T := ⟨a, T, rfl⟩

theorem throw {e : Breakdown} (hP : ¬ P) : Succeeds (MonadExcept.throw e : GenM α) P Q where
  sound hrun := by cases hrun
  total h := absurd h hP

theorem bind (h : Succeeds m P Q) (hf : ∀ a, Q a → Succeeds (f a) P' R) :
    Succeeds (m >>= f) (P ∧ P') R where
  sound hrun := by
    obtain ⟨a, T, ha, hrun⟩ := run_bind_eq_ok.1 hrun
    obtain ⟨hP, hQ⟩ := h.sound ha
    obtain ⟨hP', hR⟩ := (hf a hQ).sound hrun
    exact ⟨⟨hP, hP'⟩, hR⟩
  total := by
    rintro ⟨hP, hP'⟩ T
    obtain ⟨a, T', ha⟩ := h.total hP T
    rw [run_bind_ok ha]
    exact (hf a (h.sound ha).2).total hP' T'

theorem congr (h : Succeeds m P Q) (hP : P ↔ P') : Succeeds m P' Q where
  sound hrun := ⟨hP.1 (h.sound hrun).1, (h.sound hrun).2⟩
  total hP' := h.total (hP.2 hP')

theorem mono (h : Succeeds m P Q) (hQ : ∀ a, Q a → Q' a) : Succeeds m P Q' where
  sound hrun := ⟨(h.sound hrun).1, hQ _ (h.sound hrun).2⟩
  total := h.total

theorem ok_iff (h : Succeeds m P Q) (T : Functions) : (∃ a, (m T).1 = .ok a) ↔ P := by
  constructor
  · rintro ⟨a, ha⟩
    have hrun : m T = (.ok a, (m T).2) := Prod.ext ha rfl
    exact (h.sound hrun).1
  · intro hP
    obtain ⟨a, T', hrun⟩ := h.total hP T
    exact ⟨a, by rw [hrun]⟩

end Succeeds

theorem succeeds_demandText (v : Json) : Succeeds (demandText v) v.IsText fun s => v = .str s := by
  cases v with
  | str s => exact .pure ⟨s, rfl⟩ rfl
  | _ => exact .throw nofun

/-- A template that is no text passes where nothing has to be indented. -/
theorem succeeds_indentTemplate (indent : String) (template : Json) :
    Succeeds (indentTemplate language indent template)
      ((language.indented && indent ≠ "") = true → template.IsText)
      fun t => t.IsText ↔ template.IsText := by
  unfold indentTemplate
  cases (language.indented && indent ≠ "") with
  | false => exact .pure nofun Iff.rfl
  | true =>
    cases template with
    | str s =>
      have htext (s : String) : (Json.str s).IsText := ⟨s, rfl⟩
      exact Succeeds.pure (fun _ => htext s) (iff_of_true (htext _) (htext s))
    | _ => exact .throw fun h => nomatch h rfl

/-- A template that is no text passes where there are no inputs. -/
theorem succeeds_fillInputs {code : BlockId → GenM String} {G : BlockId → Prop}
    {slots : List (String × Slot)}
    (h : ∀ e ∈ slots, ∀ c, e.2.child = some c → Succeeds (code c) (G c) fun _ => True)
    (text : Json) :
    Succeeds (fillInputs r code text slots)
      ((∀ e ∈ slots, ∀ c, e.2.child = some c → r.contains c = true → G c) ∧
        (slots ≠ [] → text.IsText))
      fun t => t.IsText ↔ text.IsText := by
  induction slots generalizing text with
  | nil => exact .pure ⟨nofun, fun h => absurd rfl h⟩ Iff.rfl
  | cons e slots ih =>
    obtain ⟨input, slot⟩ := e
    have hrest (value : String) : Succeeds
        (do fillInputs r code (.str (substitute (← demandText text) input value)) slots)
        (text.IsText ∧ ∀ e ∈ slots, ∀ c, e.2.child = some c → r.contains c = true → G c)
        fun t => t.IsText ↔ text.IsText := by
      refine (succeeds_demandText text).bind fun s hs => ?_
      have hfill := ih (fun e he => h e (List.mem_cons_of_mem _ he))
        (.str (substitute s input value))
      refine (hfill.congr ⟨And.left, fun h => ⟨h, fun _ => ⟨_, rfl⟩⟩⟩).mono fun t ht => ?_
      rw [ht]
      exact ⟨fun _ => ⟨s, hs⟩, fun _ => ⟨_, rfl⟩⟩
    have hjoin {value : GenM String} {P : Prop} (hv : Succeeds value P fun _ => True)
        (hP : P ↔ ∀ c, slot.child = some c → r.contains c = true → G c) : Succeeds
          (do
            let v ← value
            fillInputs r code (.str (substitute (← demandText text) input v)) slots)
          ((∀ e ∈ (input, slot) :: slots, ∀ c, e.2.child = some c → r.contains c = true → G c) ∧
            ((input, slot) :: slots ≠ [] → text.IsText))
          fun t => t.IsText ↔ text.IsText := by
      refine (hv.bind fun v _ => hrest v).congr ?_
      rw [List.forall_mem_cons, hP]
      constructor
      · rintro ⟨hG, htext, hslots⟩
        exact ⟨⟨hG, hslots⟩, fun _ => htext⟩
      · rintro ⟨⟨hG, hslots⟩, htext⟩
        exact ⟨hG, htext nofun, hslots⟩
    rw [fillInputs]
    cases hc : slot.child with
    | none => exact hjoin (.pure trivial trivial) (iff_of_true trivial (by simp [hc]))
    | some c =>
      dsimp only
      split
      · next hlive => exact hjoin (h _ (List.mem_cons_self ..) c hc) (by simp [hc, hlive])
      · next hdead =>
        exact hjoin (.pure trivial trivial) (iff_of_true trivial (by simp [hc, hdead]))

theorem succeeds_codes {code : BlockId → GenM String} {G : BlockId → Prop} {ids : List BlockId}
    (h : ∀ c ∈ ids, Succeeds (code c) (G c) fun _ => True) :
    Succeeds (codes code ids) (∀ c ∈ ids, G c) fun _ => True := by
  induction ids with
  | nil => exact .pure nofun trivial
  | cons c ids ih =>
    have hids := ih fun x hx => h x (List.mem_cons_of_mem c hx)
    rw [codes]
    refine Succeeds.congr ((h c (List.mem_cons_self ..)).bind fun s _ => hids.bind fun ss _ =>
      .pure (P := True) trivial trivial) ?_
    simp

theorem succeeds_fillBody (b : Block) (text : Json) (inner childIndent : String) :
    Succeeds (fillBody b text inner childIndent)
      ((∀ v ∈ b.containerVar.bind Json.given?, v.IsText) ∧ text.IsText) fun _ => True := by
  have hdefine (name : String) (h : Hoisted) : Succeeds (do
      modify (·.define name h)
      return none : GenM (Option String)) True fun _ => True :=
    ⟨fun _ => ⟨trivial, trivial⟩, fun _ T => ⟨_, _, rfl⟩⟩
  rw [fillBody]
  cases b.containerVar.bind Json.given? with
  | none =>
    refine ((succeeds_demandText text).bind fun s _ => .pure (P := True) trivial trivial).congr ?_
    simp
  | some v =>
    suffices h : Succeeds _ (v.IsText ∧ text.IsText ∧ True) fun _ => True from
      h.congr (by simp)
    refine (succeeds_demandText v).bind fun bodyVar _ =>
      (succeeds_demandText text).bind fun s _ => ?_
    cases definedName? s.toList bodyVar.toList with
    | none => exact .pure trivial trivial
    | some name => exact hdefine _ _

theorem succeeds_finishText (indent text : String) :
    Succeeds (finishText language indent text) True fun _ => True := by
  have hget : Succeeds (get : GenM Functions) True fun _ => True :=
    ⟨fun _ => ⟨trivial, trivial⟩, fun _ T => ⟨T, T, rfl⟩⟩
  suffices h : Succeeds (finishText language indent text) (True ∧ True) fun _ => True from
    h.congr and_self_iff
  refine hget.bind fun T _ => ?_
  split <;> exact .pure trivial trivial

/-! ## Blocks -/

/-- The code of a block succeeds if the block is one to generate from and the codes of its
children succeed. -/
theorem succeeds_blockCodeBy (wf : r.WellFormed) (hb : r.get? id = some b)
    (hfound : Language.find g.languages name = .ok language) {indent childIndent : String}
    (hdeeper : language.deeper indent = .ok childIndent)
    {code : String → BlockId → GenM String} {G : BlockId → Prop}
    (h : ∀ c, r.Under c id → Succeeds (code childIndent c) (G c) fun _ => True) :
    Succeeds (blockCodeBy g r name code indent b)
      (Generable g name b ∧ ∀ c, r.Under c id → G c) fun _ => True := by
  simp only [blockCodeBy, hfound, hdeeper, liftM_ok, pure_bind]
  cases hselect : selectTemplate g b name with
  | error e =>
    refine Succeeds.throw fun hgen => ?_
    obtain ⟨s, hs⟩ := hgen.1.template
    cases hselect.symm.trans hs
  | ok template =>
    rw [liftM_ok, pure_bind]
    have hinputs (t : Json) (ht : t.IsText ↔ template.IsText) :
        Succeeds (fillInputs r (code childIndent) t b.slots)
          ((∀ e ∈ b.slots, ∀ c, e.2.child = some c → r.contains c = true → G c) ∧
            (b.slots ≠ [] → template.IsText))
          fun text => text.IsText ↔ template.IsText := by
      rw [← ht]
      exact succeeds_fillInputs (fun e he c hc => h c (wf.under_of_mem_slots hb he hc)) t
    have hnested := succeeds_codes fun c hc =>
      h c (wf.under_of_mem_nested hb (List.mem_of_mem_filter (p := r.contains) hc))
    have hbody (text : Json) (htext : text.IsText ↔ template.IsText) (inner : String) :=
      (succeeds_fillBody b text inner childIndent).congr (and_congr_right' htext)
    have hgen : Generable g name b ↔
        (∀ v ∈ b.containerVar.bind Json.given?, v.IsText) ∧ template.IsText := by
      constructor
      · rintro ⟨⟨s, hs⟩, hvar⟩
        exact ⟨hvar, s, Except.ok.inj (hselect.symm.trans hs)⟩
      · rintro ⟨hvar, s, rfl⟩
        exact ⟨⟨s, hselect⟩, hvar⟩
    refine Succeeds.congr ((succeeds_indentTemplate indent template).bind fun t ht =>
      (hinputs t ht).bind fun text htext => hnested.bind fun nested _ =>
        (hbody text htext _).bind fun done _ => (?_ : Succeeds _ True fun _ => True)) ?_
    · cases done with
      | some text => exact succeeds_finishText indent text
      | none => exact .pure trivial trivial
    · rw [← wf.forall_under_iff hb, hgen]
      constructor
      · rintro ⟨-, ⟨hslots, -⟩, hnested, hown, -⟩
        exact ⟨hown, hslots, hnested⟩
      · rintro ⟨hown, hslots, hnested⟩
        exact ⟨fun _ => hown.2, ⟨hslots, fun _ => hown.2⟩, hnested, hown, trivial⟩

/-- The code of a block succeeds if it and every block below it are ones to generate from. -/
theorem succeeds_blockCode (wf : r.WellFormed)
    (hfound : Language.find g.languages name = .ok language)
    (hdeeper : ∀ indent, ∃ childIndent, language.deeper indent = .ok childIndent) :
    ∀ id, r.contains id = true → ∀ indent, Succeeds (blockCode g r name indent id)
      (∀ x b, Relation.ReflTransGen r.Under x id → r.get? x = some b → Generable g name b)
      fun _ => True := by
  refine wf.child_induction fun id b hb ih indent => ?_
  obtain ⟨childIndent, hchild⟩ := hdeeper indent
  rw [blockCode_live wf hb]
  refine (succeeds_blockCodeBy wf hb hfound hchild fun c hc => ih c hc childIndent).congr ?_
  constructor
  · rintro ⟨hgen, hbelow⟩ x d hx hd
    rcases Relation.ReflTransGen.cases_tail hx with rfl | ⟨c, hxc, hc⟩
    · cases hb.symm.trans hd
      exact hgen
    · exact hbelow c hc x d hxc hd
  · intro h
    exact ⟨h id b .refl hb, fun c hc x d hx hd => h x d (hx.tail hc) hd⟩

/-- Generating returns exactly if every live block is one to generate from. -/
theorem generate_ok_iff (wf : r.WellFormed) {language : Json} {l : Language}
    (hfound : Language.find g.languages (language.orElse g.defaultLanguage) = .ok l)
    (hdeeper : ∀ indent, ∃ childIndent, l.deeper indent = .ok childIndent) :
    (∃ code, generate g r language = .ok code) ↔
      ∀ id b, r.get? id = some b → Generable g (language.orElse g.defaultLanguage) b := by
  let name := language.orElse g.defaultLanguage
  have hcodes := succeeds_codes fun id hid => succeeds_blockCode wf hfound hdeeper id
    (Registry.contains_of_mem_roots hid) ""
  have hrun : (∃ code, generate g r language = .ok code) ↔
      ∃ parts, (codes (blockCode g r name "") r.roots []).1 = .ok parts := by
    show (∃ code, (codes (blockCode g r name "") r.roots []).1.map (joinCode "\n") = .ok code) ↔ _
    cases (codes (blockCode g r name "") r.roots []).1 with
    | ok parts => exact ⟨fun _ => ⟨parts, rfl⟩, fun _ => ⟨_, rfl⟩⟩
    | error e => exact ⟨nofun, nofun⟩
  rw [hrun, hcodes.ok_iff]
  constructor
  · intro h id b hb
    obtain ⟨root, hroot, hbelow⟩ := wf.exists_root (Registry.contains_of_get? hb)
    exact h root hroot id b hbelow hb
  · exact fun h _ _ id b _ hb => h id b hb

end Code

/-! ## Languages -/

namespace Code.Language

variable {l m : Language} {ls : List Language} {name : Json}

/-- Code can be nested when the unit of indentation is a text. -/
theorem exists_deeper (h : l.unit.IsText) (indent : String) :
    ∃ childIndent, l.deeper indent = .ok childIndent := by
  obtain ⟨unit, hu⟩ := h
  rw [deeper, hu]
  cases l.indented with
  | true => exact ⟨indent ++ unit, rfl⟩
  | false => exact ⟨indent, rfl⟩

theorem unit_of_mem_addTo (hls : ∀ k ∈ ls, k.unit.IsText) (hl : l.unit.IsText)
    (h : m ∈ addTo ls l) : m.unit.IsText := by
  induction ls with
  | nil =>
    cases List.mem_singleton.1 h
    exact hl
  | cons k ls ih =>
    obtain ⟨hk, hls⟩ := List.forall_mem_cons.1 hls
    rw [addTo] at h
    split at h
    · rcases List.mem_cons.1 h with rfl | h
      · exact hl
      · exact hls m h
    · rcases List.mem_cons.1 h with rfl | h
      · exact hk
      · exact ih hls h

theorem unit_of_mem_table (h : ∀ l ∈ ls, l.unit.IsText) : ∀ m ∈ table ls, m.unit.IsText := by
  have hfold : ∀ (ls done : List Language), (∀ l ∈ ls, l.unit.IsText) →
      (∀ l ∈ done, l.unit.IsText) → ∀ m ∈ ls.foldl addTo done, m.unit.IsText := by
    intro ls
    induction ls with
    | nil => exact fun done _ hdone => hdone
    | cons l ls ih =>
      intro done hls hdone
      obtain ⟨hl, hls⟩ := List.forall_mem_cons.1 hls
      exact ih (addTo done l) hls fun m hm => unit_of_mem_addTo hdone hl hm
  exact hfold ls [] h nofun

/-- Every value that can be a key names a language, and its unit is a text if those of the
table are. -/
theorem exists_find (h : ∀ l ∈ ls, l.unit.IsText) (hn : name.isScalar = true) :
    ∃ l, find ls name = .ok l ∧ l.unit.IsText := by
  rw [find, if_pos hn]
  refine ⟨_, rfl, ?_⟩
  cases hf : ls.find? fun l => Templates.sameKey l.name name with
  | none => exact ⟨"    ", rfl⟩
  | some l => exact h l (List.mem_of_find?_eq_some hf)

end Code.Language

end Blockwork
