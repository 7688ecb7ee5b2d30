import Blockwork.Proofs.Code.EarlierRoots
import Blockwork.Proofs.Code.FillAtOnce
import Blockwork.Proofs.Registry.Unlink

/-!
# What the text in an input has an influence on

The literal text of an input goes into the text that the inputs in front of it have left.  It
has no influence on the code where that text does not hold the placeholder of the input.

That the template does not hold the placeholder is not enough.  What was filled in before is
read again, so the text in one input can hold the placeholder of another, or make one together
with what stands around it.  It is enough where the names are separated in the template and
the inputs in front have values without percent signs.

Generation comes to a block at an indentation and with a table of functions.  Both matter to
the text, so the condition is about what generation comes to.
-/

namespace Blockwork.Code

open Text (IsName Separated fillNames namesIn)
open Unicode (isWord startsWithWord)

/-! ## Placeholders that are not there -/

section Mentioning

variable {name cs indent : List Char}

/-- The placeholder of a name stands in a text. -/
def Mentions (name cs : List Char) : Prop :=
  ∃ before after, cs = before ++ '%' :: (name ++ after) ∧ startsWithWord after = false

theorem mentions_iff (hname : IsName name) : Mentions name cs ↔ name ∈ namesIn cs :=
  (Text.mem_namesIn_iff hname).symm

/-- A text without the placeholder stays as it is, whatever the value. -/
theorem substituteChars_of_not_mentions (h : ¬ Mentions name cs) (value : List Char) :
    substituteChars cs name value = cs := by
  refine Text.replaceFrom_unfit none cs fun before c rest hcs => ?_
  rw [placeholder, placeholderAt?]
  cases hd : Text.dropLiteral? ('%' :: name) (c :: rest) with
  | none => rfl
  | some after =>
    rw [Text.dropLiteral?_eq_some_iff.1 hd] at hcs
    have hword : startsWithWord after = true := by
      by_contra hword
      exact h ⟨before, after, hcs, eq_false_of_ne_true hword⟩
    dsimp only
    rw [if_pos hword]
    rfl

theorem substitute_of_not_mentions {text name : String} (h : ¬ Mentions name.toList text.toList)
    (value : String) : substitute text name value = text := by
  rw [substitute, substituteChars_of_not_mentions h, String.ofList_toList]

/-- An indentation without percent signs brings no names into a text. -/
theorem namesIn_hang (hindent : '%' ∉ indent) (cs : List Char) :
    namesIn (hang indent cs) = namesIn cs := by
  induction cs with
  | nil => rfl
  | cons c cs ih =>
    have hover := not_percent_overhang hindent c
    rw [hang_cons, namesIn, Text.namesIn_append hover, ih, namesIn]
    split
    · next hc =>
      have hline : '\n' ∉ cs.takeWhile isWord := fun hm =>
        absurd (Text.isName_takeWhile cs _ hm) (by decide +kernel)
      rw [hc, overhang_of_ne (by decide), List.nil_append, takeWhile_hang not_isWord_newline,
        hang_of_line hline]
    · rfl

theorem namesIn_layOut {I selected : String} (hI : '%' ∉ I.toList) (language : Language) :
    namesIn (layOut language I selected).toList = namesIn selected.toList := by
  rw [layOut]
  split
  · rw [toList_hangText, namesIn_hang hI]
  · rfl

end Mentioning

/-! ## What generation comes to -/

/-- Generation comes to a block at an indentation with a table of functions: from the blocks
at the top level, to what is over an input behind the inputs in front, and into a body behind
the inputs. -/
inductive Comes (g : Generator) (r : Registry) (name : Json) : BlockId → String → Functions → Prop
  | root {x : BlockId} {before after : List BlockId} {ss : List String} {T : Functions}
      (hroots : r.roots = before ++ x :: after)
      (hbefore : codes (blockCode g r name "") before [] = (.ok ss, T)) : Comes g r name x "" T
  | input {p c : BlockId} {b : Block} {I childIndent v : String} {T U V : Functions}
      {language : Language} {template text : Json} {slot : Slot}
      {front rest : List (String × Slot)}
      (h : Comes g r name p I T) (hb : r.get? p = some b)
      (hopen : opening g name I b T = (.ok (language, childIndent, template), U))
      (hslots : b.slots = front ++ (v, slot) :: rest) (hchild : slot.child = some c)
      (hfront : fillInputs r (blockCode g r name childIndent) template front U = (.ok text, V)) :
      Comes g r name c childIndent V
  | body {p c : BlockId} {b : Block} {I childIndent : String} {T U V W : Functions}
      {language : Language} {template text : Json} {before after : List BlockId}
      {ss : List String}
      (h : Comes g r name p I T) (hb : r.get? p = some b)
      (hopen : opening g name I b T = (.ok (language, childIndent, template), U))
      (hslots : fillInputs r (blockCode g r name childIndent) template b.slots U = (.ok text, V))
      (hnested : b.nested.filter r.contains = before ++ c :: after)
      (hbefore : codes (blockCode g r name childIndent) before V = (.ok ss, W)) :
      Comes g r name c childIndent W

/-- Generation comes to fill the literal text of an input into a text. -/
inductive FillsInto (g : Generator) (r : Registry) (name : Json) (id : BlockId) (v : String) :
    String → Prop
  | intro {b : Block} {I childIndent text : String} {T U V : Functions} {language : Language}
      {template : Json} {slot : Slot} {front rest : List (String × Slot)}
      (h : Comes g r name id I T) (hb : r.get? id = some b)
      (hopen : opening g name I b T = (.ok (language, childIndent, template), U))
      (hslots : b.slots = front ++ (v, slot) :: rest)
      (hfree : ∀ c, slot.child = some c → r.contains c = false)
      (hfront : fillInputs r (blockCode g r name childIndent) template front U =
        (.ok (.str text), V)) : FillsInto g r name id v text

/-! ## Runs that agree -/

variable {g : Generator} {r s : Registry} {name text : Json} {id : BlockId} {b : Block}
variable {v x : String} {slot : Slot} {T U : Functions}

section Runs

variable {code code' : BlockId → GenM String} {slots : List (String × Slot)} {ids : List BlockId}

theorem fillInputs_append (text : Json) (front rest : List (String × Slot)) :
    fillInputs r code text (front ++ rest) = (do
      let t ← fillInputs r code text front
      fillInputs r code t rest) := by
  induction front generalizing text with
  | nil => rfl
  | cons e front ih =>
    obtain ⟨x, slot⟩ := e
    simp only [List.cons_append, fillInputs_cons, ih, bind_assoc]

/-- The loop over the inputs does what another does, where every step does. -/
theorem fillInputs_run_congr {F : String × Slot → String × Slot}
    (h : ∀ front e rest t U, slots = front ++ e :: rest →
      fillInputs r code text front T = (.ok t, U) →
      fillInputs r code t [e] U = fillInputs s code' t [F e] U) :
    fillInputs r code text slots T = fillInputs s code' text (slots.map F) T := by
  induction slots using List.reverseRecOn with
  | nil => rfl
  | append_singleton front e ih =>
    rw [List.map_append, List.map_singleton, fillInputs_append, fillInputs_append]
    refine run_bind_congr (ih fun front' d rest t U hfront => ?_) fun t U hrun => ?_
    · exact h front' d (rest ++ [e]) t U (by rw [hfront, List.append_assoc, List.cons_append])
    · exact h front e [] t U rfl hrun

theorem codes_run_congr
    (h : ∀ before c after ss U, ids = before ++ c :: after →
      codes code before T = (.ok ss, U) → code c U = code' c U) :
    codes code ids T = codes code' ids T := by
  induction ids using List.reverseRecOn with
  | nil => rfl
  | append_singleton before c ih =>
    rw [codes_append, codes_append]
    refine run_bind_congr (ih fun before' d after ss U hbefore => ?_) fun ss U hrun => ?_
    · exact h before' d (after ++ [c]) ss U (by rw [hbefore, List.append_assoc, List.cons_append])
    · simp only [codes, bind_assoc]
      exact run_bind_congr (h before c [] ss U rfl hrun) fun _ _ _ => rfl

end Runs

/-! ## Setting a literal text -/

/-- An input with a literal text. -/
def withLiteral (v literal : String) : String × Slot → String × Slot :=
  Table.modifyEntry v fun slot => { slot with literal }

/-- A registry with a literal text for one input of one block, as typing sets it. -/
def setLiteral (r : Registry) (id : BlockId) (v literal : String) : Registry :=
  r.modify id fun b => b.modifySlot v fun slot => { slot with literal }

theorem contains_setLiteral (r : Registry) (id : BlockId) (v literal : String) :
    (setLiteral r id v literal).contains = r.contains :=
  funext fun x => r.contains_modify id x _

theorem wellFormed_setLiteral (wf : r.WellFormed) (id : BlockId) (v literal : String) :
    (setLiteral r id v literal).WellFormed :=
  wf.modify (Registry.alike_setLiteral v literal)

theorem get?_setLiteral_self {literal : String} (hb : r.get? id = some b) :
    (setLiteral r id v literal).get? id =
      some { b with slots := b.slots.map (withLiteral v literal) } := by
  simp only [setLiteral, Registry.get?_modify, hb, Option.map_some, if_true]
  rfl

theorem get?_setLiteral_of_ne {literal : String} (hx : x ≠ id) :
    (setLiteral r id v literal).get? x = r.get? x := by
  simp [setLiteral, hx]

theorem withLiteral_of_ne {literal : String} (h : x ≠ v) :
    withLiteral v literal (x, slot) = (x, slot) := if_neg h

theorem withLiteral_self {literal : String} :
    withLiteral v literal (v, slot) = (v, { slot with literal }) := if_pos rfl

/-- The value of an input comes from the live block over it alone. -/
theorem slotValue_run {code code' : BlockId → GenM String} (hcontains : s.contains = r.contains)
    (hcode : ∀ c, slot.child = some c → r.contains c = true → code c U = code' c U) :
    slotValue r code slot U = slotValue s code' slot U := by
  rw [slotValue, slotValue, hcontains]
  cases hc : slot.child with
  | none => rfl
  | some c =>
    dsimp only
    split
    · next hlive => exact hcode c hc hlive
    · rfl

theorem slotValue_free {code : BlockId → GenM String}
    (hfree : ∀ c, slot.child = some c → r.contains c = false) :
    slotValue r code slot = pure slot.literal := by
  rw [slotValue]
  cases hc : slot.child with
  | none => rfl
  | some c => simp [hfree c hc]

/-- The step of an input does what its value does. -/
theorem fillInputs_step {code code' : BlockId → GenM String} {slot' : Slot}
    (h : slotValue r code slot U = slotValue s code' slot' U) :
    fillInputs r code text [(x, slot)] U = fillInputs s code' text [(x, slot')] U := by
  rw [fillInputs_cons, fillInputs_cons]
  exact run_bind_congr h fun _ _ _ => rfl

/-- The value of an input that is free does not matter to a text without its placeholder. -/
theorem fillInputs_free {code : BlockId → GenM String}
    (hfree : ∀ c, slot.child = some c → r.contains c = false)
    (hunread : ∀ t, text = .str t → ¬ Mentions v.toList t.toList) :
    fillInputs r code text [(v, slot)] = (do return .str (← demandText text)) := by
  rw [fillInputs_cons, slotValue_free hfree, pure_bind]
  cases text with
  | str t =>
    dsimp only [demandText]
    rw [pure_bind, pure_bind, substitute_of_not_mentions (hunread t rfl)]
    rfl
  | _ => rfl

/-- The step of an input does the same with another literal text, unless the text that it is
filled into holds the placeholder. -/
theorem fillInputs_withLiteral {code code' : BlockId → GenM String} {literal : String}
    (hcontains : s.contains = r.contains)
    (hcode : ∀ c, slot.child = some c → r.contains c = true → code c U = code' c U)
    (hunread : x = v → (∀ c, slot.child = some c → r.contains c = false) →
      ∀ t, text = .str t → ¬ Mentions v.toList t.toList) :
    fillInputs r code text [(x, slot)] U =
      fillInputs s code' text [withLiteral v literal (x, slot)] U := by
  by_cases hfree : x = v ∧ ∀ c, slot.child = some c → r.contains c = false
  · obtain ⟨rfl, hfree⟩ := hfree
    have hfree' : ∀ c, { slot with literal }.child = some c → s.contains c = false := by
      rw [hcontains]
      exact hfree
    rw [withLiteral_self, fillInputs_free hfree (hunread rfl hfree),
      fillInputs_free hfree' (hunread rfl hfree)]
  · -- either the input is another one, or the block over it hides the literal text
    have hvalue : slotValue s code' (withLiteral v literal (x, slot)).2 U =
        slotValue s code' slot U := by
      by_cases hx : x = v
      · subst hx
        obtain ⟨c, hc, hlive⟩ : ∃ c, slot.child = some c ∧ r.contains c = true := by
          simpa using hfree
        rw [withLiteral_self, slotValue, slotValue]
        simp only [hc, hcontains, hlive, if_true]
      · rw [withLiteral_of_ne hx]
    have hname : (withLiteral v literal (x, slot)).1 = x := Table.modifyEntry_fst ..
    change _ = fillInputs s code' text
      [((withLiteral v literal (x, slot)).1, (withLiteral v literal (x, slot)).2)] U
    rw [hname]
    exact fillInputs_step ((slotValue_run hcontains hcode).trans hvalue.symm)

/-- A block has the same code with other inputs when the steps of its loop over the inputs do
the same, wherever generation comes to, and so do its children. -/
theorem blockCode_run_congr (wf : r.WellFormed) (wf' : s.WellFormed)
    (hcontains : s.contains = r.contains) {F : String × Slot → String × Slot}
    (hb : r.get? id = some b) (hget : s.get? id = some { b with slots := b.slots.map F })
    {I : String} (hcomes : Comes g r name id I T)
    (ih : ∀ c, r.Under c id → ∀ I T, Comes g r name c I T →
      blockCode g r name I c T = blockCode g s name I c T)
    (hstep : ∀ {language childIndent template front y slot rest text U V},
      opening g name I b T = (.ok (language, childIndent, template), U) →
      b.slots = front ++ (y, slot) :: rest →
      fillInputs r (blockCode g r name childIndent) template front U = (.ok text, V) →
      (∀ c, slot.child = some c → r.contains c = true →
        blockCode g r name childIndent c V = blockCode g s name childIndent c V) →
      fillInputs r (blockCode g r name childIndent) text [(y, slot)] V =
        fillInputs s (blockCode g s name childIndent) text [F (y, slot)] V) :
    blockCode g r name I id T = blockCode g s name I id T := by
  rw [blockCode_live wf hb, blockCode_live wf' hget, blockCodeBy_eq, blockCodeBy_eq]
  refine run_bind_congr rfl fun ⟨language, childIndent, template⟩ U hopen => ?_
  refine run_bind_congr (fillInputs_run_congr fun front e rest text V hslots hfront => ?_)
    fun text V hinputs => ?_
  · refine hstep hopen hslots hfront fun c hc _ => ?_
    have hunder : r.Under c id := wf.under_of_mem_slots hb (e := e) (by simp [hslots]) hc
    exact ih c hunder childIndent V (.input hcomes hb hopen hslots hc hfront)
  · rw [hcontains]
    refine run_bind_congr (codes_run_congr fun before c after ss W hnested hbefore => ?_)
      fun nested W _ => rfl
    have hmem : c ∈ b.nested.filter r.contains := by simp [hnested]
    have hunder : r.Under c id := wf.under_of_mem_nested hb (List.mem_of_mem_filter hmem)
    exact ih c hunder childIndent W (.body hcomes hb hopen hinputs hnested hbefore)

theorem blockCode_setLiteral (wf : r.WellFormed) {literal : String}
    (hunread : ∀ text, FillsInto g r name id v text → ¬ Mentions v.toList text.toList) :
    ∀ x, r.contains x = true → ∀ I T, Comes g r name x I T →
      blockCode g r name I x T = blockCode g (setLiteral r id v literal) name I x T := by
  have hcontains := contains_setLiteral r id v literal
  have wf' := wellFormed_setLiteral wf id v literal
  refine wf.child_induction fun x b hb ih I T hcomes => ?_
  by_cases hx : x = id
  · subst hx
    refine blockCode_run_congr wf wf' hcontains hb (get?_setLiteral_self hb) hcomes ih ?_
    intro language childIndent template front y slot rest text U V hopen hslots hfront hcode
    refine fillInputs_withLiteral hcontains hcode ?_
    rintro rfl hfree t rfl
    exact hunread t (.intro hcomes hb hopen hslots hfree hfront)
  · have hget : (setLiteral r id v literal).get? x =
        some { b with slots := b.slots.map fun e => e } := by
      rw [get?_setLiteral_of_ne hx, hb, List.map_id']
    refine blockCode_run_congr wf wf' hcontains hb hget hcomes ih ?_
    intro language childIndent template front y slot rest text U V _ _ _ hcode
    exact fillInputs_step (slotValue_run hcontains hcode)

theorem roots_setLiteral (r : Registry) (id : BlockId) (v literal : String) :
    (setLiteral r id v literal).roots = r.roots := by
  simp only [Registry.roots, setLiteral, Registry.modify, Table.modify, List.filter_map,
    List.map_map]
  refine (congrArg (List.map _) (List.filter_congr fun e _ => ?_)).trans
    (List.map_congr_left fun e _ => Table.modifyEntry_fst ..)
  by_cases he : e.1 = id <;> simp [Table.modifyEntry, he, Block.modifySlot]

/-- Where the literal text of an input goes into texts without its placeholder only, it does
not matter to the code. -/
theorem generate_of_unread (wf : r.WellFormed) {language : Json}
    (hunread : ∀ text, FillsInto g r (language.orElse g.defaultLanguage) id v text →
      ¬ Mentions v.toList text.toList) (literal : String) :
    generate g (setLiteral r id v literal) language = generate g r language := by
  have hcodes : codes (blockCode g r (language.orElse g.defaultLanguage) "") r.roots [] =
      codes (blockCode g (setLiteral r id v literal) (language.orElse g.defaultLanguage) "")
        r.roots [] := by
    refine codes_run_congr fun before c after ss U hroots hbefore => ?_
    refine blockCode_setLiteral wf hunread c ?_ "" U (.root hroots hbefore)
    exact Registry.contains_of_mem_roots (by simp [hroots])
  rw [generate, generate, roots_setLiteral]
  exact congrArg (fun run => run.1.map (joinCode "\n")) hcodes.symm

/-! ## Templates without the placeholder -/

/-- Indentations have no percent signs where the unit of the language has none. -/
theorem Comes.indent {I : String} (hunit : ∀ language unit,
    Language.find g.languages name = .ok language → language.unit = .str unit → '%' ∉ unit.toList)
    (h : Comes g r name x I T) : '%' ∉ I.toList := by
  have hdeeper {I childIndent : String} {language : Language} (hI : '%' ∉ I.toList)
      (hfind : Language.find g.languages name = .ok language)
      (hdeep : language.deeper I = .ok childIndent) : '%' ∉ childIndent.toList := by
    rw [Language.deeper] at hdeep
    split at hdeep
    · split at hdeep
      · next unit hu =>
        cases hdeep
        rw [String.toList_append, List.mem_append, not_or]
        exact ⟨hI, hunit language unit hfind hu⟩
      · cases hdeep
    · cases hdeep
      exact hI
  induction h with
  | root => exact List.not_mem_nil
  | input _ _ hopen _ _ _ ih => exact hdeeper ih (opening_eq_ok.1 hopen).1 (opening_eq_ok.1 hopen).2.1
  | body _ _ hopen _ _ _ ih => exact hdeeper ih (opening_eq_ok.1 hopen).1 (opening_eq_ok.1 hopen).2.1

/-- A text with separated names, and a name that it does not hold. -/
structure Lacks (v : String) (text : String) : Prop where
  separated : Separated text.toList
  absent : v.toList ∉ namesIn text.toList

/-- Filling in a value without percent signs brings no name into a text. -/
theorem Lacks.substitute {text y value : String} (h : Lacks v text) (hy : IsName y.toList)
    (hvalue : '%' ∉ value.toList) : Lacks v (substitute text y value) := by
  have hclean : ∀ w u, sameValue? [y.toList] value.toList w = some u → '%' ∉ u := by
    intro w u hu
    rw [sameValue?] at hu
    split at hu
    · cases hu
      exact hvalue
    · cases hu
  have htext : (Code.substitute text y value).toList =
      fillNames (sameValue? [y.toList] value.toList) text.toList := by
    rw [Code.substitute, String.toList_ofList, substituteChars_eq hy]
  constructor
  · rw [htext]
    exact Text.separated_fillNames h.separated hclean
  · rw [htext, Text.namesIn_fillNames h.separated hclean]
    exact fun hm => h.absent (List.mem_of_mem_filter hm)

/-- The loop over inputs with values without percent signs brings no name into a text. -/
theorem Lacks.fillInputs {code : BlockId → GenM String} {slots : List (String × Slot)}
    {start : String} (h : Lacks v start) (hnames : ∀ e ∈ slots, IsName e.1.toList)
    (hvalues : ∀ front e rest t value U V, slots = front ++ e :: rest →
      Code.fillInputs r code (.str start) front T = (.ok t, U) →
      slotValue r code e.2 U = (.ok value, V) → '%' ∉ value.toList)
    (hrun : Code.fillInputs r code (.str start) slots T = (.ok text, U)) :
    ∃ s, text = .str s ∧ Lacks v s := by
  induction slots using List.reverseRecOn generalizing text U with
  | nil =>
    cases hrun
    exact ⟨start, rfl, h⟩
  | append_singleton front e ih =>
    rw [fillInputs_append] at hrun
    obtain ⟨t, V, hfront, hlast⟩ := run_bind_eq_ok.1 hrun
    obtain ⟨s, rfl, hs⟩ := ih (fun d hd => hnames d (List.mem_append_left _ hd))
      (fun front' d rest t value U V hslots => hvalues front' d (rest ++ [e]) t value U V
        (by rw [hslots, List.append_assoc, List.cons_append])) hfront
    obtain ⟨y, slot⟩ := e
    rw [fillInputs_cons] at hlast
    obtain ⟨value, W, hvalue, hdone⟩ := run_bind_eq_ok.1 hlast
    cases hdone
    have hclean := hvalues front (y, slot) [] (.str s) value V _ rfl hfront hvalue
    exact ⟨_, rfl, hs.substitute (hnames (y, slot) (by simp)) hclean⟩

/-- What keeps the placeholder of an input out of the text that the input is filled into:
names of word characters, separated in a template that does not hold the placeholder, and
values without percent signs for the inputs in front. -/
structure Apart (g : Generator) (r : Registry) (name : Json) (b : Block) (v : String) : Prop where
  selected : ∃ t, selectTemplate g b name = .ok (.str t) ∧ Separated t.toList ∧
    ¬ Mentions v.toList t.toList
  names : ∀ e ∈ b.slots, IsName e.1.toList
  units : ∀ language unit, Language.find g.languages name = .ok language →
    language.unit = .str unit → '%' ∉ unit.toList
  literals : ∀ front slot rest, b.slots = front ++ (v, slot) :: rest →
    ∀ e ∈ front, (∀ c, e.2.child = some c → r.contains c = false) → '%' ∉ e.2.literal.toList
  codes : ∀ front slot rest, b.slots = front ++ (v, slot) :: rest →
    ∀ e ∈ front, ∀ c, e.2.child = some c → ∀ I T code U, Comes g r name c I T →
      blockCode g r name I c T = (.ok code, U) → '%' ∉ code.toList

theorem Apart.lacks_layOut (h : Apart g r name b v) (hv : IsName v.toList) {I : String}
    (hI : '%' ∉ I.toList) {t : String} (ht : selectTemplate g b name = .ok (.str t))
    (language : Language) : Lacks v (layOut language I t) := by
  obtain ⟨t', ht', hseparated, habsent⟩ := h.selected
  cases ht.symm.trans ht'
  refine ⟨separated_layOut hI hseparated language, ?_⟩
  rw [namesIn_layOut hI, ← mentions_iff hv]
  exact habsent

/-- The inputs in front have values without percent signs. -/
theorem Apart.value {I childIndent : String} {language : Language} {template t : Json}
    {front front' rest rest' : List (String × Slot)} {e : String × Slot} {value : String}
    {V W : Functions} (h : Apart g r name b v) (hb : r.get? id = some b)
    (hcomes : Comes g r name id I T)
    (hopen : opening g name I b T = (.ok (language, childIndent, template), U))
    (hslots : b.slots = front ++ (v, slot) :: rest) (hfront : front = front' ++ e :: rest')
    (hrun : fillInputs r (blockCode g r name childIndent) template front' U = (.ok t, V))
    (hvalue : slotValue r (blockCode g r name childIndent) e.2 V = (.ok value, W)) :
    '%' ∉ value.toList := by
  have he : e ∈ front := by simp [hfront]
  by_cases hfree : ∀ c, e.2.child = some c → r.contains c = false
  · rw [slotValue_free hfree] at hvalue
    cases hvalue
    exact h.literals front slot rest hslots e he hfree
  · obtain ⟨c, hc, hlive⟩ : ∃ c, e.2.child = some c ∧ r.contains c = true := by simpa using hfree
    have hat : b.slots = front' ++ (e.1, e.2) :: (rest' ++ (v, slot) :: rest) := by
      rw [hslots, hfront, List.append_assoc, List.cons_append]
    rw [slotValue] at hvalue
    simp only [hc, hlive, if_true] at hvalue
    exact h.codes front slot rest hslots e he c hc childIndent V value W
      (.input hcomes hb hopen hat hc hrun) hvalue

theorem Apart.not_mentions {text : String} (h : Apart g r name b v) (hb : r.get? id = some b)
    (hfills : FillsInto g r name id v text) : ¬ Mentions v.toList text.toList := by
  obtain @⟨_, I, _, _, T, U, V, language, _, slot, _, _, hcomes, hb', hopen, hslots, -, hfront⟩ :=
    hfills
  cases hb.symm.trans hb'
  obtain ⟨-, -, selected, hselect, hlay⟩ := opening_eq_ok.1 hopen
  obtain ⟨t, ht, -⟩ := h.selected
  cases ht.symm.trans hselect
  rw [indentTemplate_layOut] at hlay
  cases hlay
  have hv : IsName v.toList := h.names (v, slot) (by simp [hslots])
  have hstart := h.lacks_layOut hv (hcomes.indent h.units) ht language
  obtain ⟨s, hs, hlacks⟩ := hstart.fillInputs (fun e he => h.names e (by simp [hslots, he]))
    (fun front' e rest' t value V W hfront' hrun hvalue =>
      h.value hb hcomes hopen hslots hfront' hrun hvalue) hfront
  cases hs
  rw [mentions_iff hv]
  exact hlacks.absent

/-- Setting the literal text of an input does not change what is generated, where all texts
that generation fills it into lack the placeholder.  That is so where the selected template
lacks it, names are separated and the inputs in front have values without percent signs. -/
theorem generate_setLiteral (wf : r.WellFormed) (hb : r.get? id = some b) (language : Json) :
    ((∀ text, FillsInto g r (language.orElse g.defaultLanguage) id v text →
        ¬ Mentions v.toList text.toList) →
      ∀ literal, generate g (setLiteral r id v literal) language = generate g r language) ∧
    (Apart g r (language.orElse g.defaultLanguage) b v →
      ∀ literal, generate g (setLiteral r id v literal) language = generate g r language) :=
  ⟨fun hunread literal => generate_of_unread wf hunread literal,
    fun hapart literal => generate_of_unread wf (fun _ hfills => hapart.not_mentions hb hfills)
      literal⟩

/-- A block with two inputs, the second of which is not in its template. -/
def sampleTyped (first : String) : Block where
  label := "f %a %v"
  kind := .command
  color := .str "#4C97FF"
  templates := ⟨[(.str "javascript", .str "f(%a)")]⟩
  containerVar := none
  position := ⟨0.0, 0.0⟩
  slots := [("a", { literal := first }), ("v", { literal := "" })]
  nested := []
  parent := .none

def sampleTyping (first : String) : Registry := Registry.empty.insert "f" (sampleTyped first)

theorem wellFormed_sampleTyping (first : String) : (sampleTyping first).WellFormed := by
  have hloose : (sampleTyped first).Loose := {
    parent := rfl
    nested := rfl
    slots_nodup := by simp [sampleTyped, Table.names]
    child := fun slot => by
      rw [Block.childAt?, Option.bind_eq_none_iff]
      intro s hs
      have hmem : (slot, s) ∈ (sampleTyped first).slots := Table.mem_of_lookup hs
      simp only [sampleTyped, List.mem_cons, Prod.mk.injEq, List.not_mem_nil, or_false] at hmem
      rcases hmem with ⟨-, rfl⟩ | ⟨-, rfl⟩ <;> rfl }
  have hall : (sampleTyping first).Loose := Registry.loose_empty.insert (by decide) hloose
  exact Registry.Loose.wellFormed hall

theorem not_mentions_sampleTyped : ¬ Mentions "v".toList "f(%a)".toList := by
  rw [mentions_iff (by decide +kernel)]
  decide +kernel

theorem apart_sampleTyped :
    Apart {} (sampleTyping "x") (.str "javascript") (sampleTyped "x") "v" := by
  have hslots : ∀ e ∈ (sampleTyped "x").slots, '%' ∉ e.2.literal.toList ∧ e.2.child = none := by
    decide +kernel
  exact {
    selected := ⟨"f(%a)", rfl, by decide +kernel, not_mentions_sampleTyped⟩
    names := by decide +kernel
    units := fun language unit hfind hunit => by
      have hstandard : Language.find ({} : Generator).languages (.str "javascript") =
          .ok { name := .str "javascript" } := rfl
      cases hfind.symm.trans hstandard
      cases hunit
      decide +kernel
    literals := fun front slot rest hsplit e he _ => (hslots e (by simp [hsplit, he])).1
    codes := fun front slot rest hsplit e he c hc => by
      cases (hslots e (by simp [hsplit, he])).2.symm.trans hc }

/-- The second input does not matter beside a plain text in the first. -/
theorem generate_setLiteral_sampleTyping :
    generate {} (setLiteral (sampleTyping "x") "f" "v" "1") (.str "javascript") =
      generate {} (sampleTyping "x") (.str "javascript") :=
  (generate_setLiteral (wellFormed_sampleTyping "x") rfl (.str "javascript")).2 apart_sampleTyped "1"

/-- The first input holds the placeholder of the second, and then the second matters, although
the template does not hold it. -/
theorem not_generate_setLiteral :
    (sampleTyping "%v").WellFormed ∧ (sampleTyping "%v").get? "f" = some (sampleTyped "%v") ∧
    selectTemplate {} (sampleTyped "%v") (.str "javascript") = .ok (.str "f(%a)") ∧
    ¬ Mentions "v".toList "f(%a)".toList ∧
    generate {} (sampleTyping "%v") (.str "javascript") = .ok "f()" ∧
    generate {} (setLiteral (sampleTyping "%v") "f" "v" "1") (.str "javascript") = .ok "f(1)" :=
  ⟨wellFormed_sampleTyping "%v", rfl, rfl, not_mentions_sampleTyped, rfl, rfl⟩

end Blockwork.Code
