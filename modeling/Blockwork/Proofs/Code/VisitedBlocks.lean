import Mathlib.Data.List.Flatten
import Mathlib.Data.List.Nodup
import Blockwork.Proofs.Code.Generable
import Blockwork.Proofs.Code.Indentation
import Blockwork.Proofs.Workspace.Reachable

/-!
# The blocks that generation comes to

Generation goes down from the blocks at the top level and remembers nothing of where it
has been.  In a well-formed registry it comes to every live block exactly once all the
same: every block is below one block at the top level, and no block is below two children
of one.

To say so, the steps of generation are run with a note of every block that they come to.
Such a run returns what the run without notes returns and leaves the same table, and it
comes to the blocks in one order: a block, then what is over its inputs, then its body.  A
run that fails comes to the first of them.  It fails where the template of a block or the
name of its body placeholder is no text, and what comes after that block is passed over.
-/

namespace Blockwork

namespace Registry

variable {r : Registry} {id x a b c : BlockId} {n : Nat}

/-! ## The order -/

/-- The live blocks that a block holds, those over its inputs first. -/
def liveChildren (r : Registry) (id : BlockId) : List BlockId :=
  match r.get? id with
  | some b => (b.slots.filterMap fun e => e.2.child).filter r.contains ++ b.nested.filter r.contains
  | none => []

/-- A block with everything below it, following `n` levels.  A block comes before what it
holds. -/
def preorder (r : Registry) : Nat → BlockId → List BlockId
  | 0, id => [id]
  | n + 1, id => id :: (r.liveChildren id).flatMap (preorder r n)

/-- The blocks at the top level in order of creation, each with everything below it. -/
def order (r : Registry) : List BlockId := r.roots.flatMap (r.preorder r.size)

namespace WellFormed

theorem depth_lt_of_below (wf : r.WellFormed) (h : r.Below x a) : r.depth a < r.depth x := by
  induction h with
  | single hu =>
    rw [wf.depth_of_under hu]
    exact Nat.lt_succ_self _
  | tail _ hu ih =>
    rw [wf.depth_of_under hu] at ih
    omega

/-- Of the blocks above a block and the block itself, no two are equally deep. -/
theorem eq_of_above (wf : r.WellFormed) (ha : Relation.ReflTransGen r.Under x a)
    (hb : Relation.ReflTransGen r.Under x b) (hdepth : r.depth a = r.depth b) : a = b := by
  have hunique : Relator.RightUnique r.Under := fun _ _ _ h h' => Option.some.inj (h.symm.trans h')
  rcases ha.total_of_right_unique hunique hb with h | h
  · rcases Relation.reflTransGen_iff_eq_or_transGen.1 h with rfl | h
    · rfl
    · have := wf.depth_lt_of_below h
      omega
  · rcases Relation.reflTransGen_iff_eq_or_transGen.1 h with rfl | h
    · rfl
    · have := wf.depth_lt_of_below h
      omega

/-- A block holds its children. -/
theorem mem_liveChildren_iff (wf : r.WellFormed) (hid : r.contains id = true) :
    c ∈ r.liveChildren id ↔ r.Under c id := by
  obtain ⟨b, hb⟩ := contains_iff.1 hid
  rw [liveChildren, hb]
  simp only [List.mem_append, List.mem_filter, List.mem_filterMap]
  constructor
  · rintro (⟨⟨e, he, hc⟩, -⟩ | ⟨hc, -⟩)
    · exact wf.under_of_mem_slots hb he hc
    · exact wf.under_of_mem_nested hb hc
  · intro h
    refine (wf.forall_under_iff hb (G := fun c => (∃ e ∈ b.slots, e.2.child = some c) ∧
      r.contains c = true ∨ c ∈ b.nested ∧ r.contains c = true)).1 ⟨?_, ?_⟩ c h
    · exact fun e he c hc hlive => .inl ⟨⟨e, he, hc⟩, hlive⟩
    · exact fun c hc => .inr (List.mem_filter.1 hc)

/-- A block holds nothing twice. -/
theorem nodup_held (wf : r.WellFormed) {b : Block} (hb : r.get? id = some b) :
    (b.nested ++ b.slots.filterMap fun e => e.2.child).Nodup := by
  have hall := wf.heldOnce
  rw [edges, List.map_flatMap] at hall
  have hedges : ((edgesOf id b).map Edge.child).Nodup :=
    (List.nodup_flatMap.1 hall).1 _ (get?_eq_some_iff.1 hb)
  have hchildren : (edgesOf id b).map Edge.child =
      b.nested ++ b.slots.filterMap fun e => e.2.child := by
    simp [edgesOf, List.map_filterMap, Function.comp_def]
  rwa [hchildren] at hedges

theorem nodup_liveChildren (wf : r.WellFormed) (id : BlockId) : (r.liveChildren id).Nodup := by
  cases hb : r.get? id with
  | none =>
    rw [liveChildren, hb]
    exact List.nodup_nil
  | some b =>
    rw [liveChildren, hb]
    exact (List.nodup_append_comm.1 (wf.nodup_held hb)).sublist
      (List.filter_sublist.append List.filter_sublist)

theorem nodup_childrenOf (wf : r.WellFormed) (id : BlockId) : (r.childrenOf id).Nodup := by
  cases hb : r.get? id with
  | none =>
    rw [childrenOf, hb]
    exact List.nodup_nil
  | some b =>
    rw [childrenOf, hb]
    exact (wf.nodup_held hb).sublist ((List.Sublist.refl _).append List.filter_sublist)

/-- With enough levels the order lists everything below a block, and the block. -/
theorem mem_preorder_iff (wf : r.WellFormed) : ∀ (n : Nat) (id : BlockId), r.contains id = true →
    r.size ≤ n + r.depth id → (x ∈ r.preorder n id ↔ Relation.ReflTransGen r.Under x id)
  | 0, id, hid, hn => by
    have := wf.depth_lt_size hid
    omega
  | n + 1, id, hid, hn => by
    have hchild (c : BlockId) (hc : r.Under c id) :
        x ∈ r.preorder n c ↔ Relation.ReflTransGen r.Under x c := by
      refine mem_preorder_iff wf n c hc.contains ?_
      have := wf.depth_of_under hc
      omega
    rw [preorder, List.mem_cons, List.mem_flatMap, Relation.ReflTransGen.cases_tail_iff, eq_comm]
    refine or_congr Iff.rfl (exists_congr fun c => ?_)
    rw [wf.mem_liveChildren_iff hid, and_comm]
    exact and_congr_left fun hc => hchild c hc

/-- Nothing is below two blocks that are equally deep, so their orders make one order. -/
theorem nodup_flatMap_preorder (wf : r.WellFormed) {ids : List BlockId} {d : Nat}
    (hids : ids.Nodup) (hlive : ∀ c ∈ ids, r.contains c = true) (hdepth : ∀ c ∈ ids, r.depth c = d)
    (hn : r.size ≤ n + d) (h : ∀ c ∈ ids, (r.preorder n c).Nodup) :
    (ids.flatMap (r.preorder n)).Nodup := by
  refine List.nodup_flatMap.2 ⟨h, hids.imp_of_mem fun {a b} ha hb hab => ?_⟩
  intro x hxa hxb
  have hbelow {c : BlockId} (hc : c ∈ ids) (hx : x ∈ r.preorder n c) :
      Relation.ReflTransGen r.Under x c :=
    (wf.mem_preorder_iff n c (hlive c hc) (by rwa [hdepth c hc])).1 hx
  exact hab (wf.eq_of_above (hbelow ha hxa) (hbelow hb hxb)
    ((hdepth a ha).trans (hdepth b hb).symm))

theorem nodup_preorder (wf : r.WellFormed) : ∀ (n : Nat) (id : BlockId), r.contains id = true →
    r.size ≤ n + r.depth id → (r.preorder n id).Nodup
  | 0, id, hid, hn => by
    have := wf.depth_lt_size hid
    omega
  | n + 1, id, hid, hn => by
    have hunder (c : BlockId) (hc : c ∈ r.liveChildren id) : r.Under c id :=
      (wf.mem_liveChildren_iff hid).1 hc
    have hdepth (c : BlockId) (hc : c ∈ r.liveChildren id) : r.depth c = r.depth id + 1 :=
      wf.depth_of_under (hunder c hc)
    refine List.nodup_cons.2 ⟨fun hm => ?_, ?_⟩
    · obtain ⟨c, hc, hm⟩ := List.mem_flatMap.1 hm
      have hbelow := (wf.mem_preorder_iff n c (hunder c hc).contains (by
        rw [hdepth c hc]
        omega)).1 hm
      exact wf.acyclic id (.tail' hbelow (hunder c hc))
    · refine wf.nodup_flatMap_preorder (wf.nodup_liveChildren id) (fun c hc => (hunder c hc).contains)
        hdepth (by omega) fun c hc => ?_
      refine nodup_preorder wf n c (hunder c hc).contains ?_
      rw [hdepth c hc]
      omega

theorem depth_of_mem_roots (wf : r.WellFormed) (h : id ∈ r.roots) : r.depth id = 0 := by
  obtain ⟨b, hb, hparent⟩ := parent?_eq_some_iff.1 (mem_roots_iff.1 h)
  have hroot : r.parentId? id = none := by
    rw [parentId?, hb, Option.bind_some, hparent]
    rfl
  rw [depth, (wf.lineage_ancestors id).unique (.root hroot)]
  rfl

/-- The order lists every live block, and each once. -/
theorem perm_order (wf : r.WellFormed) : r.order.Perm r.ids := by
  have hlive (root : BlockId) (h : root ∈ r.roots) : r.contains root = true :=
    contains_of_mem_roots h
  have hroots : r.roots.Nodup := r.nodup.sublist (List.filter_sublist.map Prod.fst)
  refine (List.perm_ext_iff_of_nodup ?_ r.nodup).2 fun x => ?_
  · refine wf.nodup_flatMap_preorder hroots hlive (fun c hc => wf.depth_of_mem_roots hc) (by omega)
      fun c hc => wf.nodup_preorder r.size c (hlive c hc) (by omega)
  · rw [order, List.mem_flatMap, ← ids, mem_ids_iff]
    constructor
    · rintro ⟨root, hroot, hx⟩
      have hbelow := (wf.mem_preorder_iff r.size root (hlive root hroot) (by omega)).1 hx
      rcases Relation.ReflTransGen.cases_head hbelow with rfl | ⟨p, hp, -⟩
      · exact hlive _ hroot
      · exact hp.contains
    · intro hx
      obtain ⟨root, hroot, hbelow⟩ := wf.exists_root hx
      exact ⟨root, hroot, (wf.mem_preorder_iff r.size root (hlive root hroot) (by omega)).2 hbelow⟩

end WellFormed

end Registry

namespace Code

variable {g : Generator} {r : Registry} {name : Json} {id : BlockId} {b : Block} {α β : Type}

/-! ## Runs with notes -/

/-- The functions defined so far, and the blocks that generation has come to. -/
structure Trail where
  functions : Functions := []
  /-- The blocks, in the order in which it came to them. -/
  visited : List BlockId := []

/-- A step of generation that notes where it comes to. -/
abbrev NoteM := ExceptT Breakdown (StateM Trail)

/-- A step that comes to no block. -/
def aside (m : GenM α) : NoteM α := fun s =>
  let (result, functions) := m s.functions
  (result, { s with functions })

/-- Note that generation has come to a block. -/
def visit (id : BlockId) : NoteM Unit := modify fun s => { s with visited := s.visited ++ [id] }

/-- `fillInputs` with notes. -/
def notedInputs (r : Registry) (code : BlockId → NoteM String) :
    Json → List (String × Slot) → NoteM Json
  | text, [] => return text
  | text, (name, slot) :: rest => do
      let value ← match slot.child with
        | some child => if r.contains child then code child else pure slot.literal
        | none => pure slot.literal
      let s ← aside (demandText text)
      notedInputs r code (.str (substitute s name value)) rest

/-- `codes` with notes. -/
def notedCodes (code : BlockId → NoteM String) : List BlockId → NoteM (List String)
  | [] => return []
  | id :: ids => do return (← code id) :: (← notedCodes code ids)

/-- `blockCodeBy` with notes. -/
def notedBlockBy (g : Generator) (r : Registry) (name : Json)
    (code : String → BlockId → NoteM String) (indent : String) (b : Block) : NoteM String := do
  let language ← aside (Language.find g.languages name : Except Breakdown Language)
  let childIndent ← aside (language.deeper indent : Except Breakdown String)
  let template ← aside (selectTemplate g b name : Except Breakdown Json)
  let template ← aside (indentTemplate language indent template)
  let text ← notedInputs r (code childIndent) template b.slots
  let nested ← notedCodes (code childIndent) (b.nested.filter r.contains)
  let separator := if language.indented then "\n" ++ childIndent else "\n"
  match ← aside (fillBody b text (joinCode separator nested) childIndent) with
  | some text => aside (finishText language indent text)
  | none => return ""

/-- `blockCodeWithin` with notes. -/
def notedWithin (g : Generator) (r : Registry) (name : Json) :
    Nat → String → BlockId → NoteM String
  | n, indent, id => do
      visit id
      match r.get? id with
      | none => return ""
      | some b =>
          match n with
          | 0 => throw .endless
          | n + 1 => notedBlockBy g r name (notedWithin g r name n) indent b

/-- `generate` with notes, following `n` levels: the result, and the blocks that generation
came to. -/
def generateNoting (g : Generator) (r : Registry) (n : Nat) (language : Json) :
    Except Breakdown String × List BlockId :=
  let name := language.orElse g.defaultLanguage
  let (result, trail) := (notedCodes (notedWithin g r name n "") r.roots).run {}
  (result.map (joinCode "\n"), trail.visited)

/-- The second step does what the first does.  It comes to the blocks of a list in their
order, to all of them if it returns and to the first of them if it fails, and it does not
fail for want of levels. -/
structure Notes (m : GenM α) (t : NoteM α) (way : List BlockId) : Prop where
  run : ∀ s : Trail, ∃ done, done <+: way ∧
    t s = ((m s.functions).1, ⟨(m s.functions).2, s.visited ++ done⟩) ∧
    (m s.functions).1 ≠ .error .endless ∧ ∀ a, (m s.functions).1 = .ok a → done = way

namespace Notes

variable {m : GenM α} {t : NoteM α} {f : α → GenM β} {u : α → NoteM β} {way way' : List BlockId}

theorem aside (h : ∀ T, (m T).1 ≠ .error .endless) : Notes m (aside m) [] where
  run s := ⟨[], List.prefix_refl [], by rw [List.append_nil]; rfl, h _, fun _ _ => rfl⟩

theorem pure (a : α) : Notes (Pure.pure a) (Pure.pure a) [] := .aside nofun

theorem bind (h : Notes m t way) (hf : ∀ a, Notes (f a) (u a) way') :
    Notes (m >>= f) (t >>= u) (way ++ way') where
  run s := by
    obtain ⟨done, hdone, ht, hlevels, hall⟩ := h.run s
    rcases hm : m s.functions with ⟨e | a, T⟩
    · rw [hm] at ht hlevels
      refine ⟨done, hdone.trans (List.prefix_append ..), ?_⟩
      rw [run_bind_error ht, run_bind_error hm]
      exact ⟨rfl, fun he => hlevels (congrArg _ (Except.error.inj he)), nofun⟩
    · rw [hm] at ht hall
      cases hall a rfl
      obtain ⟨done', hdone', hu, hlevels', hall'⟩ := (hf a).run ⟨T, s.visited ++ way⟩
      refine ⟨way ++ done', (List.prefix_append_right_inj way).2 hdone', ?_⟩
      rw [run_bind_ok ht, run_bind_ok hm, hu, List.append_assoc]
      exact ⟨rfl, hlevels', fun b hb => congrArg _ (hall' b hb)⟩

theorem visit (id : BlockId) (h : Notes m t way) :
    Notes m (Code.visit id >>= fun _ => t) (id :: way) where
  run s := by
    obtain ⟨done, hdone, ht, hlevels, hall⟩ := h.run { s with visited := s.visited ++ [id] }
    refine ⟨id :: done, (List.prefix_cons_inj id).2 hdone, ?_, hlevels, fun a ha => ?_⟩
    · show t { s with visited := s.visited ++ [id] } = _
      rw [ht, List.append_assoc]
      rfl
    · rw [hall a ha]

end Notes

theorem notes_demandText (v : Json) : Notes (demandText v) (aside (demandText v)) [] :=
  .aside fun T => by cases v <;> exact nofun

theorem notes_fillInputs {code : BlockId → GenM String} {noted : BlockId → NoteM String}
    {way : BlockId → List BlockId} {slots : List (String × Slot)}
    (h : ∀ e ∈ slots, ∀ c, e.2.child = some c → r.contains c = true →
      Notes (code c) (noted c) (way c)) (text : Json) :
    Notes (fillInputs r code text slots) (notedInputs r noted text slots)
      (((slots.filterMap fun e => e.2.child).filter r.contains).flatMap way) := by
  induction slots generalizing text with
  | nil => exact .pure text
  | cons e slots ih =>
    obtain ⟨input, slot⟩ := e
    have hrest (value : String) : Notes
        (do fillInputs r code (.str (substitute (← demandText text) input value)) slots)
        (do notedInputs r noted (.str (substitute (← aside (demandText text)) input value)) slots)
        (((slots.filterMap fun e => e.2.child).filter r.contains).flatMap way) :=
      (notes_demandText text).bind fun s => ih (fun e he => h e (List.mem_cons_of_mem _ he)) _
    rw [fillInputs, notedInputs]
    cases hc : slot.child with
    | none =>
      simp only [List.filterMap_cons, hc]
      exact hrest slot.literal
    | some c =>
      simp only [List.filterMap_cons, hc, List.filter_cons]
      split
      · next hlive =>
        rw [List.flatMap_cons]
        exact (h _ (List.mem_cons_self ..) c hc hlive).bind hrest
      · exact hrest slot.literal

theorem notes_codes {code : BlockId → GenM String} {noted : BlockId → NoteM String}
    {way : BlockId → List BlockId} {ids : List BlockId}
    (h : ∀ c ∈ ids, Notes (code c) (noted c) (way c)) :
    Notes (codes code ids) (notedCodes noted ids) (ids.flatMap way) := by
  induction ids with
  | nil => exact .pure []
  | cons c ids ih =>
    have hids := ih fun x hx => h x (List.mem_cons_of_mem c hx)
    have hcons (s : String) := hids.bind fun ss => .pure (s :: ss)
    rw [List.append_nil] at hcons
    exact (h c (List.mem_cons_self ..)).bind hcons

/-! ## Parts that do not come to a block -/

theorem notes_find (table : List Language) (name : Json) :
    Notes (liftM (Language.find table name)) (aside (liftM (Language.find table name))) [] := by
  refine .aside fun T => ?_
  rw [Language.find]
  split <;> rintro ⟨⟩

theorem notes_deeper (language : Language) (indent : String) :
    Notes (liftM (language.deeper indent)) (aside (liftM (language.deeper indent))) [] := by
  refine .aside fun T => ?_
  rw [Language.deeper]
  split
  · split <;> rintro ⟨⟩
  · rintro ⟨⟩

theorem notes_selectTemplate (b : Block) :
    Notes (liftM (selectTemplate g b name)) (aside (liftM (selectTemplate g b name))) [] := by
  refine .aside fun T => ?_
  rw [selectTemplate]
  split
  · rintro ⟨⟩
  · split <;> rintro ⟨⟩

theorem notes_indentTemplate (language : Language) (indent : String) (template : Json) :
    Notes (indentTemplate language indent template)
      (aside (indentTemplate language indent template)) [] := by
  refine .aside fun T => ?_
  unfold indentTemplate
  split
  · cases template <;> exact nofun
  · exact nofun

theorem notes_fillBody (b : Block) (text : Json) (inner childIndent : String) :
    Notes (fillBody b text inner childIndent) (aside (fillBody b text inner childIndent)) [] := by
  refine .aside fun T => ?_
  rw [fillBody]
  cases b.containerVar.bind Json.given? with
  | none => cases text <;> rintro ⟨⟩
  | some v =>
    cases v with
    | str bodyVar =>
      cases text with
      | str s =>
        simp only [demandText, pure_bind]
        cases definedName? s.toList bodyVar.toList <;> rintro ⟨⟩
      | _ => rintro ⟨⟩
    | _ => rintro ⟨⟩

theorem notes_finishText (language : Language) (indent text : String) :
    Notes (finishText language indent text) (aside (finishText language indent text)) [] :=
  .aside fun T => by
    rw [finishText_run]
    exact nofun

/-! ## Blocks -/

theorem notes_blockCodeBy (hb : r.get? id = some b) {code : String → BlockId → GenM String}
    {noted : String → BlockId → NoteM String} {way : BlockId → List BlockId}
    (h : ∀ indent, ∀ c ∈ r.liveChildren id, Notes (code indent c) (noted indent c) (way c))
    (indent : String) :
    Notes (blockCodeBy g r name code indent b) (notedBlockBy g r name noted indent b)
      ((r.liveChildren id).flatMap way) := by
  have hmem (c : BlockId) : c ∈ r.liveChildren id ↔
      c ∈ (b.slots.filterMap fun e => e.2.child).filter r.contains ∨
        c ∈ b.nested.filter r.contains := by
    rw [Registry.liveChildren, hb, List.mem_append]
  have hinputs (indent : String) (text : Json) :
      Notes (fillInputs r (code indent) text b.slots) (notedInputs r (noted indent) text b.slots)
        (((b.slots.filterMap fun e => e.2.child).filter r.contains).flatMap way) :=
    notes_fillInputs (fun e he c hc hlive => h indent c ((hmem c).2
      (.inl (List.mem_filter.2 ⟨List.mem_filterMap.2 ⟨e, he, hc⟩, hlive⟩)))) text
  have hnested (indent : String) :
      Notes (codes (code indent) (b.nested.filter r.contains))
        (notedCodes (noted indent) (b.nested.filter r.contains))
        ((b.nested.filter r.contains).flatMap way) :=
    notes_codes fun c hc => h indent c ((hmem c).2 (.inr hc))
  have hway : (r.liveChildren id).flatMap way =
      ((b.slots.filterMap fun e => e.2.child).filter r.contains).flatMap way ++
        ((b.nested.filter r.contains).flatMap way ++ []) := by
    rw [Registry.liveChildren, hb, List.flatMap_append, List.append_nil]
  rw [hway]
  refine (notes_find g.languages name).bind fun language =>
    (notes_deeper language indent).bind fun childIndent =>
    (notes_selectTemplate b).bind fun template =>
    (notes_indentTemplate language indent template).bind fun template =>
    (hinputs childIndent template).bind fun text =>
    (hnested childIndent).bind fun nested => ?_
  refine (notes_fillBody b text _ childIndent).bind fun text => ?_
  cases text with
  | some text => exact notes_finishText language indent text
  | none => exact .pure ""

theorem notes_blockCodeWithin (wf : r.WellFormed) : ∀ (n : Nat) (indent : String) (id : BlockId),
    r.contains id = true → r.size ≤ n + r.depth id →
    Notes (blockCodeWithin g r name n indent id) (notedWithin g r name n indent id)
      (r.preorder n id)
  | 0, indent, id, hid, hn => by
    have := wf.depth_lt_size hid
    omega
  | n + 1, indent, id, hid, hn => by
    obtain ⟨b, hb⟩ := Registry.contains_iff.1 hid
    have hunder (c : BlockId) (hc : c ∈ r.liveChildren id) : r.Under c id :=
      (wf.mem_liveChildren_iff hid).1 hc
    rw [blockCodeWithin_live hb, notedWithin, hb]
    refine .visit id (notes_blockCodeBy hb (fun indent c hc => ?_) indent)
    refine notes_blockCodeWithin wf n indent c (hunder c hc).contains ?_
    have := wf.depth_of_under (hunder c hc)
    omega

/-- All blocks at the top level, with as many levels as there are blocks. -/
theorem notes_roots (wf : r.WellFormed) :
    Notes (codes (blockCode g r name "") r.roots)
      (notedCodes (notedWithin g r name r.size "") r.roots) r.order := by
  have hlive (id : BlockId) (hid : id ∈ r.roots) : r.contains id = true :=
    Registry.contains_of_mem_roots hid
  have hcodes : codes (blockCode g r name "") r.roots =
      codes (blockCodeWithin g r name r.size "") r.roots :=
    codes_congr fun id hid => blockCodeWithin_succ wf r.size "" id (hlive id hid) (by omega)
  rw [hcodes]
  exact notes_codes fun id hid => notes_blockCodeWithin wf r.size "" id (hlive id hid) (by omega)

/-- A run with notes gives what the run without notes gives, and comes to the first blocks of
the order. -/
theorem exists_generateNoting (wf : r.WellFormed) (g : Generator) (language : Json) :
    ∃ done, generateNoting g r r.size language = (generate g r language, done) ∧
      done <+: r.order ∧ generate g r language ≠ .error .endless ∧
      ∀ code, generate g r language = .ok code → done = r.order := by
  let name := language.orElse g.defaultLanguage
  have hnotes : Notes (codes (blockCode g r name "") r.roots)
      (notedCodes (notedWithin g r name r.size "") r.roots) r.order := notes_roots wf
  obtain ⟨done, hdone, hrun, hlevels, hall⟩ := hnotes.run {}
  have hgenerate : generate g r language =
      (codes (blockCode g r name "") r.roots []).1.map (joinCode "\n") := rfl
  refine ⟨done, ?_, hdone, ?_⟩
  · show ((notedCodes (notedWithin g r name r.size "") r.roots {}).1.map (joinCode "\n"),
      (notedCodes (notedWithin g r name r.size "") r.roots {}).2.visited) = _
    rw [hrun, hgenerate]
    rfl
  · rw [hgenerate]
    cases hresult : (codes (blockCode g r name "") r.roots []).1 with
    | error e => exact ⟨fun h => hlevels (hresult.trans (congrArg _ (Except.error.inj h))), nofun⟩
    | ok parts => exact ⟨nofun, fun _ _ => hall parts hresult⟩

/-- In a well-formed registry generation goes through one order that lists every live block
exactly once.  A run with notes gives the code that the run without notes gives, and as many
levels as there are blocks are enough for it.  It comes to the blocks in that order and passes
none over.  If the code of all blocks is generated, it comes to every live block once, and so
it does whenever the templates of all blocks and the names of their body placeholders are
texts. -/
theorem visited_generateNoting (wf : r.WellFormed) (g : Generator) (language : Json) :
    (generateNoting g r r.size language).1 = generate g r language ∧
    generate g r language ≠ .error .endless ∧
    r.order.Perm r.ids ∧ r.order.Nodup ∧
    (generateNoting g r r.size language).2 <+: r.order ∧
    (∀ code, generate g r language = .ok code →
      (generateNoting g r r.size language).2.Perm r.ids) ∧
    ∀ l, Language.find g.languages (language.orElse g.defaultLanguage) = .ok l → l.unit.IsText →
      (∀ id b, r.get? id = some b → Generable g (language.orElse g.defaultLanguage) b) →
      (generateNoting g r r.size language).2.Perm r.ids := by
  obtain ⟨done, hnoting, hdone, hlevels, hall⟩ := exists_generateNoting wf g language
  have hwhole (code : String) (hcode : generate g r language = .ok code) : done.Perm r.ids := by
    rw [hall code hcode]
    exact wf.perm_order
  rw [hnoting]
  refine ⟨rfl, hlevels, wf.perm_order, wf.perm_order.nodup_iff.2 r.nodup, hdone, hwhole,
    fun l hl hunit hgenerable => ?_⟩
  obtain ⟨code, hcode⟩ := (generate_ok_iff wf hl (Language.exists_deeper hunit)).2 hgenerable
  exact hwhole code hcode

/-- A container comes before the value over its input, and that before the command in its
body. -/
theorem visited_generateNoting_built : ∃ r : Registry, r.WellFormed ∧
    r.parent? "blk-2" = some (.container "blk-1") ∧
    r.parent? "blk-3" = some (.input "blk-1" "times") ∧
    r.order = ["blk-1", "blk-3", "blk-2"] ∧
    (generateNoting {} r r.size (.str "python")).2 = ["blk-1", "blk-3", "blk-2"] ∧
    (generateNoting {} r r.size (.str "python")).2.Perm r.ids := by
  let r := Workspace.builtWorkspace.board.registry
  have wf : r.WellFormed :=
    (Workspace.sound_of_reachable Workspace.reachable_builtWorkspace).1
  have hentries : ∀ e ∈ r.entries, Generable {} (.str "python") e.2 := by decide +kernel
  obtain ⟨-, -, -, -, -, -, hgenerable⟩ := visited_generateNoting wf {} (.str "python")
  refine ⟨r, wf, by decide +kernel, by decide +kernel, by decide +kernel, by decide +kernel, ?_⟩
  exact hgenerable ⟨.str "python", true, .str "    "⟩ rfl ⟨_, rfl⟩ fun id b hb =>
    hentries (id, b) (Registry.get?_eq_some_iff.1 hb)

/-- Two blocks at the top level, the first with a number for a template. -/
def sampleNumberTemplate : Json :=
  .obj [("instances", .arr [
    .obj [("id", .str "a"), ("label", .str "a"), ("kind", .str "command"),
      ("templates", .obj [("javascript", .int 5)])],
    .obj [("id", .str "b"), ("label", .str "b"), ("kind", .str "command"),
      ("templates", .obj [("javascript", .str "b()")])]])]

/-- Where the template of a block is no text, generation stops at the block and comes to no
block after it.  An import is enough to get there. -/
theorem not_visited_generateNoting : ∃ w : Workspace FixedGeometry,
    Workspace.Reachable (fun _ _ _ => True) (.start {} none .standard [] {}) w ∧
      w.board.registry.WellFormed ∧ w.board.registry.ids = ["a", "b"] ∧
      (generate w.generator w.board.registry (.str "javascript")).isOk = false ∧
      (generateNoting w.generator w.board.registry w.board.registry.size
        (.str "javascript")).2 = ["a"] ∧
      ¬ (generateNoting w.generator w.board.registry w.board.registry.size
        (.str "javascript")).2.Perm w.board.registry.ids := by
  let w₀ : Workspace FixedGeometry := .start {} none .standard [] {}
  let w := (Operation.importBundle sampleNumberTemplate).perform w₀
  have h₀ : Workspace.Reachable (fun _ _ _ => True) w₀ w₀ := .start
  have h : Workspace.Reachable (fun _ _ _ => True) w₀ w := h₀.perform _ nofun
  have hids : w.board.registry.ids = ["a", "b"] := by decide +kernel
  have hvisited : (generateNoting w.generator w.board.registry w.board.registry.size
      (.str "javascript")).2 = ["a"] := by decide +kernel
  refine ⟨w, h, (Workspace.sound_of_reachable h).1, hids, by decide +kernel, hvisited, ?_⟩
  rw [hvisited, hids]
  decide

end Code

end Blockwork
