import Blockwork.Proofs.Drop.Finish
import Blockwork.Proofs.Geometry.EstimatedAnswers

/-!
# The target of a drop

A geometry that answers every question about a scene, and each the same way whenever it
is asked, shows a `View`: a rectangle for every block, some rectangles for inputs and
bodies, and where points go.  Over tables and over the estimated layout there is one.

What a view makes the target of a drop is said by `Target.Aims`, without walking anything:
the first input that receives the block, else the first of the deepest bodies that enclose
the pointer, else the place below the first block that supports it, else nowhere.  Blocks
count if they are not the dragged one and not below it.  At most one target is aimed at.

`resolve` finds it.  Each of its three searches is a search through a list once the answers
are known, and the blocks that it leaves out are the dragged one and what is below it.
-/

namespace Blockwork

variable {σ α β : Type}

open Query (Answers answers_pure answers_read answers_get answers_ofExcept)

namespace Kind

variable {k : Kind}

theorem hasBody_iff : k.hasBody = true ↔ k = .container ∨ k = .function := by
  cases k <;> decide

theorem fitsInput_iff : k.fitsInput = true ↔ k = .reporter ∨ k = .boolean := by
  cases k <;> decide

theorem stackable_iff : k.stackable = true ↔ k = .command ∨ k = .container := by
  cases k <;> decide

end Kind

/-! ## Views -/

/-- What a geometry shows of a scene. -/
structure View where
  /-- The rectangle of a block. -/
  box : BlockId → Rect
  /-- The rectangle of an input, if there is one. -/
  slot : BlockId → String → Option Rect
  /-- The rectangle of a body, if there is one. -/
  body : BlockId → Option Rect
  /-- The screen point of a workspace point. -/
  toScreen : Point → Point
  /-- The workspace point of a screen point. -/
  toWorkspace : Point → Point

/-- The screen rectangle of a workspace rectangle. -/
def View.onScreen (v : View) (rect : Rect) : Rect :=
  .ofCorners (v.toScreen rect.corner) (v.toScreen rect.farCorner)

/-- From every state that meets a condition, the geometry answers what the view shows. -/
structure Geometry.Shows [Geometry σ] (scene : Scene) (I : σ → Prop) (v : View) : Prop where
  boundingBox : ∀ {id}, scene.registry.contains id = true →
    Answers scene I (Survey.boundingBox id) (v.box id = ·)
  slotRect : ∀ {id} (name : String), scene.registry.contains id = true →
    Answers scene I (Survey.slotRect id name) (v.slot id name = ·)
  bodyRect : ∀ {id}, scene.registry.contains id = true →
    Answers scene I (Survey.bodyRect id) (v.body id = ·)
  screenPoint : ∀ p, Answers scene I (Survey.screenPoint p) (v.toScreen p = ·)
  workspacePoint : ∀ p, Answers scene I (Survey.workspacePoint p) (v.toWorkspace p = ·)

namespace Query

variable {scene : Scene} {I : σ → Prop} {q : Query σ α} {f : α → Query σ β} {Q : α → Prop}

/-- A question is answered the same way from every state that meets a condition. -/
def Settles (scene : Scene) (I : σ → Prop) (q : Query σ α) : Prop :=
  ∃ a, Answers scene I q (a = ·)

theorem settles_pure (a : α) : Settles scene I (pure a) := ⟨a, answers_pure rfl⟩

theorem Settles.bind (hq : Settles scene I q) (hf : ∀ a, Settles scene I (f a)) :
    Settles scene I (q >>= f) := by
  obtain ⟨a, ha⟩ := hq
  obtain ⟨b, hb⟩ := hf a
  exact ⟨b, ha.bind fun _ h => h ▸ hb⟩

/-- What has one answer at most, whatever is remembered, is settled. -/
theorem Answers.settles {l : σ} (h : Answers scene I q Q) (hl : I l)
    (hQ : ∀ a b, Q a → Q b → a = b) : Settles scene I q := by
  obtain ⟨a, -, -, -, ha⟩ := h l hl
  exact ⟨a, h.mono fun b hb => hQ a b ha hb⟩

end Query

open Query (Settles settles_pure)

/-- A geometry shows a view if every question about a live block or a point is settled. -/
theorem Geometry.exists_shows [Geometry σ] {scene : Scene} {I : σ → Prop}
    (hbox : ∀ id, scene.registry.contains id = true →
      Settles scene I (Survey.boundingBox id))
    (hslot : ∀ id name, scene.registry.contains id = true →
      Settles scene I (Survey.slotRect id name))
    (hbody : ∀ id, scene.registry.contains id = true → Settles scene I (Survey.bodyRect id))
    (hscreen : ∀ p, Settles scene I (Survey.screenPoint p))
    (hworkspace : ∀ p, Settles scene I (Survey.workspacePoint p)) :
    ∃ v, Geometry.Shows scene I v := by
  have hrect : Nonempty Rect := ⟨⟨0.0, 0.0, 0.0, 0.0⟩⟩
  choose! box hbox using hbox
  choose! slot hslot using hslot
  choose! body hbody using hbody
  choose toScreen hscreen using hscreen
  choose toWorkspace hworkspace using hworkspace
  exact ⟨⟨box, slot, body, toScreen, toWorkspace⟩,
    ⟨hbox _, fun name hid => hslot _ name hid, hbody _, hscreen, hworkspace⟩⟩

/-! ### Over tables -/

/-- What the tables show. -/
def FixedGeometry.view (g : FixedGeometry) : View where
  box id := (g.boxes.row? id).getD ⟨0.0, 0.0, 0.0, 0.0⟩
  slot id name := g.slots.row? (id ++ "." ++ name)
  body id := g.bodies.row? id
  toScreen p := p
  toWorkspace p := p

theorem FixedGeometry.shows {scene : Scene} {g : FixedGeometry} (hg : g.Sound) :
    Geometry.Shows scene (· = g) g.view where
  boundingBox _ := .bind answers_get fun g' hg' => by
    subst hg'
    refine .bind (RectTable.answers_ask (fun e he => ?_) _) fun _ h => h ▸ answers_pure rfl
    exact hg.rows e (List.mem_append_left _ (List.mem_append_left _ he))
  slotRect name _ := .bind answers_get fun g' hg' => by
    subst hg'
    refine RectTable.answers_ask (fun e he => ?_) _
    exact hg.rows e (List.mem_append_left _ (List.mem_append_right _ he))
  bodyRect _ := .bind answers_get fun g' hg' => by
    subst hg'
    exact RectTable.answers_ask (fun e he => hg.rows e (List.mem_append_right _ he)) _
  screenPoint _ := answers_pure rfl
  workspacePoint _ := answers_pure rfl

/-! ### Over the estimated layout -/

namespace EstimatedLayout

variable {scene : Scene} {id : BlockId}

theorem settles_origin (wf : scene.registry.WellFormed) (hid : scene.registry.contains id = true) :
    Settles scene (Coherent scene.registry) (origin id) :=
  (answers_origin wf hid).settles (coherent_clear _ {}) fun _ _ => Located.unique

theorem settles_slotRect (wf : scene.registry.WellFormed)
    (hid : scene.registry.contains id = true) (name : String) :
    Settles scene (Coherent scene.registry) (slotRect id name) := by
  obtain ⟨c, hc⟩ := Registry.contains_iff.1 hid
  have hoffset : Settles scene (Coherent scene.registry) (slotOffset id name) := by
    refine (answers_slotOffset wf hc name).settles (coherent_clear _ {}) ?_
    rintro _ _ ⟨e, he, rfl⟩ ⟨e', he', rfl⟩
    rw [he.unique he']
  refine hoffset.bind fun d => ?_
  cases d with
  | none => exact settles_pure _
  | some d => exact (settles_origin wf hid).bind fun _ => settles_pure _

theorem settles_bodyRect (wf : scene.registry.WellFormed)
    (hid : scene.registry.contains id = true) :
    Settles scene (Coherent scene.registry) (bodyRect id) :=
  (answers_bodyRect wf hid).settles (coherent_clear _ {}) fun _ _ => Bodied.unique

theorem settles_workspacePoint (hzoom : (scene.viewport.zoom == 0.0) = false) (p : Point) :
    Settles scene (Coherent scene.registry) (Survey.workspacePoint p) := by
  obtain ⟨q, hq⟩ := Viewport.exists_toWorkspace hzoom p
  refine ⟨q, .bind answers_read fun _ h => ?_⟩
  subst h
  rw [hq]
  exact answers_pure rfl

/-- With well-formed blocks and a zoom the estimated layout shows one view, whatever it
remembers. -/
theorem exists_shows (wf : scene.registry.WellFormed)
    (hzoom : (scene.viewport.zoom == 0.0) = false) :
    ∃ v, Geometry.Shows scene (Coherent scene.registry) v :=
  Geometry.exists_shows
    (fun _ hid =>
      (answers_boundingBox wf hid).settles (coherent_clear _ {}) fun _ _ => Boxed.unique)
    (fun _ name hid => settles_slotRect wf hid name) (fun _ hid => settles_bodyRect wf hid)
    (fun p => ⟨scene.viewport.toScreen p, .bind answers_read fun _ h => h ▸ answers_pure rfl⟩)
    (settles_workspacePoint hzoom)

end EstimatedLayout

/-! ## What is aimed at -/

/-- The first item of a list with a property. -/
inductive First (p : α → Prop) : List α → α → Prop
  | here {a : α} {as : List α} : p a → First p (a :: as) a
  | later {a b : α} {as : List α} : ¬ p b → First p as a → First p (b :: as) a

/-- The inputs with their blocks.  Blocks come in order of creation, and the inputs of a
block in the order of its label. -/
def Registry.inputs (r : Registry) : List ((BlockId × Block) × String × Slot) :=
  r.entries.flatMap fun e => e.2.slots.map fun s => (e, s)

namespace Target

section Aiming

variable (r : Registry) (v : View) (dragged : BlockId) (pointer release : Point)

/-- The input receives the dragged block, a value. -/
structure Receives (i : (BlockId × Block) × String × Slot) : Prop where
  value : ∃ b, r.get? dragged = some b ∧ (b.kind = .reporter ∨ b.kind = .boolean)
  outside : ¬ Relation.ReflTransGen r.Under i.1.1 dragged
  /-- No live block is over the input. -/
  free : ∀ c, i.2.2.child = some c → r.contains c = false
  under : ∃ rect, v.slot i.1.1 i.2.1 = some rect ∧ (v.onScreen rect).contains pointer = true

/-- The body of the block, with a margin of eight, encloses the pointer. -/
structure Encloses (e : BlockId × Block) : Prop where
  kind : e.2.kind = .container ∨ e.2.kind = .function
  outside : ¬ Relation.ReflTransGen r.Under e.1 dragged
  under : ∃ rect, v.body e.1 = some rect ∧
    ((v.onScreen rect).expanded 8.0).contains pointer = true

/-- The block encloses the pointer, and none that does is deeper. -/
def EnclosesDeepest (e : BlockId × Block) : Prop :=
  Encloses r v dragged pointer e ∧
    ∀ e' ∈ r.entries, Encloses r v dragged pointer e' → r.depth e'.1 ≤ r.depth e.1

/-- The release point is near the lower edge of the block. -/
structure Supports (e : BlockId × Block) : Prop where
  kind : e.2.kind = .command ∨ e.2.kind = .container
  outside : ¬ Relation.ReflTransGen r.Under e.1 dragged
  across : (v.box e.1).x - 10.0 < release.x ∧ release.x < (v.box e.1).right + 10.0
  down : (v.box e.1).bottom - 16.0 < release.y ∧ release.y < (v.box e.1).bottom + 20.0

/-- The target of a drop. -/
inductive Aims : Target → Prop
  | input {i : (BlockId × Block) × String × Slot} :
      First (Receives r v dragged pointer) r.inputs i → Aims (.input i.1.1 i.2.1)
  | body {e : BlockId × Block} : (∀ i ∈ r.inputs, ¬ Receives r v dragged pointer i) →
      First (EnclosesDeepest r v dragged pointer) r.entries e → Aims (.body e.1)
  | below {e : BlockId × Block} : (∀ i ∈ r.inputs, ¬ Receives r v dragged pointer i) →
      (∀ e ∈ r.entries, ¬ Encloses r v dragged pointer e) →
      First (Supports r v dragged release) r.entries e →
      Aims (.below e.1 ⟨(v.box e.1).x, (v.box e.1).bottom + 6.0⟩)
  | nowhere : (∀ i ∈ r.inputs, ¬ Receives r v dragged pointer i) →
      (∀ e ∈ r.entries, ¬ Encloses r v dragged pointer e) →
      (∀ e ∈ r.entries, ¬ Supports r v dragged release e) → Aims .nowhere

end Aiming

end Target

/-! ## First items -/

namespace First

variable {p q : α → Prop} {items : List α} {a b : α}

theorem holds (h : First p items a) : a ∈ items ∧ p a := by
  induction h with
  | here ha => exact ⟨List.mem_cons_self .., ha⟩
  | later _ _ ih => exact ⟨List.mem_cons_of_mem _ ih.1, ih.2⟩

theorem unique (h : First p items a) (h' : First p items b) : a = b := by
  induction h with
  | here ha =>
    cases h' with
    | here _ => rfl
    | later hna _ => exact absurd ha hna
  | later hnb _ ih =>
    cases h' with
    | here hb => exact absurd hb hnb
    | later _ h' => exact ih h'

theorem congr (h : First p items a) (hpq : ∀ x ∈ items, p x ↔ q x) : First q items a := by
  induction h with
  | here ha => exact .here ((hpq _ (List.mem_cons_self ..)).1 ha)
  | later hnb _ ih =>
    refine .later (fun hb => hnb ((hpq _ (List.mem_cons_self ..)).2 hb)) ?_
    exact ih fun x hx => hpq x (List.mem_cons_of_mem _ hx)

theorem of_find? {hit : α → Bool} : ∀ {items : List α}, items.find? hit = some a →
    First (hit · = true) items a
  | b :: items, h => by
    rw [List.find?_cons] at h
    cases hb : hit b with
    | true =>
      rw [hb] at h
      cases h
      exact .here hb
    | false =>
      rw [hb] at h
      exact .later (by simp [hb]) (of_find? h)

theorem of_filter {keep : α → Bool} : ∀ {items : List α}, First p (items.filter keep) a →
    First (fun x => keep x = true ∧ p x) items a
  | b :: items, h => by
    cases hb : keep b with
    | true =>
      rw [List.filter_cons_of_pos hb] at h
      cases h with
      | here ha => exact .here ⟨hb, ha⟩
      | later hnb h => exact .later (fun hb => hnb hb.2) (of_filter h)
    | false =>
      rw [List.filter_cons_of_neg (by simp [hb])] at h
      exact .later (by simp [hb]) (of_filter h)

end First

namespace Target

section Searches

variable {scene : Scene} {I : σ → Prop} {hit : α → Query σ Bool} {q : α → Bool}
variable {weight : α → Nat} {best p : α → Prop} {f : α → β} {items : List α} {a : α}

/-- Once the answers are known, the first hit is searched in a list. -/
theorem answers_firstHit_find? : ∀ {items : List α},
    (∀ a ∈ items, Answers scene I (hit a) (q a = ·)) →
    Answers scene I (firstHit hit items) (items.find? q = ·)
  | [], _ => answers_pure rfl
  | a :: items, h => by
    refine .bind (h a (List.mem_cons_self ..)) fun here hhere => ?_
    subst hhere
    rw [List.find?_cons]
    cases q a with
    | true => exact answers_pure rfl
    | false => exact answers_firstHit_find? fun b hb => h b (List.mem_cons_of_mem a hb)

theorem answers_hits_filter : ∀ {items : List α},
    (∀ a ∈ items, Answers scene I (hit a) (q a = ·)) →
    Answers scene I (hits hit items) (items.filter q = ·)
  | [], _ => answers_pure rfl
  | a :: items, h => by
    refine .bind (h a (List.mem_cons_self ..)) fun here hhere => ?_
    refine .bind (answers_hits_filter fun b hb => h b (List.mem_cons_of_mem a hb))
      fun rest hrest => ?_
    subst hhere hrest
    exact answers_pure List.filter_cons

theorem firstHeaviest_map {weight : β → Nat} :
    ∀ items : List α, firstHeaviest weight (items.map f) =
      (firstHeaviest (fun a => weight (f a)) items).map f
  | [] => rfl
  | a :: items => by
    rw [List.map_cons, firstHeaviest, firstHeaviest, firstHeaviest_map items]
    cases firstHeaviest (fun a => weight (f a)) items with
    | none => rfl
    | some b =>
      dsimp only [Option.map_some]
      split <;> rfl

theorem firstHeaviest_eq_none_iff : firstHeaviest weight items = none ↔ items = [] := by
  cases items with
  | nil => exact ⟨fun _ => rfl, fun _ => rfl⟩
  | cons a items =>
    rw [firstHeaviest]
    constructor
    · intro h
      split at h
      · cases h
      · split at h <;> cases h
    · intro h
      cases h

/-- The search keeps an item as long as no later one is heavier. -/
theorem first_of_firstHeaviest : ∀ {items : List α} {a : α}, firstHeaviest weight items = some a →
    First (fun x => ∀ y ∈ items, weight y ≤ weight x) items a
  | b :: items, a, h => by
    rw [firstHeaviest] at h
    cases hrest : firstHeaviest weight items with
    | none =>
      rw [hrest] at h
      cases h
      rw [firstHeaviest_eq_none_iff.1 hrest]
      exact .here fun y hy => Nat.le_of_eq (congrArg weight (List.mem_singleton.1 hy))
    | some c =>
      have hfirst := first_of_firstHeaviest hrest
      obtain ⟨hc, hmax⟩ := hfirst.holds
      rw [hrest] at h
      dsimp only at h
      split at h
      · next hlt =>
        cases h
        refine .later (fun hall => ?_) (hfirst.congr fun x _ => ?_)
        · exact absurd (hall a (List.mem_cons_of_mem b hc)) (Nat.not_le.2 hlt)
        · refine ⟨fun hall y hy => ?_, fun hall y hy => hall y (List.mem_cons_of_mem b hy)⟩
          rcases List.mem_cons.1 hy with rfl | hy
          · exact Nat.le_trans (Nat.le_of_lt hlt) (hall a hc)
          · exact hall y hy
      · next hge =>
        cases h
        refine .here fun y hy => ?_
        rcases List.mem_cons.1 hy with rfl | hy
        · exact Nat.le_refl _
        · exact Nat.le_trans (hmax y hy) (Nat.not_lt.1 hge)

/-- What a search through a list picks: the first of the best items, or nothing if no item
has the property. -/
def Picks (best p : α → Prop) (f : α → β) (items : List α) : Option β → Prop
  | some b => ∃ a, First best items a ∧ f a = b
  | none => ∀ a ∈ items, ¬ p a

theorem picks_find? (h : ∀ a ∈ items, q a = true ↔ p a) :
    Picks p p f items ((items.find? q).map f) := by
  cases hfind : items.find? q with
  | none => exact fun a ha hp => by simpa [(h a ha).2 hp] using List.find?_eq_none.1 hfind a ha
  | some a => exact ⟨a, (First.of_find? hfind).congr h, rfl⟩

theorem picks_firstHeaviest (h : ∀ a ∈ items, q a = true ↔ p a) :
    Picks (fun a => p a ∧ ∀ b ∈ items, p b → weight b ≤ weight a) p f items
      ((firstHeaviest weight (items.filter q)).map f) := by
  cases hheaviest : firstHeaviest weight (items.filter q) with
  | none =>
    intro a ha hp
    have hempty := List.filter_eq_nil_iff.1 (firstHeaviest_eq_none_iff.1 hheaviest) a ha
    exact hempty ((h a ha).2 hp)
  | some a =>
    refine ⟨a, (First.of_filter (first_of_firstHeaviest hheaviest)).congr fun x hx => ?_, rfl⟩
    rw [h x hx]
    refine and_congr_right fun _ => ⟨fun hmax y hy hp => ?_, fun hmax y hy => ?_⟩
    · exact hmax y (List.mem_filter.2 ⟨hy, (h y hy).2 hp⟩)
    · obtain ⟨hy, hq⟩ := List.mem_filter.1 hy
      exact hmax y hy ((h y hy).1 hq)

end Searches

/-! ## What is searched -/

section Candidates

variable {r : Registry} {excluded : List BlockId}

theorem openSlots_eq : openSlots r excluded =
    (r.inputs.filter fun i => !excluded.contains i.1.1 && !i.2.2.child.any r.contains).map
      fun i => (i.1.1, i.2.1) := by
  unfold openSlots Registry.inputs
  induction r.entries with
  | nil => rfl
  | cons e es ih =>
    rw [List.flatMap_cons, List.filter_append, List.map_append, ← ih, List.filter_map,
      List.map_map]
    by_cases hx : e.1 ∈ excluded <;> simp [hx, Function.comp_def]

/-- The walk down from a block finds what is below it. -/
theorem not_excluded_iff (wf : r.WellFormed) {dragged x : BlockId} :
    (!(dragged :: r.descendants dragged).contains x) = true ↔
      ¬ Relation.ReflTransGen r.Under x dragged := by
  rw [Bool.not_eq_true', ← Bool.not_eq_true, List.contains_iff_mem, List.mem_cons,
    wf.mem_descendants_iff, Relation.reflTransGen_iff_eq_or_transGen, eq_comm]
  rfl

end Candidates

section Answered

variable [Geometry σ] {scene : Scene} {I : σ → Prop} {v : View}
variable {dragged : BlockId} {pointer release : Point}

theorem answers_screenRect_view (hs : Geometry.Shows scene I v) (rect : Rect) :
    Answers scene I (Survey.screenRect rect) (v.onScreen rect = ·) := by
  refine .bind (hs.screenPoint _) fun _ hp => .bind (hs.screenPoint _) fun _ hq => ?_
  subst hp hq
  exact answers_pure rfl

theorem answers_inputAt?_picks (hs : Geometry.Shows scene I v) (wf : scene.registry.WellFormed)
    (hvalue : ∃ b, scene.registry.get? dragged = some b ∧
      (b.kind = .reporter ∨ b.kind = .boolean)) :
    Answers scene I (inputAt? pointer (dragged :: scene.registry.descendants dragged))
      (Picks (Receives scene.registry v dragged pointer)
        (Receives scene.registry v dragged pointer) (fun i => (i.1.1, i.2.1))
        scene.registry.inputs) := by
  have hsearch : Answers scene I
      (inputAt? pointer (dragged :: scene.registry.descendants dragged))
      ((openSlots scene.registry (dragged :: scene.registry.descendants dragged)).find?
        (fun s => (v.slot s.1 s.2).any fun rect => (v.onScreen rect).contains pointer) = ·) := by
    refine .bind answers_read fun _ h => ?_
    subst h
    refine answers_firstHit_find? fun s hmem => ?_
    obtain ⟨-, b, -, hb, -⟩ := mem_openSlots_iff.1 hmem
    refine .bind (hs.slotRect s.2 (Registry.contains_of_get? hb)) fun rect hrect => ?_
    rw [hrect]
    cases rect with
    | none => exact answers_pure rfl
    | some rect => exact .bind (answers_screenRect_view hs rect) fun _ h => h ▸ answers_pure rfl
  refine hsearch.mono fun _ h => ?_
  subst h
  rw [openSlots_eq, List.find?_map, List.find?_filter]
  refine picks_find? fun i _ => ?_
  rw [decide_eq_true_iff, Bool.and_eq_true, not_excluded_iff wf]
  constructor
  · rintro ⟨⟨hout, hfree⟩, hhit⟩
    exact ⟨hvalue, hout, fun c hc => by simpa [hc] using hfree, (Option.any_eq_true ..).1 hhit⟩
  · rintro ⟨-, hout, hfree, hhit⟩
    refine ⟨⟨hout, ?_⟩, (Option.any_eq_true ..).2 hhit⟩
    cases hc : i.2.2.child with
    | none => rfl
    | some c => simp [hfree c hc]

/-- The body of a block is under the pointer, as far as the view shows. -/
theorem answers_underPointer_view (hs : Geometry.Shows scene I v) (margin : Float) :
    ∀ rect? : Option Rect, Answers scene I (underPointer pointer margin rect?)
      ((rect?.any fun rect => ((v.onScreen rect).expanded margin).contains pointer) = ·)
  | none => answers_pure rfl
  | some rect => .bind (answers_screenRect_view hs rect) fun _ h => h ▸ answers_pure rfl

theorem answers_bodyAt?_picks (hs : Geometry.Shows scene I v) (wf : scene.registry.WellFormed) :
    Answers scene I (bodyAt? pointer (dragged :: scene.registry.descendants dragged))
      (Picks (EnclosesDeepest scene.registry v dragged pointer)
        (Encloses scene.registry v dragged pointer) Prod.fst scene.registry.entries) := by
  have hhits : Answers scene I
      (hits (fun id => do underPointer pointer bodyMargin (← Survey.bodyRect id))
        (openBodies scene.registry (dragged :: scene.registry.descendants dragged)))
      ((openBodies scene.registry (dragged :: scene.registry.descendants dragged)).filter
        (fun id => (v.body id).any fun rect =>
          ((v.onScreen rect).expanded bodyMargin).contains pointer) = ·) := by
    refine answers_hits_filter fun id hmem => ?_
    obtain ⟨-, b, hb, -⟩ := mem_openBodies_iff.1 hmem
    refine .bind (hs.bodyRect (Registry.contains_of_get? hb)) fun rect hrect => ?_
    rw [hrect]
    exact answers_underPointer_view hs bodyMargin rect
  refine .bind answers_read fun _ h => ?_
  subst h
  refine .bind hhits fun _ h => answers_pure ?_
  subst h
  rw [openBodies, List.filter_map, firstHeaviest_map, List.filter_filter]
  refine picks_firstHeaviest fun e _ => ?_
  rw [Bool.and_eq_true, Bool.and_eq_true, not_excluded_iff wf]
  constructor
  · rintro ⟨hnear, hout, hk⟩
    exact ⟨Kind.hasBody_iff.1 hk, hout, (Option.any_eq_true ..).1 hnear⟩
  · rintro ⟨hk, hout, hnear⟩
    exact ⟨(Option.any_eq_true ..).2 hnear, hout, Kind.hasBody_iff.2 hk⟩

theorem answers_upperAt?_find? (hs : Geometry.Shows scene I v) :
    ∀ ids : List BlockId, (∀ id ∈ ids, scene.registry.contains id = true) →
      Answers scene I (upperAt? release ids)
        ((ids.find? fun id => nearLowerEdge (v.box id) release).map
          (fun id => (id, v.box id)) = ·)
  | [], _ => answers_pure rfl
  | id :: ids, h => by
    refine .bind (hs.boundingBox (h id (List.mem_cons_self ..))) fun box hbox => ?_
    subst hbox
    rw [List.find?_cons]
    cases nearLowerEdge (v.box id) release with
    | true => exact answers_pure rfl
    | false => exact answers_upperAt?_find? hs ids fun x hx => h x (List.mem_cons_of_mem id hx)

theorem answers_upperAt?_picks (hs : Geometry.Shows scene I v) (wf : scene.registry.WellFormed) :
    Answers scene I
      (upperAt? release
        (uppers scene.registry (dragged :: scene.registry.descendants dragged)))
      (Picks (Supports scene.registry v dragged release)
        (Supports scene.registry v dragged release) (fun e => (e.1, v.box e.1))
        scene.registry.entries) := by
  refine (answers_upperAt?_find? hs _ fun _ => contains_of_mem_uppers).mono fun _ h => ?_
  subst h
  rw [uppers, List.find?_map, List.find?_filter, Option.map_map]
  refine picks_find? fun e _ => ?_
  rw [decide_eq_true_iff, Bool.and_eq_true, not_excluded_iff wf]
  constructor
  · rintro ⟨⟨hout, hk⟩, hnear⟩
    obtain ⟨hx, hy⟩ := Bool.and_eq_true_iff.1 hnear
    obtain ⟨hleft, hright⟩ := Bool.and_eq_true_iff.1 hx
    obtain ⟨hup, hdown⟩ := Bool.and_eq_true_iff.1 hy
    exact ⟨Kind.stackable_iff.1 hk, hout, ⟨of_decide_eq_true hleft, of_decide_eq_true hright⟩,
      of_decide_eq_true hup, of_decide_eq_true hdown⟩
  · rintro ⟨hk, hout, ⟨hleft, hright⟩, hup, hdown⟩
    refine ⟨⟨hout, Kind.stackable_iff.2 hk⟩, ?_⟩
    simp [nearLowerEdge, sideMargin, bandAbove, bandBelow, hleft, hright, hup, hdown]

/-- With no input to land in, the bodies are searched, and then the places below blocks. -/
theorem answers_below_inputs_aims (hs : Geometry.Shows scene I v)
    (wf : scene.registry.WellFormed)
    (hno : ∀ i ∈ scene.registry.inputs, ¬ Receives scene.registry v dragged pointer i) :
    Answers scene I (do
      match ← bodyAt? pointer (dragged :: scene.registry.descendants dragged) with
      | some container => return .body container
      | none =>
          match ← upperAt? release
            (uppers scene.registry (dragged :: scene.registry.descendants dragged)) with
          | some (id, box) => return .below id ⟨box.x, box.bottom + belowGap⟩
          | none => return .nowhere : Query σ Target)
      (Aims scene.registry v dragged pointer release) := by
  refine .bind (answers_bodyAt?_picks hs wf) fun body hbody => ?_
  cases body with
  | some c =>
    obtain ⟨e, he, rfl⟩ := hbody
    exact answers_pure (.body hno he)
  | none =>
    refine .bind (answers_upperAt?_picks hs wf) fun upper hupper => ?_
    cases upper with
    | some u =>
      obtain ⟨e, he, rfl⟩ := hupper
      exact answers_pure (.below hno hbody he)
    | none => exact answers_pure (.nowhere hno hbody hupper)

/-- The inputs are searched first, if the block is a value. -/
theorem answers_inputs_aims (hs : Geometry.Shows scene I v) (wf : scene.registry.WellFormed)
    {b : Block} (hb : scene.registry.get? dragged = some b) :
    Answers scene I (do
      let slot ← if b.kind.fitsInput then
        inputAt? pointer (dragged :: scene.registry.descendants dragged) else pure none
      match slot with
      | some (parent, name) => return .input parent name
      | none =>
          match ← bodyAt? pointer (dragged :: scene.registry.descendants dragged) with
          | some container => return .body container
          | none =>
              match ← upperAt? release
                (uppers scene.registry (dragged :: scene.registry.descendants dragged)) with
              | some (id, box) => return .below id ⟨box.x, box.bottom + belowGap⟩
              | none => return .nowhere : Query σ Target)
      (Aims scene.registry v dragged pointer release) := by
  dsimp only
  split
  · next hk =>
    refine .bind (answers_inputAt?_picks hs wf ⟨b, hb, Kind.fitsInput_iff.1 hk⟩)
      fun slot hslot => ?_
    cases slot with
    | some s =>
      obtain ⟨i, hi, rfl⟩ := hslot
      exact answers_pure (.input hi)
    | none => exact answers_below_inputs_aims hs wf hslot
  · next hk =>
    refine .bind (Q := (none = ·)) (answers_pure rfl) fun slot hslot => ?_
    subst hslot
    refine answers_below_inputs_aims hs wf fun i _ hi => hk ?_
    obtain ⟨c, hc, hkind⟩ := hi.value
    cases hb.symm.trans hc
    exact Kind.fitsInput_iff.2 hkind

/-- For a live block the target that is aimed at is answered. -/
theorem answers_resolve_aims (hs : Geometry.Shows scene I v) (wf : scene.registry.WellFormed)
    (hlive : scene.registry.contains dragged = true) (pointer : Point)
    (release? : Option Point) :
    Answers scene I (resolve dragged pointer release?)
      (Aims scene.registry v dragged pointer (release?.getD (v.toWorkspace pointer))) := by
  obtain ⟨b, hb⟩ := Registry.contains_iff.1 hlive
  have hrequire : Answers scene I
      (.ofExcept (scene.registry.require dragged) : Query σ Block) (b = ·) := by
    rw [Registry.require_ok_iff.2 hb]
    exact answers_ofExcept rfl
  refine .bind answers_read fun _ h => ?_
  subst h
  refine .bind hrequire fun _ h => ?_
  subst h
  cases release? with
  | some p => exact .bind (answers_pure rfl) fun _ h => h ▸ answers_inputs_aims hs wf hb
  | none => exact .bind (hs.workspacePoint pointer) fun _ h => h ▸ answers_inputs_aims hs wf hb

/-- At most one target is aimed at. -/
theorem Aims.unique {r : Registry} {t t' : Target} (h : Aims r v dragged pointer release t)
    (h' : Aims r v dragged pointer release t') : t = t' := by
  cases h with
  | input hi =>
    cases h' with
    | input hi' => rw [hi.unique hi']
    | body hno _ => exact absurd hi.holds.2 (hno _ hi.holds.1)
    | below hno _ _ => exact absurd hi.holds.2 (hno _ hi.holds.1)
    | nowhere hno _ _ => exact absurd hi.holds.2 (hno _ hi.holds.1)
  | body hno he =>
    cases h' with
    | input hi' => exact absurd hi'.holds.2 (hno _ hi'.holds.1)
    | body _ he' => rw [he.unique he']
    | below _ hno' _ => exact absurd he.holds.2.1 (hno' _ he.holds.1)
    | nowhere _ hno' _ => exact absurd he.holds.2.1 (hno' _ he.holds.1)
  | below hno hno' he =>
    cases h' with
    | input hi' => exact absurd hi'.holds.2 (hno _ hi'.holds.1)
    | body _ he' => exact absurd he'.holds.2.1 (hno' _ he'.holds.1)
    | below _ _ he' => rw [he.unique he']
    | nowhere _ _ hno'' => exact absurd he.holds.2 (hno'' _ he.holds.1)
  | nowhere hno hno' hno'' =>
    cases h' with
    | input hi' => exact absurd hi'.holds.2 (hno _ hi'.holds.1)
    | body _ he' => exact absurd he'.holds.2.1 (hno' _ he'.holds.1)
    | below _ _ he' => exact absurd he'.holds.2 (hno'' _ he'.holds.1)
    | nowhere _ _ _ => rfl

/-- For a live block `resolve` answers the target that is aimed at, and there is one. -/
theorem resolve_aims (hs : Geometry.Shows scene I v) (wf : scene.registry.WellFormed)
    (hlive : scene.registry.contains dragged = true) (pointer : Point)
    (release? : Option Point) :
    Answers scene I (resolve dragged pointer release?) fun target =>
      ∀ t, Aims scene.registry v dragged pointer (release?.getD (v.toWorkspace pointer)) t ↔
        t = target := by
  refine (answers_resolve_aims hs wf hlive pointer release?).mono fun target htarget t => ?_
  exact ⟨fun ht => ht.unique htarget, fun h => h ▸ htarget⟩

end Answered

end Target

/-! ### A value over nested containers -/

/-- A container with a container in its body, and a value. -/
def nestedRegistry : Registry where
  entries := [
    ("a", Bundle.sampleBlock .container none ["c"] .none),
    ("c", Bundle.sampleBlock .container none [] (.container "a")),
    ("w", Bundle.sampleBlock .reporter none [] .none)]
  nodup := by decide

theorem wellFormed_nestedRegistry : nestedRegistry.WellFormed :=
  Bundle.wellFormed_of_registryOf (v := .arr [Bundle.briefRecord "a" "container" ["c"],
    Bundle.briefRecord "c" "container" [], Bundle.briefRecord "w" "reporter" []]) rfl

/-- The body of the inner container lies in that of the outer one, and its input in both. -/
def nestedTables : FixedGeometry where
  slots := [("c.x", .ok ⟨30.0, 60.0, 60.0, 22.0⟩)]
  bodies := [("a", .ok ⟨10.0, 22.0, 100.0, 80.0⟩), ("c", .ok ⟨20.0, 56.0, 80.0, 30.0⟩)]

theorem sound_nestedTables : nestedTables.Sound where
  rows := by simp [nestedTables]
  workspace := ⟨_, rfl⟩

/-- Over the input a value goes into it, and beside it into the deeper one of two bodies, not
the first. -/
theorem Target.resolve_aims_nested :
    (∃ t, (resolve "w" ⟨40.0, 70.0⟩ none ⟨nestedRegistry, {}⟩ nestedTables).1 = .ok t ∧
      (t.name, t.block?, t.slot?) = ("input", some "c", some "x") ∧
      ∀ t', Aims nestedRegistry nestedTables.view "w" ⟨40.0, 70.0⟩ ⟨40.0, 70.0⟩ t' ↔ t' = t) ∧
    ∃ t, (resolve "w" ⟨25.0, 70.0⟩ none ⟨nestedRegistry, {}⟩ nestedTables).1 = .ok t ∧
      (t.name, t.block?, t.slot?) = ("container", some "c", none) ∧
      ∀ t', Aims nestedRegistry nestedTables.view "w" ⟨25.0, 70.0⟩ ⟨25.0, 70.0⟩ t' ↔ t' = t := by
  have hresolve (pointer : Point) : ∃ t,
      (resolve "w" pointer none ⟨nestedRegistry, {}⟩ nestedTables).1 = .ok t ∧
        ∀ t', Aims nestedRegistry nestedTables.view "w" pointer pointer t' ↔ t' = t := by
    have hshows : Geometry.Shows ⟨nestedRegistry, {}⟩ (· = nestedTables) nestedTables.view :=
      FixedGeometry.shows sound_nestedTables
    have hlive : nestedRegistry.contains "w" = true := rfl
    obtain ⟨t, l, hrun, -, ht⟩ :=
      resolve_aims hshows wellFormed_nestedRegistry hlive pointer none nestedTables rfl
    exact ⟨t, congrArg Prod.fst hrun, ht⟩
  have hinput : (resolve "w" ⟨40.0, 70.0⟩ none ⟨nestedRegistry, {}⟩ nestedTables).1.toOption.map
      (fun t => (t.name, t.block?, t.slot?)) = some ("input", some "c", some "x") := by
    decide +kernel
  have hbody : (resolve "w" ⟨25.0, 70.0⟩ none ⟨nestedRegistry, {}⟩ nestedTables).1.toOption.map
      (fun t => (t.name, t.block?, t.slot?)) = some ("container", some "c", none) := by
    decide +kernel
  obtain ⟨t, hrun, ht⟩ := hresolve ⟨40.0, 70.0⟩
  obtain ⟨t', hrun', ht'⟩ := hresolve ⟨25.0, 70.0⟩
  rw [hrun] at hinput
  rw [hrun'] at hbody
  exact ⟨⟨t, hrun, Option.some.inj hinput, ht⟩, t', hrun', Option.some.inj hbody, ht'⟩

end Blockwork
