import Blockwork.Drop.Target
import Blockwork.Geometry.Estimated
import Blockwork.Geometry.Fixed
import Blockwork.Proofs.Registry.Pruned

/-!
# Questions that overlook references to nothing

A question is asked of a scene and of the same scene with its blocks pruned.  `Agree`
compares the two runs, the answer or the fault and what the geometry remembers behind it, and
is proved along the way the question is put together.  The two runs differ only where a block
is looked up, and there a pruned block takes the place of the block.

The estimated layout walks through bodies and up to parents.  Where it adds up what is stacked
above a block, a sibling that is not live adds nothing, and the block itself is live.  Where
drops look for an open input, one with a dead block over it is as open as an empty one.
-/

namespace Blockwork

/-- The scene with its blocks pruned. -/
def Scene.pruned (scene : Scene) : Scene := { scene with registry := scene.registry.pruned }

/-! ## Two runs -/

namespace Query

variable {σ α β : Type} {scene : Scene} {q q' : Query σ α} {f f' : α → Query σ β}

/-- A question about the pruned scene has the answer of another about the scene, and leaves
the same state. -/
def Agree (scene : Scene) (q q' : Query σ α) : Prop := q scene.pruned = q' scene

/-- A question does not depend on references to blocks that are not live. -/
def Overlooks (q : Query σ α) : Prop := ∀ scene, Agree scene q q

theorem agree_pure {a : α} : Agree scene (pure a : Query σ α) (pure a) := rfl

theorem agree_ofExcept {r : Except Fault α} :
    Agree scene (ofExcept r : Query σ α) (ofExcept r) := rfl

theorem agree_get : Agree scene (get : Query σ σ) get := rfl

theorem agree_modify {g : σ → σ} : Agree scene (modify g : Query σ Unit) (modify g) := rfl

theorem Agree.bind (hq : Agree scene q q') (hf : ∀ a, Agree scene (f a) (f' a)) :
    Agree scene (q >>= f) (q' >>= f') := by
  change (q scene.pruned >>= fun a => f a scene.pruned) = (q' scene >>= fun a => f' a scene)
  have hrun : q scene.pruned = q' scene := hq
  rw [hrun]
  exact congrArg (q' scene >>= ·) (funext hf)

/-- Looking at the scene itself. -/
theorem Agree.read {f f' : Scene → Query σ β} (h : Agree scene (f scene.pruned) (f' scene)) :
    Agree scene (read >>= f) (read >>= f') := h

/-- Looking up a block. -/
theorem Agree.require {f f' : Block → Query σ β} {id : BlockId}
    (h : ∀ b, scene.registry.get? id = some b →
      Agree scene (f (b.pruned scene.registry.contains)) (f' b)) :
    Agree scene (ofExcept (scene.pruned.registry.require id) >>= f)
      (ofExcept (scene.registry.require id) >>= f') := by
  rw [Registry.require, Scene.pruned, Registry.get?_pruned, Registry.require]
  cases hb : scene.registry.get? id with
  | none => rfl
  | some b => exact h b hb

theorem agree_mapM {q : α → Query σ β} (h : ∀ a, Overlooks (q a)) (xs : List α) :
    Agree scene (xs.mapM q) (xs.mapM q) := by
  induction xs with
  | nil => exact agree_pure
  | cons x xs ih =>
    rw [List.mapM_cons]
    exact .bind (h x scene) fun _ => .bind ih fun _ => agree_pure

end Query

open Query (Agree Overlooks agree_pure agree_ofExcept agree_get agree_modify agree_mapM)

/-! ## The estimated layout -/

namespace EstimatedLayout

variable {scene : Scene} {id : BlockId} {β : Type}

theorem agree_block {f f' : Block → Ask β} (h : ∀ b, scene.registry.get? id = some b →
      Agree scene (f (b.pruned scene.registry.contains)) (f' b)) :
    Agree scene (block id >>= f) (block id >>= f') := Query.Agree.require h

theorem overlooks_bodyHeightBy {size : BlockId → Ask Extent} (h : ∀ x, Overlooks (size x))
    (id : BlockId) : Overlooks (bodyHeightBy size id) := by
  intro scene
  refine .bind agree_get fun l => ?_
  cases l.bodyHeights.lookup id with
  | some height => exact agree_pure
  | none =>
    refine agree_block fun b _ => .read ?_
    rw [Scene.pruned, Registry.nested_filter_pruned]
    exact .bind (agree_mapM h _) fun _ => .bind agree_modify fun _ => agree_pure

theorem overlooks_sizeBy {body : BlockId → Ask Nat} (h : ∀ x, Overlooks (body x)) (id : BlockId) :
    Overlooks (sizeBy body id) := by
  intro scene
  refine .bind agree_get fun l => ?_
  cases l.sizes.lookup id with
  | some e => exact agree_pure
  | none =>
    refine agree_block fun b _ => ?_
    have hend (height : Nat) : Agree scene
        (do rememberSize id ⟨labelWidth b.label, height⟩
            return (⟨labelWidth b.label, height⟩ : Extent))
        (do rememberSize id ⟨labelWidth b.label, height⟩
            return (⟨labelWidth b.label, height⟩ : Extent)) :=
      .bind agree_modify fun _ => agree_pure
    dsimp only
    rw [Block.kind_pruned]
    split
    · exact .bind (h id scene) fun _ => .bind agree_pure hend
    · exact .bind agree_pure hend

theorem overlooks_sizeWithin (n : Nat) (id : BlockId) : Overlooks (sizeWithin n id) := by
  induction n generalizing id with
  | zero => exact overlooks_sizeBy (fun _ _ => agree_ofExcept) id
  | succ n ih => exact overlooks_sizeBy (overlooks_bodyHeightBy ih) id

/-- Walks through bodies have as many steps. -/
theorem size_registry_pruned (scene : Scene) :
    scene.pruned.registry.size = scene.registry.size := Registry.size_pruned _

theorem overlooks_size (id : BlockId) : Overlooks (size id) := by
  intro scene
  refine .read ?_
  rw [size_registry_pruned]
  exact overlooks_sizeWithin _ id scene

theorem overlooks_bodyHeight (id : BlockId) : Overlooks (bodyHeight id) := by
  intro scene
  refine .read ?_
  rw [size_registry_pruned]
  exact overlooks_bodyHeightBy (overlooks_sizeWithin _) id scene

theorem overlooks_slotOffset (id : BlockId) (name : String) : Overlooks (slotOffset id name) := by
  intro scene
  refine .read ?_
  rw [Scene.pruned, Registry.get?_pruned]
  cases scene.registry.get? id with
  | none => exact agree_pure
  | some b =>
    dsimp only [Option.map_some]
    rw [Block.slot?_pruned, Option.isNone_map, Block.kind_pruned]
    split
    · exact agree_pure
    · split
      · exact .bind agree_pure fun _ => agree_pure
      · exact .bind (overlooks_size id scene) fun _ => .bind agree_pure fun _ => agree_pure

/-- What is stacked above a live block is as high without the siblings that are not live. -/
theorem agree_heightAbove {child : BlockId} (hc : scene.registry.contains child = true)
    (siblings : List BlockId) :
    Agree scene (heightAbove child (siblings.filter scene.registry.contains))
      (heightAbove child siblings) := by
  induction siblings with
  | nil => exact agree_pure
  | cons sibling siblings ih =>
    by_cases hs : scene.registry.contains sibling = true
    · rw [List.filter_cons_of_pos hs, heightAbove, heightAbove]
      split
      · exact agree_pure
      · refine .read ?_
        rw [Scene.pruned, Registry.contains_pruned, if_pos hs, if_pos hs]
        exact .bind (overlooks_size sibling scene) fun _ =>
          .bind agree_pure fun _ => .bind ih fun _ => agree_pure
    · -- it is not the block, which is live, so the sum goes on and it adds nothing
      have hne : sibling ≠ child := fun h => hs (h ▸ hc)
      have hskip :
          heightAbove child (sibling :: siblings) scene = heightAbove child siblings scene := by
        rw [heightAbove, if_neg hne]
        change (if scene.registry.contains sibling = true then _ else _ : Ask Nat) scene = _
        rw [if_neg hs, pure_bind]
        simp only [Nat.zero_add]
        exact congrFun (bind_pure _) scene
      rw [List.filter_cons_of_neg hs]
      exact ih.trans hskip.symm

theorem overlooks_originWithin (n : Nat) (seen : List BlockId) (id : BlockId) :
    Overlooks (originWithin n seen id) := by
  intro scene
  induction n generalizing seen id with
  | zero => exact agree_block fun b _ => agree_pure
  | succ n ih =>
    -- that the block was found is what makes it live among its siblings
    refine agree_block fun b hb => ?_
    have hparent : (b.pruned scene.registry.contains).parent = b.parent := rfl
    dsimp only
    split
    · exact agree_pure
    · refine .read ?_
      rw [hparent]
      cases b.parent with
      | none => exact agree_pure
      | container p =>
        dsimp only
        rw [Scene.pruned, Registry.get?_pruned]
        cases scene.registry.get? p with
        | none => exact agree_pure
        | some holder =>
          exact .bind (ih ..) fun _ =>
            .bind (agree_heightAbove (Registry.contains_of_get? hb) _) fun _ => agree_pure
      | input p name =>
        dsimp only
        rw [Scene.pruned, Registry.get?_pruned]
        cases scene.registry.get? p with
        | none => exact agree_pure
        | some holder =>
          exact .bind (ih ..) fun _ => .bind (overlooks_slotOffset p name scene) fun _ => agree_pure

theorem overlooks_origin (id : BlockId) : Overlooks (origin id) := by
  intro scene
  refine .read ?_
  rw [size_registry_pruned]
  exact overlooks_originWithin _ [] id scene

theorem overlooks_boundingBox (id : BlockId) : Overlooks (boundingBox id) := fun scene =>
  .bind (overlooks_origin id scene) fun _ => .bind (overlooks_size id scene) fun _ => agree_pure

theorem overlooks_slotRect (id : BlockId) (name : String) : Overlooks (slotRect id name) := by
  intro scene
  refine .bind (overlooks_slotOffset id name scene) fun d => ?_
  cases d with
  | none => exact agree_pure
  | some d => exact .bind (overlooks_origin id scene) fun _ => agree_pure

theorem overlooks_bodyRect (id : BlockId) : Overlooks (bodyRect id) := by
  intro scene
  refine .read ?_
  rw [Scene.pruned, Registry.get?_pruned]
  cases scene.registry.get? id with
  | none => exact agree_pure
  | some b =>
    dsimp only [Option.map_some]
    rw [Block.kind_pruned]
    split
    · exact agree_pure
    · refine .bind (overlooks_origin id scene) fun _ => .bind (overlooks_size id scene) fun _ => ?_
      exact .bind (overlooks_bodyHeight id scene) fun _ => agree_pure

end EstimatedLayout

/-! ## Drops -/

/-- A geometry does not depend on references to blocks that are not live. -/
structure Geometry.Overlooking (σ : Type) [Geometry σ] : Prop where
  boundingBox : ∀ id, Overlooks (Survey.boundingBox id : Query σ Rect)
  screenPoint : ∀ p, Overlooks (Survey.screenPoint p : Query σ Point)
  workspacePoint : ∀ p, Overlooks (Survey.workspacePoint p : Query σ Point)
  slotRect : ∀ id name, Overlooks (Survey.slotRect id name : Query σ (Option Rect))
  bodyRect : ∀ id, Overlooks (Survey.bodyRect id : Query σ (Option Rect))

theorem EstimatedLayout.overlooking : Geometry.Overlooking EstimatedLayout where
  boundingBox := overlooks_boundingBox
  screenPoint _ _ := rfl
  workspacePoint _ _ := rfl
  slotRect := overlooks_slotRect
  bodyRect := overlooks_bodyRect

theorem RectTable.overlooks_ask {σ : Type} (t : RectTable) (name : String) :
    Overlooks (t.ask name : Query σ (Option Rect)) := by
  intro scene
  rw [ask]
  cases List.lookup name t <;> rfl

/-- Tables say the same of any blocks. -/
theorem FixedGeometry.overlooking : Geometry.Overlooking FixedGeometry where
  boundingBox id scene :=
    .bind agree_get fun g => .bind (g.boxes.overlooks_ask id scene) fun _ => agree_pure
  screenPoint _ _ := rfl
  workspacePoint _ _ := rfl
  slotRect _ _ scene := .bind agree_get fun g => g.slots.overlooks_ask _ scene
  bodyRect id scene := .bind agree_get fun g => g.bodies.overlooks_ask id scene

namespace Target

variable {σ α : Type} {scene : Scene}

theorem overlooks_firstHit {hit : α → Query σ Bool} (h : ∀ a, Overlooks (hit a)) (items : List α) :
    Overlooks (firstHit hit items) := by
  intro scene
  induction items with
  | nil => exact agree_pure
  | cons a items ih =>
    refine .bind (h a scene) fun here => ?_
    cases here with
    | true => exact agree_pure
    | false => exact ih

theorem overlooks_hits {hit : α → Query σ Bool} (h : ∀ a, Overlooks (hit a)) (items : List α) :
    Overlooks (hits hit items) := by
  intro scene
  induction items with
  | nil => exact agree_pure
  | cons a items ih => exact .bind (h a scene) fun _ => .bind ih fun _ => agree_pure

/-- The candidates of a kind are the same blocks. -/
theorem map_filter_entries_pruned (r : Registry) (p : BlockId → Block → Bool)
    (hp : ∀ id b, p id (b.pruned r.contains) = p id b) :
    (r.pruned.entries.filter fun e => p e.1 e.2).map Prod.fst =
      (r.entries.filter fun e => p e.1 e.2).map Prod.fst := by
  rw [Registry.entries_pruned, List.filter_map, List.map_map]
  simp only [Function.comp_def, hp]

/-- An input with a dead block over it is as open as an empty one. -/
theorem openSlots_pruned (r : Registry) (excluded : List BlockId) :
    openSlots r.pruned excluded = openSlots r excluded := by
  rw [openSlots, openSlots, Registry.entries_pruned, List.filter_map, List.flatMap_map]
  simp only [Function.comp_def, Block.slots_pruned, List.filter_map, List.map_map,
    Registry.contains_pruned, Slot.any_pruned]

theorem openBodies_pruned (r : Registry) (excluded : List BlockId) :
    openBodies r.pruned excluded = openBodies r excluded :=
  map_filter_entries_pruned r (fun id b => !excluded.contains id && b.kind.hasBody) fun _ _ => rfl

theorem uppers_pruned (r : Registry) (excluded : List BlockId) :
    uppers r.pruned excluded = uppers r excluded :=
  map_filter_entries_pruned r (fun id b => !excluded.contains id && b.kind.stackable) fun _ _ => rfl

variable [Geometry σ] (hg : Geometry.Overlooking σ)
include hg

theorem overlooks_screenRect (rect : Rect) :
    Overlooks (Survey.screenRect rect : Query σ Rect) := fun scene =>
  .bind (hg.screenPoint _ scene) fun _ => .bind (hg.screenPoint _ scene) fun _ => agree_pure

theorem overlooks_underPointer (pointer : Point) (margin : Float) (rect : Option Rect) :
    Overlooks (underPointer pointer margin rect : Query σ Bool) := by
  intro scene
  cases rect with
  | none => exact agree_pure
  | some rect => exact .bind (overlooks_screenRect hg rect scene) fun _ => agree_pure

theorem overlooks_inputAt? (pointer : Point) (excluded : List BlockId) :
    Overlooks (inputAt? pointer excluded : Query σ _) := by
  intro scene
  refine .read ?_
  rw [Scene.pruned, openSlots_pruned]
  refine overlooks_firstHit (fun s scene => ?_) _ scene
  refine .bind (hg.slotRect _ _ scene) fun rect => ?_
  cases rect with
  | none => exact agree_pure
  | some rect => exact .bind (overlooks_screenRect hg rect scene) fun _ => agree_pure

theorem overlooks_bodyAt? (pointer : Point) (excluded : List BlockId) :
    Overlooks (bodyAt? pointer excluded : Query σ _) := by
  intro scene
  refine .read ?_
  have hdepth : scene.registry.pruned.depth = scene.registry.depth :=
    funext scene.registry.depth_pruned
  dsimp only
  rw [Scene.pruned, openBodies_pruned, hdepth]
  refine .bind (overlooks_hits (fun id scene => ?_) _ scene) fun _ => agree_pure
  exact .bind (hg.bodyRect id scene) fun rect => overlooks_underPointer hg _ _ rect scene

theorem overlooks_upperAt? (release : Point) (ids : List BlockId) :
    Overlooks (upperAt? release ids : Query σ _) := by
  intro scene
  induction ids with
  | nil => exact agree_pure
  | cons id ids ih =>
    refine .bind (hg.boundingBox id scene) fun box => ?_
    split
    · exact agree_pure
    · exact ih

/-- The bodies come first, and then the positions. -/
theorem overlooks_below_inputs (excluded ids : List BlockId) (pointer release : Point) :
    Overlooks (do
      match ← bodyAt? pointer excluded with
      | some container => return .body container
      | none =>
          match ← upperAt? release ids with
          | some (id, box) => return .below id ⟨box.x, box.bottom + belowGap⟩
          | none => return .nowhere : Query σ Target) := by
  intro scene
  refine .bind (overlooks_bodyAt? hg pointer _ scene) fun container => ?_
  cases container with
  | some container => exact agree_pure
  | none =>
    refine .bind (overlooks_upperAt? hg release _ scene) fun upper => ?_
    cases upper with
    | some u => exact agree_pure
    | none => exact agree_pure

/-- A block that fits inputs tries these before anything else. -/
theorem overlooks_land (fits : Bool) (excluded ids : List BlockId) (pointer release : Point) :
    Overlooks (do
      let slot ← if fits then inputAt? pointer excluded else pure none
      match slot with
      | some (parent, name) => return .input parent name
      | none =>
          match ← bodyAt? pointer excluded with
          | some container => return .body container
          | none =>
              match ← upperAt? release ids with
              | some (id, box) => return .below id ⟨box.x, box.bottom + belowGap⟩
              | none => return .nowhere : Query σ Target) := by
  intro scene
  have hbelow := overlooks_below_inputs hg excluded ids pointer release scene
  cases fits with
  | true =>
    refine .bind (overlooks_inputAt? hg pointer excluded scene) fun slot => ?_
    cases slot with
    | some s => exact agree_pure
    | none => exact hbelow
  | false => exact hbelow

theorem overlooks_resolve (dragged : BlockId) (pointer : Point) (release : Option Point) :
    Overlooks (resolve dragged pointer release : Query σ Target) := by
  intro scene
  refine .read (Query.Agree.require fun b _ => ?_)
  have hdescendants : scene.pruned.registry.descendants dragged =
      scene.registry.descendants dragged := Registry.descendants_pruned ..
  have huppers (excluded : List BlockId) :
      uppers scene.pruned.registry excluded = uppers scene.registry excluded := uppers_pruned ..
  dsimp only
  rw [hdescendants, huppers]
  cases release with
  | some p => exact .bind agree_pure fun p => overlooks_land hg _ _ _ pointer p scene
  | none =>
    exact .bind (hg.workspacePoint pointer scene) fun p => overlooks_land hg _ _ _ pointer p scene

end Target

/-! ## What there is to see -/

/-- No walk, no generator, no layout, no drop and no reader of records can tell two registries
apart. -/
structure Registry.Indistinguishable (r s : Registry) : Prop where
  /-- The same code is generated for a language, or generating it has the same fault. -/
  generate : ∀ g language, Code.generate g r language = Code.generate g s language
  ancestors : ∀ id, r.ancestors id = s.ancestors id
  descendants : ∀ id, r.descendants id = s.descendants id
  depth : ∀ id, r.depth id = s.depth id
  /-- Whatever the estimated layout remembers, it finds the same size and then remembers the
  same. -/
  size : ∀ id v l, EstimatedLayout.size id ⟨r, v⟩ l = EstimatedLayout.size id ⟨s, v⟩ l
  bodyHeight : ∀ id v l,
    EstimatedLayout.bodyHeight id ⟨r, v⟩ l = EstimatedLayout.bodyHeight id ⟨s, v⟩ l
  boundingBox : ∀ id v l,
    EstimatedLayout.boundingBox id ⟨r, v⟩ l = EstimatedLayout.boundingBox id ⟨s, v⟩ l
  /-- A block lands in the same place, by the estimated layout. -/
  resolve : ∀ dragged pointer release v (l : EstimatedLayout),
    Target.resolve dragged pointer release ⟨r, v⟩ l =
      Target.resolve dragged pointer release ⟨s, v⟩ l
  /-- A block lands in the same place, by tables. -/
  resolveFixed : ∀ dragged pointer release v (g : FixedGeometry),
    Target.resolve dragged pointer release ⟨r, v⟩ g =
      Target.resolve dragged pointer release ⟨s, v⟩ g
  /-- The same is read from a snapshot, or reading it has the same fault. -/
  read : ∀ naming p,
    Bundle.read (Bundle.snapshot naming p r) = Bundle.read (Bundle.snapshot naming p s)

/-- References to blocks that are not live are invisible. -/
theorem Registry.pruned_indistinguishable (r : Registry) : r.pruned.Indistinguishable r where
  generate g language := Code.generate_pruned g r language
  ancestors := r.ancestors_pruned
  descendants := r.descendants_pruned
  depth := r.depth_pruned
  size id v l := congrFun (EstimatedLayout.overlooks_size id ⟨r, v⟩) l
  bodyHeight id v l := congrFun (EstimatedLayout.overlooks_bodyHeight id ⟨r, v⟩) l
  boundingBox id v l := congrFun (EstimatedLayout.overlooks_boundingBox id ⟨r, v⟩) l
  resolve dragged pointer release v l := congrFun
    (Target.overlooks_resolve EstimatedLayout.overlooking dragged pointer release ⟨r, v⟩) l
  resolveFixed dragged pointer release v g := congrFun
    (Target.overlooks_resolve FixedGeometry.overlooking dragged pointer release ⟨r, v⟩) g
  read naming p := Bundle.read_snapshot_pruned naming p r

end Blockwork
