import Blockwork.Proofs.Bundle.RecordsRead
import Blockwork.Proofs.Code.Dependence

/-!
# References to blocks that are not there

A body or an input may name a block that is not live.  Pruning takes all such names out, and
leaves parents, literal texts and everything else.  Nobody can tell the difference.

Here this is shown of the walks, of generated code, and of what is read back from the records
of a registry.  A walk upward looks at parents only.  A walk downward and the generator pass
over names that are not live.  Recording writes such names down, and reading passes over them
after the blocks of all records have been made.  None of this asks for a forest.
-/

namespace Blockwork

/-- The input without the block over it, unless that is live. -/
def Slot.pruned (live : BlockId → Bool) (s : Slot) : Slot := { s with child := s.child.filter live }

/-- The block without the ids of children that are not live. -/
def Block.pruned (live : BlockId → Bool) (b : Block) : Block :=
  { b with
    slots := Table.mapValues b.slots (Slot.pruned live)
    nested := b.nested.filter live }

/-- The registry without references to children that are not live. -/
def Registry.pruned (r : Registry) : Registry := r.mapBlocks (Block.pruned r.contains)

@[simp] theorem Block.kind_pruned (live : BlockId → Bool) (b : Block) :
    (b.pruned live).kind = b.kind := rfl

theorem Block.slots_pruned (live : BlockId → Bool) (b : Block) :
    (b.pruned live).slots = b.slots.map fun s => (s.1, s.2.pruned live) := rfl

@[simp] theorem Block.slot?_pruned (live : BlockId → Bool) (b : Block) (name : String) :
    (b.pruned live).slot? name = (b.slot? name).map (Slot.pruned live) :=
  Table.lookup_mapValues ..

theorem Slot.any_pruned (live : BlockId → Bool) (s : Slot) :
    (s.pruned live).child.any live = s.child.any live := by
  obtain ⟨literal, child⟩ := s
  cases child with
  | none => rfl
  | some x => cases hx : live x <;> simp [pruned, Option.filter, hx]

theorem Block.children_pruned (live : BlockId → Bool) (b : Block) :
    (b.pruned live).children = b.children.filter live := by
  have hslots : ∀ slots : List (String × Slot),
      (Table.mapValues slots (Slot.pruned live)).filterMap (fun s => s.2.child) =
        (slots.filterMap fun s => s.2.child).filter live := by
    intro slots
    rw [Table.mapValues, List.filterMap_map, List.filter_filterMap]
    rfl
  rw [children, children, List.filter_append, inputChildren, inputChildren, List.filter_filter]
  refine congrArg₂ _ rfl ?_
  rw [pruned, hslots, List.filter_filter]
  exact List.filter_congr fun x _ => Bool.and_comm ..

namespace Registry

variable {r s : Registry} {id x : BlockId}

@[simp] theorem get?_pruned (r : Registry) (x : BlockId) :
    r.pruned.get? x = (r.get? x).map (Block.pruned r.contains) :=
  get?_mapBlocks ..

theorem entries_pruned (r : Registry) :
    r.pruned.entries = r.entries.map fun e => (e.1, e.2.pruned r.contains) := rfl

/-- The same blocks are live. -/
@[simp] theorem contains_pruned (r : Registry) : r.pruned.contains = r.contains :=
  funext fun _ => contains_mapBlocks ..

/-- The live blocks of a body are still in it. -/
theorem nested_filter_pruned (r : Registry) (b : Block) :
    (b.pruned r.contains).nested.filter r.pruned.contains = b.nested.filter r.contains := by
  rw [contains_pruned, Block.pruned, List.filter_filter]
  simp

@[simp] theorem size_pruned (r : Registry) : r.pruned.size = r.size := List.length_map _

/-! ## Walks -/

theorem parentId?_pruned (r : Registry) (x : BlockId) : r.pruned.parentId? x = r.parentId? x := by
  rw [parentId?, get?_pruned, Option.bind_map, parentId?]
  rfl

theorem climb_congr (hp : ∀ x, s.parentId? x = r.parentId? x)
    (hc : ∀ x, s.contains x = r.contains x) (n : Nat) (seen : List BlockId) (id : BlockId) :
    s.climb n seen id = r.climb n seen id := by
  induction n generalizing seen id with
  | zero => rfl
  | succ n ih => simp only [climb, hp, hc, ih]

@[simp] theorem ancestors_pruned (r : Registry) (id : BlockId) :
    r.pruned.ancestors id = r.ancestors id := by
  rw [ancestors, ancestors, size_pruned,
    climb_congr r.parentId?_pruned (congrFun r.contains_pruned)]

@[simp] theorem depth_pruned (r : Registry) (id : BlockId) : r.pruned.depth id = r.depth id := by
  rw [depth, ancestors_pruned, depth]

theorem childrenOf_pruned (r : Registry) (id : BlockId) :
    r.pruned.childrenOf id = (r.childrenOf id).filter r.contains := by
  rw [childrenOf, childrenOf, get?_pruned]
  cases r.get? id with
  | none => rfl
  | some b => exact Block.children_pruned ..

/-- A child that is not live is not noted. -/
theorem foldl_noteChild_filter (r : Registry) (start : BlockId) (children : List BlockId)
    (st : List BlockId × List BlockId) :
    (children.filter r.contains).foldl (r.noteChild start) st =
      children.foldl (r.noteChild start) st := by
  induction children generalizing st with
  | nil => rfl
  | cons c children ih =>
    rw [List.filter_cons, List.foldl_cons]
    split
    · rw [List.foldl_cons, ih]
    · next hdead =>
      have hskip : r.noteChild start st c = st := by
        rw [noteChild, if_pos (by simp [hdead])]
      rw [hskip, ih]

theorem spread_pruned (r : Registry) (start : BlockId) (n : Nat) (stack found : List BlockId) :
    r.pruned.spread start n stack found = r.spread start n stack found := by
  have hnote : r.pruned.noteChild start = r.noteChild start := by
    funext st c
    rw [noteChild, contains_pruned, noteChild]
  induction n generalizing stack found with
  | zero => rfl
  | succ n ih =>
    cases stack with
    | nil => rfl
    | cons id stack =>
      rw [spread, spread, hnote, childrenOf_pruned, ← List.filter_reverse, foldl_noteChild_filter,
        ih]

@[simp] theorem descendants_pruned (r : Registry) (id : BlockId) :
    r.pruned.descendants id = r.descendants id := by
  rw [descendants, descendants, size_pruned, spread_pruned]

end Registry

/-! ## Code -/

namespace Code

variable {g : Generator} {r : Registry} {name : Json}

/-- An input with nothing live over it is filled with its literal text. -/
theorem fillInputs_pruned (code : BlockId → GenM String) (slots : List (String × Slot))
    (text : Json) :
    fillInputs r.pruned code text (Table.mapValues slots (Slot.pruned r.contains)) =
      fillInputs r code text slots := by
  induction slots generalizing text with
  | nil => rfl
  | cons e slots ih =>
    obtain ⟨name, literal, child⟩ := e
    rw [Table.mapValues, List.map_cons, fillInputs, fillInputs]
    have hrest (text : Json) :
        fillInputs r.pruned code text (slots.map fun e => (e.1, e.2.pruned r.contains)) =
          fillInputs r code text slots := ih text
    simp only [hrest]
    cases child with
    | none => rfl
    | some c => cases hc : r.contains c <;> simp [Slot.pruned, Option.filter, hc]

theorem blockCodeBy_pruned (code : String → BlockId → GenM String) (indent : String) (b : Block) :
    blockCodeBy g r.pruned name code indent (b.pruned r.contains) =
      blockCodeBy g r name code indent b := by
  have hselect : selectTemplate g (b.pruned r.contains) name = selectTemplate g b name := rfl
  have hfill (text : Json) (inner childIndent : String) :
      fillBody (b.pruned r.contains) text inner childIndent =
        fillBody b text inner childIndent := rfl
  have hlive : (b.pruned r.contains).nested.filter r.pruned.contains =
      b.nested.filter r.contains := r.nested_filter_pruned b
  have hinputs (indent : String) (text : Json) :
      fillInputs r.pruned (code indent) text (b.pruned r.contains).slots =
        fillInputs r (code indent) text b.slots := fillInputs_pruned ..
  simp only [blockCodeBy, hselect, hfill, hlive, hinputs]

theorem blockCodeWithin_pruned (n : Nat) (indent : String) (id : BlockId) :
    blockCodeWithin g r.pruned name n indent id = blockCodeWithin g r name n indent id := by
  induction n generalizing indent id with
  | zero =>
    rw [blockCodeWithin, blockCodeWithin, Registry.get?_pruned]
    cases r.get? id <;> rfl
  | succ n ih =>
    have hcode : blockCodeWithin g r.pruned name n = blockCodeWithin g r name n :=
      funext fun indent => funext fun id => ih indent id
    rw [blockCodeWithin, blockCodeWithin, Registry.get?_pruned]
    cases r.get? id with
    | none => rfl
    | some b =>
      simp only [Option.map_some, hcode]
      exact blockCodeBy_pruned ..

theorem generate_pruned (g : Generator) (r : Registry) (language : Json) :
    generate g r.pruned language = generate g r language := by
  have hroots : r.pruned.roots = r.roots := r.roots_mapBlocks fun _ => rfl
  have hcode (name : Json) : blockCode g r.pruned name "" = blockCode g r name "" := by
    funext id
    rw [blockCode, blockCode, Registry.size_pruned, blockCodeWithin_pruned]
  rw [generate, generate, hroots]
  simp only [hcode]

end Code

/-! ## Records -/

namespace Bundle

variable {naming : Templates.Naming} {r made : Registry} {live : BlockId → Bool} {id : BlockId}
variable {b : Block} {index : Nat}

/-- Making a block looks at the inputs of a record only for their literal texts, and at the
body only for whether it is a list. -/
theorem makeBlock_congr {members members' inputs inputs' : Members}
    (hsame : ∀ name, name ≠ "inputs" → name ≠ "nestedChildIds" →
      Json.member members' name = Json.member members name)
    (hi : Json.member members "inputs" = .obj inputs)
    (hi' : Json.member members' "inputs" = .obj inputs')
    (hset : ∀ c, setLiterals c inputs' = setLiterals c inputs)
    (hvalues : ∀ c, literalValues c inputs' = literalValues c inputs)
    (hn : (nestedOf (Json.member members "nestedChildIds")).isSome)
    (hn' : (nestedOf (Json.member members' "nestedChildIds")).isSome) :
    makeBlock r index (.obj members') = makeBlock r index (.obj members) := by
  have hid : recordId members' = recordId members := by
    rw [recordId, hsame "id" (by decide) (by decide), recordId]
  have hkind : recordKind index members' = recordKind index members := by
    rw [recordKind, hsame "kind" (by decide) (by decide), hsame "type" (by decide) (by decide),
      recordKind]
  have hcolor : recordColor members' = recordColor members := by
    rw [recordColor, hsame "color" (by decide) (by decide), recordColor]
  rw [makeBlock, makeBlock, recordMembers, recordMembers, hsame "id" (by decide) (by decide),
    hsame "label" (by decide) (by decide)]
  split
  · have hok (m : Members) (f : Members → Except Fault Registry) : Except.ok m >>= f = f m := rfl
    simp only [hok, hid, hkind, hcolor, hi, hi', hset, hvalues, membersOr_obj,
      Option.isNone_eq_false_iff.2 hn, Option.isNone_eq_false_iff.2 hn',
      hsame "templates" (by decide) (by decide), hsame "x" (by decide) (by decide),
      hsame "y" (by decide) (by decide), hsame "id" (by decide) (by decide),
      hsame "label" (by decide) (by decide), hsame "containerVar" (by decide) (by decide)]
  · rfl

/-- What is recorded of inputs sets the same literal texts. -/
theorem setLiterals_pruned (c b : Block) (live : BlockId → Bool) :
    setLiterals c (Table.mapValues (b.pruned live).slots slotRecord) =
      setLiterals c (Table.mapValues b.slots slotRecord) := by
  rw [Block.slots_pruned, Table.mapValues, Table.mapValues, List.map_map, setLiterals, setLiterals,
    List.foldl_map, List.foldl_map]
  simp only [Function.comp_apply, literalOf?_slotRecord]
  rfl

theorem literalValues_pruned (c b : Block) (live : BlockId → Bool) :
    literalValues c (Table.mapValues (b.pruned live).slots slotRecord) =
      literalValues c (Table.mapValues b.slots slotRecord) := by
  rw [Block.slots_pruned, Table.mapValues, Table.mapValues, List.map_map, literalValues,
    literalValues, List.filterMap_map, List.filterMap_map]
  rfl

/-- The inputs and the body come last in a record. -/
theorem member_recordFields {name : String} (hi : name ≠ "inputs") (hn : name ≠ "nestedChildIds") :
    Json.member (recordFields naming id b) name =
      (((recordFields naming id b).take 10).lookup name).getD .null := by
  have hfields : recordFields naming id b = (recordFields naming id b).take 10 ++
      [("inputs", .obj (Table.mapValues b.slots slotRecord)),
        ("nestedChildIds", .arr (b.nested.map .str))] := rfl
  rw [Json.member, Json.member?, hfields, List.lookup_append, Table.lookup_cons_of_ne hi,
    Table.lookup_cons_of_ne hn, List.lookup_nil, Option.or_none]
  rfl

theorem makeBlock_pruned (r : Registry) (index : Nat) (naming : Templates.Naming) (id : BlockId)
    (b : Block) (live : BlockId → Bool) :
    makeBlock r index (record naming id (b.pruned live)) =
      makeBlock r index (record naming id b) := by
  have hnested (children : List BlockId) : (nestedOf (.arr (children.map .str))).isSome := by
    cases children <;> rfl
  have hsame (name : String) (hi : name ≠ "inputs") (hn : name ≠ "nestedChildIds") :
      Json.member (recordFields naming id (b.pruned live)) name =
        Json.member (recordFields naming id b) name := by
    rw [member_recordFields hi hn, member_recordFields hi hn]
    rfl
  exact makeBlock_congr hsame rfl rfl (setLiterals_pruned · b live) (literalValues_pruned · b live)
    (hnested _) (hnested _)

/-- The reference in the entry that is recorded for an input. -/
theorem inputReference?_slotRecord (id : BlockId) (name : String) (s : Slot) :
    inputReference? id (name, slotRecord s) = s.child.map (⟨·, id, some name⟩) := by
  obtain ⟨literal, child⟩ := s
  cases child <;> rfl

theorem references_pruned (naming : Templates.Naming) (id : BlockId) (b : Block)
    (live : BlockId → Bool) :
    references (recordFields naming id (b.pruned live)) =
      (references (recordFields naming id b)).filter fun e => live e.child := by
  have hid (c : Block) : recordId (recordFields naming id c) = id := rfl
  have hinputs (c : Block) :
      (recordedInputs (recordFields naming id c)).filterMap (inputReference? id) =
        c.slots.filterMap fun s => s.2.child.map (⟨·, id, some s.1⟩) := by
    have hentries : recordedInputs (recordFields naming id c) =
        c.slots.map fun s => (s.1, slotRecord s.2) := rfl
    rw [hentries, List.filterMap_map]
    exact congrArg (c.slots.filterMap ·) (funext fun s => inputReference?_slotRecord ..)
  rw [references_eq, references_eq, recordedBody_fields, recordedBody_fields, hid, hid, hinputs,
    hinputs, List.filter_append, List.filter_map, List.filter_filterMap]
  refine congrArg₂ _ rfl ?_
  rw [Block.slots_pruned, List.filterMap_map]
  refine congrArg (b.slots.filterMap ·) (funext fun s => ?_)
  obtain ⟨name, literal, child⟩ := s
  cases child with
  | none => rfl
  | some x => cases hx : live x <;> simp [Slot.pruned, Option.filter, hx]

theorem allReferences_pruned (naming : Templates.Naming) (r : Registry) :
    allReferences (records naming r.pruned) =
      (allReferences (records naming r)).filter fun e => r.contains e.child := by
  have hrefs (s : Registry) : allReferences (records naming s) =
      s.entries.flatMap fun e => references (recordFields naming e.1 e.2) := by
    rw [allReferences, records, List.flatMap_map]
    rfl
  rw [hrefs, hrefs, List.filter_flatMap, Registry.entries_pruned, List.flatMap_map]
  exact congrArg (r.entries.flatMap ·) (funext fun e => references_pruned ..)

/-- References to blocks that are not there are passed over, all along a run. -/
theorem run_filter_live {refs : List Reference} (hlive : ∀ x, r.contains x = live x) :
    (refs.filter fun e => live e.child).foldlM relink r = refs.foldlM relink r := by
  induction refs generalizing r with
  | nil => rfl
  | cons e refs ih =>
    rw [List.filter_cons, List.foldlM_cons]
    split
    · rw [List.foldlM_cons]
      cases he : relink r e with
      | error f => rfl
      | ok s =>
        -- linking makes no block and takes none away
        refine ih fun x => ?_
        rw [← hlive, Bool.eq_iff_iff, ← Registry.mem_ids_iff, ids_relink he, Registry.mem_ids_iff]
    · next hdead =>
      have hskip : relink r e = .ok r := by
        rw [relink, if_neg]
        rw [hlive]
        exact hdead
      rw [hskip, ih hlive]
      rfl

theorem makeBlocks_pruned (naming : Templates.Naming) (live : BlockId → Bool) (r : Registry)
    (index : Nat) (entries : List (BlockId × Block)) :
    makeBlocks r index (entries.map fun e => record naming e.1 (e.2.pruned live)) =
      makeBlocks r index (entries.map fun e => record naming e.1 e.2) := by
  induction entries generalizing r index with
  | nil => rfl
  | cons e entries ih => simp only [List.map_cons, makeBlocks, makeBlock_pruned, ih]

/-- The first round of reading makes blocks of the ids that were recorded. -/
theorem ids_makeBlocks_records (hm : makeBlocks .empty 0 (records naming r) = .ok made) :
    made.ids = r.ids := by
  have hrecords : records naming r =
      (r.entries.map fun e => recordFields naming e.1 e.2).map .obj := by
    rw [List.map_map]
    rfl
  obtain ⟨-, items, hitems, hids⟩ := makeBlocks_ok hm Registry.loose_empty
  have hobj : Function.Injective Json.obj := fun _ _ => Json.obj.inj
  rw [hids, ← List.map_injective_iff.2 hobj (hrecords.symm.trans hitems), List.map_map]
  rfl

/-- From the records of a registry and from those of the pruned one the same is read, or
reading has the same fault. -/
theorem registryOf_pruned (naming : Templates.Naming) (r : Registry) :
    registryOf (.arr (records naming r.pruned)) = registryOf (.arr (records naming r)) := by
  have hrecords : records naming r.pruned =
      r.entries.map fun e => record naming e.1 (e.2.pruned r.contains) := List.map_map ..
  have hmake : makeBlocks .empty 0 (records naming r.pruned) =
      makeBlocks .empty 0 (records naming r) := by
    rw [hrecords, makeBlocks_pruned, records]
  rw [registryOf_records_eq, registryOf_records_eq, hmake, allReferences_pruned]
  cases hm : makeBlocks .empty 0 (records naming r) with
  | error f => rfl
  | ok made =>
    refine run_filter_live fun x => ?_
    rw [Bool.eq_iff_iff, ← Registry.mem_ids_iff, ids_makeBlocks_records hm, Registry.mem_ids_iff]

theorem read_snapshot_pruned (naming : Templates.Naming) (p : Palette) (r : Registry) :
    read (snapshot naming p r.pruned) = read (snapshot naming p r) := by
  have hread (s : Registry) : read (snapshot naming p s) = (do
      let definitions ← part [("definitions", p.toJson naming)] "definitions" definitionsOf
      let registry ← (registryOf (.arr (records naming s))).map some
      let contents : Contents := { definitions, registry, code := none }
      if contents.parts.isEmpty then .error (.payload .empty) else .ok contents) := rfl
  rw [hread, hread, registryOf_pruned]

end Bundle

end Blockwork
