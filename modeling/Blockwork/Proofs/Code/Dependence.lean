import Blockwork.Code.Generate
import Blockwork.Proofs.Registry.Lookup

/-!
# What generated code depends on

The code of a block comes from its templates, its inputs, its body and the name of its
placeholder, and from those of the blocks below it.  Labels, kinds, colours and
positions do not matter, and neither does anything about other blocks but whether
they are live.
-/

namespace Blockwork

/-- Two blocks that say the same to the generator. -/
structure Block.SameCode (b c : Block) : Prop where
  templates : c.templates = b.templates
  containerVar : c.containerVar = b.containerVar
  slots : c.slots = b.slots
  nested : c.nested = b.nested
  parent : c.parent = b.parent

theorem Block.SameCode.refl (b : Block) : b.SameCode b := ⟨rfl, rfl, rfl, rfl, rfl⟩

namespace Registry

theorem roots_mapBlocks (r : Registry) {f : Block → Block} (hf : ∀ b, (f b).parent = b.parent) :
    (r.mapBlocks f).roots = r.roots := by
  simp only [roots, mapBlocks, Table.mapValues, List.filter_map, List.map_map]
  refine congrArg (List.map Prod.fst) (List.filter_congr fun e _ => ?_)
  simp [hf]

end Registry

namespace Code

variable {g : Generator} {r s : Registry} {name : Json}

theorem fillInputs_congr {code code' : BlockId → GenM String} {slots : List (String × Slot)}
    (h : ∀ e ∈ slots, ∀ x, e.2.child = some x → s.contains x = r.contains x ∧ code' x = code x)
    (text : Json) : fillInputs s code' text slots = fillInputs r code text slots := by
  induction slots generalizing text with
  | nil => rfl
  | cons e slots ih =>
    obtain ⟨name, slot⟩ := e
    have hrest (text : Json) := ih (fun e he => h e (List.mem_cons_of_mem _ he)) text
    rw [fillInputs, fillInputs]
    cases hc : slot.child with
    | none => simp only [hrest]
    | some x =>
      obtain ⟨hlive, hcode⟩ := h _ (List.mem_cons_self ..) x hc
      simp only [hlive, hcode, hrest]

theorem codes_congr {code code' : BlockId → GenM String} {ids : List BlockId}
    (h : ∀ x ∈ ids, code' x = code x) : codes code' ids = codes code ids := by
  induction ids with
  | nil => rfl
  | cons x ids ih =>
    rw [codes, codes, h x (List.mem_cons_self ..), ih fun y hy => h y (List.mem_cons_of_mem x hy)]

/-- The code of a block is made with the codes of its children and no others. -/
theorem blockCodeBy_congr {b c : Block} (hb : b.SameCode c)
    {code code' : String → BlockId → GenM String}
    (hslots : ∀ e ∈ b.slots, ∀ x, e.2.child = some x →
      s.contains x = r.contains x ∧ ∀ indent, code' indent x = code indent x)
    (hnested : ∀ x ∈ b.nested,
      s.contains x = r.contains x ∧ ∀ indent, code' indent x = code indent x) (indent : String) :
    blockCodeBy g s name code' indent c = blockCodeBy g r name code indent b := by
  have hselect : selectTemplate g c name = selectTemplate g b name := by
    rw [selectTemplate, hb.templates, selectTemplate]
  have hfill (text : Json) (inner childIndent : String) :
      fillBody c text inner childIndent = fillBody b text inner childIndent := by
    rw [fillBody, hb.containerVar, fillBody]
  have hinputs (indent : String) (text : Json) :
      fillInputs s (code' indent) text c.slots = fillInputs r (code indent) text b.slots := by
    rw [hb.slots]
    exact fillInputs_congr (fun e he x hx =>
      ⟨(hslots e he x hx).1, (hslots e he x hx).2 indent⟩) text
  have hlive : c.nested.filter s.contains = b.nested.filter r.contains := by
    rw [hb.nested]
    exact List.filter_congr fun x hx => (hnested x hx).1
  have hcodes (indent : String) : codes (code' indent) (b.nested.filter r.contains) =
      codes (code indent) (b.nested.filter r.contains) :=
    codes_congr fun x hx => (hnested x (List.mem_of_mem_filter hx)).2 indent
  simp only [blockCodeBy, hselect, hfill, hinputs, hlive, hcodes]

theorem blockCodeWithin_mapBlocks {f : Block → Block} (hf : ∀ b, Block.SameCode b (f b)) (n : Nat)
    (indent : String) (id : BlockId) :
    blockCodeWithin g (r.mapBlocks f) name n indent id = blockCodeWithin g r name n indent id := by
  induction n generalizing indent id with
  | zero =>
    rw [blockCodeWithin, blockCodeWithin, Registry.get?_mapBlocks]
    cases r.get? id <;> rfl
  | succ n ih =>
    rw [blockCodeWithin, blockCodeWithin, Registry.get?_mapBlocks]
    cases r.get? id with
    | none => rfl
    | some b =>
      have hcode : blockCodeWithin g (r.mapBlocks f) name n = blockCodeWithin g r name n :=
        funext fun indent => funext fun id => ih indent id
      simp only [Option.map_some, hcode]
      exact blockCodeBy_congr (hf b) (fun _ _ x _ => ⟨r.contains_mapBlocks f x, fun _ => rfl⟩)
        (fun x _ => ⟨r.contains_mapBlocks f x, fun _ => rfl⟩) indent

/-- Changes that no block tells the generator about do not change the code. -/
theorem generate_mapBlocks {f : Block → Block} (hf : ∀ b, Block.SameCode b (f b))
    (language : Json) : generate g (r.mapBlocks f) language = generate g r language := by
  have hsize : (r.mapBlocks f).size = r.size := List.length_map _
  have hcode (name : Json) :
      blockCode g (r.mapBlocks f) name "" = blockCode g r name "" := by
    funext id
    rw [blockCode, blockCode, hsize, blockCodeWithin_mapBlocks hf]
  rw [generate, generate, r.roots_mapBlocks fun b => (hf b).parent]
  simp only [hcode]

end Code

end Blockwork
