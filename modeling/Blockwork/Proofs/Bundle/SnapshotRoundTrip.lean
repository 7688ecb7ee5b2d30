import Blockwork.Proofs.Bundle.RelinkForest
import Blockwork.Proofs.Code.Dependence

/-!
# Snapshots are read back

The snapshot of a palette and of a well-formed registry is a bundle.  Reading it gives
back every block with all its edges, in the same order, provided the blocks can be
recorded.  Only zero coordinates may have lost their sign, which no code depends on.

The palette may hold anything, as long as the colours of its definitions have texts.  What
else a definition has besides its label and its kind is recorded in such a way that it can
always be read.
-/

namespace Blockwork

variable {naming : Templates.Naming} {p : Palette} {r : Registry}

/-! ## Settled blocks -/

theorem Block.alike_settled (b : Block) : Registry.Alike b b.settled :=
  Registry.alike_place _ b

theorem Block.sameCode_settled (b : Block) : b.SameCode b.settled := ⟨rfl, rfl, rfl, rfl, rfl⟩

theorem Block.shell_settled_shell (b : Block) : b.shell.settled.shell = b.settled.shell := by
  simp only [shell, settled, Table.mapValues, List.map_map]
  rfl

theorem Block.loose_shell {b : Block} (h : (Table.names b.slots).Nodup) :
    b.shell.settled.Loose where
  slots_nodup := b.names_shell ▸ h
  nested := rfl
  parent := rfl
  child slot := by
    change (b.shell.slots.lookup slot).bind Slot.child = none
    rw [shell, Table.lookup_mapValues]
    cases b.slots.lookup slot <;> rfl

theorem Registry.WellFormed.settled (wf : r.WellFormed) : (r.mapBlocks Block.settled).WellFormed :=
  wf.of_alike (fun _ b => b.alike_settled) fun x => r.get?_mapBlocks x _

theorem Registry.holds_settled (place : Parent) (x : BlockId) :
    (r.mapBlocks Block.settled).Holds place x ↔ r.Holds place x := by
  cases place with
  | none => rfl
  | container id => simp [Holds, Block.settled]
  | input id slot => simp [Holds, Block.alike_settled _ |>.child]

namespace Bundle

/-! ## Definitions -/

/-- An object with a label, the name of a kind, a colour, and templates that are an object can
be read as a definition exactly if its colour has a text. -/
theorem exists_ofJson_iff {members templates : Members} {label : String} {color : Json}
    {kind : Kind}
    (hlabel : Json.member? members "label" = some (.str label))
    (hkind : Json.member? members "kind" = some (.str kind.name))
    (hcolor : Json.member? members "color" = some color)
    (htemplates : Json.member members "templates" = .obj templates) :
    (∃ d, Definition.ofJson (.obj members) = .ok d) ↔ color.isWritable = true := by
  have hcolored : definitionColor members = color := by
    rw [definitionColor, hcolor, Option.getD_some]
  have hnamed : Kind.ofJson? (definitionKind members) = some kind := by
    rw [definitionKind, hkind, Option.getD_some, Kind.ofJson?_name]
  have htable : ∃ t, Templates.ofJson (.obj templates) = .ok t := by
    cases templates with
    | nil => exact ⟨_, rfl⟩
    | cons e entries => exact ⟨_, rfl⟩
  obtain ⟨t, ht⟩ := htable
  constructor
  · rintro ⟨d, h⟩
    obtain ⟨_, _, _, _, he, -, -, -, h, -⟩ := ofJson_ok_iff.1 h
    cases he
    exact hcolored ▸ h
  · intro h
    exact ⟨_, ofJson_ok_iff.2 ⟨members, _, kind, t, rfl, hlabel, rfl, hnamed, hcolored.symm ▸ h,
      htemplates.symm ▸ ht, rfl⟩⟩

/-- The object of a definition can be read as a definition exactly if the colour has a text. -/
theorem exists_ofJson_toJson_iff (naming : Templates.Naming) (d : Definition) :
    (∃ e, Definition.ofJson (d.toJson naming) = .ok e) ↔ d.color.isWritable = true := by
  rw [Definition.toJson]
  cases d.containerVar.bind Json.given? with
  | none => exact exists_ofJson_iff rfl rfl rfl rfl
  | some v => exact exists_ofJson_iff rfl rfl rfl rfl

theorem exists_readDefinitions_toJson_iff (naming : Templates.Naming) (p : Palette) (index : Nat) :
    (∃ q, readDefinitions index (p.map (Definition.toJson naming)) = .ok q) ↔
      ∀ d ∈ p, d.color.isWritable = true := by
  induction p generalizing index with
  | nil => exact iff_of_true ⟨[], rfl⟩ nofun
  | cons d p ih =>
    rw [List.forall_mem_cons, ← exists_ofJson_toJson_iff naming d, ← ih (index + 1), List.map_cons,
      readDefinitions]
    constructor
    · rintro ⟨q, h⟩
      obtain ⟨e, he, h⟩ := except_bind_eq_ok.1 h
      obtain ⟨q, hq, -⟩ := except_bind_eq_ok.1 h
      exact ⟨⟨e, atIndex_ok_iff.1 he⟩, q, hq⟩
    · rintro ⟨⟨e, he⟩, q, hq⟩
      exact ⟨e :: q, except_bind_eq_ok.2 ⟨e, atIndex_ok_iff.2 he,
        except_bind_eq_ok.2 ⟨q, hq, rfl⟩⟩⟩

/-! ## Blocks -/

theorem loose_bare (wf : r.WellFormed) : (bare r).Loose := by
  intro id b hb
  rw [bare, Registry.get?_mapBlocks] at hb
  obtain ⟨c, hc, rfl⟩ := Option.map_eq_some_iff.1 hb
  exact ⟨wf.named hc, Block.loose_shell (wf.slots_nodup hc)⟩

theorem sameShells_bare : Registry.SameShells (bare r) (r.mapBlocks Block.settled) := by
  refine Registry.ext_get? ?_ fun x => ?_
  · simp [bare]
  · simp only [bare, Registry.get?_mapBlocks, Option.map_map]
    exact congrArg (fun f => (r.get? x).map f) (funext Block.shell_settled_shell)

theorem records_eq :
    records naming r = (r.entries.map fun e => recordFields naming e.1 e.2).map .obj := by
  rw [List.map_map]
  rfl

/-- A run along the references of records leaves bodies that are parts of the bodies
that were recorded. -/
theorem Relinked.sublist_records {s : Registry} (wf : r.WellFormed)
    (h : Relinked (allReferences (records naming r)) (bare r) s) {x : BlockId} {b c : Block}
    (hc : s.get? x = some c) (hb : r.get? x = some b) : c.nested.Sublist b.nested := by
  rw [records_eq] at h
  have hids : (bare r).ids =
      (r.entries.map fun e => recordFields naming e.1 e.2).map recordId := by
    rw [List.map_map, bare, Registry.ids_mapBlocks]
    rfl
  obtain ⟨members, hm, hid, hsub⟩ := h.sublist (loose_bare wf) hids hc
  obtain ⟨⟨id, d⟩, he, rfl⟩ := List.mem_map.1 hm
  obtain rfl : id = x := hid
  cases hb.symm.trans (Registry.get?_eq_some_iff.2 he)
  rw [recordedBody_fields] at hsub
  exact hsub

/-- Records of the blocks of a well-formed registry are read back. -/
theorem registryOf_records (hn : naming.Literal) (wf : r.WellFormed)
    (hr : ∀ {id b}, r.get? id = some b → b.Recordable) :
    registryOf (.arr (records naming r)) = .ok (r.mapBlocks Block.settled) := by
  have hl : (bare r).Loose := loose_bare wf
  have hrefs (place : Parent) (x : BlockId) : (r.mapBlocks Block.settled).Holds place x ↔
      ∃ e ∈ allReferences (records naming r), e.place = place ∧ e.child = x := by
    rw [Registry.holds_settled, ← recorded_records_iff wf, recorded_iff]
  have hparents : ∀ e ∈ allReferences (records naming r), (bare r).contains e.parent = true := by
    intro e he
    obtain ⟨p, hp, hlive⟩ := ((hrefs _ _).2 ⟨e, he, rfl, rfl⟩).exists_id?
    cases e.place_id?.symm.trans hp
    simpa [bare] using hlive
  obtain ⟨s, hs⟩ := run_total hl.wellFormed hparents
  have hrel := relinked_of_run hl.wellFormed hs
  have hrestored : s = r.mapBlocks Block.settled := by
    refine hrel.restores hl wf.settled sameShells_bare hrefs ?_
    intro x c b hc hb
    rw [Registry.get?_mapBlocks] at hb
    obtain ⟨d, hd, rfl⟩ := Option.map_eq_some_iff.1 hb
    exact hrel.sublist_records (b := d) wf hc hd
  rw [registryOf_records_eq]
  exact except_bind_eq_ok.2 ⟨_, makeBlocks_records hn wf hr, hrestored ▸ hs⟩

/-! ## Bundles -/

theorem part_of_member {α : Type} {members : Members} {name : String} {items : List Json}
    {read : Json → Except Fault α} {a : α} (hm : Json.member members name = .arr items)
    (ha : read (.arr items) = .ok a) : part members name read = .ok (some a) := by
  rw [part, hm]
  exact congrArg (Except.map some) ha

/-- The registry in the snapshot of a palette and a well-formed registry of blocks that can be
recorded is read back: it is the same up to the signs of zero coordinates, and so is the
code that is generated from it.  The whole snapshot is read exactly if the colours of the
definitions have texts, which a text always has.  A text that holds the snapshot is read
alike. -/
theorem read_snapshot (hn : naming.Literal) (p : Palette) (wf : r.WellFormed)
    (hr : ∀ {id b}, r.get? id = some b → b.Recordable) :
    registryOf (.arr (records naming r)) = .ok (r.mapBlocks Block.settled) ∧
      ((∃ definitions, read (snapshot naming p r) = .ok {
          definitions := some definitions
          registry := some (r.mapBlocks Block.settled) }) ↔ ∀ d ∈ p, d.color.isWritable = true) ∧
      (∀ text, Json.parse? text = some (snapshot naming p r) →
        read (.str text) = read (snapshot naming p r)) ∧
      ∀ g language,
        Code.generate g (r.mapBlocks Block.settled) language = Code.generate g r language := by
  refine ⟨registryOf_records hn wf hr, ?_, fun text ht => ?_, fun g language => ?_⟩
  · rw [← exists_readDefinitions_toJson_iff naming p 0]
    constructor
    · rintro ⟨definitions, h⟩
      obtain ⟨q, hq, -⟩ := except_bind_eq_ok.1 h
      cases hp : readDefinitions 0 (p.map (Definition.toJson naming)) with
      | ok definitions => exact ⟨definitions, rfl⟩
      | error f =>
        have hpart : part [("definitions", p.toJson naming)] "definitions" definitionsOf =
            (readDefinitions 0 (p.map (Definition.toJson naming))).map some := rfl
        rw [hp] at hpart
        cases hq.symm.trans hpart
    · rintro ⟨definitions, hd⟩
      refine ⟨definitions, ?_⟩
      exact except_bind_eq_ok.2 ⟨_, part_of_member rfl hd,
        except_bind_eq_ok.2 ⟨_, part_of_member rfl (registryOf_records hn wf hr), rfl⟩⟩
  · rw [read, ht]
    rfl
  · exact Code.generate_mapBlocks Block.sameCode_settled language

/-- A block with one input. -/
def sampleBlock (kind : Kind) (child : Option BlockId) (nested : List BlockId) (parent : Parent) :
    Block where
  label := "%x"
  kind := kind
  color := .str "#4C97FF"
  templates := {}
  containerVar := if kind.hasBody then some (.str "body") else none
  position := ⟨0.0, 0.0⟩
  slots := [("x", { child })]
  nested := nested
  parent := parent

theorem recordable_sampleBlock (kind : Kind) (child : Option BlockId) (nested : List BlockId)
    (parent : Parent) : (sampleBlock kind child nested parent).Recordable where
  label := (by decide : "%x" ≠ "")
  color := ⟨"#4C97FF", by decide, rfl⟩
  templates := nofun
  inputs := (by decide +kernel : ["x"] = Label.inputNames "%x")
  hasBody h := ⟨.str "body", rfl, if_pos h⟩
  noBody h := if_neg (h ▸ Bool.false_ne_true)

/-- A container with a command in its body and a value over its input. -/
def sampleRegistry : Registry where
  entries := [
    ("a", sampleBlock .container (some "v") ["b"] .none),
    ("b", sampleBlock .command none [] (.container "a")),
    ("v", sampleBlock .reporter none [] (.input "a" "x"))]
  nodup := by decide

theorem wellFormed_sampleRegistry : sampleRegistry.WellFormed :=
  wellFormed_of_registryOf (v := .arr [
    .obj [("id", .str "a"), ("label", .str "%x"), ("kind", .str "container"),
      ("inputs", .obj [("x", .obj [("childId", .str "v")])]),
      ("nestedChildIds", .arr [.str "b"])],
    briefRecord "b" "command" [],
    briefRecord "v" "reporter" []]) rfl

theorem read_snapshot_sampleRegistry :
    ∃ definitions, read (snapshot Templates.writtenName Palette.standard sampleRegistry) = .ok {
      definitions := some definitions
      registry := some (sampleRegistry.mapBlocks Block.settled) } := by
  refine (read_snapshot Templates.literal_writtenName Palette.standard wellFormed_sampleRegistry
    fun {id b} hb => ?_).2.1.2 (by decide +kernel)
  have hm := Registry.get?_eq_some_iff.1 hb
  simp only [sampleRegistry, List.mem_cons, List.not_mem_nil, or_false, Prod.mk.injEq] at hm
  rcases hm with ⟨-, rfl⟩ | ⟨-, rfl⟩ | ⟨-, rfl⟩ <;> exact recordable_sampleBlock ..

/-- A container with two blocks in its body, the first of them with a block in its own. -/
def branchingRegistry : Registry where
  entries := [
    ("a", sampleBlock .container none ["b", "d"] .none),
    ("b", sampleBlock .container none ["c"] (.container "a")),
    ("c", sampleBlock .command none [] (.container "b")),
    ("d", sampleBlock .command none [] (.container "a"))]
  nodup := by decide

theorem wellFormed_branchingRegistry : branchingRegistry.WellFormed :=
  wellFormed_of_registryOf (v := .arr [briefRecord "a" "container" ["b", "d"],
    briefRecord "b" "container" ["c"], briefRecord "c" "command" [],
    briefRecord "d" "command" []]) rfl

end Bundle

end Blockwork
