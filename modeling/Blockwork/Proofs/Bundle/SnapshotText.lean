import Blockwork.Proofs.Bundle.SnapshotRoundTrip
import Blockwork.Proofs.Json.ParseWritten
import Blockwork.Proofs.Json.Writable

/-!
# Written snapshots are read

The text of a snapshot is read back as a value, and that value is read as a bundle.  All that
is in it has texts, since it was read from a text.  So the definitions can always be read,
whatever is in them.  A record can be read when its block
has a label: its id is not empty, its kind is one, and for a block with a body the name of
the body placeholder counts as given, so no name has to be inferred from the templates.
The references of records are from blocks that were recorded, so attaching along them
comes to an end.

The record of a block with an empty label is refused, since a record needs a label.
-/

namespace Blockwork

theorem Json.readBack_obj {members : List (String × Json)} (h : (Table.names members).Nodup) :
    (Json.obj members).readBack = .obj (Table.mapValues members readBack) := by
  have hread : readBackMembers [] members = [] ++ Table.mapValues members readBack :=
    readBackMembers_of_nodup h
  rw [readBack, hread, List.nil_append]

namespace Bundle

variable {naming : Templates.Naming} {p : Palette} {r made : Registry} {id : BlockId} {b : Block}
variable {index : Nat} {items : List Json} {entries : List (BlockId × Block)}

/-! ## Records that have texts -/

section Texts

variable {members inputs : Members} {v w : Json}

theorem isWritable_literalValue? (hv : v.isWritable = true) (h : literalValue? v = some w) :
    w.isWritable = true := by
  cases v with
  | obj state =>
    cases h
    exact Json.isWritable_orElse (Json.isWritable_getD hv "literal"
      (Json.isWritable_getD hv "value" rfl)) rfl
  | null => cases h
  | _ =>
    cases h
    exact hv

/-- When a record has a text, so have all texts that go into its block. -/
theorem isWritable_recordTexts (hm : (Json.obj members).isWritable = true)
    (hi : (Json.obj inputs).isWritable = true) (hv : v ∈ recordTexts members b inputs) :
    v.isWritable = true := by
  simp only [recordTexts, List.mem_cons] at hv
  obtain rfl | rfl | rfl | hv := hv
  · exact Json.isWritable_member hm "id"
  · exact Json.isWritable_member hm "label"
  · exact Json.isWritable_orElse (Json.isWritable_member hm "color") rfl
  · obtain ⟨entry, he, hv⟩ := List.mem_filterMap.1 hv
    dsimp only at hv
    split at hv
    · exact isWritable_literalValue? (Json.isWritable_obj.1 hi entry he) hv
    · cases hv

theorem isWritable_childValues (hm : (Json.obj members).isWritable = true)
    (hv : v ∈ childValues members) : v.isWritable = true := by
  rw [childValues, List.mem_append] at hv
  rcases hv with hv | hv
  · have hnested := Json.isWritable_member hm "nestedChildIds"
    unfold nestedOf at hv
    split at hv
    · cases hv
    · split at hv
      · next items he => exact Json.isWritable_arr.1 (he ▸ hnested) v hv
      · cases hv
  · have hinputs := Json.isWritable_member hm "inputs"
    split at hv
    · next inputs he =>
      obtain ⟨⟨name, entry⟩, hentry, hv⟩ := List.mem_filterMap.1 hv
      have hstate : entry.isWritable = true := Json.isWritable_obj.1 (he ▸ hinputs) _ hentry
      cases entry with
      | obj state =>
        have hchild := Json.isWritable_member hstate "childId"
        dsimp only at hv
        split at hv
        · cases hv
        · cases hv
          exact hchild
      | _ => cases hv
    · cases hv

theorem isWritable_allChildValues (h : ∀ w ∈ items, w.isWritable = true)
    (hv : v ∈ allChildValues items) : v.isWritable = true := by
  obtain ⟨item, hitem, hv⟩ := List.mem_flatMap.1 hv
  cases item with
  | obj members => exact isWritable_childValues (h _ hitem) hv
  | _ => cases hv

end Texts

/-! ## Definitions -/

theorem readBack_definition (naming : Templates.Naming) (d : Definition) :
    (d.toJson naming).readBack =
      .obj (Table.mapValues (d.toJson naming).members Json.readBack) := by
  rw [Definition.toJson]
  cases d.containerVar.bind Json.given? with
  | none =>
    have hnames : (["label", "kind", "color", "templates"] : List String).Nodup := by decide
    exact Json.readBack_obj hnames
  | some v =>
    have hnames :
        (["label", "kind", "color", "templates", "containerVar"] : List String).Nodup := by decide
    exact Json.readBack_obj hnames

/-- The object of a definition can be read as a definition when it has been read back. -/
theorem ofJson_readBack {d : Definition} (h : (d.toJson naming).readBack.isWritable = true) :
    ∃ e, Definition.ofJson (d.toJson naming).readBack = .ok e := by
  rw [readBack_definition] at h ⊢
  have hcolor : Json.member? (Table.mapValues (d.toJson naming).members Json.readBack) "color" =
      some d.color.readBack := rfl
  have htext : d.color.readBack.isWritable = true := Json.isWritable_of_member? h hcolor
  rw [Definition.toJson]
  cases d.containerVar.bind Json.given? with
  | none => exact (exists_ofJson_iff rfl rfl rfl rfl).2 htext
  | some v => exact (exists_ofJson_iff rfl rfl rfl rfl).2 htext

theorem readDefinitions_readBack (index : Nat)
    (h : ∀ d ∈ p, (d.toJson naming).readBack.isWritable = true) :
    ∃ q, readDefinitions index (p.map fun d => (d.toJson naming).readBack) = .ok q := by
  induction p generalizing index with
  | nil => exact ⟨[], rfl⟩
  | cons d p ih =>
    obtain ⟨hd, hp⟩ := List.forall_mem_cons.1 h
    obtain ⟨e, he⟩ := ofJson_readBack hd
    obtain ⟨q, hq⟩ := ih (index + 1) hp
    refine ⟨e :: q, ?_⟩
    rw [List.map_cons, readDefinitions, he, hq]
    rfl

/-! ## The record of a block -/

/-- The members of the record of a block when it has been read back. -/
def rereadFields (naming : Templates.Naming) (id : BlockId) (b : Block) : Members :=
  Table.mapValues (recordFields naming id b) Json.readBack

theorem readBack_record (naming : Templates.Naming) (id : BlockId) (b : Block) :
    (record naming id b).readBack = .obj (rereadFields naming id b) := by
  have hnames : (["id", "label", "kind", "color", "templates", "containerVar", "x", "y",
      "parentContainerId", "parentInput", "inputs", "nestedChildIds"] : List String).Nodup := by
    decide
  exact Json.readBack_obj hnames

theorem member_rereadFields (name : String) : Json.member (rereadFields naming id b) name =
    (Json.member (recordFields naming id b) name).readBack :=
  Json.member_mapValues_readBack _ name

theorem recordKind_rereadFields : recordKind index (rereadFields naming id b) = .ok b.kind := by
  have hkind : Json.member (rereadFields naming id b) "kind" = .str b.kind.name :=
    member_rereadFields "kind"
  have hgiven : (Json.str b.kind.name).isTruthy = true := by cases b.kind <;> rfl
  rw [recordKind, hkind, Json.orElse_of_isTruthy hgiven]
  simp [hgiven, Kind.ofJson?_name]

/-- The record of a block without a label is refused. -/
theorem makeBlock_of_label_empty (h : b.label = "") :
    makeBlock r index (record naming id b).readBack = recordFault index .incomplete := by
  have hlabel : Json.member (rereadFields naming id b) "label" = .str b.label :=
    member_rereadFields "label"
  have hfault : recordMembers index (.obj (rereadFields naming id b)) =
      recordFault index .incomplete := by
    rw [recordMembers, hlabel, h]
    simp [Json.isTruthy]
  rw [readBack_record, makeBlock, hfault]
  rfl

/-- A definition makes a block when a name is given for its body placeholder. -/
theorem exists_ofDefinition {d : Definition} (position : Point)
    (h : d.kind.hasBody = true → ∃ v, v.isTruthy = true ∧ d.containerVar = some v) :
    ∃ b, Block.ofDefinition d position = .ok b := by
  have hvar : ∃ v, d.bodyVar = .ok v := by
    rw [Definition.bodyVar]
    split
    · next hk =>
      obtain ⟨v, hv, heq⟩ := h hk
      have hgiven : d.containerVar.bind Json.given? = some v := by
        rw [heq]
        exact if_pos hv
      rw [inferContainerVar, hgiven]
      exact ⟨_, rfl⟩
    · exact ⟨_, rfl⟩
  obtain ⟨v, hv⟩ := hvar
  exact ⟨_, except_bind_eq_ok.2 ⟨v, hv, rfl⟩⟩

/-- The record of a block with a label makes a block again. -/
theorem makeBlock_readBack (hlabel : b.label ≠ "") (hb : b.BodyNamed) (hid : id ≠ "")
    (hnew : r.contains id = false) (hw : (record naming id b).readBack.isWritable = true) :
    ∃ c, makeBlock r index (record naming id b).readBack = .ok (r.insert id c) := by
  have hmembers : recordMembers index (record naming id b).readBack =
      .ok (rereadFields naming id b) := by
    refine recordMembers_ok_iff.2 ⟨readBack_record naming id b, ?_, ?_⟩
    · rw [member_rereadFields]
      change (Json.str id).isTruthy = true
      simpa [Json.isTruthy] using hid
    · rw [member_rereadFields]
      change (Json.str b.label).isTruthy = true
      simpa [Json.isTruthy] using hlabel
  have hnested : (nestedOf (Json.member (rereadFields naming id b) "nestedChildIds")).isSome := by
    rw [member_rereadFields]
    change (nestedOf (.arr (Json.readBackItems (b.nested.map .str)))).isSome
    cases b.nested <;> rfl
  -- a name that counts as given still does, so none is inferred
  have hnamed (hk : b.kind.hasBody = true) : ∃ v, v.isTruthy = true ∧
      (Json.member (rereadFields naming id b) "containerVar").given? = some v := by
    obtain ⟨v, hv, hvar⟩ := hb hk
    have hread : Json.member (rereadFields naming id b) "containerVar" =
        (b.containerVar.getD .null).readBack := member_rereadFields "containerVar"
    rw [hread, hvar]
    exact ⟨v.readBack, Json.isTruthy_readBack hv, if_pos (Json.isTruthy_readBack hv)⟩
  let templates := (b.templates.toJson naming).readBack.members
  let position : Point :=
    ⟨settledCoordinate (Json.reread b.position.x), settledCoordinate (Json.reread b.position.y)⟩
  obtain ⟨c, hc⟩ := @exists_ofDefinition
    (recordDefinition (rereadFields naming id b) b.kind templates) position hnamed
  rw [readBack_record] at hw
  have hinputs := Json.isWritable_member hw "inputs"
  exact ⟨_, makeBlock_ok_iff.2 ⟨_, _, templates, _, _, _, c, hmembers, recordKind_rereadFields,
    membersOr_obj _ _, coordinate_float _, coordinate_float _, membersOr_obj _ _, hnested, hnew,
    hc, fun v hv => isWritable_recordTexts hw hinputs hv, rfl⟩⟩

/-! ## All records -/

/-- The records of blocks when they have been read back. -/
def rereadRecords (naming : Templates.Naming) (entries : List (BlockId × Block)) : List Json :=
  entries.map fun e => (record naming e.1 e.2).readBack

/-- The records of blocks make blocks if all have labels, and otherwise one that has none
is refused. -/
theorem makeBlocks_readBack (he : ∀ e ∈ entries, e.1 ≠ "" ∧ e.2.BodyNamed)
    (hids : (r.ids ++ Table.names entries).Nodup) (index : Nat)
    (hw : ∀ v ∈ rereadRecords naming entries, v.isWritable = true) :
    (∃ made, makeBlocks r index (rereadRecords naming entries) = .ok made) ∧
        (∀ e ∈ entries, e.2.label ≠ "") ∨
      (∃ i, makeBlocks r index (rereadRecords naming entries) = recordFault i .incomplete) ∧
        ∃ e ∈ entries, e.2.label = "" := by
  induction entries generalizing r index with
  | nil => exact .inl ⟨⟨r, rfl⟩, nofun⟩
  | cons e entries ih =>
    obtain ⟨id, b⟩ := e
    obtain ⟨hid, hb⟩ := he _ (List.mem_cons_self ..)
    obtain ⟨hfirst, hothers⟩ := List.forall_mem_cons.1 hw
    have hitems : makeBlocks r index (rereadRecords naming ((id, b) :: entries)) = (do
        makeBlocks (← makeBlock r index (record naming id b).readBack) (index + 1)
          (rereadRecords naming entries)) := rfl
    rw [hitems]
    by_cases hlabel : b.label = ""
    · rw [makeBlock_of_label_empty hlabel]
      exact .inr ⟨⟨index, rfl⟩, (id, b), List.mem_cons_self .., hlabel⟩
    · have hnew : r.contains id = false := by
        rw [← Bool.not_eq_true, ← Registry.mem_ids_iff]
        intro hm
        exact (List.nodup_append.1 hids).2.2 id hm id (List.mem_cons_self ..) rfl
      obtain ⟨c, hc⟩ := @makeBlock_readBack naming r id b index hlabel hb hid hnew hfirst
      have hids' : ((r.insert id c).ids ++ Table.names entries).Nodup := by
        rw [Registry.ids_insert hnew, List.append_assoc]
        exact hids
      have hrest := ih (fun f hf => he f (List.mem_cons_of_mem _ hf)) hids' (index + 1) hothers
      rw [hc]
      rcases hrest with ⟨hmade, hall⟩ | ⟨hfault, f, hf, hempty⟩
      · exact .inl ⟨hmade, List.forall_mem_cons.2 ⟨hlabel, hall⟩⟩
      · exact .inr ⟨hfault, f, List.mem_cons_of_mem _ hf, hempty⟩

/-- When the blocks of records have been made and all children have texts, nothing that the
records refer to can fault. -/
theorem exists_registryOf (h : makeBlocks .empty 0 items = .ok made)
    (htexts : ∀ v ∈ allChildValues items, v.isWritable = true) :
    ∃ r, registryOf (.arr items) = .ok r := by
  obtain ⟨hl, records, rfl, hids⟩ := makeBlocks_ok h Registry.loose_empty
  have hparents : ∀ e ∈ allReferences (records.map .obj), made.contains e.parent = true := by
    intro e he
    rw [allReferences_map] at he
    obtain ⟨members, hm, he⟩ := List.mem_flatMap.1 he
    rw [← Registry.mem_ids_iff, hids, (mem_references_iff.1 he).1]
    exact List.mem_append_right _ (List.mem_map_of_mem hm)
  obtain ⟨r, hr⟩ := run_total hl.wellFormed hparents
  exact ⟨r, registryOf_ok_iff.2 ⟨made, h, htexts, hr⟩⟩

/-! ## Snapshots -/

theorem part_of_fault {α : Type} {members : Members} {name : String} {items : List Json}
    {read : Json → Except Fault α} {f : Fault} (hm : Json.member members name = .arr items)
    (hf : read (.arr items) = .error f) : part members name read = .error f := by
  rw [part, hm]
  exact congrArg (Except.map some) hf

theorem snapshotText_ok_iff {text : String} (h : snapshotText p r = .ok text) :
    (snapshot Templates.writtenName p r).isWritable = true ∧
      text = (snapshot Templates.writtenName p r).write := by
  unfold snapshotText at h
  extract_lets v named at h
  split at h
  · next hw =>
    cases h
    exact ⟨((Bool.and_eq_true _ _).mp hw).2, rfl⟩
  · cases h

/-- The members of a snapshot when they have been read back. -/
theorem readBack_snapshot (naming : Templates.Naming) (p : Palette) (r : Registry) :
    (snapshot naming p r).readBack = .obj [
      ("definitions", .arr (p.map fun d => (d.toJson naming).readBack)),
      ("instances", .arr (rereadRecords naming r.entries))] := by
  have hnames : (["definitions", "instances"] : List String).Nodup := by decide
  have hdefinitions : (p.toJson naming).readBack =
      .arr (p.map fun d => (d.toJson naming).readBack) := by
    rw [Palette.toJson, Json.readBack, Json.readBackItems_eq, List.map_map]
    rfl
  have hinstances : (Json.arr (records naming r)).readBack =
      .arr (rereadRecords naming r.entries) := by
    rw [records, Json.readBack, Json.readBackItems_eq, List.map_map]
    rfl
  have hread := @Json.readBack_obj
    [("definitions", p.toJson naming), ("instances", .arr (records naming r))] hnames
  rw [snapshot, hread, Table.mapValues, List.map_cons, List.map_cons, List.map_nil, hdefinitions,
    hinstances]

/-- The text of a snapshot is read as a bundle if all blocks have labels, and otherwise
the record of a block that has none is refused. -/
theorem read_snapshotText (wf : r.WellFormed) (hn : r.BodiesNamed) {text : String}
    (h : snapshotText p r = .ok text) :
    (∃ contents, read (.str text) = .ok contents) ∧
        (∀ id b, r.get? id = some b → b.label ≠ "") ∨
      (∃ i, read (.str text) = recordFault i .incomplete) ∧
        ∃ id b, r.get? id = some b ∧ b.label = "" := by
  obtain ⟨hw, rfl⟩ := snapshotText_ok_iff h
  let items := rereadRecords Templates.writtenName r.entries
  let members : Members := [
    ("definitions", .arr (p.map fun d => (d.toJson Templates.writtenName).readBack)),
    ("instances", .arr items)]
  have hread :
      read (.str (snapshot Templates.writtenName p r).write) = readValue (.obj members) := by
    rw [read, Json.parse?_write hw, readBack_snapshot]
  have htext : (Json.obj members).isWritable = true :=
    readBack_snapshot Templates.writtenName p r ▸ Json.isWritable_parse? (Json.parse?_write hw)
  have hdefined : ∀ v ∈ p.map fun d => (d.toJson Templates.writtenName).readBack,
      v.isWritable = true :=
    Json.isWritable_arr.1 (Json.isWritable_member htext "definitions")
  have hitems : ∀ v ∈ items, v.isWritable = true :=
    Json.isWritable_arr.1 (Json.isWritable_member htext "instances")
  obtain ⟨palette, hpalette⟩ := readDefinitions_readBack 0 (List.forall_mem_map.1 hdefined)
  have hdefinitions : part members "definitions" definitionsOf = .ok (some palette) :=
    part_of_member rfl hpalette
  have he : ∀ e ∈ r.entries, e.1 ≠ "" ∧ e.2.BodyNamed := by
    intro e he
    have hb : r.get? e.1 = some e.2 := Registry.get?_eq_some_iff.2 he
    exact ⟨wf.named hb, hn e.1 e.2 hb⟩
  have hmake := @makeBlocks_readBack Templates.writtenName .empty r.entries he r.nodup 0 hitems
  rw [hread]
  rcases hmake with ⟨⟨made, hmade⟩, hall⟩ | ⟨⟨i, hfault⟩, e, hm, hempty⟩
  · obtain ⟨s, hs⟩ := exists_registryOf hmade fun v hv => isWritable_allChildValues hitems hv
    have hinstances : part members "instances" registryOf = .ok (some s) := part_of_member rfl hs
    refine .inl ⟨⟨_, except_bind_eq_ok.2 ⟨_, hdefinitions,
      except_bind_eq_ok.2 ⟨_, hinstances, rfl⟩⟩⟩, fun id b hb => ?_⟩
    exact hall (id, b) (Registry.get?_eq_some_iff.1 hb)
  · have hregistry : registryOf (.arr items) = recordFault i .incomplete := by
      rw [registryOf, hfault]
      rfl
    have hinstances : part members "instances" registryOf = recordFault i .incomplete :=
      part_of_fault rfl hregistry
    refine .inr ⟨⟨i, ?_⟩, e.1, e.2, Registry.get?_eq_some_iff.2 hm, hempty⟩
    simp only [readValue, hdefinitions, hinstances]
    rfl

end Bundle

end Blockwork
