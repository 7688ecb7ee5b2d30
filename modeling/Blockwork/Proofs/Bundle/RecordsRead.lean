import Blockwork.Proofs.Bundle.Recovered

/-!
# Records are read back

A block can be recorded when nothing of it gets lost in a record: its label and its
colour are texts that are not empty, its templates are named by texts, it has the
inputs of its label, and it has a name for the body placeholder exactly if it has a
body.

The record of such a block makes the block again, without its edges.  Its position
is settled, which is to say that a zero has lost its sign.  The references of the
record are the edges that the block holds.
-/

namespace Blockwork

/-! ## Blocks that can be recorded -/

/-- A block that a record describes completely.  A name for the body placeholder is
set if it counts as given. -/
structure Block.Recordable (b : Block) : Prop where
  /-- The label is not empty. -/
  label : b.label ≠ ""
  /-- The colour is a text that is not empty. -/
  color : ∃ c, c ≠ "" ∧ b.color = .str c
  /-- The languages of the templates are texts. -/
  templates : ∀ e ∈ b.templates.entries, ∃ language, e.1 = .str language
  /-- The inputs are those of the label. -/
  inputs : Table.names b.slots = Label.inputNames b.label
  /-- A body has a placeholder. -/
  hasBody : b.kind.hasBody = true → ∃ v, v.isTruthy = true ∧ b.containerVar = some v
  /-- There is no placeholder without a body. -/
  noBody : b.kind.hasBody = false → b.containerVar = none

theorem Kind.ofJson?_name (k : Kind) : Kind.ofJson? (.str k.name) = some k := by
  cases k <;> decide +kernel

/-- Names of languages that leave texts as they are. -/
def Templates.Naming.Literal (naming : Naming) : Prop := ∀ s, naming (.str s) = s

theorem Templates.literal_writtenName : Naming.Literal writtenName := fun _ => rfl

/-- A coordinate without the sign of a zero. -/
def settledCoordinate (x : Float) : Float := if x == 0.0 then 0.0 else x

/-- A block whose coordinates are settled. -/
def Block.settled (b : Block) : Block :=
  { b with position := ⟨settledCoordinate b.position.x, settledCoordinate b.position.y⟩ }

theorem Json.orElse_of_isTruthy {v : Json} (h : v.isTruthy = true) (w : Json) : v.orElse w = v :=
  if_pos h

/-- The members of an object. -/
def Json.members : Json → List (String × Json)
  | .obj members => members
  | _ => []

namespace Bundle

variable {naming : Templates.Naming} {r : Registry} {id : BlockId} {b : Block} {index : Nat}

/-! ## The members of a record -/

/-- The members of the record of a block. -/
def recordFields (naming : Templates.Naming) (id : BlockId) (b : Block) : Members :=
  (record naming id b).members

theorem recordKind_fields : recordKind index (recordFields naming id b) = .ok b.kind := by
  have hkind : Json.member (recordFields naming id b) "kind" = .str b.kind.name := rfl
  have hgiven : (Json.str b.kind.name).isTruthy = true := by cases b.kind <;> rfl
  rw [recordKind, hkind, Json.orElse_of_isTruthy hgiven]
  simp [hgiven, Kind.ofJson?_name]

@[simp] theorem membersOr_obj (fault : Except Fault Members) (members : Members) :
    membersOr fault (.obj members) = .ok members := by
  cases members <;> rfl

theorem coordinate_float (x : Float) :
    coordinate index (.float x) = .ok (settledCoordinate x) := by
  have htruthy : (Json.float x).isTruthy = !(x == 0.0) := rfl
  rw [coordinate, Json.orElse, htruthy, settledCoordinate]
  cases x == 0.0 <;> rfl

theorem ofMembers_toJson (hn : naming.Literal) {t : Templates}
    (ht : ∀ e ∈ t.entries, ∃ language, e.1 = .str language) :
    .ofMembers (t.toJson naming).members = t := by
  have hentries : t.entries.map (fun e => (Json.str (naming e.1), e.2)) = t.entries := by
    refine (List.map_congr_left fun e he => ?_).trans (List.map_id _)
    obtain ⟨language, hl⟩ := ht e he
    rw [hl, hn, ← hl]
    rfl
  rw [Templates.toJson, Json.members, Templates.ofMembers, List.map_map]
  exact congrArg Templates.mk hentries

/-! ## The inputs of a record -/

/-- An input with the literal text of its entry, if there is one that sets it. -/
def slotRead (entry : Option Json) (s : Slot) : Slot :=
  match entry.bind literalOf? with
  | some text => { s with literal := text }
  | none => s

theorem slot?_setLiterals {inputs : Members} (hi : (Table.names inputs).Nodup) (name : String) :
    (setLiterals b inputs).slot? name = (b.slot? name).map (slotRead (inputs.lookup name)) := by
  induction inputs generalizing b with
  | nil =>
    have hsame : slotRead none = fun s => s := rfl
    simp [setLiterals, hsame]
  | cons entry inputs ih =>
    obtain ⟨first, v⟩ := entry
    obtain ⟨hfirst, hrest⟩ := List.nodup_cons.1 hi
    rw [setLiterals, List.foldl_cons]
    refine (ih hrest).trans ?_
    by_cases hname : name = first
    · subst hname
      have hlater : inputs.lookup name = none := Table.lookup_eq_none_iff.2 hfirst
      rw [hlater, List.lookup_cons_self]
      cases hv : literalOf? v with
      | none =>
        have hsame : slotRead (some v) = slotRead none := funext fun s => by simp [slotRead, hv]
        simp only [hv, hsame]
      | some text =>
        have hset : slotRead none ∘ (fun s => { s with literal := text }) = slotRead (some v) :=
          funext fun s => by simp [slotRead, hv]
        simp only [hv, Block.slot?_modifySlot, if_true, Option.map_map, hset]
    · rw [Table.lookup_cons_of_ne hname]
      cases hv : literalOf? v <;> simp [hv, Block.slot?_modifySlot, hname]

/-- Setting literal texts changes nothing but the inputs. -/
theorem setLiterals_eq (inputs : Members) (b : Block) :
    setLiterals b inputs = { b with slots := (setLiterals b inputs).slots } := by
  induction inputs generalizing b with
  | nil => rfl
  | cons entry inputs ih =>
    rw [setLiterals, List.foldl_cons]
    refine (ih _).trans ?_
    cases hv : literalOf? entry.2 <;> simp only [hv] <;> rfl

theorem literalOf?_slotRecord (s : Slot) : literalOf? (slotRecord s) = some s.literal := by
  have hliteral : ((Json.str s.literal).orElse (.str "")).display = s.literal := by
    by_cases h : s.literal = ""
    · rw [h]
      rfl
    · rw [Json.orElse_of_isTruthy (by simpa [Json.isTruthy] using h), Json.display_str]
  exact congrArg some hliteral

/-- The literal texts of a record, set in new inputs, give the inputs that were recorded
without the blocks over them. -/
theorem slots_setLiterals (hb : (Table.names b.slots).Nodup) {c : Block}
    (hc : c.slots = Table.mapValues b.slots fun _ => {}) :
    (setLiterals c (Table.mapValues b.slots slotRecord)).slots = b.shell.slots := by
  have hinputs : (Table.names (Table.mapValues b.slots slotRecord)).Nodup := by
    simpa using hb
  have hnames : Table.names (setLiterals c (Table.mapValues b.slots slotRecord)).slots =
      Table.names b.slots := by
    simp [(alike_setLiterals _ c).names, hc]
  refine Table.ext_lookup (hnames ▸ hb) ?_ fun name => ?_
  · simp [hnames, Block.shell]
  · refine (slot?_setLiterals hinputs name).trans ?_
    simp only [Block.slot?, hc, Block.shell, Table.lookup_mapValues]
    cases b.slots.lookup name with
    | none => rfl
    | some s => simp [slotRead, literalOf?_slotRecord]

/-! ## The block of a record -/

theorem recordColor_fields (naming : Templates.Naming) (id : BlockId) (hb : b.Recordable) :
    ∃ c, b.color = .str c ∧ recordColor (recordFields naming id b) = .str c := by
  obtain ⟨c, hc, hcolor⟩ := hb.color
  refine ⟨c, hcolor, ?_⟩
  have hmember : Json.member (recordFields naming id b) "color" = .str c := hcolor
  rw [recordColor, hmember, Json.orElse_of_isTruthy (by simpa [Json.isTruthy] using hc)]

/-- The texts that go into a block come from texts. -/
theorem isWritable_recordTexts_fields (hb : b.Recordable) (c : Block) {v : Json}
    (hv : v ∈ recordTexts (recordFields naming id b) c (Table.mapValues b.slots slotRecord)) :
    v.isWritable = true := by
  obtain ⟨color, -, hcolor⟩ := recordColor_fields naming id hb
  simp only [recordTexts, List.mem_cons] at hv
  obtain rfl | rfl | rfl | hv := hv
  · rfl
  · rfl
  · rw [hcolor]
    rfl
  · obtain ⟨⟨name, entry⟩, he, hv⟩ := List.mem_filterMap.1 hv
    obtain ⟨⟨_, s⟩, -, he⟩ := List.mem_map.1 he
    cases he
    dsimp only at hv
    split at hv
    · cases hv
      change ((Json.str s.literal).orElse (.str "")).isWritable = true
      rw [Json.orElse]
      split <;> rfl
    · cases hv

theorem recordDefinition_fields (hn : naming.Literal) (hb : b.Recordable) :
    recordDefinition (recordFields naming id b) b.kind (b.templates.toJson naming).members =
      b.toDefinition := by
  obtain ⟨c, hcolor, hcolor'⟩ := recordColor_fields naming id hb
  have hlabel : (Json.member (recordFields naming id b) "label").display = b.label := rfl
  have hvar : (Json.member (recordFields naming id b) "containerVar").given? = b.containerVar := by
    change (b.containerVar.getD .null).given? = b.containerVar
    cases hk : b.kind.hasBody with
    | true =>
      obtain ⟨v, hv, hvar⟩ := hb.hasBody hk
      rw [hvar, Option.getD_some, Json.given?, if_pos hv]
    | false =>
      rw [hb.noBody hk]
      rfl
  rw [recordDefinition, hlabel, hcolor', hvar, ofMembers_toJson hn hb.templates,
    Json.display_str, ← hcolor]
  rfl

theorem ofDefinition_toDefinition (hb : b.Recordable) (position : Point) :
    Block.ofDefinition b.toDefinition position = .ok {
      b with
      slots := Table.mapValues b.slots fun _ => {}
      nested := []
      parent := .none
      position } := by
  have hvar : b.toDefinition.bodyVar = .ok b.containerVar := by
    cases hk : b.kind.hasBody with
    | true =>
      obtain ⟨v, hv, hvar⟩ := hb.hasBody hk
      simp [Definition.bodyVar, Block.toDefinition, hk, hvar, inferContainerVar, Json.given?, hv,
        Except.map]
    | false => simp [Definition.bodyVar, Block.toDefinition, hk, hb.noBody hk]
  have hslots : (b.toDefinition.inputNames.map fun name => (name, ({} : Slot))) =
      Table.mapValues b.slots fun _ => {} := by
    rw [Definition.inputNames, Block.toDefinition, ← hb.inputs, Table.names, List.map_map]
    rfl
  rw [Block.ofDefinition, hvar, hslots]
  rfl

/-- The record of a block makes the block without its edges. -/
theorem makeBlock_record (hn : naming.Literal) (hb : b.Recordable) (hid : id ≠ "")
    (hnew : r.contains id = false) :
    makeBlock r index (record naming id b) = .ok (r.insert id b.shell.settled) := by
  have hnodup : (Table.names b.slots).Nodup := hb.inputs ▸ Label.nodup_keepFirst _
  have hmembers : recordMembers index (record naming id b) = .ok (recordFields naming id b) := by
    refine recordMembers_ok_iff.2 ⟨rfl, ?_, ?_⟩
    · change (Json.str id).isTruthy = true
      simpa [Json.isTruthy] using hid
    · change (Json.str b.label).isTruthy = true
      simpa [Json.isTruthy] using hb.label
  have hnested : (nestedOf (Json.member (recordFields naming id b) "nestedChildIds")).isSome := by
    change (nestedOf (.arr (b.nested.map .str))).isSome
    cases b.nested <;> rfl
  have hdef := ofDefinition_toDefinition hb b.settled.position
  rw [← recordDefinition_fields hn hb] at hdef
  refine makeBlock_ok_iff.2 ⟨_, _, _, _, _, _, _, hmembers, recordKind_fields, membersOr_obj _ _,
    coordinate_float _, coordinate_float _, membersOr_obj _ _, hnested, hnew, hdef,
    fun v hv => isWritable_recordTexts_fields hb _ hv, ?_⟩
  refine congrArg (r.insert id) ?_
  rw [setLiterals_eq]
  refine Eq.trans ?_ (congrArg (fun slots => { b with
    slots, nested := [], parent := .none, position := b.settled.position })
    (slots_setLiterals hnodup rfl).symm)
  rfl

/-! ## The records of a registry -/

/-- The records of blocks make these blocks without their edges, behind those that are
there. -/
theorem makeBlocks_records_from (hn : naming.Literal) (index : Nat)
    {entries : List (BlockId × Block)} (he : ∀ e ∈ entries, e.1 ≠ "" ∧ e.2.Recordable)
    (hids : (r.ids ++ Table.names entries).Nodup) :
    ∃ made, makeBlocks r index (entries.map fun e => record naming e.1 e.2) = .ok made ∧
      made.entries = r.entries ++ Table.mapValues entries fun b => b.shell.settled := by
  induction entries generalizing r index with
  | nil => exact ⟨r, rfl, (List.append_nil _).symm⟩
  | cons e entries ih =>
    obtain ⟨id, b⟩ := e
    obtain ⟨hid, hb⟩ := he _ (List.mem_cons_self ..)
    have hnew : r.contains id = false := by
      refine Bool.eq_false_iff.2 fun hlive => ?_
      have hm : id ∈ r.ids := Registry.mem_ids_iff.2 hlive
      exact (List.nodup_append.1 hids).2.2 _ hm _ (List.mem_cons_self ..) rfl
    have hids' : ((r.insert id b.shell.settled).ids ++ Table.names entries).Nodup := by
      rw [Registry.ids_insert hnew, List.append_assoc]
      exact hids
    obtain ⟨made, hmade, hentries⟩ :=
      ih (index + 1) (fun f hf => he f (List.mem_cons_of_mem _ hf)) hids'
    refine ⟨made, ?_, ?_⟩
    · exact except_bind_eq_ok.2 ⟨_, makeBlock_record hn hb hid hnew, hmade⟩
    · rw [hentries, Registry.entries_insert hnew, List.append_assoc]
      rfl

/-- A registry without its edges, its blocks settled. -/
def bare (r : Registry) : Registry := r.mapBlocks fun b => b.shell.settled

/-- The first round of reading makes a recorded registry without its edges. -/
theorem makeBlocks_records (hn : naming.Literal) (wf : r.WellFormed)
    (hr : ∀ {id b}, r.get? id = some b → b.Recordable) :
    makeBlocks .empty 0 (records naming r) = .ok (bare r) := by
  have he : ∀ e ∈ r.entries, e.1 ≠ "" ∧ e.2.Recordable := by
    intro e he
    have hb : r.get? e.1 = some e.2 := Registry.get?_eq_some_iff.2 he
    exact ⟨wf.named hb, hr hb⟩
  obtain ⟨⟨entries, hnodup⟩, hmade, hentries⟩ :=
    makeBlocks_records_from (r := .empty) hn 0 he r.nodup
  rw [records, hmade]
  cases hentries
  rfl

theorem recordedBody_fields : recordedBody (recordFields naming id b) = b.nested := by
  change (b.nested.map Json.str).map Json.display = b.nested
  rw [List.map_map]
  exact List.map_id _

theorem recordsInput_fields {slot : String} {child : BlockId} :
    RecordsInput (recordFields naming id b) slot child ↔
      ∃ s, (slot, s) ∈ b.slots ∧ s.child = some child := by
  constructor
  · rintro ⟨inputs, state, v, hi, hm, hv, hne, hd⟩
    have hinputs : inputs = Table.mapValues b.slots slotRecord := (Json.obj.inj hi).symm
    rw [hinputs] at hm
    obtain ⟨⟨name, s⟩, hs, he⟩ := List.mem_map.1 hm
    cases he
    refine ⟨s, hs, ?_⟩
    change Json.ofText? s.child = v at hv
    cases hc : s.child with
    | none =>
      rw [hc] at hv
      exact absurd hv.symm hne
    | some c =>
      rw [hc] at hv
      rw [← hd, ← hv]
      rfl
  · rintro ⟨s, hs, hc⟩
    refine ⟨Table.mapValues b.slots slotRecord,
      [("literal", .str s.literal), ("childId", .str child)], .str child, rfl, ?_, rfl, nofun, rfl⟩
    refine List.mem_map.2 ⟨(slot, s), hs, ?_⟩
    rw [slotRecord, hc]
    rfl

theorem mem_records_iff {members : Members} : Json.obj members ∈ records naming r ↔
    ∃ id b, r.get? id = some b ∧ members = recordFields naming id b := by
  rw [records, List.mem_map]
  constructor
  · rintro ⟨⟨id, b⟩, he, h⟩
    exact ⟨id, b, Registry.get?_eq_some_iff.2 he, (Json.obj.inj h).symm⟩
  · rintro ⟨id, b, hb, rfl⟩
    exact ⟨(id, b), Registry.get?_eq_some_iff.1 hb, rfl⟩

/-- Children are recorded by texts. -/
theorem exists_text_of_mem_childValues {v : Json}
    (hv : v ∈ childValues (recordFields naming id b)) : ∃ child, v = .str child := by
  rw [childValues, List.mem_append] at hv
  obtain hv | hv := hv
  · have hnested : (nestedOf (Json.member (recordFields naming id b) "nestedChildIds")).getD [] =
        b.nested.map .str := by
      change (nestedOf (.arr (b.nested.map .str))).getD [] = b.nested.map .str
      cases b.nested <;> rfl
    rw [hnested] at hv
    obtain ⟨child, -, rfl⟩ := List.mem_map.1 hv
    exact ⟨child, rfl⟩
  · change v ∈ (Table.mapValues b.slots slotRecord).filterMap _ at hv
    obtain ⟨_, he, hv⟩ := List.mem_filterMap.1 hv
    obtain ⟨⟨_, s⟩, -, rfl⟩ := List.mem_map.1 he
    dsimp only [slotRecord] at hv
    cases hc : s.child with
    | none =>
      rw [hc] at hv
      cases hv
    | some child =>
      rw [hc] at hv
      exact ⟨child, (Option.some.inj hv).symm⟩

/-- Reading the records of a registry does not fail for want of a text for a child. -/
theorem registryOf_records_eq (naming : Templates.Naming) (r : Registry) :
    registryOf (.arr (records naming r)) = (do
      let made ← makeBlocks .empty 0 (records naming r)
      (allReferences (records naming r)).foldlM relink made) := by
  have htexts : demandTexts (allChildValues (records naming r)) = .ok () := by
    refine demandTexts_ok_iff.2 fun v hv => ?_
    rw [allChildValues, records, List.flatMap_map] at hv
    obtain ⟨e, -, hv⟩ := List.mem_flatMap.1 hv
    obtain ⟨child, rfl⟩ := @exists_text_of_mem_childValues naming e.1 e.2 v hv
    rfl
  rw [registryOf, htexts]
  rfl

/-- The records of a registry list what its places hold. -/
theorem recorded_records_iff (wf : r.WellFormed) {place : Parent} {x : BlockId} :
    Recorded (records naming r) place x ↔ r.Holds place x := by
  cases place with
  | none => rfl
  | container id =>
    constructor
    · rintro ⟨members, hm, rfl, hx⟩
      obtain ⟨id, b, hb, rfl⟩ := mem_records_iff.1 hm
      rw [recordedBody_fields] at hx
      exact ⟨b, hb, hx⟩
    · rintro ⟨b, hb, hx⟩
      refine ⟨_, mem_records_iff.2 ⟨id, b, hb, rfl⟩, rfl, ?_⟩
      rw [recordedBody_fields]
      exact hx
  | input id slot =>
    have hslot {b : Block} (hb : r.get? id = some b) :
        (∃ s, (slot, s) ∈ b.slots ∧ s.child = some x) ↔ b.childAt? slot = some x := by
      rw [Block.childAt?_eq_some_iff]
      exact exists_congr fun s => and_congr_left fun _ =>
        (Table.lookup_eq_some_iff (wf.slots_nodup hb)).symm
    constructor
    · rintro ⟨members, hm, rfl, hx⟩
      obtain ⟨id, b, hb, rfl⟩ := mem_records_iff.1 hm
      exact ⟨b, hb, (hslot hb).1 (recordsInput_fields.1 hx)⟩
    · rintro ⟨b, hb, hx⟩
      exact ⟨_, mem_records_iff.2 ⟨id, b, hb, rfl⟩, rfl,
        recordsInput_fields.2 ((hslot hb).2 hx)⟩

end Bundle

end Blockwork
