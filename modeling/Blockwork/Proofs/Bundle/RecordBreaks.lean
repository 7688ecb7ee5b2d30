import Blockwork.Proofs.Bundle.BreaksBy
import Blockwork.Proofs.Web.Admission

/-!
# Records that break down the reading

A record of a definition or of a block is taken apart step by step, and `DefinitionBreaks` and
`BlockBreaks` list where that breaks down, each case with what has to be in order before it
is reached.  A list of records breaks down at the first one that does, behind records that
can be read.
-/

namespace Blockwork.Bundle

variable {α : Type}

/-! ## What breaks down -/

/-- The record of a definition breaks down the reading. -/
inductive DefinitionBreaks : Json → Breakdown → Prop
  /-- The label has no text. -/
  | label {record : Members} {label : Json} : Json.member? record "label" = some label →
      label.isWritable = false → DefinitionBreaks (.obj record) .badValue
  /-- The kind has no text, so it is none, and no message can name it. -/
  | kind {record : Members} {label : Json} : Json.member? record "label" = some label →
      label.isWritable = true → (definitionKind record).isWritable = false →
      DefinitionBreaks (.obj record) .badValue
  /-- The colour has no text. -/
  | color {record : Members} {label : Json} {kind : Kind} :
      Json.member? record "label" = some label → label.isWritable = true →
      Kind.ofJson? (definitionKind record) = some kind →
      (definitionColor record).isWritable = false → DefinitionBreaks (.obj record) .badValue
  /-- The templates cannot be taken. -/
  | templates {record : Members} {label : Json} {kind : Kind} {e : Breakdown} :
      Json.member? record "label" = some label → label.isWritable = true →
      Kind.ofJson? (definitionKind record) = some kind →
      (definitionColor record).isWritable = true →
      Templates.ofJson (Json.member record "templates") = .error e →
      DefinitionBreaks (.obj record) e

/-- What a record says of the kind of its block. -/
def blockKind (record : Members) : Json :=
  (Json.member record "kind").orElse (Json.member record "type")

/-- What the record of a block has to have before its label and its colour are taken. -/
structure Named (record : Members) (kind : Kind) : Prop where
  id : (Json.member record "id").isTruthy = true
  label : (Json.member record "label").isTruthy = true
  given : (blockKind record).isTruthy = true
  kind : Kind.ofJson? (blockKind record) = some kind
  templates : (Json.member record "templates").isTruthy = true →
    ∃ templates, Json.member record "templates" = .obj templates

/-- What it has to have before its position is looked at. -/
structure Described (record : Members) (kind : Kind) : Prop extends Named record kind where
  labelled : (Json.member record "label").isWritable = true
  colored : (recordColor record).isWritable = true

/-- A coordinate that is a number, or does not count as given. -/
def IsCoordinate (v : Json) : Prop := v.isTruthy = true → ∃ x, v.toFloat = .ok x

/-- What it has to have before its id is taken. -/
structure Placed (record : Members) (kind : Kind) : Prop extends Described record kind where
  x : IsCoordinate (Json.member record "x")
  y : IsCoordinate (Json.member record "y")
  inputs : (Json.member record "inputs").isTruthy = true →
    ∃ inputs, Json.member record "inputs" = .obj inputs
  nested : (Json.member record "nestedChildIds").isTruthy = true →
    ∃ items, Json.member record "nestedChildIds" = .arr items

/-- The body placeholder has no name, and a template to look for one is not a text. -/
def Nameless (record : Members) (kind : Kind) : Prop :=
  kind.hasBody = true ∧ (Json.member record "containerVar").isTruthy = false ∧
    ∃ templates, Json.member record "templates" = .obj templates ∧
      ∃ t ∈ templates, ¬ t.2.IsText

/-- The record of a block breaks down the reading, with the blocks of the records before it. -/
inductive BlockBreaks (r : Registry) : Json → Breakdown → Prop
  /-- The kind has no text, so it is none, and no message can name it. -/
  | kind {record : Members} : (Json.member record "id").isTruthy = true →
      (Json.member record "label").isTruthy = true → (blockKind record).isTruthy = true →
      (blockKind record).isWritable = false → BlockBreaks r (.obj record) .badValue
  /-- The label or the colour has no text. -/
  | look {record : Members} {kind : Kind} {v : Json} : Named record kind →
      v ∈ [Json.member record "label", recordColor record] → v.isWritable = false →
      BlockBreaks r (.obj record) .badValue
  /-- The first coordinate is beyond the doubles. -/
  | x {record : Members} {kind : Kind} : Described record kind →
      (Json.member record "x").toFloat = .error .overflow → BlockBreaks r (.obj record) .overflow
  /-- The second one is. -/
  | y {record : Members} {kind : Kind} : Described record kind →
      IsCoordinate (Json.member record "x") →
      (Json.member record "y").toFloat = .error .overflow → BlockBreaks r (.obj record) .overflow
  /-- The id has no text. -/
  | id {record : Members} {kind : Kind} : Placed record kind →
      (Json.member record "id").isWritable = false → BlockBreaks r (.obj record) .badValue
  /-- The body placeholder has no name that can be found. -/
  | body {record : Members} {kind : Kind} : Placed record kind →
      (Json.member record "id").isWritable = true → r.contains (recordId record) = false →
      Nameless record kind → BlockBreaks r (.obj record) .wrongType
  /-- What is to be the literal of an input has no text. -/
  | literal {record inputs : Members} {kind : Kind} {name : String} {entry v : Json} :
      Placed record kind → (Json.member record "id").isWritable = true →
      r.contains (recordId record) = false → ¬ Nameless record kind →
      Json.member record "inputs" = .obj inputs → (name, entry) ∈ inputs →
      name ∈ Label.inputNames (Json.member record "label").display →
      literalValue? entry = some v → v.isWritable = false → BlockBreaks r (.obj record) .badValue

/-! ## Definitions -/

section Definitions

variable {β : Type} {index : Nat}

theorem ofJson?_of_not_isWritable {v : Json} (h : v.isWritable = false) :
    Kind.ofJson? v = none := by
  rw [Kind.ofJson?, h]
  rfl

theorem atIndex_bind (x : Except Fault α) (f : α → Except Fault β) :
    atIndex index (x >>= f) = atIndex index x >>= fun a => atIndex index (f a) := by
  rcases x with g | a
  · cases g <;> rfl
  · rfl

theorem atIndex_demandTexts (vs : List Json) :
    atIndex index (demandTexts vs) = demandTexts vs := by
  rw [demandTexts]
  split <;> rfl

theorem breaksBy_kindOf (v : Json) : BreaksBy (atIndex index (Definition.kindOf v)) fun e =>
    e = .badValue ∧ v.isWritable = false := by
  rw [Definition.kindOf]
  cases hw : v.isWritable with
  | false =>
    rw [ofJson?_of_not_isWritable hw, Fault.naming, hw]
    exact (BreaksBy.breakdown .badValue).congr fun e => (and_iff_left rfl).symm
  | true =>
    refine sturdy_of_not ?_ fun e h => absurd h.2 (by decide)
    rw [Fault.naming, hw]
    cases Kind.ofJson? v with
    | some kind => exact .ok kind
    | none => exact .payload _

theorem breaksBy_lift (x : Except Breakdown α) :
    BreaksBy (atIndex index (Definition.lift x)) fun e => x = .error e := by
  cases x with
  | ok a => exact sturdy_of_not (.ok a) nofun
  | error e => exact (BreaksBy.breakdown e).congr fun e' => by rw [Except.error.injEq, eq_comm]

theorem breaksBy_definition (index : Nat) (v : Json) :
    BreaksBy (atIndex index (Definition.ofJson v)) (DefinitionBreaks v) := by
  cases v with
  | obj record =>
    rw [Definition.ofJson]
    cases hlabel : Json.member? record "label" with
    | none =>
      refine sturdy_of_not (.payload _) fun e h => ?_
      cases h with
      | label hl | kind hl | color hl | templates hl => cases hlabel.symm.trans hl
    | some label =>
      dsimp only
      simp only [atIndex_bind, atIndex_demandTexts]
      refine (BreaksBy.after_texts fun _ => (breaksBy_kindOf (definitionKind record)).bind
        fun kind _ => .after_texts fun _ =>
          (breaksBy_lift (Templates.ofJson (Json.member record "templates"))).bind_of_sturdy
            fun t _ => .ok _).congr fun e => ?_
      simp only [unwritten_singleton, List.forall_mem_singleton, atIndex_ok_iff, kindOf_ok_iff]
      constructor
      · rintro (⟨rfl, hl⟩ | ⟨hl, ⟨rfl, hk⟩ | ⟨kind, hk, ⟨rfl, hc⟩ | ⟨hc, ht⟩⟩⟩)
        · exact .label hlabel hl
        · exact .kind hlabel hl hk
        · exact .color hlabel hl hk hc
        · exact .templates hlabel hl hk hc ht
      · intro h
        cases h with
        | label hlabel' hl =>
          cases hlabel.symm.trans hlabel'
          exact .inl ⟨rfl, hl⟩
        | kind hlabel' hl hk =>
          cases hlabel.symm.trans hlabel'
          exact .inr ⟨hl, .inl ⟨rfl, hk⟩⟩
        | color hlabel' hl hk hc =>
          cases hlabel.symm.trans hlabel'
          exact .inr ⟨hl, .inr ⟨_, hk, .inl ⟨rfl, hc⟩⟩⟩
        | templates hlabel' hl hk hc ht =>
          cases hlabel.symm.trans hlabel'
          exact .inr ⟨hl, .inr ⟨_, hk, .inr ⟨hc, ht⟩⟩⟩
  | _ =>
    refine sturdy_of_not (.payload _) fun e h => ?_
    cases h

end Definitions

/-- An item of a longer list is its first one, or it is in the rest. -/
theorem exists_append_cons_iff {a : α} {as : List α} {P : List α → α → Prop} :
    (∃ before x after, a :: as = before ++ x :: after ∧ P before x) ↔
      P [] a ∨ ∃ before x after, as = before ++ x :: after ∧ P (a :: before) x := by
  constructor
  · rintro ⟨before, x, after, h, hP⟩
    cases before with
    | nil =>
      cases h
      exact .inl hP
    | cons b before =>
      cases h
      exact .inr ⟨before, x, after, rfl, hP⟩
  · rintro (hP | ⟨before, x, after, rfl, hP⟩)
    · exact ⟨[], a, as, rfl, hP⟩
    · exact ⟨a :: before, x, after, rfl, hP⟩

theorem breaksBy_readDefinitions : ∀ (items : List Json) (index : Nat),
    BreaksBy (readDefinitions index items) fun e => ∃ before v after,
      items = before ++ v :: after ∧ (∀ w ∈ before, ∃ d, Definition.ofJson w = .ok d) ∧
        DefinitionBreaks v e
  | [], _ => sturdy_of_not (.ok _) fun e ⟨before, v, after, h, _⟩ => by simp at h
  | v :: vs, index => by
    refine ((breaksBy_definition index v).bind fun d _ =>
      (breaksBy_readDefinitions vs (index + 1)).bind_of_sturdy fun ds _ =>
        .ok (d :: ds)).congr fun e => ?_
    rw [exists_append_cons_iff]
    constructor
    · rintro (h | ⟨d, hd, before, w, after, rfl, hbefore, h⟩)
      · exact .inl ⟨nofun, h⟩
      · refine .inr ⟨before, w, after, rfl, List.forall_mem_cons.2 ⟨?_, hbefore⟩, h⟩
        exact ⟨d, atIndex_ok_iff.1 hd⟩
    · rintro (⟨-, h⟩ | ⟨before, w, after, rfl, hbefore, h⟩)
      · exact .inl h
      · obtain ⟨⟨d, hd⟩, hbefore⟩ := List.forall_mem_cons.1 hbefore
        exact .inr ⟨d, atIndex_ok_iff.2 hd, before, w, after, rfl, hbefore, h⟩

/-! ## Records of blocks -/

section Records

variable {r : Registry} {record : Members} {kind : Kind} {index : Nat} {v : Json}

theorem overflow_orElse_iff :
    (v.orElse (.float 0.0)).toFloat = .error .overflow ↔ v.toFloat = .error .overflow := by
  rw [Json.orElse]
  cases ht : v.isTruthy with
  | true => rfl
  | false =>
    constructor
    · intro h
      cases h
    · intro h
      cases v with
      | int n =>
        have hn : n = 0 := by simpa [Json.isTruthy] using ht
        subst hn
        exact absurd h (by decide +kernel)
      | bool b => cases h
      | float x => cases h
      | str t =>
        rw [Json.toFloat] at h
        split at h <;> cases h
      | null | arr _ | obj _ => cases h

theorem breaksBy_coordinate (index : Nat) (v : Json) :
    BreaksBy (coordinate index v) fun e => e = .overflow ∧ v.toFloat = .error .overflow := by
  unfold coordinate
  cases hx : (v.orElse (.float 0.0)).toFloat with
  | ok x =>
    refine sturdy_of_not (.ok x) fun e h => ?_
    cases hx.symm.trans (overflow_orElse_iff.2 h.2)
  | error e =>
    by_cases he : e = Breakdown.overflow
    · subst he
      exact (BreaksBy.breakdown _).congr fun e => (and_iff_left (overflow_orElse_iff.1 hx)).symm
    · have hno : ∀ e' : Breakdown, ¬ (e' = .overflow ∧ v.toFloat = .error .overflow) := fun e' h =>
        he (Except.error.inj (hx.symm.trans (overflow_orElse_iff.2 h.2)))
      rcases Json.toFloat_error hx he with rfl | rfl <;> exact sturdy_of_not (.payload _) hno

theorem exists_coordinate_iff : (∃ x, coordinate index v = .ok x) ↔ IsCoordinate v := by
  unfold coordinate IsCoordinate
  rw [Json.orElse]
  cases ht : v.isTruthy with
  | false => exact iff_of_true ⟨_, rfl⟩ fun h => absurd h Bool.false_ne_true
  | true =>
    rw [if_pos rfl]
    cases v.toFloat with
    | ok x => exact iff_of_true ⟨x, rfl⟩ fun _ => ⟨x, rfl⟩
    | error e =>
      constructor
      · rintro ⟨x, hx⟩
        cases e <;> cases hx
      · intro h
        obtain ⟨x, hx⟩ := h rfl
        cases hx

theorem sturdy_recordMembers (index : Nat) (v : Json) : Sturdy (recordMembers index v) := by
  unfold recordMembers
  split
  · split
    · exact .ok _
    · exact .payload _
  · exact .payload _

theorem breaksBy_recordKind (index : Nat) (record : Members) :
    BreaksBy (recordKind index record) fun e => (blockKind record).isTruthy = true ∧
      e = .badValue ∧ (blockKind record).isWritable = false := by
  unfold recordKind blockKind
  dsimp only
  generalize (Json.member record "kind").orElse (Json.member record "type") = v
  cases v.isTruthy with
  | false => exact sturdy_of_not (.payload _) fun e h => absurd h.1 (by decide)
  | true =>
    cases hk : Kind.ofJson? v with
    | none => exact (breaksBy_naming _ _).congr fun e => (and_iff_right rfl).symm
    | some k =>
      refine sturdy_of_not (.ok k) fun e h => ?_
      cases hk.symm.trans (ofJson?_of_not_isWritable h.2.2)

theorem recordKind_ok_iff : recordKind index record = .ok kind ↔
    (blockKind record).isTruthy = true ∧ Kind.ofJson? (blockKind record) = some kind := by
  unfold recordKind blockKind
  dsimp only
  generalize (Json.member record "kind").orElse (Json.member record "type") = v
  cases v.isTruthy with
  | false => exact ⟨nofun, fun h => absurd h.1 (by decide)⟩
  | true =>
    cases Kind.ofJson? v with
    | none => exact ⟨nofun, fun h => nomatch h.2⟩
    | some k => simp

theorem sturdy_membersOr (index : Nat) (cause : RecordFault) (v : Json) :
    Sturdy (membersOr (recordFault index cause) v) := by
  unfold membersOr
  split
  · exact .ok _
  · split
    · exact .ok _
    · exact .payload _

theorem exists_membersOr_iff {cause : RecordFault} :
    (∃ members, membersOr (recordFault index cause) v = .ok members) ↔
      (v.isTruthy = true → ∃ members, v = .obj members) := by
  refine ⟨fun ⟨members, h⟩ ht => ⟨members, (membersOr_ok_iff.1 h).1 ht⟩, fun h => ?_⟩
  cases ht : v.isTruthy with
  | false => exact ⟨[], membersOr_ok_iff.2 ⟨fun h => absurd (ht.symm.trans h) nofun, fun _ => rfl⟩⟩
  | true =>
    obtain ⟨members, hv⟩ := h ht
    exact ⟨members, membersOr_ok_iff.2 ⟨fun _ => hv, fun h => absurd (ht.symm.trans h) nofun⟩⟩

/-- Members that are there come from an object. -/
theorem eq_obj_of_mem {cause : RecordFault} {members : Members} {m : String × Json}
    (h : membersOr (recordFault index cause) v = .ok members) (hm : m ∈ members) :
    v = .obj members := by
  obtain ⟨hgiven, hnone⟩ := membersOr_ok_iff.1 h
  cases ht : v.isTruthy with
  | true => exact hgiven ht
  | false =>
    rw [hnone ht] at hm
    cases hm

theorem isSome_nestedOf_iff :
    (nestedOf v).isSome = true ↔ (v.isTruthy = true → ∃ items, v = .arr items) := by
  unfold nestedOf
  cases v.isTruthy with
  | false => simp
  | true => cases v <;> simp

/-- A record that is named is read up to its label and its colour. -/
theorem Named.reads (hr : Named record kind) (index : Nat) :
    recordMembers index (.obj record) = .ok record ∧ recordKind index record = .ok kind ∧
      ∃ templates, membersOr (recordFault index .templates) (Json.member record "templates") =
        .ok templates :=
  ⟨recordMembers_ok_iff.2 ⟨rfl, hr.id, hr.label⟩, recordKind_ok_iff.2 ⟨hr.given, hr.kind⟩,
    exists_membersOr_iff.2 hr.templates⟩

theorem Described.texts (hr : Described record kind) :
    ∀ v ∈ [Json.member record "label", recordColor record], v.isWritable = true := by
  simp [hr.labelled, hr.colored]

/-- A record that is placed is read up to its id. -/
theorem Placed.reads (hr : Placed record kind) (index : Nat) :
    ∃ x y inputs, coordinate index (Json.member record "x") = .ok x ∧
      coordinate index (Json.member record "y") = .ok y ∧
      membersOr (recordFault index .inputs) (Json.member record "inputs") = .ok inputs ∧
      (nestedOf (Json.member record "nestedChildIds")).isSome = true := by
  obtain ⟨x, hx⟩ := exists_coordinate_iff.2 hr.x
  obtain ⟨y, hy⟩ := exists_coordinate_iff.2 hr.y
  obtain ⟨inputs, hi⟩ := exists_membersOr_iff.2 hr.inputs
  exact ⟨x, y, inputs, hx, hy, hi, isSome_nestedOf_iff.2 hr.nested⟩

/-- Making a block from a definition fails only for want of a name for the body
placeholder. -/
theorem breaksBy_ofDefinition (d : Definition) (position : Point) :
    BreaksBy (Definition.lift (Block.ofDefinition d position)) fun e =>
      e = .wrongType ∧ d.bodyVar.isOk = false := by
  cases hv : d.bodyVar with
  | ok w =>
    rw [Block.ofDefinition, hv]
    refine sturdy_of_not (.ok _) fun e h => ?_
    cases h.2
  | error e =>
    have he : e = .wrongType := by
      rw [Definition.bodyVar, inferContainerVar] at hv
      split at hv
      · split at hv
        · cases hv
        · split at hv
          · cases hv
            rfl
          · cases hv
      · cases hv
    rw [Block.ofDefinition, hv]
    exact (BreaksBy.breakdown e).congr fun e' => by simp [he, Except.isOk, Except.toBool]

theorem bodyVar_recordDefinition {templates : Members}
    (ht : membersOr (recordFault index .templates) (Json.member record "templates") =
      .ok templates) :
    (recordDefinition record kind templates).bodyVar.isOk = false ↔ Nameless record kind := by
  have hname : (∃ v, (recordDefinition record kind templates).containerVar.bind Json.given? =
      some v) ↔ (Json.member record "containerVar").isTruthy = true := by
    rw [recordDefinition, Json.given?]
    cases hv : (Json.member record "containerVar").isTruthy <;> simp [Json.given?, hv]
  have htexts : (recordDefinition record kind templates).templates.allTexts = true ↔
      ∀ t ∈ templates, t.2.IsText := by
    rw [Templates.allTexts_iff, recordDefinition, Templates.values, Templates.ofMembers,
      List.map_map, List.forall_mem_map]
    rfl
  rw [← Bool.not_eq_true, Definition.bodyVar_isOk_iff, hname, htexts, Nameless,
    ← Bool.not_eq_true]
  constructor
  · intro h
    obtain ⟨hk, hno⟩ := Classical.not_imp.1 h
    obtain ⟨hv, hno⟩ := not_or.1 hno
    push Not at hno
    obtain ⟨t, hmem, hno⟩ := hno
    exact ⟨hk, hv, templates, eq_obj_of_mem ht hmem, t, hmem, hno⟩
  · rintro ⟨hk, hv, ts, hts, t, hmem, hno⟩ h
    have hmembers : (.ok ts : Except Fault Members) = .ok templates :=
      (membersOr_obj _ _).symm.trans (hts ▸ ht)
    cases hmembers
    exact hno ((h hk).resolve_left hv t hmem)

theorem not_nameless_of_ofDefinition {templates : Members} {position : Point} {b : Block}
    (ht : membersOr (recordFault index .templates) (Json.member record "templates") =
      .ok templates)
    (hb : Block.ofDefinition (recordDefinition record kind templates) position = .ok b) :
    ¬ Nameless record kind := by
  intro hnameless
  have hvar := (bodyVar_recordDefinition ht).2 hnameless
  obtain ⟨v, hv, -⟩ := except_bind_eq_ok.1 hb
  rw [hv] at hvar
  cases hvar

/-- A new block has the inputs of its label. -/
theorem isSome_slot?_iff {d : Definition} {position : Point} {b : Block} {name : String}
    (h : Block.ofDefinition d position = .ok b) :
    (b.slot? name).isSome = true ↔ name ∈ Label.inputNames d.label := by
  obtain ⟨v, -, hb⟩ := except_bind_eq_ok.1 h
  cases hb
  rw [Option.isSome_iff_exists, Block.slot?, ← Table.mem_names_iff, Table.names, List.map_map]
  simp [Function.comp_def, Definition.inputNames]

/-- The values whose texts become literals are those in the entries of inputs that the block
has. -/
theorem mem_literalValues_iff {inputs templates : Members} {position : Point} {b : Block}
    {u : Json} (h : Block.ofDefinition (recordDefinition record kind templates) position = .ok b) :
    u ∈ literalValues b inputs ↔ ∃ name entry, (name, entry) ∈ inputs ∧
      name ∈ Label.inputNames (Json.member record "label").display ∧
      literalValue? entry = some u := by
  have hlabel : (recordDefinition record kind templates).label =
      (Json.member record "label").display := rfl
  simp only [← hlabel, literalValues, List.mem_filterMap, Prod.exists,
    Option.ite_none_right_eq_some, isSome_slot?_iff h]

/-- What the steps of making a block have read when one of them breaks down. -/
def StepBreaks (r : Registry) (index : Nat) (v : Json) (e : Breakdown) : Prop :=
  ∃ record, recordMembers index v = .ok record ∧
    ((blockKind record).isTruthy = true ∧ e = .badValue ∧ (blockKind record).isWritable = false ∨
    ∃ kind, recordKind index record = .ok kind ∧
    ∃ templates, membersOr (recordFault index .templates) (Json.member record "templates") =
      .ok templates ∧
    (Unwritten [Json.member record "label", recordColor record] e ∨
    (∀ v ∈ [Json.member record "label", recordColor record], v.isWritable = true) ∧
    (e = .overflow ∧ (Json.member record "x").toFloat = .error .overflow ∨
    ∃ x, coordinate index (Json.member record "x") = .ok x ∧
    (e = .overflow ∧ (Json.member record "y").toFloat = .error .overflow ∨
    ∃ y, coordinate index (Json.member record "y") = .ok y ∧
    ∃ inputs, membersOr (recordFault index .inputs) (Json.member record "inputs") =
      .ok inputs ∧
    (nestedOf (Json.member record "nestedChildIds")).isSome = true ∧
    (Unwritten [Json.member record "id"] e ∨
    (∀ v ∈ [Json.member record "id"], v.isWritable = true) ∧
    r.contains (recordId record) = false ∧
    (e = .wrongType ∧ (recordDefinition record kind templates).bodyVar.isOk = false ∨
    ∃ b, Block.ofDefinition (recordDefinition record kind templates) ⟨x, y⟩ = .ok b ∧
    Unwritten (literalValues b inputs) e))))))

theorem breaksBy_steps (r : Registry) (index : Nat) (v : Json) :
    BreaksBy (makeBlock r index v) (StepBreaks r index v) := by
  refine .bind_sturdy (sturdy_recordMembers index v) fun record _ => ?_
  refine .bind (breaksBy_recordKind index record) fun kind _ => ?_
  refine .bind_sturdy (sturdy_membersOr index _ _) fun templates _ => .after_texts fun _ => ?_
  refine .bind (breaksBy_coordinate index _) fun x _ => ?_
  refine .bind (breaksBy_coordinate index _) fun y _ => ?_
  refine .bind_sturdy (sturdy_membersOr index _ _) fun inputs _ => ?_
  cases nestedOf (Json.member record "nestedChildIds") with
  | none => exact sturdy_of_not (.payload _) fun e h => nomatch h.1
  | some nested =>
    rw [if_neg (by simp)]
    refine (BreaksBy.after_texts fun _ => ?_).congr fun e => (and_iff_right rfl).symm
    dsimp only
    cases r.contains (recordId record) with
    | true => exact sturdy_of_not (.payload _) fun e h => nomatch h.1
    | false =>
      refine ((breaksBy_ofDefinition (recordDefinition record kind templates)
        ⟨x, y⟩).bind fun b _ => (breaksBy_demandTexts _).bind_of_sturdy fun _ _ => .ok _).congr
          fun e => ?_
      simp only [lift_ok_iff, true_and]

/-- A record breaks down where one of the steps does, with all that was read before it. -/
theorem BlockBreaks.of_steps {index : Nat} {e : Breakdown} (h : StepBreaks r index v e) :
    BlockBreaks r v e := by
  obtain ⟨record, hm, h⟩ := h
  obtain ⟨rfl, hid, hlabel⟩ := recordMembers_ok_iff.1 hm
  rcases h with ⟨hgiven, rfl, hno⟩ | ⟨kind, hk, templates, ht, h⟩
  · exact .kind hid hlabel hgiven hno
  obtain ⟨hgiven, hkind⟩ := recordKind_ok_iff.1 hk
  have hnamed : Named record kind :=
    ⟨hid, hlabel, hgiven, hkind, fun htruthy => ⟨_, (membersOr_ok_iff.1 ht).1 htruthy⟩⟩
  rcases h with ⟨rfl, v, hv, hno⟩ | ⟨htexts, h⟩
  · exact .look hnamed hv hno
  have hdescribed : Described record kind :=
    { hnamed with labelled := htexts _ (by simp), colored := htexts _ (by simp) }
  rcases h with ⟨rfl, hx⟩ | ⟨x, hx, ⟨rfl, hy⟩ | ⟨y, hy, inputs, hi, hn, h⟩⟩
  · exact .x hdescribed hx
  · exact .y hdescribed (exists_coordinate_iff.1 ⟨x, hx⟩) hy
  have hplaced : Placed record kind :=
    { hdescribed with
      x := exists_coordinate_iff.1 ⟨x, hx⟩
      y := exists_coordinate_iff.1 ⟨y, hy⟩
      inputs := fun htruthy => ⟨_, (membersOr_ok_iff.1 hi).1 htruthy⟩
      nested := isSome_nestedOf_iff.1 hn }
  rw [unwritten_singleton, List.forall_mem_singleton] at h
  rcases h with ⟨rfl, hno⟩ | ⟨hid, hc, ⟨rfl, hvar⟩ | ⟨b, hb, rfl, v, hv, hno⟩⟩
  · exact .id hplaced hno
  · exact .body hplaced hid hc ((bodyVar_recordDefinition ht).1 hvar)
  · obtain ⟨name, entry, hentry, hname, hv⟩ := (mem_literalValues_iff hb).1 hv
    exact .literal hplaced hid hc (not_nameless_of_ofDefinition ht hb) (eq_obj_of_mem hi hentry)
      hentry hname hv hno

/-- A record that breaks down does so in one of the steps, whatever its index. -/
theorem BlockBreaks.steps {e : Breakdown} (h : BlockBreaks r v e) (index : Nat) :
    StepBreaks r index v e := by
  cases h with
  | kind hid hlabel hgiven hno =>
    exact ⟨_, recordMembers_ok_iff.2 ⟨rfl, hid, hlabel⟩, .inl ⟨hgiven, rfl, hno⟩⟩
  | look hr hv hno =>
    obtain ⟨hm, hk, templates, ht⟩ := hr.reads index
    exact ⟨_, hm, .inr ⟨_, hk, templates, ht, .inl ⟨rfl, _, hv, hno⟩⟩⟩
  | x hr hx =>
    obtain ⟨hm, hk, templates, ht⟩ := hr.reads index
    exact ⟨_, hm, .inr ⟨_, hk, templates, ht, .inr ⟨hr.texts, .inl ⟨rfl, hx⟩⟩⟩⟩
  | y hr hx hy =>
    obtain ⟨hm, hk, templates, ht⟩ := hr.reads index
    obtain ⟨x, hx⟩ := exists_coordinate_iff.2 hx
    exact ⟨_, hm, .inr ⟨_, hk, templates, ht, .inr ⟨hr.texts, .inr ⟨x, hx, .inl ⟨rfl, hy⟩⟩⟩⟩⟩
  | id hr hno =>
    obtain ⟨hm, hk, templates, ht⟩ := hr.toNamed.reads index
    obtain ⟨x, y, inputs, hx, hy, hi, hn⟩ := hr.reads index
    exact ⟨_, hm, .inr ⟨_, hk, templates, ht, .inr ⟨hr.texts, .inr ⟨x, hx, .inr ⟨y, hy, inputs,
      hi, hn, .inl (unwritten_singleton.2 ⟨rfl, hno⟩)⟩⟩⟩⟩⟩
  | body hr hid hc hno =>
    obtain ⟨hm, hk, templates, ht⟩ := hr.toNamed.reads index
    obtain ⟨x, y, inputs, hx, hy, hi, hn⟩ := hr.reads index
    have hvar := (bodyVar_recordDefinition ht).2 hno
    exact ⟨_, hm, .inr ⟨_, hk, templates, ht, .inr ⟨hr.texts, .inr ⟨x, hx, .inr ⟨y, hy, inputs,
      hi, hn, .inr ⟨List.forall_mem_singleton.2 hid, hc, .inl ⟨rfl, hvar⟩⟩⟩⟩⟩⟩⟩
  | literal hr hid hc hnamed hobj hentry hname hv hno =>
    obtain ⟨hm, hk, templates, ht⟩ := hr.toNamed.reads index
    obtain ⟨x, y, entries, hx, hy, hi, hn⟩ := hr.reads index
    have hvar := mt (bodyVar_recordDefinition ht).1 hnamed
    obtain ⟨b, hb, -⟩ := Block.exists_ofDefinition (by simpa using hvar) ⟨x, y⟩
    have hentries : (.ok _ : Except Fault Members) = .ok entries :=
      (membersOr_obj _ _).symm.trans (hobj ▸ hi)
    have hvalue := (mem_literalValues_iff hb).2 ⟨_, _, Except.ok.inj hentries ▸ hentry, hname, hv⟩
    exact ⟨_, hm, .inr ⟨_, hk, templates, ht, .inr ⟨hr.texts, .inr ⟨x, hx, .inr ⟨y, hy, entries,
      hi, hn, .inr ⟨List.forall_mem_singleton.2 hid, hc, .inr ⟨b, hb, rfl, _, hvalue, hno⟩⟩⟩⟩⟩⟩⟩

/-- A record makes a block, or it is refused, or it breaks down. -/
theorem breaksBy_makeBlock (r : Registry) (index : Nat) (v : Json) :
    BreaksBy (makeBlock r index v) (BlockBreaks r v) :=
  (breaksBy_steps r index v).congr fun _ => ⟨.of_steps, fun h => h.steps index⟩

theorem breaksBy_makeBlocks : ∀ (items : List Json) (r : Registry) (index : Nat),
    BreaksBy (makeBlocks r index items) fun e => ∃ before v after,
      items = before ++ v :: after ∧
        ∃ made, makeBlocks r index before = .ok made ∧ BlockBreaks made v e
  | [], _, _ => sturdy_of_not (.ok _) fun e ⟨before, v, after, h, _⟩ => by simp at h
  | v :: vs, r, index => by
    refine ((breaksBy_makeBlock r index v).bind fun r' _ =>
      breaksBy_makeBlocks vs r' (index + 1)).congr fun e => ?_
    rw [exists_append_cons_iff]
    constructor
    · rintro (h | ⟨r', hr', before, w, after, rfl, made, hmade, h⟩)
      · exact .inl ⟨r, rfl, h⟩
      · exact .inr ⟨before, w, after, rfl, made, except_bind_eq_ok.2 ⟨r', hr', hmade⟩, h⟩
    · rintro (⟨made, hmade, h⟩ | ⟨before, w, after, rfl, made, hmade, h⟩)
      · cases hmade
        exact .inl h
      · obtain ⟨r', hr', hmade⟩ := except_bind_eq_ok.1 hmade
        exact .inr ⟨r', hr', before, w, after, rfl, made, hmade, h⟩

end Records

end Blockwork.Bundle
