import Blockwork.Bundle.Reader
import Blockwork.Proofs.Registry.Edit

/-!
# Definitions and blocks from records

A definition is read from a record that names its kind and has what it takes.  The first
round of reading blocks makes a block without parent and children for every record, under
the id of the record and in the order of the records.  The text of a value that counts as
given is not empty, so no id is empty.
-/

namespace Blockwork

/-! ## Texts of values -/

namespace Decimal

theorem positional_ne_nil (ds : List Char) (p : Int) : positional ds p ≠ [] := by
  rw [positional]
  split
  · simp
  · dsimp only
    split <;> simp

theorem Layout.text_ne_empty {l : Layout} (hn : l.nan ≠ "") (hi : l.infinity ≠ "") (d : Decoded) :
    l.text d ≠ "" := by
  cases d with
  | nan => exact hn
  | infinite negative => cases negative <;> simp [Layout.text, hi]
  | finite negative m e =>
    have hdigits (d : Digits) : l.digits d ≠ [] := by
      rw [Layout.digits]
      split
      · exact positional_ne_nil _ _
      · simp [Layout.scientific]
    rw [Layout.text]
    split <;> split <;> simp [hdigits]

end Decimal

/-- Only the empty text has no text. -/
theorem Json.display_eq_empty_iff {v : Json} : v.display = "" ↔ v = .str "" := by
  cases v with
  | null => simp [display, inspect]
  | bool b => cases b <;> simp [display, inspect]
  | int n => cases n <;> simp [display, inspect, toString, Int.repr]
  | float x =>
    refine iff_of_false ?_ (by simp)
    change floatText.text (Decimal.decode x) ≠ ""
    exact Decimal.Layout.text_ne_empty (by decide) (by decide) _
  | str s => simp [display_str]
  | arr items => simp [display, inspect]
  | obj members => simp [display, inspect]

/-- A value that counts as given has a text. -/
theorem Json.display_ne_empty {v : Json} (h : v.isTruthy = true) : v.display ≠ "" := by
  rw [Ne, display_eq_empty_iff]
  rintro rfl
  cases h

/-! ## Reading definitions -/

namespace Bundle

variable {r r' : Registry}

/-- The members of a record. -/
abbrev Members := List (String × Json)

theorem lift_ok_iff {α : Type} {x : Except Breakdown α} {a : α} :
    Definition.lift x = .ok a ↔ x = .ok a := by
  cases x <;> simp [Definition.lift, Except.mapError]

theorem kindOf_ok_iff {v : Json} {kind : Kind} :
    Definition.kindOf v = .ok kind ↔ Kind.ofJson? v = some kind := by
  rw [Definition.kindOf]
  cases Kind.ofJson? v <;> simp

/-- What the record of a definition says of its kind. -/
def definitionKind (members : Members) : Json :=
  (Json.member? members "kind").getD ((Json.member? members "type").getD (.str Kind.command.name))

def definitionColor (members : Members) : Json :=
  (Json.member? members "color").getD (.str "#4C97FF")

/-- What it takes to read a definition, and what is read. -/
theorem ofJson_ok_iff {v : Json} {d : Definition} : Definition.ofJson v = .ok d ↔
    ∃ members label kind templates, v = .obj members ∧
      Json.member? members "label" = some label ∧ label.isWritable = true ∧
      Kind.ofJson? (definitionKind members) = some kind ∧
      (definitionColor members).isWritable = true ∧
      Templates.ofJson (Json.member members "templates") = .ok templates ∧
      d = {
        label := label.display
        kind
        color := .str (definitionColor members).display
        templates
        containerVar := (Json.member members "containerVar").given? } := by
  constructor
  · intro h
    cases v with
    | obj members =>
      rw [Definition.ofJson] at h
      cases hlabel : Json.member? members "label" with
      | none =>
        rw [hlabel] at h
        cases h
      | some label =>
        rw [hlabel] at h
        obtain ⟨_, hlabelled, h⟩ := except_bind_eq_ok.1 h
        obtain ⟨kind, hkind, h⟩ := except_bind_eq_ok.1 h
        obtain ⟨_, hcolored, h⟩ := except_bind_eq_ok.1 h
        obtain ⟨templates, htemplates, h⟩ := except_bind_eq_ok.1 h
        exact ⟨members, label, kind, templates, rfl, hlabel,
          demandTexts_ok_iff.1 hlabelled _ (by simp),
          kindOf_ok_iff.1 hkind, demandTexts_ok_iff.1 hcolored _ (by simp [definitionColor]),
          lift_ok_iff.1 htemplates, (Except.ok.inj h).symm⟩
    | _ => cases h
  · rintro ⟨members, label, kind, templates, rfl, hlabel, hlabelled, hkind, hcolored, htemplates,
      rfl⟩
    rw [Definition.ofJson, hlabel]
    exact except_bind_eq_ok.2 ⟨(), demandTexts_ok_iff.2 (by simp [hlabelled]), except_bind_eq_ok.2
      ⟨kind, kindOf_ok_iff.2 hkind, except_bind_eq_ok.2 ⟨(), demandTexts_ok_iff.2
        (by simpa [definitionColor] using hcolored), except_bind_eq_ok.2
          ⟨templates, lift_ok_iff.2 htemplates, rfl⟩⟩⟩⟩

theorem atIndex_ok_iff {α : Type} {index : Nat} {x : Except Fault α} {a : α} :
    atIndex index x = .ok a ↔ x = .ok a := by
  rcases x with f | b
  · cases f <;> simp [atIndex]
  · rfl

/-! ## Making blocks -/

theorem alike_setLiterals (inputs : List (String × Json)) (b : Block) :
    Registry.Alike b (setLiterals b inputs) := by
  induction inputs generalizing b with
  | nil => exact .refl b
  | cons entry inputs ih =>
    rw [setLiterals, List.foldl_cons]
    refine Registry.Alike.trans ?_ (ih _)
    dsimp only
    split
    · exact Registry.alike_setLiteral _ _ b
    · exact .refl b

def recordDefinition (members : Members) (kind : Kind) (templates : Members) : Definition where
  label := (Json.member members "label").display
  kind := kind
  color := .str (recordColor members).display
  templates := .ofMembers templates
  containerVar := (Json.member members "containerVar").given?

/-- The values whose texts go into the block of a record. -/
def recordTexts (members : Members) (b : Block) (inputs : Members) : List Json :=
  Json.member members "id" :: Json.member members "label" :: recordColor members ::
    literalValues b inputs

/-- What it takes to make the block of a record, and what is made. -/
theorem makeBlock_ok_iff {index : Nat} {v : Json} :
    makeBlock r index v = .ok r' ↔
      ∃ members kind templates x y inputs b, recordMembers index v = .ok members ∧
        recordKind index members = .ok kind ∧
        membersOr (recordFault index .templates) (Json.member members "templates") = .ok templates ∧
        coordinate index (Json.member members "x") = .ok x ∧
        coordinate index (Json.member members "y") = .ok y ∧
        membersOr (recordFault index .inputs) (Json.member members "inputs") = .ok inputs ∧
        (nestedOf (Json.member members "nestedChildIds")).isSome = true ∧
        r.contains (recordId members) = false ∧
        Block.ofDefinition (recordDefinition members kind templates) ⟨x, y⟩ = .ok b ∧
        (∀ v ∈ recordTexts members b inputs, v.isWritable = true) ∧
        r' = r.insert (recordId members) (setLiterals b inputs) := by
  unfold makeBlock
  simp only [except_bind_eq_ok]
  constructor
  · rintro ⟨members, hm, kind, hk, templates, ht, _, hlook, x, hx, y, hy, inputs, hi, h⟩
    cases hn : nestedOf (Json.member members "nestedChildIds") with
    | none =>
      rw [hn] at h
      cases h
    | some nested =>
      rw [hn, if_neg (by simp)] at h
      obtain ⟨_, hid, h⟩ := except_bind_eq_ok.1 h
      cases hc : r.contains (recordId members) with
      | true =>
        rw [hc] at h
        cases h
      | false =>
        rw [hc, if_neg (by simp)] at h
        obtain ⟨b, hb, h⟩ := except_bind_eq_ok.1 h
        obtain ⟨_, hliterals, hr⟩ := except_bind_eq_ok.1 h
        refine ⟨members, kind, templates, x, y, inputs, b, hm, hk, ht, hx, hy, hi, hn ▸ rfl, hc,
          lift_ok_iff.1 hb, ?_, (Except.ok.inj hr).symm⟩
        refine List.forall_mem_cons.2 ⟨demandTexts_ok_iff.1 hid _ (by simp), ?_⟩
        refine List.forall_mem_cons.2 ⟨demandTexts_ok_iff.1 hlook _ (by simp), ?_⟩
        exact List.forall_mem_cons.2 ⟨demandTexts_ok_iff.1 hlook _ (by simp),
          demandTexts_ok_iff.1 hliterals⟩
  · rintro ⟨members, kind, templates, x, y, inputs, b, hm, hk, ht, hx, hy, hi, hn, hc, hb, htexts,
      rfl⟩
    obtain ⟨hid, hlabel, hcolor, hliterals⟩ :
        (Json.member members "id").isWritable = true ∧
          (Json.member members "label").isWritable = true ∧
          (recordColor members).isWritable = true ∧
          ∀ v ∈ literalValues b inputs, v.isWritable = true := by
      simpa [recordTexts] using htexts
    refine ⟨members, hm, kind, hk, templates, ht, (), demandTexts_ok_iff.2 (by simp [*]), x, hx, y,
      hy, inputs, hi, ?_⟩
    rw [if_neg (by simpa [Option.isSome_iff_ne_none] using hn), if_neg (by simp [hc])]
    exact except_bind_eq_ok.2 ⟨(), demandTexts_ok_iff.2 (by simp [hid]), except_bind_eq_ok.2
      ⟨b, lift_ok_iff.2 hb, except_bind_eq_ok.2 ⟨(), demandTexts_ok_iff.2 hliterals, rfl⟩⟩⟩

theorem recordMembers_ok_iff {index : Nat} {v : Json} {members : Members} :
    recordMembers index v = .ok members ↔ v = .obj members ∧
      (Json.member members "id").isTruthy = true ∧
      (Json.member members "label").isTruthy = true := by
  unfold recordMembers
  cases v with
  | obj ms =>
    simp only [Json.obj.injEq]
    split
    · next h =>
      rw [Bool.and_eq_true] at h
      simp only [Except.ok.injEq]
      refine ⟨?_, fun h => h.1⟩
      rintro rfl
      exact ⟨rfl, h⟩
    · next h =>
      refine ⟨nofun, ?_⟩
      rintro ⟨rfl, hid, hlabel⟩
      simp [hid, hlabel] at h
  | _ => exact ⟨nofun, nofun⟩

theorem membersOr_ok_iff {index : Nat} {cause : RecordFault} {v : Json} {members : Members} :
    membersOr (recordFault index cause) v = .ok members ↔
      (v.isTruthy = true → v = .obj members) ∧ (v.isTruthy = false → members = []) := by
  unfold membersOr
  cases ht : v.isTruthy with
  | false => simp [eq_comm]
  | true =>
    cases v with
    | obj ms => simp
    | _ => simp [recordFault]

/-- The blocks of records have neither parents nor children, and the ids of the
records. -/
theorem makeBlocks_ok {index : Nat} {items : List Json} (h : makeBlocks r index items = .ok r')
    (hr : r.Loose) :
    r'.Loose ∧ ∃ records : List Members,
      items = records.map .obj ∧ r'.ids = r.ids ++ records.map recordId := by
  induction items generalizing r index with
  | nil =>
    cases h
    exact ⟨hr, [], rfl, by simp⟩
  | cons v vs ih =>
    obtain ⟨r₁, h₁, hrest⟩ := except_bind_eq_ok.1 h
    obtain ⟨members, kind, templates, x, y, inputs, b, hm, -, -, -, -, -, -, hnew, hb, -, rfl⟩ :=
      makeBlock_ok_iff.1 h₁
    obtain ⟨rfl, hid, -⟩ := recordMembers_ok_iff.1 hm
    have hloose : (setLiterals b inputs).Loose :=
      (Block.loose_ofDefinition hb).of_alike (alike_setLiterals inputs b)
    obtain ⟨hr', records, rfl, hids⟩ := ih hrest (hr.insert (Json.display_ne_empty hid) hloose)
    refine ⟨hr', members :: records, rfl, ?_⟩
    rw [hids, Registry.ids_insert hnew]
    simp

theorem bodiesNamed_makeBlocks {index : Nat} {items : List Json}
    (h : makeBlocks r index items = .ok r') (hr : r.BodiesNamed) : r'.BodiesNamed := by
  induction items generalizing r index with
  | nil =>
    cases h
    exact hr
  | cons v vs ih =>
    obtain ⟨r₁, h₁, hrest⟩ := except_bind_eq_ok.1 h
    obtain ⟨_, _, _, _, _, inputs, b, -, -, -, -, -, -, -, -, hb, -, rfl⟩ := makeBlock_ok_iff.1 h₁
    have halike := alike_setLiterals inputs b
    have hnamed : (setLiterals b inputs).BodyNamed :=
      (Block.bodyNamed_ofDefinition hb).congr halike.kind halike.containerVar
    exact ih hrest (hr.insert hnamed)

end Bundle

end Blockwork
