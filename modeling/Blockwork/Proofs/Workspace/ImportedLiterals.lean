import Blockwork.Proofs.Json.Writable
import Blockwork.Proofs.Workspace.ImportBundle

/-!
# Literal texts from values

There are two ways for a value to become the literal text of an input.  Setting the input takes
the text of the value, and the empty text for null.  Importing a record takes a value from the
entry of the input: the value that the entry is, or the literal of an entry that is an object,
or else its value.

A value without a text is refused by both.

An entry that is no object does what setting the input does.  One that is an object keeps a
value only if it counts as given.  False, zero, an empty list and an empty object have texts and
do not count as given, so they are lost there, and the input is left empty.
-/

namespace Blockwork

namespace Json

/-- The literal text for a value. -/
def literalText : Json → String
  | .null => ""
  | v => v.display

theorem literalText_of_ne_null {v : Json} (h : v ≠ .null) : v.literalText = v.display := by
  unfold literalText
  split
  · exact absurd rfl h
  · rfl

theorem literalText_eq_empty_iff {v : Json} : v.literalText = "" ↔ v = .null ∨ v = .str "" := by
  by_cases h : v = .null
  · subst h
    simp [literalText]
  · rw [literalText_of_ne_null h, display_eq_empty_iff]
    simp [h]

end Json

namespace Bundle

variable {r r' : Registry} {b : Block} {s : Slot} {v entry : Json} {items : List Json}
variable {record inputs : Members} {index : Nat} {id : BlockId} {name : String}

/-! ## Entries -/

/-- The entry of an input has a value for it. -/
inductive Enters (v : Json) : Json → Prop
  | literal {state : Members} : Json.member? state "literal" = some v → Enters v (.obj state)
  | value {state : Members} : Json.member? state "literal" = none →
      Json.member? state "value" = some v → Enters v (.obj state)
  | plain : (∀ state, v ≠ .obj state) → Enters v v

/-- The value has a text, and the entry does not keep it. -/
def Lost (v entry : Json) : Prop :=
  (∃ state, entry = .obj state) ∧ v.isTruthy = false ∧ v ≠ .null ∧ v ≠ .str ""

/-- The literal text that an entry leaves in a new input. -/
def enteredText (entry : Json) : String := (literalOf? entry).getD ""

theorem enteredText_obj {state : Members}
    (h : (Json.member? state "literal").getD ((Json.member? state "value").getD (.str "")) = v) :
    enteredText (.obj state) = if v.isTruthy then v.literalText else "" := by
  rw [enteredText, literalOf?, literalValue?, h, Option.map_some, Option.getD_some, Json.orElse]
  by_cases hv : v.isTruthy = true
  · rw [if_pos hv, if_pos hv, Json.literalText_of_ne_null]
    rintro rfl
    cases hv
  · rw [if_neg hv, if_neg hv, Json.display_str]

theorem enteredText_plain (h : ∀ state, v ≠ .obj state) : enteredText v = v.literalText := by
  cases v with
  | obj state => exact absurd rfl (h state)
  | _ => rfl

/-- An object leaves the text of its value if it does not lose it. -/
theorem kept_of_obj {state : Members}
    (h : enteredText (.obj state) = if v.isTruthy then v.literalText else "") :
    (enteredText (.obj state) = v.literalText ↔ ¬ Lost v (.obj state)) ∧
      (Lost v (.obj state) → enteredText (.obj state) = "") := by
  have hstate : ∃ state', Json.obj state = .obj state' := ⟨state, rfl⟩
  rw [h, Lost]
  cases v.isTruthy with
  | true =>
    simp only [if_true, Bool.true_eq_false, false_and, and_false, not_false_eq_true,
      false_implies, and_self]
  | false =>
    simp only [Bool.false_eq_true, if_false, hstate, true_and, ne_eq, not_and_or, not_not,
      implies_true, and_true]
    rw [eq_comm, Json.literalText_eq_empty_iff]

/-- An entry leaves the text of its value unless the value is lost. -/
theorem Enters.kept (h : Enters v entry) :
    (enteredText entry = v.literalText ↔ ¬ Lost v entry) ∧
      (Lost v entry → enteredText entry = "") := by
  cases h with
  | literal hl => exact kept_of_obj (enteredText_obj (by rw [hl, Option.getD_some]))
  | value hl hv =>
    exact kept_of_obj (enteredText_obj (by rw [hl, Option.getD_none, hv, Option.getD_some]))
  | plain hv =>
    have hkept : ¬ Lost v v := fun hlost => hlost.1.elim hv
    exact ⟨iff_of_true (enteredText_plain hv) hkept, fun hlost => absurd hlost hkept⟩

/-- A value has a text if what its entry sets has one: what it does not set either counts as
nothing or is null. -/
theorem Enters.isWritable (h : Enters v entry)
    (hentry : ∀ u, literalValue? entry = some u → u.isWritable = true) : v.isWritable = true := by
  have hobj {state : Members} (hstate : ∀ u, literalValue? (.obj state) = some u →
      u.isWritable = true) (hv : (Json.member? state "literal").getD
        ((Json.member? state "value").getD (.str "")) = v) : v.isWritable = true := by
    have hset : literalValue? (.obj state) = some (v.orElse (.str "")) := by
      rw [literalValue?, hv]
    cases ht : v.isTruthy with
    | true => exact Json.orElse_of_isTruthy ht _ ▸ hstate _ hset
    | false => exact Json.isWritable_of_falsy ht
  cases h with
  | literal hl => exact hobj hentry (by rw [hl, Option.getD_some])
  | value hl hv => exact hobj hentry (by rw [hl, Option.getD_none, hv, Option.getD_some])
  | plain hv =>
    cases v with
    | null => rfl
    | obj state => exact absurd rfl (hv state)
    | _ => exact hentry _ rfl

/-! ## Records -/

/-- The inputs of a block have the literal texts of their entries, and there are such texts. -/
def Entered (inputs : Members) (b : Block) : Prop :=
  ∀ name entry, inputs.lookup name = some entry → ∀ s, b.slot? name = some s →
    s.literal = enteredText entry ∧ ∀ v, literalValue? entry = some v → v.isWritable = true

theorem literal_ofDefinition {d : Definition} {position : Point}
    (h : Block.ofDefinition d position = .ok b) (hs : b.slot? name = some s) : s.literal = "" := by
  obtain ⟨v, -, hb⟩ := except_bind_eq_ok.1 h
  cases hb
  obtain ⟨x, -, he⟩ := List.mem_map.1 (Table.mem_of_lookup hs)
  rw [← (Prod.mk.inj he).2]

theorem entered_setLiterals (hi : (Table.names inputs).Nodup)
    (hb : ∀ name s, b.slot? name = some s → s.literal = "")
    (htexts : ∀ v ∈ literalValues b inputs, v.isWritable = true) :
    Entered inputs (setLiterals b inputs) := by
  intro name entry hentry s hs
  rw [slot?_setLiterals hi, hentry] at hs
  obtain ⟨fresh, hfresh, rfl⟩ := Option.map_eq_some_iff.1 hs
  have hempty := hb name fresh hfresh
  refine ⟨?_, fun v hv => htexts v ?_⟩
  · rw [slotRead, Option.bind_some, enteredText]
    cases literalOf? entry with
    | none => exact hempty
    | some text => rfl
  · refine List.mem_filterMap.2 ⟨(name, entry), Table.mem_of_lookup hentry, ?_⟩
    dsimp only
    rw [hfresh, Option.isSome_some, if_pos rfl, hv]

theorem Entered.of_shell {c : Block} (h : Entered inputs b) (hshell : c.shell = b.shell) :
    Entered inputs c := by
  intro name entry hentry s hs
  have hslots : (c.slot? name).map (fun s => { s with child := none }) =
      (b.slot? name).map fun s => { s with child := none } := by
    have := congrArg (fun d => d.slot? name) hshell
    simpa [Block.slot?, Block.shell] using this
  rw [hs] at hslots
  obtain ⟨s', hs', heq⟩ := Option.map_eq_some_iff.1 hslots.symm
  obtain ⟨hliteral, htexts⟩ := h name entry hentry s' hs'
  exact ⟨(congrArg Slot.literal heq).symm.trans hliteral, htexts⟩

/-- The block of a record has the literal texts of the entries. -/
theorem entered_makeBlock (h : makeBlock r index (.obj record) = .ok r')
    (hinputs : Json.member record "inputs" = .obj inputs) (hi : (Table.names inputs).Nodup) :
    ∃ b, r'.get? (recordId record) = some b ∧ Entered inputs b := by
  obtain ⟨members, _, _, _, _, inputs', b, hm, -, -, -, -, hin, -, -, hb, htexts, rfl⟩ :=
    makeBlock_ok_iff.1 h
  obtain ⟨hobj, -, -⟩ := recordMembers_ok_iff.1 hm
  cases hobj
  rw [hinputs, membersOr_obj] at hin
  cases hin
  refine ⟨setLiterals b inputs, by simp, entered_setLiterals hi ?_ ?_⟩
  · exact fun name s hs => literal_ofDefinition hb hs
  · exact fun v hv => htexts v (by simp [recordTexts, hv])

/-- Making a block leaves the ones that are there. -/
theorem get?_makeBlock (h : makeBlock r index v = .ok r') (hb : r.get? id = some b) :
    r'.get? id = some b := by
  obtain ⟨members, _, _, _, _, _, _, -, -, -, -, -, -, -, hnew, -, -, rfl⟩ :=
    makeBlock_ok_iff.1 h
  have hne : id ≠ recordId members := by
    rintro rfl
    simp [Registry.contains, hb] at hnew
  simp [hne, hb]

theorem get?_makeBlocks (h : makeBlocks r index items = .ok r') (hb : r.get? id = some b) :
    r'.get? id = some b := by
  induction items generalizing r index with
  | nil =>
    cases h
    exact hb
  | cons v vs ih =>
    obtain ⟨r₁, h₁, hrest⟩ := except_bind_eq_ok.1 h
    exact ih hrest (get?_makeBlock h₁ hb)

theorem entered_makeBlocks (h : makeBlocks r index items = .ok r') (hrecord : .obj record ∈ items)
    (hinputs : Json.member record "inputs" = .obj inputs) (hi : (Table.names inputs).Nodup) :
    ∃ b, r'.get? (recordId record) = some b ∧ Entered inputs b := by
  induction items generalizing r index with
  | nil => cases hrecord
  | cons v vs ih =>
    obtain ⟨r₁, h₁, hrest⟩ := except_bind_eq_ok.1 h
    rcases List.mem_cons.1 hrecord with rfl | hrecord
    · obtain ⟨b, hb, hentered⟩ := entered_makeBlock h₁ hinputs hi
      exact ⟨b, get?_makeBlocks hrest hb, hentered⟩
    · exact ih hrest hrecord

/-- Attaching leaves the literal texts. -/
theorem entered_registryOf (h : registryOf (.arr items) = .ok r) (hrecord : .obj record ∈ items)
    (hinputs : Json.member record "inputs" = .obj inputs) (hi : (Table.names inputs).Nodup) :
    ∃ b, r.get? (recordId record) = some b ∧ Entered inputs b := by
  obtain ⟨made, records, hmade, -, -, -, -, hrel⟩ := run_of_registryOf h
  obtain ⟨b, hb, hentered⟩ := entered_makeBlocks hmade hrecord hinputs hi
  have hshells : Registry.SameShells made r := hrel.shell.symm
  obtain ⟨c, hc, hshell⟩ := hshells.get? hb
  exact ⟨c, hc, hentered.of_shell hshell.symm⟩

end Bundle

namespace Workspace

open Blockwork.Bundle (Enters Lost payloadMembers? recordId)

variable {σ : Type} {w w' : Workspace σ} {id : BlockId} {b : Block} {s : Slot} {name : String}

/-- Setting an input leaves the text of the value in it. -/
theorem setInput_run (hb : w.board.registry.get? id = some b) (hs : b.slot? name = some s)
    {v : Json} (hv : v.isWritable = true) : ∃ w' c t, setInput id name v w = (.ok (), w') ∧
      w'.board.registry.get? id = some c ∧ c.slot? name = some t ∧ t.literal = v.literalText := by
  have hrequire : require id w = (.ok b, w) :=
    congrArg (·, w) (Registry.require_ok_iff.2 hb)
  let set (s : Slot) : Slot := { s with literal := v.literalText }
  have hrun : setInput id name v w = (.ok (), { w with
      board := { w.board with
        registry := w.board.registry.modify id fun b => b.modifySlot name set }
      changes := w.changes + 1 }) := by
    have htext : demandTexts [v] = .ok () := demandTexts_ok_iff.2 (List.forall_mem_singleton.2 hv)
    refine (run_bind_ok hrequire).trans ?_
    rw [hs, htext]
    cases v <;> rfl
  refine ⟨_, b.modifySlot name set, set s, hrun, ?_, ?_, rfl⟩
  · simp [hb]
  · simp [hs]

variable [Geometry σ]

theorem registryOf_of_importBundle {payload : Json} {imported : Imported}
    {members : Bundle.Members} {items : List Json}
    (himport : importBundle payload w = (.ok imported, w'))
    (hmembers : payloadMembers? payload = some members)
    (hitems : Json.member members "instances" = .arr items) :
    Bundle.registryOf (.arr items) = .ok w'.board.registry := by
  obtain ⟨contents, hread, rfl⟩ := read_of_importBundle himport
  obtain ⟨members', hmembers', -, hpart⟩ := Bundle.parts_of_read hread
  cases hmembers.symm.trans hmembers'
  obtain ⟨layout, journal, hboard⟩ := boardWith_eq w.board contents.registry
  have hreplaced := (Bundle.replaces_of_part hpart w.board.registry).2 (by rw [hitems]; nofun)
  rw [hitems] at hreplaced
  rw [hreplaced, withContents, hboard]

/-- Importing a record leaves in its inputs what setting them to the values of their entries
leaves there, except where a value is lost.  Then the input is empty. -/
theorem importBundle_literals {payload : Json} {imported : Imported}
    {members record inputs : Bundle.Members} {items : List Json}
    (himport : importBundle payload w = (.ok imported, w'))
    (hmembers : payloadMembers? payload = some members)
    (hitems : Json.member members "instances" = .arr items) (hrecord : .obj record ∈ items)
    (hinputs : Json.member record "inputs" = .obj inputs) (hnames : (Table.names inputs).Nodup) :
    ∃ b, w'.board.registry.get? (recordId record) = some b ∧
      ∀ name entry v s, inputs.lookup name = some entry → Enters v entry →
        b.slot? name = some s → ∃ w'' c t, setInput (recordId record) name v w' = (.ok (), w'') ∧
          w''.board.registry.get? (recordId record) = some c ∧ c.slot? name = some t ∧
          t.literal = v.literalText ∧ (s.literal = t.literal ↔ ¬ Lost v entry) ∧
          (Lost v entry → s.literal = "") := by
  have hregistry := registryOf_of_importBundle himport hmembers hitems
  obtain ⟨b, hb, hentered⟩ := Bundle.entered_registryOf hregistry hrecord hinputs hnames
  refine ⟨b, hb, fun name entry v s hentry henters hs => ?_⟩
  obtain ⟨hread, htexts⟩ := hentered name entry hentry s hs
  obtain ⟨w'', c, t, hset, hc, ht, hliteral⟩ := setInput_run hb hs (henters.isWritable htexts)
  refine ⟨w'', c, t, hset, hc, ht, hliteral, ?_⟩
  rw [hliteral, hread]
  exact henters.kept

/-- A record whose first input has the number in an object. -/
def typedRecord : Bundle.Members :=
  [("id", .str "a"), ("label", .str "%x %y"), ("kind", .str "command"),
    ("inputs", .obj [("x", .obj [("literal", .int 0)]), ("y", .int 0)])]

def typedPayload : Json := .obj [("instances", .arr [.obj typedRecord])]

theorem importBundle_literals_typed : ∃ imported w' b,
    importBundle typedPayload sampleWorkspace = (.ok imported, w') ∧
    w'.board.registry.get? "a" = some b ∧
    (∃ s, b.slot? "x" = some s ∧ s.literal = "") ∧
    ∃ s w'' c t, b.slot? "y" = some s ∧ setInput "a" "y" (.int 0) w' = (.ok (), w'') ∧
      w''.board.registry.get? "a" = some c ∧ c.slot? "y" = some t ∧ s.literal = t.literal := by
  obtain ⟨imported, himport⟩ : ∃ imported, importBundle typedPayload sampleWorkspace =
      (.ok imported, (importBundle typedPayload sampleWorkspace).2) := ⟨_, rfl⟩
  obtain ⟨b, hb, hinputs⟩ := importBundle_literals himport rfl rfl
    (List.mem_singleton_self _) rfl (by decide)
  have hslots : ((importBundle typedPayload sampleWorkspace).2.board.registry.get? "a").map
      Block.slots = some [("x", {}), ("y", { literal := "0" })] := rfl
  have hslots : b.slots = [("x", {}), ("y", { literal := "0" })] := by
    change Registry.get? _ "a" = some b at hb
    rw [hb] at hslots
    exact Option.some.inj hslots
  have hx : b.slot? "x" = some {} := by rw [Block.slot?, hslots]; rfl
  have hy : b.slot? "y" = some { literal := "0" } := by rw [Block.slot?, hslots]; rfl
  have hplain : ∀ state, Json.int 0 ≠ .obj state := by simp
  obtain ⟨-, -, -, -, -, -, -, -, hlost⟩ := hinputs "x" _ (.int 0) _ rfl (.literal rfl) hx
  obtain ⟨w'', c, t, hset, hc, ht, -, hkept, -⟩ := hinputs "y" _ (.int 0) _ rfl (.plain hplain) hy
  refine ⟨imported, _, b, himport, hb, ⟨_, hx, hlost ?_⟩, _, w'', c, t, hy, hset, hc, ht, ?_⟩
  · exact ⟨⟨_, rfl⟩, rfl, by simp, by simp⟩
  · exact hkept.2 fun hlost => hlost.1.elim hplain

/-- The number in an object leaves the input empty, and set it leaves a text. -/
theorem not_importBundle_like_setInput :
    ∃ imported w' b s w'' c t, Enters (.int 0) (.obj [("literal", .int 0)]) ∧
      importBundle typedPayload sampleWorkspace = (.ok imported, w') ∧
      w'.board.registry.get? "a" = some b ∧ b.slot? "x" = some s ∧
      setInput "a" "x" (.int 0) w' = (.ok (), w'') ∧
      w''.board.registry.get? "a" = some c ∧ c.slot? "x" = some t ∧ s.literal ≠ t.literal := by
  refine ⟨_, _, _, _, _, _, _, .literal rfl, rfl, rfl, rfl, rfl, rfl, rfl, ?_⟩
  decide

end Workspace

end Blockwork
