import Blockwork.Web.Handler
import Blockwork.Proofs.Json.Writable
import Blockwork.Proofs.Workspace.FaultMessages
import Blockwork.Proofs.Workspace.PaletteValid

/-!
# What can be taken from outside

Fields and drafts come from outside as values of any shape.  Most values of the wrong shape
are refused with a message.  Some are not: a number beyond the doubles, an infinite index,
and a label or a template in a draft that is no text.  Here are the conditions that leave
them out, each for what is read, and nothing else breaks the reading down.  A block can be
made from a definition unless its templates are no texts and the name of its body
placeholder has to be found in them.
-/

namespace Blockwork

/-! ## Numbers -/

namespace Json

variable {v : Json} {e : Breakdown}

/-- A value that is no number of one kind or another. -/
theorem toFloat_error (h : v.toFloat = .error e) (hne : e ≠ .overflow) :
    e = .wrongType ∨ e = .badValue := by
  cases v with
  | bool b => cases h
  | float x => cases h
  | int n =>
    rw [toFloat] at h
    split at h <;> cases h
    exact absurd rfl hne
  | str s =>
    rw [toFloat] at h
    split at h <;> cases h
    exact .inr rfl
  | null | arr _ | obj _ =>
    cases h
    exact .inl rfl

theorem toInt_error (h : v.toInt = .error e) (hne : e ≠ .overflow) :
    e = .wrongType ∨ e = .badValue := by
  cases v with
  | bool b => cases h
  | int n => cases h
  | float x =>
    rw [toInt] at h
    split at h <;> cases h
    · exact .inr rfl
    · exact absurd rfl hne
  | str s =>
    rw [toInt] at h
    split at h <;> cases h
    exact .inr rfl
  | null | arr _ | obj _ =>
    cases h
    exact .inl rfl

end Json

/-! ## Fields -/

namespace Web

variable {α : Type} {members : List (String × Json)} {name : String} {payload : Json}

/-- All that is asked of a body has a text, since the body is a text itself. -/
theorem Request.isWritable_payload (r : Request) : r.payload.isWritable = true := by
  rw [payload, json?]
  split
  · cases hbody : Json.parseBytes? r.body with
    | none => rfl
    | some v =>
      rw [Option.bind_some, Json.given?]
      split
      · exact Json.isWritable_parseBytes? hbody
      · rfl
  · rfl

theorem gives_field? (members : List (String × Json)) (name : String) :
    Gives (field? (.obj members) name) fun v => v = Json.member? members name := .ok rfl

theorem gives_field (members : List (String × Json)) (name : String) :
    Gives (field (.obj members) name) fun v => v = Json.member members name := .ok rfl

theorem gives_numeric {fault : RequestFault} {r : Except Breakdown α}
    (h : ∀ e, r = .error e → e = .wrongType ∨ e = .badValue) :
    Gives (numeric fault r) fun a => r = .ok a := by
  cases r with
  | ok a => exact .ok rfl
  | error e => rcases h e rfl with rfl | rfl <;> exact .error rfl

theorem gives_toFloat {fault : RequestFault} {v : Json} (h : v.toFloat ≠ .error .overflow) :
    Gives (numeric fault v.toFloat) fun _ => True := by
  refine (gives_numeric fun e he => Json.toFloat_error he ?_).mono fun _ _ => trivial
  rintro rfl
  exact h he

theorem gives_toInt {fault : RequestFault} {v : Json} (h : v.toInt ≠ .error .overflow) :
    Gives (numeric fault v.toInt) fun i => v.toInt = .ok i := by
  refine gives_numeric fun e he => Json.toInt_error he ?_
  rintro rfl
  exact h he

theorem gives_coordinate (h : (Json.member members name).toFloat ≠ .error .overflow)
    (default : Float) : Gives (coordinate (.obj members) name default) fun _ => True := by
  refine (gives_field? members name).bind fun v hv => ?_
  rw [Json.member, ← hv] at h
  cases v with
  | none => exact .ok trivial
  | some v => exact gives_toFloat h

theorem gives_index (h : (Json.member members name).toInt ≠ .error .overflow) :
    Gives (index (.obj members) name) fun i => (Json.member members name).toInt = .ok i :=
  gives_toInt h

/-- The coordinates of a pointer, if they are numbers, are within the doubles. -/
structure FitsPointer (payload : Json) : Prop where
  x : ∀ members, payload = .obj members → (Json.member members "x").toFloat ≠ .error .overflow
  y : ∀ members, payload = .obj members → (Json.member members "y").toFloat ≠ .error .overflow

theorem gives_pointerField
    (h : ∀ members, payload = .obj members → (Json.member members name).toFloat ≠ .error .overflow) :
    Gives (pointerField payload name) fun _ => True := by
  cases payload with
  | obj members =>
    have h := h members rfl
    rw [Json.member] at h
    rw [pointerField]
    cases hv : Json.member? members name with
    | none => exact .error rfl
    | some v =>
      rw [hv] at h
      exact gives_toFloat h
  | _ => exact .error rfl

theorem gives_pointer (h : FitsPointer payload) : Gives (pointer payload) fun _ => True :=
  (gives_pointerField h.x).bind fun _ _ => (gives_pointerField h.y).bind fun _ _ => .ok trivial

theorem gives_blockId {v : Json} (h : v.isScalar = true) (hw : v.isWritable = true) :
    Gives (blockId v) fun _ => True := by
  unfold blockId
  split
  · exact .ok trivial
  · rw [if_pos h, Fault.naming, if_pos hw]
    exact .error rfl

theorem gives_demandListable {t : Templates} (h : listable t = true) :
    Gives (demandListable t) fun _ => True := by
  rw [demandListable, if_pos h]
  exact .ok trivial

end Web

/-! ## Drafts -/

namespace Definition

theorem gives_lift {α : Type} {x : Except Breakdown α} (h : ∃ a, x = .ok a) :
    Gives (lift x) fun a => x = .ok a := by
  obtain ⟨a, rfl⟩ := h
  exact .ok rfl

theorem gives_kindOf {v : Json} (h : v.isWritable = true) : Gives (kindOf v) fun _ => True := by
  rw [kindOf, Fault.naming, if_pos h]
  cases Kind.ofJson? v with
  | some k => exact .ok trivial
  | none => exact .error rfl

end Definition

namespace Palette

variable {v : Json}

/-- A value that does not count as given, or is a text. -/
def Writes (v : Json) : Prop := v.isTruthy = true → v.IsText

/-- A value that does not count as given, or is an object of such values. -/
def WritesTemplates (v : Json) : Prop :=
  v.isTruthy = true → ∃ members, v = .obj members ∧ ∀ m ∈ members, Writes m.2

theorem exists_trimmed (h : Writes v) : ∃ s, trimmed v = .ok s := by
  unfold trimmed
  cases ht : v.isTruthy with
  | false => exact ⟨"", rfl⟩
  | true =>
    obtain ⟨s, rfl⟩ := h ht
    exact ⟨Unicode.strip s, rfl⟩

/-- The languages of a draft are the names of members, so they can be listed. -/
theorem exists_trimmedTemplates (h : WritesTemplates v) :
    ∃ t, trimmedTemplates v = .ok t ∧ Web.listable t = true := by
  unfold trimmedTemplates
  cases ht : v.isTruthy with
  | false => exact ⟨{}, rfl, rfl⟩
  | true =>
    obtain ⟨members, rfl, hm⟩ := h ht
    have hentries : ∃ entries, (members.mapM fun m => do
        Except.ok (Json.str m.1, Json.str (← trimmed m.2)) : Except Breakdown _) = .ok entries ∧
        ∀ e ∈ entries, Web.isText e.1 = true := by
      clear ht h
      induction members with
      | nil => exact ⟨[], rfl, nofun⟩
      | cons m members ih =>
        obtain ⟨hfirst, hrest⟩ := List.forall_mem_cons.1 hm
        obtain ⟨s, hs⟩ := exists_trimmed hfirst
        obtain ⟨entries, hrun, hkeys⟩ := ih hrest
        refine ⟨(.str m.1, .str s) :: entries, ?_, List.forall_mem_cons.2 ⟨rfl, hkeys⟩⟩
        rw [List.mapM_cons, hs, hrun]
        rfl
    obtain ⟨entries, hrun, hkeys⟩ := hentries
    refine ⟨⟨entries⟩, except_bind_eq_ok.2 ⟨entries, hrun, rfl⟩, ?_⟩
    have hall : (entries.map Prod.fst).all Web.isText = true := by
      rw [List.all_map]
      exact List.all_eq_true.2 hkeys
    rw [Web.listable, hall, Bool.or_true, Bool.true_or]

/-- A draft of texts is added at the end, or it is refused with a message. -/
theorem gives_addDraft {d : Draft} (p : Palette) (hlabel : Writes d.label)
    (hkind : d.kind.isWritable = true) (htemplates : WritesTemplates d.templates) :
    Gives (p.addDraft d) fun added => ∃ definition, added = (p.length, p ++ [definition]) ∧
      Web.listable definition.templates = true := by
  have hdefinition : Gives d.toDefinition fun definition =>
      Web.listable definition.templates = true := by
    obtain ⟨t, ht, hlist⟩ := exists_trimmedTemplates htemplates
    refine .bind (Definition.gives_lift (exists_trimmed hlabel)) fun label _ => ?_
    refine .bind (Definition.gives_kindOf hkind) fun kind _ => ?_
    refine .bind (Definition.gives_lift ⟨t, ht⟩) fun t' ht' => ?_
    cases ht.symm.trans ht'
    exact .ok hlist
  rw [addDraft]
  refine hdefinition.bind fun definition hd => ?_
  unfold add
  split
  · exact .ok ⟨definition, rfl, hd⟩
  · exact .error rfl

end Palette

/-! ## Definitions and blocks -/

/-- A block can be made if it needs no name for its body placeholder, has one, or the name
can be found in its templates. -/
theorem Definition.bodyVar_isOk_iff {d : Definition} : d.bodyVar.isOk = true ↔
    (d.kind.hasBody = true → (∃ v, d.containerVar.bind Json.given? = some v) ∨
      d.templates.allTexts = true) := by
  rw [bodyVar]
  cases d.kind.hasBody with
  | false => exact iff_of_true rfl fun h => absurd h Bool.false_ne_true
  | true =>
    rw [if_pos rfl, inferContainerVar, Templates.allTexts]
    cases d.containerVar.bind Json.given? with
    | some v => exact iff_of_true rfl fun _ => .inl ⟨v, rfl⟩
    | none =>
      cases d.templates.texts? with
      | some texts => exact iff_of_true rfl fun _ => .inr rfl
      | none => simp [Except.map, Except.isOk, Except.toBool]

theorem Block.exists_ofDefinition {d : Definition} (h : d.bodyVar.isOk = true) (position : Point) :
    ∃ b, ofDefinition d position = .ok b ∧ b.templates = d.templates ∧ b.parent = .none := by
  rw [ofDefinition]
  cases hv : d.bodyVar with
  | error e =>
    rw [hv] at h
    cases h
  | ok v => exact ⟨_, rfl, rfl, rfl⟩

end Blockwork
