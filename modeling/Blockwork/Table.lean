/-!
# Tables

Members of objects, blocks, functions and stored texts are all kept the same way:
as a list of names with what belongs to them, in the order in which the names
came.  A name is looked up with `List.lookup`.  Setting a name that is there keeps
its place, and a name that is set first goes to the end.

The lemmas say what the operations do to the names and to a lookup.
-/

namespace Blockwork.Table

variable {α β : Type}

/-- The names of a table, in order. -/
def names (t : List (String × α)) : List String := t.map Prod.fst

/-- Set what belongs to a name. -/
def set : List (String × α) → String → α → List (String × α)
  | [], name, a => [(name, a)]
  | e :: es, name, a => if e.1 = name then (name, a) :: es else e :: set es name a

/-- Change what belongs to a name, in one entry. -/
def modifyEntry (name : String) (f : α → α) (e : String × α) : String × α :=
  if e.1 = name then (e.1, f e.2) else e

/-- Change what belongs to a name, if it is there. -/
def modify (t : List (String × α)) (name : String) (f : α → α) : List (String × α) :=
  t.map (modifyEntry name f)

/-- Change everything. -/
def mapValues (t : List (String × α)) (f : α → β) : List (String × β) :=
  t.map fun e => (e.1, f e.2)

/-- Keep the names that pass a test. -/
def keep (t : List (String × α)) (p : String → Bool) : List (String × α) :=
  t.filter fun e => p e.1

/-! ## Names -/

@[simp] theorem mem_names_set {t : List (String × α)} {name x : String} {a : α} :
    x ∈ names (set t name a) ↔ x = name ∨ x ∈ names t := by
  induction t with
  | nil => simp [set, names]
  | cons e es ih =>
    simp only [names] at ih ⊢
    by_cases h : e.1 = name
    · simp [set, h]
    · rw [set, if_neg h, List.map_cons, List.mem_cons, ih, List.map_cons, List.mem_cons]
      constructor
      · rintro (h | h | h) <;> simp [h]
      · rintro (h | h | h) <;> simp [h]

theorem nodup_names_set {t : List (String × α)} {name : String} {a : α}
    (h : (names t).Nodup) : (names (set t name a)).Nodup := by
  induction t with
  | nil => simp [set, names]
  | cons e es ih =>
    have hc := List.nodup_cons.1 h
    by_cases he : e.1 = name
    · rw [set, if_pos he]
      exact List.nodup_cons.2 ⟨he ▸ hc.1, hc.2⟩
    · rw [set, if_neg he]
      exact List.nodup_cons.2 ⟨fun hx => (mem_names_set.1 hx).elim he hc.1, ih hc.2⟩

@[simp] theorem modifyEntry_fst (name : String) (f : α → α) (e : String × α) :
    (modifyEntry name f e).1 = e.1 := by
  by_cases h : e.1 = name <;> simp [modifyEntry, h]

@[simp] theorem names_modify (t : List (String × α)) (name : String) (f : α → α) :
    names (modify t name f) = names t := by
  have h : Prod.fst ∘ modifyEntry name f = Prod.fst := funext (modifyEntry_fst name f)
  rw [names, modify, List.map_map, h, names]

@[simp] theorem names_mapValues (t : List (String × α)) (f : α → β) :
    names (mapValues t f) = names t := by
  rw [names, mapValues, List.map_map]
  rfl

theorem nodup_names_keep {t : List (String × α)} (p : String → Bool) (h : (names t).Nodup) :
    (names (keep t p)).Nodup :=
  List.Pairwise.sublist (List.filter_sublist.map Prod.fst) h

/-- An entry after setting is the one that was set or was there before. -/
theorem mem_set {t : List (String × α)} {name : String} {a : α} {e : String × α}
    (h : e ∈ set t name a) : e = (name, a) ∨ e ∈ t := by
  induction t with
  | nil => exact .inl (List.mem_singleton.1 h)
  | cons f t ih =>
    rw [set] at h
    split at h
    · exact (List.mem_cons.1 h).imp_right (List.mem_cons_of_mem _)
    · rcases List.mem_cons.1 h with rfl | h
      · exact .inr (List.mem_cons_self ..)
      · exact (ih h).imp_right (List.mem_cons_of_mem _)

/-! ## Lookup -/

theorem mem_of_lookup {t : List (String × α)} {name : String} {a : α}
    (h : t.lookup name = some a) : (name, a) ∈ t := by
  obtain ⟨l₁, l₂, rfl, -⟩ := List.lookup_eq_some_iff.1 h
  exact List.mem_append_right l₁ (List.mem_cons_self ..)

theorem lookup_cons_of_ne {x y : String} (h : x ≠ y) (a : α) (t : List (String × α)) :
    ((y, a) :: t).lookup x = t.lookup x := by
  have hb : (x == y) = false := by simp [h]
  rw [List.lookup_cons, hb]

@[simp] theorem lookup_set (t : List (String × α)) (name x : String) (a : α) :
    (set t name a).lookup x = if x = name then some a else t.lookup x := by
  induction t with
  | nil =>
    by_cases h : x = name
    · simp [set, h]
    · rw [set, lookup_cons_of_ne h, if_neg h]
  | cons e es ih =>
    obtain ⟨y, b⟩ := e
    by_cases hy : y = name
    · subst hy
      by_cases h : x = y
      · simp [set, h]
      · simp [set, lookup_cons_of_ne h, h]
    · rw [set, if_neg hy]
      by_cases h : x = y
      · subst h
        simp [hy]
      · rw [lookup_cons_of_ne h, lookup_cons_of_ne h, ih]

@[simp] theorem lookup_modify (t : List (String × α)) (name x : String) (f : α → α) :
    (modify t name f).lookup x = if x = name then (t.lookup x).map f else t.lookup x := by
  induction t with
  | nil => simp [modify]
  | cons e es ih =>
    obtain ⟨y, b⟩ := e
    simp only [modify, List.map_cons] at ih ⊢
    by_cases h : x = y
    · subst h
      by_cases hx : x = name <;> simp [modifyEntry, hx]
    · by_cases hy : y = name
      · rw [modifyEntry, if_pos hy, lookup_cons_of_ne h, lookup_cons_of_ne h, ih]
      · rw [modifyEntry, if_neg hy, lookup_cons_of_ne h, lookup_cons_of_ne h, ih]

@[simp] theorem lookup_mapValues (t : List (String × α)) (x : String) (f : α → β) :
    (mapValues t f).lookup x = (t.lookup x).map f := by
  induction t with
  | nil => simp [mapValues]
  | cons e es ih =>
    obtain ⟨y, b⟩ := e
    simp only [mapValues, List.map_cons] at ih ⊢
    by_cases h : x = y
    · simp [h]
    · rw [lookup_cons_of_ne h, lookup_cons_of_ne h, ih]

@[simp] theorem lookup_keep (t : List (String × α)) (p : String → Bool) (x : String) :
    (keep t p).lookup x = if p x then t.lookup x else none := by
  induction t with
  | nil => simp [keep]
  | cons e es ih =>
    obtain ⟨y, b⟩ := e
    simp only [keep] at ih ⊢
    by_cases h : x = y
    · subst h
      by_cases hp : p x = true
      · simp [hp]
      · simp [hp, ih]
    · by_cases hp : p y = true
      · rw [List.filter_cons_of_pos (by exact hp), lookup_cons_of_ne h, lookup_cons_of_ne h, ih]
      · rw [List.filter_cons_of_neg (by exact hp), lookup_cons_of_ne h, ih]

end Blockwork.Table
