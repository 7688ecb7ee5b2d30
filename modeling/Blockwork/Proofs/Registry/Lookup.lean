import Mathlib.Data.List.Perm.Basic
import Blockwork.Registry

/-!
# Looking up

A table without repeated names is determined by its names and its lookups, and so
a registry is determined by its ids and its blocks.  An entry of such a table is
found under its name, and what is found under a name is an entry.
-/

namespace Blockwork

namespace Table

variable {α β : Type} {t u : List (String × α)} {name : String} {a : α}

theorem lookup_of_mem (ht : (names t).Nodup) (h : (name, a) ∈ t) : t.lookup name = some a := by
  induction t with
  | nil => cases h
  | cons e es ih =>
    obtain ⟨hne, hes⟩ := List.nodup_cons.1 ht
    rcases List.mem_cons.1 h with rfl | h
    · exact List.lookup_cons_self
    · have hname : name ≠ e.1 := fun he => hne (he ▸ List.mem_map_of_mem h)
      rw [show e = (e.1, e.2) from rfl, lookup_cons_of_ne hname]
      exact ih hes h

theorem lookup_eq_some_iff (ht : (names t).Nodup) : t.lookup name = some a ↔ (name, a) ∈ t :=
  ⟨mem_of_lookup, lookup_of_mem ht⟩

theorem mem_names_iff : name ∈ names t ↔ ∃ a, t.lookup name = some a := by
  rw [← Option.isSome_iff_exists, List.lookup_isSome_iff, names, List.mem_map]
  exact exists_congr fun p => and_congr_right fun _ => by rw [beq_iff_eq, eq_comm]

theorem lookup_eq_none_iff : t.lookup name = none ↔ name ∉ names t := by
  rw [mem_names_iff, Option.eq_none_iff_forall_ne_some, not_exists]

@[simp] theorem names_keep (t : List (String × α)) (p : String → Bool) :
    names (keep t p) = (names t).filter p := by
  rw [names, names, keep, List.filter_map]
  rfl

/-- A name that is new goes to the end. -/
theorem set_of_not_mem (h : name ∉ names t) : set t name a = t ++ [(name, a)] := by
  induction t with
  | nil => rfl
  | cons e es ih =>
    obtain ⟨hne, hes⟩ := not_or.1 (List.mem_cons.not.1 h)
    rw [set, if_neg (Ne.symm hne), ih hes]
    rfl

/-- A table without repeated names is its names with what is looked up. -/
theorem ext_lookup (ht : (names t).Nodup) (hn : names t = names u)
    (hl : ∀ name, t.lookup name = u.lookup name) : t = u := by
  induction t generalizing u with
  | nil => exact (List.map_eq_nil_iff.1 hn.symm).symm
  | cons e es ih =>
    cases u with
    | nil => simp [names] at hn
    | cons f fs =>
      obtain ⟨x, a⟩ := e
      obtain ⟨y, b⟩ := f
      obtain ⟨rfl, hns⟩ : x = y ∧ names es = names fs := by simpa [names] using hn
      obtain ⟨hx, hes⟩ := List.nodup_cons.1 ht
      have hab : a = b := by simpa using hl x
      have hrest : ∀ name, es.lookup name = fs.lookup name := by
        intro name
        by_cases he : name = x
        · have hx' : x ∉ names fs := hns ▸ hx
          rw [he, lookup_eq_none_iff.2 hx, lookup_eq_none_iff.2 hx']
        · simpa [lookup_cons_of_ne he] using hl name
      rw [hab, ih hes hns hrest]

end Table

namespace Registry

variable {r s : Registry} {id : BlockId} {b : Block}

theorem get?_eq_some_iff : r.get? id = some b ↔ (id, b) ∈ r.entries :=
  Table.lookup_eq_some_iff r.nodup

theorem contains_iff : r.contains id = true ↔ ∃ b, r.get? id = some b := by
  rw [contains, Option.isSome_iff_exists]

theorem contains_of_get? (h : r.get? id = some b) : r.contains id = true :=
  contains_iff.2 ⟨b, h⟩

theorem not_contains_iff : ¬ r.contains id = true ↔ r.get? id = none := by
  rw [contains, Option.not_isSome_iff_eq_none]

theorem mem_ids_iff : id ∈ r.ids ↔ r.contains id = true :=
  Table.mem_names_iff.trans contains_iff.symm

theorem require_ok_iff : r.require id = .ok b ↔ r.get? id = some b := by
  cases h : r.get? id <;> simp [require, h]

@[simp] theorem ids_mapBlocks (r : Registry) (f : Block → Block) : (r.mapBlocks f).ids = r.ids :=
  Table.names_mapValues r.entries f

@[simp] theorem contains_mapBlocks (r : Registry) (f : Block → Block) (x : BlockId) :
    (r.mapBlocks f).contains x = r.contains x := by
  simp [contains]

theorem entries_insert (h : r.contains id = false) :
    (r.insert id b).entries = r.entries ++ [(id, b)] := by
  refine Table.set_of_not_mem fun hm => ?_
  rw [mem_ids_iff.1 hm] at h
  cases h

theorem ids_insert (h : r.contains id = false) : (r.insert id b).ids = r.ids ++ [id] := by
  rw [ids, entries_insert h, Table.names, List.map_append]
  rfl

/-- A registry is its ids with their blocks. -/
theorem ext_get? (hi : r.ids = s.ids) (hg : ∀ id, r.get? id = s.get? id) : r = s := by
  have h : r.entries = s.entries := Table.ext_lookup r.nodup hi hg
  cases r
  cases s
  cases h
  rfl

@[simp] theorem ids_length (r : Registry) : r.ids.length = r.size := List.length_map _

/-- There are no more live blocks than the registry has. -/
theorem length_le_size {l : List BlockId} (hn : l.Nodup) (hl : ∀ x ∈ l, r.contains x = true) :
    l.length ≤ r.size := by
  rw [← ids_length]
  exact (List.subperm_of_subset hn fun x hx => mem_ids_iff.2 (hl x hx)).length_le

end Registry

end Blockwork
