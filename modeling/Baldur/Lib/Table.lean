import Mathlib.Data.List.Nodup

/-!
Tables of records that carry their own key, in insertion order and no key twice. Writing a record replaces
the one stored under its key in place, or appends it.
-/

@[ext] structure Table (κ ν : Type) (key : ν → κ) where
  entries : List ν
  distinct : (entries.map key).Nodup

namespace Table

open List

variable {κ ν : Type} [DecidableEq κ] {key : ν → κ}

def writeEntry (key : ν → κ) (value : ν) : List ν → List ν
  | [] => [value]
  | entry :: rest =>
      if key entry = key value then value :: rest else entry :: writeEntry key value rest

theorem key_writeEntry (key : ν → κ) (value : ν) (k : κ) : ∀ entries,
    k ∈ (writeEntry key value entries).map key ↔ k = key value ∨ k ∈ entries.map key := by
  intro entries
  induction entries with
  | nil => simp [writeEntry]
  | cons entry rest ih =>
    simp only [writeEntry]
    split
    · rename_i same
      simp [same]
    · simp only [map_cons, mem_cons, ih]
      exact or_left_comm

theorem nodup_writeEntry (key : ν → κ) (value : ν) : ∀ entries,
    (entries.map key).Nodup → ((writeEntry key value entries).map key).Nodup := by
  intro entries distinct
  induction entries with
  | nil => simp [writeEntry]
  | cons entry rest ih =>
    simp only [map_cons, nodup_cons] at distinct
    simp only [writeEntry]
    split
    · rename_i same
      simpa [← same] using distinct
    · rename_i different
      simp only [map_cons, nodup_cons]
      refine ⟨?_, ih distinct.2⟩
      rw [key_writeEntry]
      rintro (same | member)
      · exact different same
      · exact distinct.1 member

def empty : Table κ ν key :=
  ⟨[], by simp⟩

def find (table : Table κ ν key) (k : κ) : Option ν :=
  table.entries.find? (fun entry => key entry = k)

def put (table : Table κ ν key) (value : ν) : Table κ ν key :=
  ⟨writeEntry key value table.entries, nodup_writeEntry key value table.entries table.distinct⟩

theorem key_of_find {table : Table κ ν key} {k : κ} {value : ν}
    (found : table.find k = some value) : key value = k := by
  simpa using find?_some found

@[simp] theorem find_empty (k : κ) : (empty : Table κ ν key).find k = none := by
  rfl

variable (table : Table κ ν key) (value : ν)

theorem find_put (k : κ) : (table.put value).find k = if key value = k then some value else table.find k := by
  obtain ⟨entries, distinct⟩ := table
  simp only [find, put]
  induction entries with
  | nil => by_cases wanted : key value = k <;> simp [writeEntry, wanted]
  | cons entry rest ih =>
    simp only [map_cons, nodup_cons] at distinct
    have tail := ih distinct.2
    simp only [writeEntry]
    by_cases same : key entry = key value
    · by_cases wanted : key value = k <;> simp [same, wanted]
    · by_cases wanted : key entry = k
      · have other : key value ≠ k := fun hit => same (wanted.trans hit.symm)
        simp [wanted, other.symm, other]
      · simp [same, wanted, tail]

@[simp] theorem find_put_self : (table.put value).find (key value) = some value := by
  simp [find_put]

theorem entries_put_ne_nil : (table.put value).entries ≠ [] := by
  intro none
  have found := find_put_self table value
  simp [find, none] at found

theorem mem_entries_iff : value ∈ table.entries ↔ table.find (key value) = some value := by
  constructor
  · intro member
    cases found : table.find (key value) with
    | none =>
      have absent := find?_eq_none.mp found value member
      simp at absent
    | some =>
      have same := inj_on_of_nodup_map table.distinct (mem_of_find?_eq_some found) member (key_of_find found)
      rw [same]
  · intro found
    exact mem_of_find?_eq_some found

theorem entries_split {table : Table κ ν key} {k : κ} {value : ν} (found : table.find k = some value) :
    ∃ firsts lasts, table.entries = firsts ++ value :: lasts ∧ (∀ other ∈ firsts, key other ≠ k) ∧
      ∀ other ∈ lasts, key other ≠ k := by
  have named : key value = k := key_of_find found
  obtain ⟨firsts, lasts, split⟩ := append_of_mem (mem_of_find?_eq_some found)
  have distinct := table.distinct
  rw [split, map_append, map_cons, nodup_append] at distinct
  obtain ⟨_, rest, apart⟩ := distinct
  refine ⟨firsts, lasts, split, fun other member same => ?_, fun other member same => ?_⟩
  · exact apart _ (mem_map_of_mem member) _ mem_cons_self (same.trans named.symm)
  · refine (nodup_cons.mp rest).1 ?_
    rw [named, ← same]
    exact mem_map_of_mem member

def erase (table : Table κ ν key) (k : κ) : Table κ ν key :=
  ⟨table.entries.filter (fun entry => key entry ≠ k), table.distinct.sublist (List.filter_sublist.map key)⟩

theorem find_erase (k other : κ) : (table.erase k).find other = if k = other then none else table.find other := by
  simp only [find, erase, find?_filter]
  by_cases same : k = other
  · subst same
    simp
  · rw [if_neg same]
    congr 1
    funext entry
    by_cases wanted : key entry = other
    · simp [wanted, Ne.symm same]
    · simp [wanted]

theorem mem_put_iff (other : ν) :
    other ∈ (table.put value).entries ↔ other = value ∨ other ∈ table.entries ∧ key other ≠ key value := by
  rw [mem_entries_iff, find_put, mem_entries_iff]
  by_cases same : key value = key other
  · simp [same, eq_comm]
  · have different : other ≠ value := fun equal => same (equal ▸ rfl)
    simp [same, different, Ne.symm same]

theorem mem_erase_iff (k : κ) (other : ν) :
    other ∈ (table.erase k).entries ↔ other ∈ table.entries ∧ key other ≠ k := by
  simp [erase]

instance [DecidableEq ν] : DecidableEq (Table κ ν key) := fun first second =>
  decidable_of_iff (first.entries = second.entries) ⟨Table.ext, congrArg entries⟩

def update (table changes : Table κ ν key) : Table κ ν key :=
  changes.entries.foldl put table

theorem find_foldl_put (rewrites : ν → Bool) (rewrite : ν → ν) (kept : ∀ value, key (rewrite value) = key value)
    (items : List ν) (distinct : (items.map key).Nodup) (table : Table κ ν key) (k : κ) :
    (items.foldl (fun table value => if rewrites value then table.put (rewrite value) else table) table).find k =
      match items.find? (fun value => key value = k) with
      | none => table.find k
      | some value => if rewrites value then some (rewrite value) else table.find k := by
  induction items generalizing table with
  | nil => rfl
  | cons value rest ih =>
    simp only [map_cons, nodup_cons] at distinct
    rw [foldl_cons, ih distinct.2]
    by_cases wanted : key value = k
    · have absent : rest.find? (fun other => key other = k) = none := by
        rw [find?_eq_none]
        intro other member same
        refine distinct.1 ?_
        rw [wanted, ← of_decide_eq_true same]
        exact mem_map_of_mem member
      simp only [absent, find?_cons, wanted, decide_true]
      split
      · rw [find_put, kept, if_pos wanted]
      · rfl
    · have skip : (if rewrites value then table.put (rewrite value) else table).find k = table.find k := by
        split
        · rw [find_put, kept, if_neg wanted]
        · rfl
      simp only [find?_cons, wanted, decide_false, skip]

theorem find_putAll (items : List ν) (distinct : (items.map key).Nodup) (table : Table κ ν key) (k : κ) :
    (items.foldl put table).find k = (items.find? fun value => key value = k).or (table.find k) := by
  have put := find_foldl_put (fun _ => true) id (fun _ => rfl) items distinct table k
  simp only [if_true, id] at put
  rw [put]
  cases items.find? fun value => key value = k <;> rfl

theorem find_update (changes : Table κ ν key) (k : κ) :
    (table.update changes).find k = (changes.find k).or (table.find k) := by
  exact find_putAll changes.entries changes.distinct table k

theorem writeEntry_of_fresh {value : ν} {entries : List ν} (fresh : key value ∉ entries.map key) :
    writeEntry key value entries = entries ++ [value] := by
  induction entries with
  | nil => rfl
  | cons entry rest ih =>
    simp only [map_cons, mem_cons, not_or] at fresh
    rw [writeEntry, if_neg (Ne.symm fresh.1), ih fresh.2, cons_append]

theorem entries_putAll {items : List ν} (distinct : (items.map key).Nodup) {table : Table κ ν key}
    (fresh : ∀ item ∈ items, key item ∉ table.entries.map key) :
    (items.foldl put table).entries = table.entries ++ items := by
  induction items generalizing table with
  | nil => simp
  | cons item rest ih =>
    simp only [map_cons, nodup_cons] at distinct
    have written : (table.put item).entries = table.entries ++ [item] :=
      writeEntry_of_fresh (fresh item mem_cons_self)
    rw [foldl_cons, ih distinct.2, written, append_assoc, singleton_append]
    intro other member
    rw [written, map_append, mem_append, not_or]
    refine ⟨fresh other (mem_cons_of_mem _ member), ?_⟩
    intro same
    rw [map_singleton, mem_singleton] at same
    exact distinct.1 (same ▸ mem_map_of_mem member)

theorem entries_update_of_fresh {table changes : Table κ ν key}
    (fresh : ∀ item ∈ changes.entries, key item ∉ table.entries.map key) :
    (table.update changes).entries = table.entries ++ changes.entries := by
  exact entries_putAll changes.distinct fresh

theorem entries_update_ne_nil {changes : Table κ ν key} (filled : changes.entries ≠ []) :
    (table.update changes).entries ≠ [] := by
  intro nothing
  obtain ⟨value, member⟩ := exists_mem_of_ne_nil _ filled
  have found := find_update table changes (key value)
  rw [(changes.mem_entries_iff value).mp member, Option.some_or] at found
  rw [find, nothing] at found
  cases found

theorem update_of_nil {table : Table κ ν key} (empty : table.entries = []) (changes : Table κ ν key) :
    table.update changes = changes := by
  apply Table.ext
  rw [entries_update_of_fresh (by simp [empty]), empty, nil_append]

end Table
