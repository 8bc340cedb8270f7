import Mathlib.Data.List.Nodup
import Mathlib.Data.List.Perm.Basic

/-! Tables with a primary key, and the statements that a transaction is made of. -/

namespace Tables

/-- A table; its key is unique. -/
structure Table (K Row : Type) (key : Row → K) where
  rows : List Row
  nodup : (rows.map key).Nodup

variable {K Row : Type} [DecidableEq K] {key : Row → K}

def Table.empty : Table K Row key := ⟨[], List.nodup_nil⟩

/-- `SELECT … WHERE key = k`. -/
def Table.select (table : Table K Row key) (k : K) : Option Row :=
  table.rows.find? fun row => key row = k

/-- `INSERT`; `none` is an integrity error. -/
def Table.insert (table : Table K Row key) (row : Row) : Option (Table K Row key) :=
  if h : key row ∈ table.rows.map key then none
  else some {
    rows := table.rows ++ [row]
    nodup := by
      rw [List.map_append, List.map_singleton]
      exact table.nodup.append (List.nodup_singleton _) (by simpa using h) }

omit [DecidableEq K] in
theorem map_update_key (rows : List Row) (hit : Row → Bool) {set : Row → Row}
    (hset : ∀ row, key (set row) = key row) :
    (rows.map fun row => if hit row then set row else row).map key = rows.map key := by
  rw [List.map_map]
  refine List.map_congr_left fun row _ => ?_
  simp only [Function.comp_apply]
  split
  · exact hset row
  · rfl

/-- `UPDATE … SET … WHERE key = k AND guard`. -/
def Table.update (table : Table K Row key) (k : K) (guard : Row → Bool) (set : Row → Row)
    (hset : ∀ row, key (set row) = key row) : Table K Row key where
  rows := table.rows.map fun row => if key row = k ∧ guard row then set row else row
  nodup := by
    have h : (table.rows.map fun row => if decide (key row = k ∧ guard row) then set row else row).map
        key = table.rows.map key := map_update_key table.rows _ hset
    simp only [decide_eq_true_eq] at h
    rw [h]
    exact table.nodup

/-- The row count of an `UPDATE` or a `DELETE`. -/
def Table.count (table : Table K Row key) (k : K) (guard : Row → Bool) : Nat :=
  table.rows.countP fun row => decide (key row = k) && guard row

/-- `INSERT … ON CONFLICT(key) DO UPDATE SET …`. -/
def Table.upsert (table : Table K Row key) (row : Row) (set : Row → Row)
    (hset : ∀ row, key (set row) = key row) : Table K Row key :=
  (table.insert row).getD (table.update (key row) (fun _ => true) set hset)

/-- `DELETE … WHERE key = k`. -/
def Table.delete (table : Table K Row key) (k : K) : Table K Row key where
  rows := table.rows.filter fun row => key row ≠ k
  nodup := table.nodup.sublist (List.filter_sublist.map _)

theorem Table.select_eq_some {table : Table K Row key} {k : K} {row : Row} :
    table.select k = some row ↔ row ∈ table.rows ∧ key row = k := by
  constructor
  · intro h
    exact ⟨List.mem_of_find?_eq_some h, by simpa using List.find?_some h⟩
  · rintro ⟨hm, rfl⟩
    cases h : table.select (key row) with
    | none => simpa using List.find?_eq_none.mp h row hm
    | some other =>
      have hother : key other = key row := by simpa using List.find?_some h
      rw [List.inj_on_of_nodup_map table.nodup (List.mem_of_find?_eq_some h) hm hother]

theorem Table.select_eq_none {table : Table K Row key} {k : K} :
    table.select k = none ↔ k ∉ table.rows.map key := by
  simp [Table.select, List.find?_eq_none]

/-- A table is known by what `SELECT` finds. -/
theorem Table.select_ext {table table' : Table K Row key} {k k' : K} {f : Row → Row}
    (h : ∀ row, row ∈ table'.rows ∧ key row = k ↔ ∃ old, (old ∈ table.rows ∧ key old = k') ∧ f old = row) :
    table'.select k = (table.select k').map f := by
  cases hs : table.select k' with
  | none =>
    cases hs' : table'.select k with
    | none => rfl
    | some row =>
      obtain ⟨old, hold, _⟩ := (h row).mp (select_eq_some.mp hs')
      rw [select_eq_some.mpr hold] at hs
      cases hs
  | some old => exact select_eq_some.mpr ((h _).mpr ⟨old, select_eq_some.mp hs, rfl⟩)

theorem Table.select_empty (k : K) : (Table.empty : Table K Row key).select k = none := rfl

theorem Table.insert_eq_none {table : Table K Row key} {row : Row} :
    table.insert row = none ↔ (table.select (key row)).isSome = true := by
  rw [Option.isSome_iff_ne_none, Ne, select_eq_none, Table.insert]
  split <;> simp_all

theorem Table.select_insert {table table' : Table K Row key} {row : Row}
    (h : table.insert row = some table') (k : K) :
    table'.select k = if k = key row then some row else table.select k := by
  unfold Table.insert at h
  split at h
  next => cases h
  next hnew =>
    cases h
    have hnone : table.rows.find? (fun other => key other = key row) = none := select_eq_none.mpr hnew
    simp only [Table.select, List.find?_append]
    by_cases hk : k = key row
    · subst hk
      simp [hnone]
    · have hne : ¬key row = k := fun h => hk h.symm
      simp [hk, hne]

theorem Table.select_update (table : Table K Row key) (k : K) (guard : Row → Bool) (set : Row → Row)
    (hset : ∀ row, key (set row) = key row) (k' : K) :
    (table.update k guard set hset).select k' =
      (table.select k').map fun row => if k' = k ∧ guard row then set row else row := by
  refine select_ext fun row => ?_
  simp only [Table.update, List.mem_map]
  constructor
  · rintro ⟨⟨old, hm, rfl⟩, hk⟩
    have hold : key old = k' := by
      rw [← hk]
      split
      · exact (hset old).symm
      · rfl
    exact ⟨old, ⟨hm, hold⟩, by rw [hold]⟩
  · rintro ⟨old, ⟨hm, rfl⟩, rfl⟩
    refine ⟨⟨old, hm, rfl⟩, ?_⟩
    split
    · exact hset old
    · rfl

theorem countP_key {rows : List Row} (hnodup : (rows.map key).Nodup) (k : K) (guard : Row → Bool) :
    rows.countP (fun row => decide (key row = k) && guard row) =
      if (rows.find? fun row => key row = k).any guard then 1 else 0 := by
  induction rows with
  | nil => rfl
  | cons row rest ih =>
    obtain ⟨hnew, hrest⟩ := List.nodup_cons.mp hnodup
    by_cases hk : key row = k
    · have hzero : rest.countP (fun row => decide (key row = k) && guard row) = 0 := by
        refine List.countP_eq_zero.mpr fun other hm => ?_
        have hother : ¬key other = k := fun h => hnew (List.mem_map.mpr ⟨other, hm, h.trans hk.symm⟩)
        simp [hother]
      simp [hzero, hk, List.countP_cons]
    · simpa [hk] using ih hrest

/-- The key is unique, so a statement about it touches one row at most. -/
theorem Table.count_eq (table : Table K Row key) (k : K) (guard : Row → Bool) :
    table.count k guard = if (table.select k).any guard then 1 else 0 :=
  countP_key table.nodup k guard

theorem Table.select_delete (table : Table K Row key) (k k' : K) :
    (table.delete k).select k' = if k' = k then none else table.select k' := by
  split
  next hk =>
    subst hk
    exact select_eq_none.mpr (by simp [Table.delete])
  next hk =>
    refine (select_ext (f := id) fun row => ?_).trans (congrFun Option.map_id _)
    simp only [Table.delete, List.mem_filter, id]
    constructor
    · rintro ⟨⟨hm, _⟩, hrow⟩
      exact ⟨row, ⟨hm, hrow⟩, rfl⟩
    · rintro ⟨old, ⟨hm, rfl⟩, rfl⟩
      exact ⟨⟨hm, by simpa using hk⟩, rfl⟩

theorem Table.select_upsert (table : Table K Row key) (row : Row) (set : Row → Row)
    (hset : ∀ row, key (set row) = key row) (k : K) :
    (table.upsert row set hset).select k =
      if k = key row then some ((table.select k).elim row set) else table.select k := by
  unfold Table.upsert
  cases h : table.insert row with
  | some table' =>
    have hnone : table.select (key row) = none := by
      by_contra hsome
      have := insert_eq_none.mpr (Option.isSome_iff_ne_none.mpr hsome)
      rw [h] at this
      cases this
    rw [Option.getD_some, select_insert h]
    split
    next hk => rw [hk, hnone, Option.elim_none]
    next => rfl
  | none =>
    obtain ⟨old, hold⟩ := Option.isSome_iff_exists.mp (insert_eq_none.mp h)
    rw [Option.getD_none, select_update]
    by_cases hk : k = key row
    · subst hk
      simp [hold]
    · simp [hk]

theorem Table.mem_map {A : Type} {table : Table K Row key} {f : Row → A} {k : K} {a : A} :
    (k, a) ∈ table.rows.map (fun row => (key row, f row)) ↔ (table.select k).map f = some a := by
  simp only [List.mem_map, Option.map_eq_some_iff, Prod.mk.injEq, select_eq_some, and_assoc]

omit [DecidableEq K] in
/-- Lists of keyed values with the same members hold the same values. -/
theorem perm_values {A : Type} {items items' : List (K × A)} (h : (items.map Prod.fst).Nodup)
    (h' : (items'.map Prod.fst).Nodup) (hm : ∀ k a, (k, a) ∈ items ↔ (k, a) ∈ items') :
    (items.map Prod.snd).Perm (items'.map Prod.snd) := by
  have hperm : items.Perm items' :=
    (List.perm_ext_iff_of_nodup h.of_map h'.of_map).mpr fun item => hm item.1 item.2
  exact hperm.map _

end Tables
