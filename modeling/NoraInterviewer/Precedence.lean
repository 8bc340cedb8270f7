import Mathlib.Data.List.Basic

namespace Precedence

variable {α β : Type} {P : List α → α → Prop} {items : List α}

/-- Every item of the list stands in `P` to the items before it. -/
def EachAfter (P : List α → α → Prop) (items : List α) : Prop :=
  ∀ i item, items[i]? = some item → P (items.take i) item

theorem EachAfter.nil : EachAfter P [] := by
  intro i item h
  rw [List.getElem?_nil] at h
  cases h

theorem EachAfter.snoc {item : α} (h : EachAfter P items) (hp : P items item) :
    EachAfter P (items ++ [item]) := by
  intro i other hother
  by_cases hi : i < items.length
  · rw [List.getElem?_append_left hi] at hother
    rw [List.take_append_of_le_length (Nat.le_of_lt hi)]
    exact h i other hother
  · have hbound : i < (items ++ [item]).length := (List.getElem?_eq_some_iff.mp hother).1
    rw [List.length_append, List.length_singleton] at hbound
    obtain rfl : i = items.length := by omega
    rw [List.getElem?_concat_length] at hother
    cases hother
    rw [List.take_left']
    · exact hp
    · rfl

theorem EachAfter.mem {Q : α → Prop} (h : EachAfter P items)
    (hq : ∀ before item, P before item → Q item) : ∀ item ∈ items, Q item := by
  intro item hitem
  obtain ⟨i, hi⟩ := List.mem_iff_getElem?.mp hitem
  exact hq _ _ (h i item hi)

/-- What `P` says of an item and the items before it depends on their keys only. -/
def Keyed (key : α → β) (P : List α → α → Prop) : Prop :=
  ∀ {before before' : List α} {item item' : α}, before'.map key = before.map key →
    key item' = key item → P before item → P before' item'

theorem EachAfter.congr {key : α → β} {items' : List α} (h : EachAfter P items)
    (hk : Keyed key P) (hsame : items'.map key = items.map key) : EachAfter P items' := by
  intro i item' hitem'
  have hkey : (items.map key)[i]? = some (key item') := by
    rw [← hsame, List.getElem?_map, hitem']
    rfl
  rw [List.getElem?_map] at hkey
  obtain ⟨item, hitem, hboth⟩ := Option.map_eq_some_iff.mp hkey
  refine hk ?_ hboth.symm (h i item hitem)
  rw [List.map_take, List.map_take, hsame]

/-- The latest item that a key singles out is found at the same key. -/
theorem find?_reverse_congr {key : α → β} {p : α → Bool} {before before' : List α}
    (hp : ∀ item item', key item' = key item → p item' = p item)
    (hsame : before'.map key = before.map key) {item : α}
    (h : before.reverse.find? p = some item) :
    ∃ item', before'.reverse.find? p = some item' ∧ key item' = key item := by
  have hreverse : before'.reverse.map key = before.reverse.map key := by
    rw [List.map_reverse, List.map_reverse, hsame]
  generalize before.reverse = xs at h hreverse
  generalize before'.reverse = xs' at hreverse
  induction xs generalizing xs' with
  | nil => cases h
  | cons first rest ih =>
    cases xs' with
    | nil => cases hreverse
    | cons first' rest' =>
      obtain ⟨hfirst, hrest⟩ := List.cons.inj hreverse
      rw [List.find?_cons] at h ⊢
      rw [hp first first' hfirst]
      split at h
      next =>
        cases h
        exact ⟨first', rfl, hfirst⟩
      next => exact ih h rest' hrest

end Precedence
