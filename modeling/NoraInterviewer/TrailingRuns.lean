import Mathlib.Algebra.BigOperators.Intervals
import Mathlib.Algebra.Order.BigOperators.Group.Finset

/-! The weight of the run of consecutive places with a property that a sequence ends in. -/

namespace TrailingRuns

open Finset

variable {M : Type} [AddCommMonoid M]

/-- The weight from one place up to another, that one left out. -/
def lasting (weight : ℕ → M) (first last : ℕ) : M := (Ico first last).sum weight

/-- The weight that an accumulator holds which each place without the property clears. -/
def trailing (p : ℕ → Bool) (weight : ℕ → M) : ℕ → M
  | 0 => 0
  | n + 1 => if p n then trailing p weight n + weight n else 0

/-- All places from one up to another have the property. -/
def AllFrom (p : ℕ → Bool) (first last : ℕ) : Prop := ∀ k, first ≤ k → k < last → p k = true

/-- The longest run up to a place. -/
def RunFrom (p : ℕ → Bool) (first last : ℕ) : Prop :=
  AllFrom p first last ∧ (first = 0 ∨ p (first - 1) = false)

variable {p : ℕ → Bool} {weight : ℕ → M} {first last : ℕ}

theorem lasting_self (weight : ℕ → M) (n : ℕ) : lasting weight n n = 0 := by
  rw [lasting, Ico_self, sum_empty]

theorem lasting_succ (h : first ≤ last) :
    lasting weight first (last + 1) = lasting weight first last + weight last :=
  sum_Ico_succ_top h weight

theorem AllFrom.succ (h : AllFrom p first last) (hlast : p last = true) :
    AllFrom p first (last + 1) := by
  intro k hfirst hk
  rcases Nat.lt_succ_iff_lt_or_eq.mp hk with hk | rfl
  · exact h k hfirst hk
  · exact hlast

theorem RunFrom.unique {other : ℕ} (h : RunFrom p first last) (hother : RunFrom p other last)
    (hlast : first < last) (hother_last : other < last) : first = other := by
  by_contra hne
  rcases Nat.lt_or_gt_of_ne hne with hlt | hgt
  · rcases hother.2 with rfl | hbreak
    · omega
    · rw [h.1 (other - 1) (by omega) (by omega)] at hbreak
      cases hbreak
  · rcases h.2 with rfl | hbreak
    · omega
    · rw [hother.1 (first - 1) (by omega) (by omega)] at hbreak
      cases hbreak

/-- The accumulator holds the weight of the longest run. -/
theorem trailing_eq (p : ℕ → Bool) (weight : ℕ → M) (n : ℕ) :
    ∃ first ≤ n, RunFrom p first n ∧ trailing p weight n = lasting weight first n := by
  induction n with
  | zero =>
    refine ⟨0, le_refl 0, ⟨fun k _ hk => absurd hk (Nat.not_lt_zero k), Or.inl rfl⟩, ?_⟩
    rw [trailing, lasting_self]
  | succ n ih =>
    rw [trailing]
    split
    next hn =>
      obtain ⟨first, hle, ⟨hall, hbreak⟩, heq⟩ := ih
      refine ⟨first, by omega, ⟨hall.succ hn, hbreak⟩, ?_⟩
      rw [heq, lasting_succ hle]
    next hn =>
      refine ⟨n + 1, le_refl _, ⟨fun k hfirst hk => by omega, Or.inr ?_⟩, (lasting_self _ _).symm⟩
      exact Bool.eq_false_of_not_eq_true hn

variable [PartialOrder M] [IsOrderedAddMonoid M]

theorem lasting_le_trailing (hweight : ∀ k, 0 ≤ weight k)
    (hall : AllFrom p first last) : lasting weight first last ≤ trailing p weight last := by
  obtain ⟨start, hstart, hrun, heq⟩ := trailing_eq p weight last
  rw [heq]
  refine sum_le_sum_of_subset_of_nonneg ?_ fun k _ _ => hweight k
  refine Ico_subset_Ico ?_ (le_refl last)
  by_contra hlt
  rcases hrun.2 with hzero | hbreak
  · omega
  · rw [hall (start - 1) (by omega) (by omega)] at hbreak
    cases hbreak

/-- The accumulator reaches a bound where some run does. -/
theorem le_trailing_iff (hweight : ∀ k, 0 ≤ weight k) {bound : M} {n : ℕ} :
    bound ≤ trailing p weight n ↔ ∃ first ≤ n, AllFrom p first n ∧ bound ≤ lasting weight first n := by
  constructor
  · intro h
    obtain ⟨first, hle, hrun, heq⟩ := trailing_eq p weight n
    exact ⟨first, hle, hrun.1, heq ▸ h⟩
  · rintro ⟨first, _, hall, h⟩
    exact h.trans (lasting_le_trailing hweight hall)

/-- The same, with the last place of the run given. -/
theorem le_trailing_succ_iff (hweight : ∀ k, 0 ≤ weight k) {bound : M} (hbound : ¬bound ≤ 0)
    {n : ℕ} : bound ≤ trailing p weight (n + 1) ↔ ∃ first ≤ n,
      (∀ k, first ≤ k → k ≤ n → p k = true) ∧ bound ≤ lasting weight first (n + 1) := by
  rw [le_trailing_iff hweight]
  constructor
  · rintro ⟨first, hle, hall, h⟩
    rcases Nat.le_succ_iff.mp hle with hle | rfl
    · exact ⟨first, hle, fun k hfirst hk => hall k hfirst (by omega), h⟩
    · rw [lasting_self] at h
      exact absurd h hbound
  · rintro ⟨first, hle, hall, h⟩
    exact ⟨first, by omega, fun k hfirst hk => hall k hfirst (by omega), h⟩

theorem lasting_nonneg (hweight : ∀ k, 0 ≤ weight k) (first last : ℕ) :
    0 ≤ lasting weight first last := sum_nonneg fun k _ => hweight k

theorem trailing_nonneg (hweight : ∀ k, 0 ≤ weight k) (n : ℕ) : 0 ≤ trailing p weight n := by
  obtain ⟨first, _, _, heq⟩ := trailing_eq p weight n
  rw [heq]
  exact lasting_nonneg hweight first n

end TrailingRuns
