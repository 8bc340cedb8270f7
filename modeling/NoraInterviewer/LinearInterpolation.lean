import Mathlib.Algebra.Order.Floor.Ring
import Mathlib.Algebra.Order.Field.Basic
import Mathlib.Tactic.Linarith
import Mathlib.Tactic.FieldSimp
import Mathlib.Tactic.Ring

/-! A grid of equally spaced positions, and the linear interpolation of samples at them. -/

namespace LinearInterpolation

variable {K : Type} [Field K] [LinearOrder K] [IsStrictOrderedRing K] [FloorRing K]

/-- How many of the positions `0, r, 2r, …` are below `x`. -/
def steps (r x : K) : ℕ := ⌈x / r⌉₊

theorem lt_steps {r : K} (hr : 0 < r) {k : ℕ} {x : K} : k < steps r x ↔ k * r < x := by
  unfold steps
  rw [Nat.lt_ceil, lt_div_iff₀ hr]

theorem le_steps_mul {r : K} (hr : 0 < r) (x : K) : x ≤ steps r x * r := by
  by_contra h
  exact lt_irrefl _ ((lt_steps hr).mpr (not_le.mp h))

/-- The first position that is not below `x` is less than a step above it. -/
theorem steps_mul_lt {r : K} (hr : 0 < r) {x : K} (hx : 0 ≤ x) : steps r x * r < x + r := by
  cases h : steps r x with
  | zero =>
    rw [Nat.cast_zero, zero_mul]
    linarith
  | succ k =>
    have hlt : k * r < x := (lt_steps hr).mp (by omega)
    push_cast
    linarith

theorem steps_mono {r : K} (hr : 0 < r) {x y : K} (h : x ≤ y) : steps r x ≤ steps r y := by
  by_contra hlt
  have hbelow : steps r y * r < x := (lt_steps hr).mp (by omega)
  exact absurd (le_steps_mul hr y) (not_le.mpr (lt_of_lt_of_le hbelow h))

theorem steps_of_nonpos {r : K} (hr : 0 < r) {x : K} (hx : x ≤ 0) : steps r x = 0 := by
  by_contra h
  have hlt : ((0 : ℕ) : K) * r < x := (lt_steps hr).mp (Nat.pos_of_ne_zero h)
  rw [Nat.cast_zero, zero_mul] at hlt
  linarith

theorem steps_succ {r : K} (hr : 0 < r) {x : K} (hx : 0 < x) :
    steps r x = steps r (x - r) + 1 := by
  refine eq_of_forall_lt_iff fun k => ?_
  cases k with
  | zero =>
    rw [lt_steps hr, Nat.cast_zero, zero_mul]
    exact ⟨fun _ => by omega, fun _ => hx⟩
  | succ k =>
    rw [lt_steps hr, Nat.add_lt_add_iff_right, lt_steps hr]
    push_cast
    constructor
    · intro hlt
      linarith
    · intro hlt
      linarith

/-- The positions below `y` are those below `x`, and those from there on. -/
theorem steps_add {r : K} (hr : 0 < r) {x y : K} (h : x ≤ y) :
    steps r y = steps r x + steps r (y - steps r x * r) := by
  have hmono := steps_mono hr h
  refine eq_of_forall_lt_iff fun k => ?_
  by_cases hk : k < steps r x
  · exact ⟨fun _ => by omega, fun _ => by omega⟩
  · obtain ⟨j, rfl⟩ := Nat.exists_eq_add_of_le (not_lt.mp hk)
    rw [lt_steps hr, Nat.add_lt_add_iff_left, lt_steps hr]
    push_cast
    constructor
    · intro hlt
      linarith
    · intro hlt
      linarith

/-- The samples at both sides of a position, weighted by how near it is to each. -/
def interpolate (samples : List K) (position : K) : K :=
  let leftIndex := ⌊position⌋₊
  let fraction := position - leftIndex
  let left := samples.getD leftIndex 0
  let right := samples.getD (leftIndex + 1) 0
  left + (right - left) * fraction

/-- The interpolation at the positions `0, r, 2r, …` below the last sample. -/
def interpolation (r : K) (samples : List K) : List K :=
  (List.range (steps r (samples.length - 1))).map fun k : ℕ => interpolate samples (k * r)

theorem floor_succ_lt {position : K} {length : ℕ} (hp : 0 ≤ position)
    (h : position + 1 < length) : ⌊position⌋₊ + 1 < length := by
  have hfloor := Nat.floor_le hp
  have hlt : ((⌊position⌋₊ + 1 : ℕ) : K) < length := by
    push_cast
    linarith
  exact_mod_cast hlt

/-- More samples change nothing at a position before the last. -/
theorem interpolate_append {samples : List K} {position : K} (hp : 0 ≤ position)
    (h : position + 1 < samples.length) (more : List K) :
    interpolate (samples ++ more) position = interpolate samples position := by
  have hindex := floor_succ_lt hp h
  unfold interpolate
  simp only [List.getD_eq_getElem?_getD]
  rw [List.getElem?_append_left (by omega), List.getElem?_append_left hindex]

/-- Positions counted from a sample further on. -/
theorem interpolate_drop (samples : List K) (n : ℕ) {position : K} (hp : 0 ≤ position) :
    interpolate (samples.drop n) position = interpolate samples (n + position) := by
  unfold interpolate
  rw [add_comm (n : K) position, Nat.floor_add_natCast hp]
  simp only [List.getD_eq_getElem?_getD, List.getElem?_drop]
  rw [Nat.add_comm n ⌊position⌋₊, show n + (⌊position⌋₊ + 1) = ⌊position⌋₊ + n + 1 by omega]
  push_cast
  ring

/-- The first of the interpolations from a position on. -/
theorem interpolate_head {r : K} (hr : 0 < r) (samples : List K) (position : K) :
    ((List.range (steps r (samples.length - 1 - position))).map fun k : ℕ =>
        interpolate samples (position + k * r)).head? =
      if position + 1 < samples.length then some (interpolate samples position) else none := by
  split
  next hlt =>
    have hpos : 0 < (samples.length : K) - 1 - position := by linarith
    rw [steps_succ hr hpos, List.range_succ_eq_map, List.map_cons, List.head?_cons, Nat.cast_zero,
      zero_mul, add_zero]
  next hge =>
    have hnonpos : (samples.length : K) - 1 - position ≤ 0 := by linarith [not_lt.mp hge]
    rw [steps_of_nonpos hr hnonpos]
    rfl

/-- More samples add the positions from the first that is not below the last sample so far. -/
theorem interpolation_append {r : K} (hr : 0 < r) (samples more : List K) :
    interpolation r (samples ++ more) = interpolation r samples ++
      (List.range (steps r ((samples ++ more).length - 1 -
        steps r (samples.length - 1) * r))).map fun k : ℕ =>
          interpolate (samples ++ more) (steps r (samples.length - 1) * r + k * r) := by
  have hle : (samples.length : K) - 1 ≤ (samples ++ more).length - 1 := by
    rw [List.length_append]
    push_cast
    linarith [Nat.cast_nonneg (α := K) more.length]
  unfold interpolation
  rw [steps_add hr hle, List.range_add, List.map_append, List.map_map]
  congr 1
  · refine List.map_congr_left fun k hk => ?_
    have hlt := (lt_steps hr).mp (List.mem_range.mp hk)
    exact interpolate_append (by positivity) (by linarith) more
  · refine List.map_congr_left fun k _ => ?_
    simp only [Function.comp_apply]
    push_cast
    rw [add_mul]

end LinearInterpolation
