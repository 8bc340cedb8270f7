import NoraInterviewer.EnergyVad
import NoraInterviewer.EnsembleGate
import Mathlib.Analysis.Real.Sqrt

/-! What the detector reads off a chunk: the root mean square it stands for, and that every reading
is within its bounds. -/

namespace NoraInterviewer

theorem sqrt_floor_le {x : ℚ} (hx : 0 ≤ x) : ((Nat.sqrt ⌊x⌋₊ : ℕ) : ℚ) * Nat.sqrt ⌊x⌋₊ ≤ x := by
  have hle : Nat.sqrt ⌊x⌋₊ * Nat.sqrt ⌊x⌋₊ ≤ ⌊x⌋₊ := Nat.sqrt_le _
  exact le_trans (by exact_mod_cast hle) (Nat.floor_le hx)

theorem lt_sqrt_floor_succ (x : ℚ) :
    x < ((Nat.sqrt ⌊x⌋₊ : ℕ) + 1) * ((Nat.sqrt ⌊x⌋₊ : ℕ) + 1) := by
  have hlt : ⌊x⌋₊ + 1 ≤ (Nat.sqrt ⌊x⌋₊ + 1) * (Nat.sqrt ⌊x⌋₊ + 1) := Nat.lt_succ_sqrt _
  have hcast : ((⌊x⌋₊ : ℕ) : ℚ) + 1 ≤ (Nat.sqrt ⌊x⌋₊ + 1) * (Nat.sqrt ⌊x⌋₊ + 1) := by
    exact_mod_cast hlt
  exact lt_of_lt_of_le (Nat.lt_floor_add_one x) hcast

/-- The rounded root is within a half of the root. -/
theorem roundSqrt_near {x : ℚ} (hx : 0 ≤ x) : |√(x : ℝ) - roundSqrt x| ≤ 1 / 2 := by
  have hlow := sqrt_floor_le hx
  have hhigh := lt_sqrt_floor_succ x
  unfold roundSqrt
  simp only
  generalize Nat.sqrt ⌊x⌋₊ = root at hlow hhigh ⊢
  have hroot : (0 : ℝ) ≤ root := Nat.cast_nonneg root
  have hfrom : (root : ℝ) ≤ √(x : ℝ) := Real.le_sqrt_of_sq_le (by
    rw [sq]
    exact_mod_cast hlow)
  have hto : √(x : ℝ) ≤ root + 1 := (Real.sqrt_le_left (by linarith)).mpr (by
    rw [sq]
    exact_mod_cast le_of_lt hhigh)
  have hbelow (h : x ≤ (root + 1 / 2) * (root + 1 / 2)) : √(x : ℝ) ≤ root + 1 / 2 :=
    (Real.sqrt_le_left (by linarith)).mpr (by
      have hreal : ((x : ℚ) : ℝ) ≤ (((root + 1 / 2) * (root + 1 / 2) : ℚ) : ℝ) := Rat.cast_le.mpr h
      push_cast at hreal
      rwa [sq])
  have habove (h : (root + 1 / 2) * (root + 1 / 2) ≤ x) : (root : ℝ) + 1 / 2 ≤ √(x : ℝ) :=
    Real.le_sqrt_of_sq_le (by
      have hreal : (((root + 1 / 2) * (root + 1 / 2) : ℚ) : ℝ) ≤ ((x : ℚ) : ℝ) := Rat.cast_le.mpr h
      push_cast at hreal
      rwa [sq])
  rw [abs_le]
  split
  next hlt =>
    have hle := hbelow (le_of_lt hlt)
    exact ⟨by linarith, by linarith⟩
  next hge =>
    split
    next hgt =>
      have hle := habove (le_of_lt hgt)
      push_cast
      exact ⟨by linarith, by linarith⟩
    next hle =>
      have hupper := hbelow (not_lt.mp hle)
      have hlower := habove (not_lt.mp hge)
      split
      · exact ⟨by linarith, by linarith⟩
      · push_cast
        exact ⟨by linarith, by linarith⟩

theorem roundSqrt_le {x : ℚ} (hx : 0 ≤ x) {bound : ℕ} (h : x ≤ (bound : ℚ) * bound) :
    roundSqrt x ≤ bound := by
  have hle := sqrt_floor_le hx
  unfold roundSqrt
  simp only
  generalize Nat.sqrt ⌊x⌋₊ = root at hle ⊢
  have hroot : root ≤ bound := by
    by_contra hlt
    have hlt' : (bound : ℚ) + 1 ≤ root := by exact_mod_cast not_le.mp hlt
    nlinarith [Nat.cast_nonneg (α := ℚ) bound]
  split
  next => exact hroot
  next hge =>
    have hne : root ≠ bound := by
      rintro rfl
      exact hge (by nlinarith [Nat.cast_nonneg (α := ℚ) root])
    split
    · omega
    · split <;> omega

theorem unpackInt16_length : ∀ audio : List UInt8, (unpackInt16 audio).length = audio.length / 2
  | [] => rfl
  | [_] => by simp [unpackInt16]
  | _ :: _ :: rest => by
    rw [unpackInt16, List.length_cons, unpackInt16_length rest, List.length_cons, List.length_cons]
    omega

theorem unpackInt16_range : ∀ audio : List UInt8, ∀ sample ∈ unpackInt16 audio,
    -32768 ≤ sample ∧ sample ≤ 32767
  | [], _, h => (by cases h)
  | [_], _, h => (by cases h)
  | low :: high :: rest, sample, h => by
    rw [unpackInt16] at h
    rcases List.mem_cons.mp h with rfl | h
    · have hlow := low.toNat_lt
      have hhigh := high.toNat_lt
      split <;> omega
    · exact unpackInt16_range rest sample h

/-- The level of a chunk. -/
noncomputable def rms (audio : List UInt8) : ℝ := √(meanSquare audio : ℝ)

theorem meanSquare_range (audio : List UInt8) : 0 ≤ meanSquare audio ∧ meanSquare audio ≤ 1 := by
  have hsquare : ∀ sample ∈ unpackInt16 audio,
      (sample / 32768 : ℚ) * (sample / 32768) ≤ 1 := by
    intro sample hsample
    obtain ⟨hlow, hhigh⟩ := unpackInt16_range audio sample hsample
    have hlow' : (-32768 : ℚ) ≤ sample := by exact_mod_cast hlow
    have hhigh' : (sample : ℚ) ≤ 32767 := by exact_mod_cast hhigh
    nlinarith
  have hsum : ((unpackInt16 audio).map fun sample : ℤ =>
      (sample / 32768 : ℚ) * (sample / 32768)).sum ≤ (audio.length / 2 : ℕ) := by
    have hcard := List.sum_le_card_nsmul ((unpackInt16 audio).map fun sample : ℤ =>
      (sample / 32768 : ℚ) * (sample / 32768)) 1 (by simpa using hsquare)
    rw [List.length_map, unpackInt16_length, nsmul_eq_mul, mul_one] at hcard
    exact hcard
  unfold meanSquare
  refine ⟨div_nonneg (List.sum_nonneg ?_) (Nat.cast_nonneg _), div_le_one_of_le₀ hsum (Nat.cast_nonneg _)⟩
  intro square hsquare
  obtain ⟨sample, _, rfl⟩ := List.mem_map.mp hsquare
  exact mul_self_nonneg _

theorem le_rms_iff {threshold : ℚ} (h : 0 ≤ threshold) (audio : List UInt8) :
    (threshold : ℝ) ≤ rms audio ↔ threshold * threshold ≤ meanSquare audio := by
  have hreal : (0 : ℝ) ≤ threshold := by exact_mod_cast h
  unfold rms
  rw [Real.le_sqrt hreal (by exact_mod_cast (meanSquare_range audio).1), sq]
  exact_mod_cast Iff.rfl

theorem rms_le_iff {threshold : ℚ} (h : 0 ≤ threshold) (audio : List UInt8) :
    rms audio ≤ threshold ↔ meanSquare audio ≤ threshold * threshold := by
  have hreal : (0 : ℝ) ≤ threshold := by exact_mod_cast h
  unfold rms
  rw [Real.sqrt_le_left hreal, sq]
  exact_mod_cast Iff.rfl

theorem roundedRms_range (audio : List UInt8) : 0 ≤ roundedRms audio ∧ roundedRms audio ≤ 1 := by
  obtain ⟨hlow, hhigh⟩ := meanSquare_range audio
  have hle : roundSqrt (meanSquare audio * 10 ^ 12) ≤ 10 ^ 6 :=
    roundSqrt_le (by positivity) (by push_cast; linarith)
  have hle' : (roundSqrt (meanSquare audio * 10 ^ 12) : ℚ) ≤ 10 ^ 6 := by exact_mod_cast hle
  unfold roundedRms
  exact ⟨by positivity, by rw [div_le_one (by positivity)]; exact hle'⟩

theorem round6_range {x : ℚ} (h : 0 ≤ x ∧ x ≤ 1) : 0 ≤ round6 x ∧ round6 x ≤ 1 := by
  have hfrom : (0 : ℤ) ≤ roundHalfEven (x * 1000000) :=
    le_roundHalfEven (by push_cast; linarith)
  have hto : roundHalfEven (x * 1000000) ≤ 1000000 :=
    roundHalfEven_le (by push_cast; linarith)
  have hfrom' : (0 : ℚ) ≤ roundHalfEven (x * 1000000) := by exact_mod_cast hfrom
  have hto' : (roundHalfEven (x * 1000000) : ℚ) ≤ 1000000 := by exact_mod_cast hto
  unfold round6
  exact ⟨by linarith, by linarith⟩

theorem normalizedPeak_range (audio : List UInt8) :
    0 ≤ normalizedPeak audio ∧ normalizedPeak audio ≤ 1 := by
  unfold normalizedPeak
  exact ⟨le_min zero_le_one (by positivity), min_le_left _ _⟩

theorem round3_nonneg {x : ℚ} (h : 0 ≤ x) : 0 ≤ round3 x := by
  have hfrom : (0 : ℤ) ≤ roundHalfEven (x * 1000) := le_roundHalfEven (by push_cast; linarith)
  unfold round3
  exact div_nonneg (by exact_mod_cast hfrom) (by norm_num)

/-- A duration of a hundredth of a millisecond at least is not rounded to nothing. -/
theorem round3_pos {x : ℚ} (h : 1 / 100 ≤ x) : 0 < round3 x := by
  have hfrom : (10 : ℤ) ≤ roundHalfEven (x * 1000) := le_roundHalfEven (by push_cast; linarith)
  have hpos : (0 : ℚ) < roundHalfEven (x * 1000) := by
    exact_mod_cast lt_of_lt_of_le (by norm_num : (0 : ℤ) < 10) hfrom
  unfold round3
  exact div_pos hpos (by norm_num)

end NoraInterviewer
