import NoraInterviewer.EnsembleConsensus
import Mathlib.Tactic.Linarith

namespace NoraInterviewer

theorem le_roundHalfEven {x : ℚ} {m : ℤ} (h : (m : ℚ) ≤ x) : m ≤ roundHalfEven x := by
  have hfloor : m ≤ x.floor := Rat.le_floor_iff.mpr h
  unfold roundHalfEven
  simp only
  split
  · exact hfloor
  · split
    · omega
    · split <;> omega

theorem roundHalfEven_le {x : ℚ} {m : ℤ} (h : x ≤ m) : roundHalfEven x ≤ m := by
  have hfloor : (x.floor : ℚ) ≤ x := Rat.floor_le x
  have hle : x.floor ≤ m := by exact_mod_cast hfloor.trans h
  unfold roundHalfEven
  simp only
  split
  next => exact hle
  next hrest =>
    have hlt : x.floor < m := by
      refine lt_of_le_of_ne hle fun heq => hrest ?_
      have hzero : x ≤ x.floor := by
        rw [heq]
        exact h
      linarith
    split
    · omega
    · split <;> omega

namespace EvidenceJudgeEnsemble

variable {ensemble : EvidenceJudgeEnsemble} {findings : List JudgeFinding}

variable {question answer : Turn} {job : JobSpec} {competencyIds : List String}

variable {question answer : Turn} {job : JobSpec} {competencyIds : List String}

end EvidenceJudgeEnsemble

end NoraInterviewer
