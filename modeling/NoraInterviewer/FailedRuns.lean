import NoraInterviewer.JudgeOutcome
import NoraInterviewer.AuditIntegrity

namespace NoraInterviewer

open ExceptRules

section

variable [CanonicalDigest]

omit [CanonicalDigest] in
theorem Gated.unique {call : Call} {job : JobSpec} {question answer : Turn} {run : EvidenceJudgeRun}
    {response response' : JudgeResponse} {observations observations' : List EvidenceObservation}
    (h : Gated call job question answer run response observations)
    (h' : Gated call job question answer run response' observations') :
    response' = response ∧ observations' = observations := by
  obtain ⟨he, raw, hv, rfl⟩ := h
  obtain ⟨he', raw', hv', rfl⟩ := h'
  rw [he] at he'
  cases he'
  rw [hv] at hv'
  cases hv'
  exact ⟨rfl, rfl⟩

end

section Runs

attribute [local instance] checksumDigest

def knownFinding : JudgeFinding where
  competencyId := "systems"
  state := .demonstrated
  confidence := UnitScore.one
  quote := some "a queue"
  rationale := "built one"
  not_verified := by decide
  quoted := by decide

end Runs

end NoraInterviewer
