import NoraInterviewer.BackstageSteps
import NoraInterviewer.EnsembleConsensus
import NoraInterviewer.IfMatch

namespace NoraInterviewer

open ExceptRules OptimisticRuns LockstepRuns

section BuiltIn

theorem validateFinding_caught {competencyId : String} {state : EvidenceState} {confidence : ℚ}
    {quote : Option String} {rationale : String} {e : Raised}
    (h : validateFinding competencyId state confidence quote rationale = .error e) :
    (PyError.raised e).caughtByJudging = true := by
  unfold validateFinding at h
  split at h
  next => cases h; rfl
  next =>
    split at h
    next =>
      split at h
      next => cases h; rfl
      next =>
        split at h
        next => cases h; rfl
        next =>
          split at h
          next =>
            split at h
            next => cases h
            next => cases h; rfl
          next => cases h; rfl
    next => cases h; rfl

namespace EvidenceJudgeEnsemble

variable {ensemble : EvidenceJudgeEnsemble}

/-- The judges that agree on a finding are not none. -/
theorem consensusFinding_caught {competencyId : String} {findings : List JudgeFinding}
    {state : EvidenceState} {count : Nat} {e : Raised}
    (hvotes : 0 < findings.countP fun finding => finding.state = state)
    (h : ensemble.consensusFinding competencyId findings state count = .error e) :
    (PyError.raised e).caughtByJudging = true := by
  unfold consensusFinding at h
  simp only at h
  split at h
  next hnone =>
    obtain ⟨finding, hmem, hstate⟩ := List.countP_pos_iff.mp hvotes
    have hagrees : finding ∈ findings.filter fun finding => finding.state = state :=
      List.mem_filter.mpr ⟨hmem, hstate⟩
    cases hall : findings.filter fun finding => finding.state = state with
    | nil =>
      rw [hall] at hagrees
      cases hagrees
    | cons first rest =>
      rw [hall] at hnone
      cases hnone
  next => exact validateFinding_caught h

theorem consensus_caught {hearings : List Hearing} {competencyId : String} {e : Raised}
    (h : ensemble.consensus hearings competencyId = .error e) :
    (PyError.raised e).caughtByJudging = true := by
  unfold consensus at h
  simp only at h
  generalize hearings.filterMap (Hearing.finding competencyId) = findings at h
  cases hmet : (leader findings).filter fun best => ensemble.requiredVotes ≤ best.2 with
  | none =>
    rw [hmet] at h
    cases hfinding : ensemble.undecidedFinding competencyId ((leader findings).elim 0 Prod.snd) with
    | error e' =>
      rw [hfinding] at h
      cases h
      exact validateFinding_caught hfinding
    | ok finding =>
      rw [hfinding] at h
      cases h
  | some best =>
    obtain ⟨state, count⟩ := best
    rw [hmet] at h
    simp only at h
    obtain ⟨hleader, hrequired⟩ := Option.filter_eq_some_iff.mp hmet
    have hvotes : 0 < findings.countP fun finding => finding.state = state := by
      rw [← leader_some hleader]
      have hmajority := majority_required ensemble
      have hjudges := ensemble.two
      have hmany := of_decide_eq_true hrequired
      dsimp only at hmany
      omega
    cases hfinding : ensemble.consensusFinding competencyId findings state count with
    | error e' =>
      rw [hfinding] at h
      cases h
      exact consensusFinding_caught hvotes hfinding
    | ok finding =>
      rw [hfinding] at h
      cases h

theorem consensusAll_caught {hearings : List Hearing} {competencyIds : List String} {e : Raised}
    (h : ensemble.consensusAll hearings competencyIds = .error e) :
    (PyError.raised e).caughtByJudging = true := by
  induction competencyIds with
  | nil => cases h
  | cons competencyId rest ih =>
    unfold consensusAll at h
    cases hfirst : ensemble.consensus hearings competencyId with
    | error e' =>
      rw [hfirst] at h
      cases h
      exact consensus_caught hfirst
    | ok first =>
      rw [hfirst, ok_bind] at h
      cases hrest : ensemble.consensusAll hearings rest with
      | error e' =>
        rw [hrest] at h
        cases h
        exact ih hrest
      | ok others =>
        rw [hrest] at h
        cases h

end EvidenceJudgeEnsemble

/-- An ensemble handles whatever its judges raise. -/
theorem ensembleEvidenceJudge_tame {ensemble : EvidenceJudgeEnsemble}
    (hid : ensemble.judgeId.length ≤ 500) : (ensembleEvidenceJudge ensemble).Tame := by
  refine ⟨⟨fun hempty => ?_, hid⟩, fun question answer job competencyIds e h => ?_⟩
  · have hlength := congrArg (fun id => id.toList.length) hempty
    simp [ensembleEvidenceJudge, EvidenceJudgeEnsemble.judgeId] at hlength
  · change ensemble.evaluate question answer job competencyIds = .error e at h
    unfold EvidenceJudgeEnsemble.evaluate at h
    simp only at h
    cases hall : ensemble.consensusAll (ensemble.judges.map fun judge =>
        (judge, EvidenceJudgeEnsemble.hear question answer job competencyIds judge)) competencyIds with
    | error e' =>
      rw [hall] at h
      cases h
      exact EvidenceJudgeEnsemble.consensusAll_caught hall
    | ok decided =>
      rw [hall] at h
      cases h

end BuiltIn

section Requests

variable [CanonicalDigest] {session session' : InterviewSession} {judge judge' : EvidenceJudge}

theorem Beside.version (h : Beside session session') : session.version = session'.version := by
  obtain ⟨stage, rfl, -⟩ := h
  rfl

theorem Beside.stored (backend : Backend) (h : Beside session session') :
    Beside (backend.versioned.stored session) (backend.versioned.stored session') := by
  obtain ⟨stage, rfl, happ, happ', hclaims⟩ := h
  cases backend with
  | memory => exact ⟨stage, rfl, happ, happ', hclaims⟩
  | json => exact ⟨{ stage with shared := [] }, rfl, happ, happ', hclaims⟩

end Requests

section Runs

attribute [local instance] checksumDigest

end Runs

end NoraInterviewer
