import NoraInterviewer.BuiltInJudges
import NoraInterviewer.ExceptRules
import Mathlib.Data.List.MinMax
import Mathlib.Data.Prod.Lex
import Mathlib.Data.String.Basic
import Mathlib.Algebra.BigOperators.Group.List.Basic

namespace NoraInterviewer

/-- The answer holds the quote, if there is one. -/
def JudgeFinding.GroundedIn (finding : JudgeFinding) (answer : Turn) : Prop :=
  ∀ quote ∈ finding.quote, isSubstring quote answer.text = true

instance (finding : JudgeFinding) (answer : Turn) : Decidable (finding.GroundedIn answer) :=
  inferInstanceAs (Decidable (∀ quote ∈ finding.quote, isSubstring quote answer.text = true))

/-- The name of a judge, as the source of an observation. -/
def semanticSource (judgeId : String) : String := "semantic_judge:" ++ judgeId

theorem validateFindings_ok {answer : Turn} {judgeId : String} {findings : List JudgeFinding} :
    (∃ observations, validateFindings answer judgeId findings = .ok observations) ↔
      (∀ finding ∈ findings, finding.GroundedIn answer) ∧
        (findings ≠ [] → (semanticSource judgeId).length ≤ 160) := by
  induction findings with
  | nil => simp [validateFindings]
  | cons finding rest ih =>
    have hgrounded : (finding.quote.any fun quote => !isSubstring quote answer.text) = true ↔
        ¬finding.GroundedIn answer := by
      unfold JudgeFinding.GroundedIn
      cases finding.quote with
      | none => simp
      | some quote => simp
    have hquoted : ¬((finding.state = .demonstrated ∨ finding.state = .contradicted) ∧
        (!given finding.quote) = true) := by
      rintro ⟨hstate, hnot⟩
      rw [finding.quoted hstate] at hnot
      cases hnot
    constructor
    · rintro ⟨observations, h⟩
      unfold validateFindings at h
      obtain ⟨_, h⟩ := ExceptRules.ite_error_ok h
      obtain ⟨hquote, h⟩ := ExceptRules.ite_error_ok h
      obtain ⟨_, h⟩ := ExceptRules.ite_error_ok h
      obtain ⟨hsource, h⟩ := ExceptRules.ite_error_ok h
      obtain ⟨others, hothers, _⟩ := ExceptRules.bind_ok h
      obtain ⟨hrest, _⟩ := ih.mp ⟨others, hothers⟩
      refine ⟨fun other ho => ?_, fun _ => not_lt.mp hsource⟩
      rcases List.mem_cons.mp ho with rfl | ho
      · by_contra hnot
        exact hquote (hgrounded.mpr hnot)
      · exact hrest other ho
    · rintro ⟨hall, hsource⟩
      have hfits : ¬160 < ("semantic_judge:" ++ judgeId).length :=
        not_lt.mpr (hsource (List.cons_ne_nil _ _))
      have hfirst : ¬(finding.quote.any fun quote => !isSubstring quote answer.text) = true :=
        fun hc => hgrounded.mp hc (hall finding List.mem_cons_self)
      obtain ⟨others, hothers⟩ := ih.mpr
        ⟨fun other ho => hall other (List.mem_cons_of_mem _ ho),
          fun _ => hsource (List.cons_ne_nil _ _)⟩
      unfold validateFindings
      rw [if_neg finding.not_verified, if_neg hfirst, if_neg hquoted, if_neg hfits, hothers]
      exact ⟨_, rfl⟩

namespace EvidenceJudgeEnsemble

/-- A judge's findings by competency are its findings, none of them twice. -/
theorem mapFindings_ok {mapped : Dict JudgeFinding} {findings : List JudgeFinding} :
    (∃ result, mapFindings mapped findings = .ok result) ↔
      (findings.map JudgeFinding.competencyId).Nodup ∧
        ∀ finding ∈ findings, mapped.lookup finding.competencyId = none := by
  induction findings generalizing mapped with
  | nil => simp [mapFindings]
  | cons finding rest ih =>
    rw [List.map_cons, List.nodup_cons, List.forall_mem_cons]
    unfold mapFindings
    by_cases hseen : (mapped.lookup finding.competencyId).isSome = true
    · rw [if_pos hseen]
      constructor
      · rintro ⟨result, h⟩
        cases h
      · rintro ⟨_, hnone, _⟩
        rw [hnone] at hseen
        cases hseen
    · rw [if_neg hseen, ih]
      have hnone := Option.not_isSome_iff_eq_none.mp hseen
      constructor
      · rintro ⟨hnodup, hall⟩
        have hother : ∀ other ∈ rest, other.competencyId ≠ finding.competencyId := by
          intro other ho heq
          have hlookup := hall other ho
          rw [heq, Dict.lookup_set_self] at hlookup
          cases hlookup
        refine ⟨⟨fun hmem => ?_, hnodup⟩, hnone, fun other ho => ?_⟩
        · obtain ⟨other, ho, heq⟩ := List.mem_map.mp hmem
          exact hother other ho heq
        · rw [← hall other ho, Dict.lookup_set_ne (hother other ho)]
      · rintro ⟨⟨hnot, hnodup⟩, _, hall⟩
        refine ⟨hnodup, fun other ho => ?_⟩
        have hne : other.competencyId ≠ finding.competencyId := by
          intro heq
          rw [← heq] at hnot
          exact hnot (List.mem_map_of_mem ho)
        rw [Dict.lookup_set_ne hne, hall other ho]

theorem mapFindings_lookup {mapped result : Dict JudgeFinding} {findings : List JudgeFinding}
    (h : mapFindings mapped findings = .ok result) (competencyId : String) :
    result.lookup competencyId = (mapped.lookup competencyId).or
      (findings.find? fun finding => finding.competencyId = competencyId) := by
  induction findings generalizing mapped with
  | nil =>
    cases h
    simp
  | cons finding rest ih =>
    unfold mapFindings at h
    obtain ⟨hseen, h⟩ := ExceptRules.ite_error_ok h
    have hnone := Option.not_isSome_iff_eq_none.mp hseen
    rw [ih h, Dict.lookup_set, List.find?_cons]
    by_cases heq : competencyId = finding.competencyId
    · subst heq
      simp [hnone]
    · have hne : ¬finding.competencyId = competencyId := fun hc => heq hc.symm
      simp [heq, hne]

/-- What a judge has to say on a competency: nothing if it raised, or if one of its findings is
not grounded, given twice, or under a name too long for a source. -/
def ballot (question answer : Turn) (job : JobSpec) (competencyIds : List String)
    (competencyId : String) (judge : EvidenceJudge) : Option JudgeFinding :=
  match judge.evaluate question answer job competencyIds with
  | .error _ => none
  | .ok response =>
    if (∀ finding ∈ response.findings, finding.GroundedIn answer) ∧
        (response.findings.map JudgeFinding.competencyId).Nodup ∧
        (semanticSource judge.judgeId).length ≤ 160 then
      response.findings.find? fun finding => finding.competencyId = competencyId
    else none

/-- The state that a judge votes for. -/
def vote (question answer : Turn) (job : JobSpec) (competencyIds : List String)
    (competencyId : String) (judge : EvidenceJudge) : Option EvidenceState :=
  (ballot question answer job competencyIds competencyId judge).map JudgeFinding.state

/-- How many of the judges vote for a state. -/
def votesFor (ensemble : EvidenceJudgeEnsemble) (question answer : Turn) (job : JobSpec)
    (competencyIds : List String) (competencyId : String) (state : EvidenceState) : Nat :=
  ensemble.judges.countP fun judge =>
    vote question answer job competencyIds competencyId judge = some state

variable {ensemble : EvidenceJudgeEnsemble} {question answer : Turn} {job : JobSpec}
  {competencyIds : List String}

/-- Asking a judge hears its ballot. -/
theorem hear_finding (competencyId : String) (judge : EvidenceJudge) :
    Hearing.finding competencyId (judge, hear question answer job competencyIds judge) =
      ballot question answer job competencyIds competencyId judge := by
  unfold Hearing.finding ballot hear
  simp only
  cases he : judge.evaluate question answer job competencyIds with
  | error e => rfl
  | ok response =>
    rw [ExceptRules.ok_bind]
    simp only
    split
    next mapped hmapped =>
      obtain ⟨observations, hvalid, hmapped⟩ := ExceptRules.bind_ok hmapped
      obtain ⟨hgrounded, hsource⟩ := validateFindings_ok.mp ⟨observations, hvalid⟩
      obtain ⟨hnodup, _⟩ := mapFindings_ok.mp ⟨mapped, hmapped⟩
      rw [mapFindings_lookup hmapped]
      by_cases hempty : response.findings = []
      · simp [hempty]
      · rw [if_pos ⟨hgrounded, hnodup, hsource hempty⟩]
        rfl
    next e hraised =>
      split
      next hfair =>
        obtain ⟨hgrounded, hnodup, hsource⟩ := hfair
        obtain ⟨observations, hvalid⟩ := validateFindings_ok.mpr ⟨hgrounded, fun _ => hsource⟩
        obtain ⟨mapped, hmapped⟩ := mapFindings_ok.mpr
          ⟨hnodup, fun finding _ => (rfl : ([] : Dict JudgeFinding).lookup _ = none)⟩
        rw [hvalid, ExceptRules.ok_bind, hmapped] at hraised
        cases hraised
      next => rfl

/-- The findings that count on a competency. -/
def ballots (ensemble : EvidenceJudgeEnsemble) (question answer : Turn) (job : JobSpec)
    (competencyIds : List String) (competencyId : String) : List JudgeFinding :=
  ensemble.judges.filterMap (ballot question answer job competencyIds competencyId)

theorem heard_ballots (competencyId : String) :
    (ensemble.judges.map fun judge =>
        (judge, hear question answer job competencyIds judge)).filterMap
      (Hearing.finding competencyId) =
        ensemble.ballots question answer job competencyIds competencyId := by
  rw [List.filterMap_map]
  exact List.filterMap_congr fun judge _ => hear_finding competencyId judge

theorem countP_ballots (competencyId : String) (state : EvidenceState) :
    (ensemble.ballots question answer job competencyIds competencyId).countP
        (fun finding => finding.state = state) =
      ensemble.votesFor question answer job competencyIds competencyId state := by
  unfold ballots votesFor vote
  rw [List.countP_filterMap]
  refine List.countP_congr fun judge _ => ?_
  cases ballot question answer job competencyIds competencyId judge with
  | none => simp
  | some finding => simp

end EvidenceJudgeEnsemble

end NoraInterviewer
