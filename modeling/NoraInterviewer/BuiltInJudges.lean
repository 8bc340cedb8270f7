import NoraInterviewer.Judging
import Mathlib.Data.Rat.Floor

namespace NoraInterviewer

/-- The validators of a `JudgeFinding`. -/
def validateFinding (competencyId : String) (state : EvidenceState) (confidence : ℚ)
    (quote : Option String) (rationale : String) : Except Raised JudgeFinding :=
  if competencyId = "" then .error (.validationError "JudgeFinding competency_id is too short")
  else if hrange : 0 ≤ confidence ∧ confidence ≤ 1 then
    if quote.any fun quote => 4000 < quote.length then
      .error (.validationError "JudgeFinding quote is too long")
    else if rationale.length < 2 ∨ 2000 < rationale.length then
      .error (.validationError "JudgeFinding rationale is out of range")
    else if hverified : state ≠ .verified then
      if hquoted : state = .demonstrated ∨ state = .contradicted → given quote = true then
        .ok {
          competencyId, state, quote, rationale
          confidence := ⟨confidence, hrange⟩
          not_verified := hverified
          quoted := hquoted }
      else .error (.validationError s!"{state.value} evidence requires a grounded quote")
    else .error (.validationError "transcript evidence judge may not emit verified evidence")
  else .error (.validationError "JudgeFinding confidence is out of range")

/-- A completion provider behind the prompt, the JSON parser and the schema. -/
abbrev JudgeModel := Turn → Turn → JobSpec → List Competency → Except Raised JudgeResponse

namespace LLMEvidenceJudge

def select (job : JobSpec) : List String → Except Raised (List Competency)
  | [] => .ok []
  | competencyId :: rest =>
    match job.competencies.find? fun item => item.id = competencyId with
    | none => .error (.evidenceJudgeError
        s!"judge request contains unknown competency: {competencyId}")
    | some competency => do
      let selected ← select job rest
      pure (competency :: selected)

def evaluate (complete : JudgeModel) (question answer : Turn) (job : JobSpec)
    (competencyIds : List String) : Except Raised JudgeResponse := do
  let selected ← select job competencyIds
  let response ← complete question answer job selected
  let unexpected := (response.findings.map JudgeFinding.competencyId).filter (· ∉ competencyIds)
  if unexpected ≠ [] then
    .error (.evidenceJudgeError ("evidence judge returned unauthorized competencies: " ++
      (Json.ofList (unexpected.dedup.mergeSort (· ≤ ·))).repr))
  else .ok response

end LLMEvidenceJudge

/-- `LLMEvidenceJudge`. -/
def llmEvidenceJudge (complete : JudgeModel) (judgeId : String) : EvidenceJudge where
  judgeId := judgeId
  evaluate := LLMEvidenceJudge.evaluate complete

/-- `round(x)` to the nearest integer, a tie to the even one. -/
def roundHalfEven (x : ℚ) : ℤ :=
  let rest := x - x.floor
  if rest < 1 / 2 then x.floor
  else if 1 / 2 < rest then x.floor + 1
  else if x.floor % 2 = 0 then x.floor
  else x.floor + 1

/-- `round(x, 4)`. -/
def round4 (x : ℚ) : ℚ := roundHalfEven (x * 10000) / 10000

/-- `EvidenceJudgeEnsemble`, with the checks of its constructor. -/
structure EvidenceJudgeEnsemble where
  judges : List EvidenceJudge
  agreementThreshold : ℚ
  two : 2 ≤ judges.length
  unique : (judges.map EvidenceJudge.judgeId).Nodup
  threshold_range : 1 / 2 < agreementThreshold ∧ agreementThreshold ≤ 1

namespace EvidenceJudgeEnsemble

def judgeId (ensemble : EvidenceJudgeEnsemble) : String :=
  "ensemble:" ++ "+".intercalate (ensemble.judges.map EvidenceJudge.judgeId)

/-- The findings of one judge by competency. -/
def mapFindings (mapped : Dict JudgeFinding) : List JudgeFinding → Except Raised (Dict JudgeFinding)
  | [] => .ok mapped
  | finding :: rest =>
    if (mapped.lookup finding.competencyId).isSome then
      .error (.evidenceJudgeError ("judge returned duplicate findings for competency " ++
        (Json.str finding.competencyId).repr))
    else mapFindings (Dict.set finding.competencyId finding mapped) rest

/-- One judge's findings, or what it raised. -/
def hear (question answer : Turn) (job : JobSpec) (competencyIds : List String)
    (judge : EvidenceJudge) : Except Raised (Dict JudgeFinding) := do
  let response ← judge.evaluate question answer job competencyIds
  let _ ← validateFindings answer judge.judgeId response.findings
  mapFindings [] response.findings

/-- A judge, and what came of asking it. -/
abbrev Hearing := EvidenceJudge × Except Raised (Dict JudgeFinding)

def Hearing.finding (competencyId : String) (hearing : Hearing) : Option JudgeFinding :=
  match hearing.2 with
  | .ok mapped => mapped.lookup competencyId
  | .error _ => none

def Hearing.failure (hearing : Hearing) : Option Json :=
  match hearing.2 with
  | .ok _ => none
  | .error e => some (.obj [
      ("judge_id", .str hearing.1.judgeId),
      ("error_type", .str e.className),
      ("error", .str (truncate 1000 e.message))])

def Hearing.vote (competencyId : String) (hearing : Hearing) : Json :=
  .obj [
    ("judge_id", .str hearing.1.judgeId),
    ("state", .str ((hearing.finding competencyId).elim "no_finding" fun finding =>
      finding.state.value))]

def requiredVotes (ensemble : EvidenceJudgeEnsemble) : Nat :=
  (ensemble.agreementThreshold * ensemble.judges.length).ceil.toNat

/-- The state with the most votes; among equals, the one whose value sorts last. -/
def leader (findings : List JudgeFinding) : Option (EvidenceState × Nat) :=
  (findings.map JudgeFinding.state).foldl (fun best state =>
    let count := findings.countP fun finding => finding.state = state
    match best with
    | none => some (state, count)
    | some (ahead, most) =>
      if most < count ∨ (most = count ∧ ahead.value < state.value) then some (state, count)
      else best) none

/-- `max(agreeing, key=...)`: the first finding of the greatest confidence. -/
def mostConfident : List JudgeFinding → Option JudgeFinding
  | [] => none
  | finding :: rest => some (rest.foldl (fun best other =>
      if best.confidence < other.confidence then other else best) finding)

/-- The finding on which enough judges agree. -/
def consensusFinding (ensemble : EvidenceJudgeEnsemble) (competencyId : String)
    (findings : List JudgeFinding) (state : EvidenceState) (count : Nat) :
    Except Raised JudgeFinding :=
  let agreeing := findings.filter fun finding => finding.state = state
  match mostConfident agreeing with
  | none => .error (.other "ZeroDivisionError" "division by zero")
  | some source =>
    validateFinding competencyId state
      (round4 ((agreeing.map fun finding => (finding.confidence : ℚ)).sum / agreeing.length))
      (if state = .demonstrated ∨ state = .contradicted then source.quote else none)
      (s!"Consensus from {count}/{ensemble.judges.length} semantic judges. " ++ source.rationale)

/-- The finding where no state has votes enough. -/
def undecidedFinding (ensemble : EvidenceJudgeEnsemble) (competencyId : String) (count : Nat) :
    Except Raised JudgeFinding :=
  validateFinding competencyId .insufficient (round4 (count / ensemble.judges.length)) none
    (s!"No semantic evidence state reached the ensemble threshold of " ++
      s!"{ensemble.requiredVotes}/{ensemble.judges.length} judges.")

/-- The finding for one competency, and its entry in the audit. -/
def consensus (ensemble : EvidenceJudgeEnsemble) (hearings : List Hearing) (competencyId : String) :
    Except Raised (JudgeFinding × Json) := do
  let findings := hearings.filterMap (Hearing.finding competencyId)
  let count := (leader findings).elim 0 Prod.snd
  let met := (leader findings).filter fun best => ensemble.requiredVotes ≤ best.2
  let finding ← match met with
    | some (state, count) => consensusFinding ensemble competencyId findings state count
    | none => undecidedFinding ensemble competencyId count
  pure (finding, .obj [
    ("competency_id", .str competencyId),
    ("votes", .arr (hearings.map (Hearing.vote competencyId))),
    ("agreement_count", .nat count),
    ("agreement_ratio", .num (round4 (count / ensemble.judges.length))),
    ("required_votes", .nat ensemble.requiredVotes),
    ("threshold_met", .bool met.isSome),
    ("consensus_state", met.elim .null fun best => .str best.1.value)])

/-- One finding for each requested competency, in the order of the request. -/
def consensusAll (ensemble : EvidenceJudgeEnsemble) (hearings : List Hearing) :
    List String → Except Raised (List (JudgeFinding × Json))
  | [] => .ok []
  | competencyId :: rest => do
    let first ← consensus ensemble hearings competencyId
    let others ← consensusAll ensemble hearings rest
    pure (first :: others)

def evaluate (ensemble : EvidenceJudgeEnsemble) (question answer : Turn) (job : JobSpec)
    (competencyIds : List String) : Except Raised JudgeResponse := do
  let hearings := ensemble.judges.map fun judge =>
    (judge, hear question answer job competencyIds judge)
  let decided ← consensusAll ensemble hearings competencyIds
  pure {
    findings := decided.map Prod.fst
    audit := [
      ("kind", .str "evidence_judge_ensemble"),
      ("judge_ids", .ofList (ensemble.judges.map EvidenceJudge.judgeId)),
      ("agreement_threshold", .num ensemble.agreementThreshold),
      ("required_votes", .nat ensemble.requiredVotes),
      ("failures", .arr (hearings.filterMap Hearing.failure)),
      ("competencies", .arr (decided.map Prod.snd))] }

end EvidenceJudgeEnsemble

def ensembleEvidenceJudge (ensemble : EvidenceJudgeEnsemble) : EvidenceJudge where
  judgeId := ensemble.judgeId
  evaluate := ensemble.evaluate

end NoraInterviewer
