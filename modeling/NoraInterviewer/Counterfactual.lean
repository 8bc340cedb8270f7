import NoraInterviewer.BuiltInJudges
import NoraInterviewer.ConductSteps
import Mathlib.Data.Finset.Card

namespace NoraInterviewer

/-- What Python knows of the characters of a text: `\w` and `str.casefold`. -/
structure Lexicon where
  isWord : Char → Bool
  casefold : String → String

/-- `_WORD.findall(text)`. -/
def Lexicon.words (lexicon : Lexicon) (text : String) : List String :=
  ((text.toList.splitBy fun a b => lexicon.isWord a = lexicon.isWord b).filter
    fun run => run.any lexicon.isWord).map String.ofList

/-- `_tokens`. -/
def Lexicon.tokens (lexicon : Lexicon) (text : String) : Finset String :=
  ((lexicon.words text).map lexicon.casefold).toFinset

/-- `_jaccard`. -/
def jaccard (left right : Finset String) : ℚ :=
  if left = ∅ ∧ right = ∅ then 1 else (left ∩ right).card / (left ∪ right).card

/-- `_is_evaluative_interviewer`. -/
def isEvaluativeInterviewer (turn : Turn) : Bool :=
  turn.speaker = .interviewer && !turn.flagged "candidate_control" && !turn.flagged "non_evaluative"

/-- `_derived_covered`; a later turn of the same id is the one that `by_id` holds. -/
def derivedCovered (turns : List Turn) : List String :=
  turns.foldl (fun covered turn =>
    if turn.speaker = .candidate ∧ given turn.parentTurnId then
      match turns.reverse.find? fun other => some other.id = turn.parentTurnId with
      | none => covered
      | some question => markAsked covered question.competencyTags
    else covered) []

/-- `isinstance(value, list)`, and the list; the service writes strings into it only. -/
def Json.strings : Json → Option (List String)
  | .arr items => some (items.filterMap fun item =>
      match item with
      | .str value => some value
      | _ => none)
  | _ => none

def Turn.inLane (turn : Turn) (lane : QuestionLane) : Bool :=
  (turn.metadata.lookup "question_lane").any (Json.isStr lane.value)

/-- `_snapshot_for_decision`. -/
def snapshotForDecision (session : InterviewSession) (turns : List Turn) (originalNext : Turn) :
    InterviewSession :=
  let event := session.events.find? fun item =>
    item.turnId = some originalNext.id && item.type = .interviewerTurn
  { session with
    turns
    status := .running
    paused := false
    askedQuestions := turns.countP isEvaluativeInterviewer
    askedAnchorCompetencies := (turns.filter fun turn =>
      isEvaluativeInterviewer turn && turn.inLane .anchor).flatMap Turn.competencyTags
    followupsByCompetency := (turns.filter isEvaluativeInterviewer).foldl
      (fun counts turn => followedUp counts turn.parentTurnId turn.competencyTags) []
    coveredCompetencies :=
      match event.bind fun item => (item.payload.lookup "covered_competencies").bind Json.strings with
      | some covered => covered
      | none => derivedCovered turns }

structure DecisionComparison where
  candidateTurnId : String
  originalTurnId : String
  originalText : String
  alternateText : String
  originalCompetencies : List String
  alternateCompetencies : List String
  competencyJaccard : ℚ
  questionTokenJaccard : ℚ
  originalFollowup : Bool
  alternateFollowup : Bool
  originalComplete : Bool
  alternateComplete : Bool

structure CounterfactualReplayReport where
  sessionId : String
  comparisons : List DecisionComparison
  followupActionAgreement : Option ℚ := none
  completionActionAgreement : Option ℚ := none
  meanCompetencyJaccard : Option ℚ := none
  meanQuestionTokenJaccard : Option ℚ := none
  stateReconstruction : String := "event_snapshot_or_prefix_derivation"

/-- A candidate turn, the transcript up to it, and the question that was recorded next. -/
structure DecisionPoint where
  turns : List Turn
  turn : Turn
  originalNext : Turn

/-- The loop of `compare` over `session.turns`; `before` are the turns it has passed. -/
def decisionPointsFrom (before : List Turn) : List Turn → List DecisionPoint
  | [] => []
  | turn :: rest =>
    let points := decisionPointsFrom (before ++ [turn]) rest
    if turn.speaker = .candidate then
      match rest.find? isEvaluativeInterviewer with
      | none => points
      | some originalNext => ⟨before ++ [turn], turn, originalNext⟩ :: points
    else points

def decisionPoints (session : InterviewSession) : List DecisionPoint :=
  decisionPointsFrom [] session.turns

/-- `sorted(set(items))`. -/
def sortedSet (items : List String) : List String := items.dedup.mergeSort (· ≤ ·)

namespace CounterfactualReplayer

/-- One pass of the loop of `compare`. -/
def compareDecision (lexicon : Lexicon) (session : InterviewSession) (job : JobSpec)
    (alternateBrain : Brain) (point : DecisionPoint) : Except Raised DecisionComparison := do
  let snapshot := snapshotForDecision session point.turns point.originalNext
  let (alternate, _) ← alternateBrain.afterAnswer snapshot job
  pure {
    candidateTurnId := point.turn.id
    originalTurnId := point.originalNext.id
    originalText := point.originalNext.text
    alternateText := alternate.text
    originalCompetencies := sortedSet point.originalNext.competencyTags
    alternateCompetencies := sortedSet alternate.competencyTags
    competencyJaccard := round4 (jaccard point.originalNext.competencyTags.toFinset
      alternate.competencyTags.toFinset)
    questionTokenJaccard :=
      round4 (jaccard (lexicon.tokens point.originalNext.text) (lexicon.tokens alternate.text))
    originalFollowup := point.originalNext.parentTurnId = some point.turn.id
    alternateFollowup := alternate.parentTurnId = some point.turn.id
    originalComplete := point.originalNext.inLane .closing
    alternateComplete := alternate.completesInterview }

/-- `fmean`. -/
def mean (values : List ℚ) : ℚ := values.sum / values.length

/-- `float(a == b)`. -/
def agreement (left right : Bool) : ℚ := if left = right then 1 else 0

/-- `CounterfactualReplayer.compare`. -/
def compare (lexicon : Lexicon) (session : InterviewSession) (job : JobSpec)
    (alternateBrain : Brain) : Except Raised CounterfactualReplayReport := do
  let comparisons ← (decisionPoints session).mapM (compareDecision lexicon session job alternateBrain)
  if comparisons.isEmpty then pure { sessionId := session.id, comparisons := [] }
  else pure {
    sessionId := session.id
    comparisons
    followupActionAgreement := some (round4 (mean (comparisons.map fun item =>
      agreement item.originalFollowup item.alternateFollowup)))
    completionActionAgreement := some (round4 (mean (comparisons.map fun item =>
      agreement item.originalComplete item.alternateComplete)))
    meanCompetencyJaccard := some (round4 (mean (comparisons.map DecisionComparison.competencyJaccard)))
    meanQuestionTokenJaccard :=
      some (round4 (mean (comparisons.map DecisionComparison.questionTokenJaccard))) }

end CounterfactualReplayer

end NoraInterviewer
