import NoraInterviewer.QuestionCounters
import NoraInterviewer.Transcripts

namespace NoraInterviewer

open ExceptRules

/-- The latest candidate turn that is no tool artifact. -/
def lastSpokenAnswer (session : InterviewSession) : Option Turn :=
  session.turns.reverse.find? fun turn => turn.speaker = .candidate && !turn.flagged "artifact"

structure CandidateControlResult.Restates (result : CandidateControlResult) (question : Turn)
    (text : String) : Prop where
  target : result.targetTurnId = some question.id
  turn : ∃ turn, result.interviewerTurn = some turn ∧ turn.text = text ∧
    turn.competencyTags = question.competencyTags

/-- What a control must be about while `question` is pending. -/
def CandidateControlRequest.OnTarget (session : InterviewSession) (question : Turn)
    (request : CandidateControlRequest) (result : CandidateControlResult) : Prop :=
  match request.kind with
  | .repeat => result.Restates question question.text
  | .clarify =>
    result.Restates question (clarifyText question (strip (request.text.getD "")))
  | .correctLastAnswer =>
    ∃ answer, lastSpokenAnswer session = some answer ∧ result.targetTurnId = some answer.id
  | _ => True

/-- The interviewer's latest turn is the reply to a control. -/
def RepliedLast (session : InterviewSession) : Prop :=
  ∃ turn, lastTurnBy session .interviewer = some turn ∧ turn.flagged "candidate_control" = true

/-- The candidate's latest turn is a tool artifact. -/
def SubmittedLast (session : InterviewSession) : Prop :=
  ∃ turn, lastTurnBy session .candidate = some turn ∧ turn.flagged "artifact" = true

theorem find?_reverse_of_imp {p q : Turn → Bool} (himp : ∀ turn, p turn = true → q turn = true)
    {turns : List Turn} {turn : Turn} (hq : turns.reverse.find? q = some turn)
    (hp : p turn = true) : turns.reverse.find? p = some turn := by
  generalize turns.reverse = items at hq
  induction items with
  | nil => cases hq
  | cons first rest ih =>
    rw [List.find?_cons] at hq ⊢
    split at hq
    next =>
      cases hq
      rw [hp]
    next hfirst =>
      have hnot : p first = false := by
        rw [Bool.eq_false_iff]
        intro hpass
        rw [himp first hpass] at hfirst
        cases hfirst
      rw [hnot]
      exact ih hq

theorem find?_reverse_mem {p : Turn → Bool} {turns : List Turn} {turn : Turn}
    (h : turns.reverse.find? p = some turn) : turn ∈ turns ∧ p turn = true :=
  ⟨List.mem_reverse.mp (List.mem_of_find?_eq_some h), List.find?_some h⟩

theorem Turn.evaluative_speaker {turn : Turn} (h : turn.evaluative = true) :
    turn.speaker = .interviewer ∧ turn.flagged "candidate_control" = false := by
  simp only [Turn.evaluative, Bool.and_eq_true, decide_eq_true_eq, Bool.not_eq_true'] at h
  exact ⟨h.1.1, h.2⟩

/-- There is an interviewer turn to repeat when there is a question to answer. -/
theorem lastTurnBy_of_question {session : InterviewSession} {question : Turn}
    (hq : previousQuestion session = some question) :
    ∃ turn, lastTurnBy session .interviewer = some turn := by
  obtain ⟨hmem, heval⟩ := find?_reverse_mem hq
  rw [← Option.isSome_iff_exists, lastTurnBy, List.find?_isSome]
  exact ⟨question, List.mem_reverse.mpr hmem, decide_eq_true (Turn.evaluative_speaker heval).1⟩

/-- Every interviewer turn is a question or the reply to a control. -/
def Questions (turns : List Turn) : Prop :=
  ∀ turn ∈ turns, turn.speaker = .interviewer →
    turn.evaluative = true ∨ turn.flagged "candidate_control" = true

theorem Questions.append {turns more : List Turn} (h : Questions turns) (hm : Questions more) :
    Questions (turns ++ more) := by
  intro turn hturn
  rcases List.mem_append.mp hturn with hold | hnew
  · exact h turn hold
  · exact hm turn hnew

theorem Questions.single {turn : Turn} (h : turn.speaker = .interviewer →
    turn.evaluative = true ∨ turn.flagged "candidate_control" = true) : Questions [turn] := by
  intro other hother
  rw [List.mem_singleton.mp hother]
  exact h

theorem Questions.exchange {turn question : Turn} (hs : turn.speaker = .candidate)
    (hq : question.evaluative = true) : Questions [turn, question] := by
  have hfirst : Questions [turn] := .single fun h => by
    rw [hs] at h
    cases h
  exact hfirst.append (.single fun _ => Or.inl hq)

theorem Questions.modify {turns : List Turn} (h : Questions turns) {index : Nat} {turn : Turn}
    {f : Turn → Turn} (hi : turns[index]? = some turn) (hs : (f turn).speaker = .candidate) :
    Questions (turns.modify index f) := by
  intro other hother hspeaker
  obtain ⟨n, hn⟩ := List.mem_iff_getElem?.mp hother
  rw [List.getElem?_modify] at hn
  by_cases hindex : index = n
  · rw [← hindex, hi] at hn
    simp only [↓reduceIte] at hn
    cases hn
    rw [hs] at hspeaker
    cases hspeaker
  · simp only [hindex, ↓reduceIte, id_map'] at hn
    exact h other (List.mem_of_getElem? hn) hspeaker

section

variable [CanonicalDigest]

theorem Questions.step {call : Call} {job : JobSpec} {operation : Operation}
    {session : InterviewSession} {turns : List Turn} {revisions : List TranscriptRevision}
    (hq : Questions session.turns)
    (h : Transcribes call job session operation turns revisions) : Questions turns := by
  cases h with
  | started => exact hq.append (.single fun _ => Or.inl (decisionTurn_evaluative _ _ _ _))
  | answered => exact hq.append (.exchange rfl (decisionTurn_evaluative _ _ _ _))
  | worked => exact hq.append (.exchange rfl (decisionTurn_evaluative _ _ _ _))
  | replied hr ht =>
    obtain ⟨_, hturn, _⟩ := handleCandidateControl_ok hr
    exact hq.append (.single fun _ => Or.inr (hturn _ ht).2.2)
  | revised _ _ ht hs => exact hq.modify ht hs
  | kept => exact hq

/-- The next answer to the session is linked to the turn with the id. -/
def NextParent (session : InterviewSession) (id : String) : Prop :=
  ∀ call job text turnMetadata shown, prepareAnswer call session job text turnMetadata = .ok shown →
    ∃ answer, shown.turns = session.turns ++ [answer] ∧ answer.parentTurnId = some id

theorem nextParent_of_question {session : InterviewSession} {question : Turn}
    (hq : previousQuestion session = some question) : NextParent session question.id := by
  intro call job text turnMetadata shown hshown
  refine ⟨_, congrArg Conduct.turns (prepareAnswer_conduct hshown).2, ?_⟩
  show (previousQuestion session).map Turn.id = some question.id
  rw [hq]
  rfl

omit [CanonicalDigest] in
theorem previousQuestion_eq (session : InterviewSession) :
    previousQuestion session = (questionsOf session.turns).getLast? := by
  rw [previousQuestion, questionsOf, ← List.head?_filter, List.filter_reverse,
    List.head?_reverse]

/-- A control leaves the question that the next answer is linked to. -/
theorem candidateControl_question {call : Call} {session session' : InterviewSession}
    {request : CandidateControlRequest}
    (h : mutate call (.candidateControl request) session = .ok (some session')) :
    previousQuestion session' = previousQuestion session := by
  obtain ⟨job, _, htranscribes⟩ := mutate_transcribes h
  have hquestions : questionsOf session'.turns = questionsOf session.turns := by
    generalize session'.turns = turns at htranscribes
    generalize session'.transcriptRevisions = revisions at htranscribes
    cases htranscribes with
    | replied hr ht =>
      obtain ⟨_, hturn, _⟩ := handleCandidateControl_ok hr
      exact questionsOf_snoc (controlled_not_evaluative (hturn _ ht).2.2)
    | revised _ _ ht hs =>
      exact filter_modify ht (candidate_not_evaluative hs) (candidate_not_evaluative hs)
    | kept => rfl
  rw [previousQuestion_eq, previousQuestion_eq, hquestions]

/-- The calls whose turn ids are fresh. -/
def FreshCalls (call : Call) (_ : Operation) (session : InterviewSession) : Prop :=
  FreshTurnIds call.toAmbient session

omit [CanonicalDigest] in
/-- Controls that find the pending question and a spoken answer last are about these. -/
theorem handleCandidateControl_onTarget {call : Ambient} {session handled : InterviewSession}
    {request : CandidateControlRequest} {result : CandidateControlResult} {question : Turn}
    (hquestion : lastTurnBy session .interviewer = some question)
    (hanswer : ∀ answer, lastTurnBy session .candidate = some answer →
      lastSpokenAnswer session = some answer)
    (h : handleCandidateControl call session request = .ok (handled, result)) :
    request.OnTarget session question result := by
  obtain ⟨kind, text⟩ := request
  cases kind with
  | «repeat» =>
    simp only [handleCandidateControl, hquestion] at h
    cases h
    exact ⟨rfl, _, rfl, rfl, rfl⟩
  | clarify =>
    simp only [handleCandidateControl, hquestion] at h
    cases h
    exact ⟨rfl, _, rfl, rfl, rfl⟩
  | correctLastAnswer =>
    obtain ⟨_, _, hcorrect⟩ := handleCandidateControl_ok h
    obtain ⟨_, answer, hlast, htarget⟩ := hcorrect rfl
    exact ⟨answer, hanswer answer hlast, htarget⟩
  | thinkingTime | resume | candidateQuestion => trivial

omit [CanonicalDigest] in
/-- A repetition aimed at the pending question finds it last. -/
theorem repeat_finds {call : Ambient} {session : InterviewSession} {question turn : Turn}
    (hids : (session.turns.map Turn.id).Nodup) (hq : question ∈ session.turns)
    (hlast : lastTurnBy session .interviewer = some turn)
    (h : ∀ handled result, handleCandidateControl call session ⟨.repeat, none⟩ =
      .ok (handled, result) → result.Restates question question.text) : turn = question := by
  have hhandled : ∃ result, handleCandidateControl call session ⟨.repeat, none⟩ =
      .ok (session, result) ∧ result.targetTurnId = some turn.id := by
    simp only [handleCandidateControl, hlast]
    exact ⟨_, rfl, rfl⟩
  obtain ⟨result, hresult, htarget⟩ := hhandled
  have haimed := (h session result hresult).target
  rw [htarget] at haimed
  exact List.inj_on_of_nodup_map hids (find?_reverse_mem hlast).1 hq (Option.some.inj haimed)

omit [CanonicalDigest] in
/-- A correction aimed at a spoken answer finds one last. -/
theorem correct_finds {call : Ambient} {session : InterviewSession} {question turn : Turn}
    (hids : (session.turns.map Turn.id).Nodup)
    (hlast : lastTurnBy session .candidate = some turn)
    (h : ∀ handled result, handleCandidateControl call session ⟨.correctLastAnswer, none⟩ =
      .ok (handled, result) →
        CandidateControlRequest.OnTarget session question ⟨.correctLastAnswer, none⟩ result) :
    turn.flagged "artifact" = false := by
  have hhandled : ∃ result, handleCandidateControl call session ⟨.correctLastAnswer, none⟩ =
      .ok (session, result) ∧ result.targetTurnId = some turn.id := by
    simp only [handleCandidateControl, hlast]
    exact ⟨_, rfl, rfl⟩
  obtain ⟨result, hresult, htarget⟩ := hhandled
  obtain ⟨answer, hspoken, haimed⟩ := h session result hresult
  rw [htarget] at haimed
  obtain ⟨hmem, hplain⟩ := find?_reverse_mem hspoken
  have hsame : turn = answer :=
    List.inj_on_of_nodup_map hids (find?_reverse_mem hlast).1 hmem (Option.some.inj haimed)
  rw [hsame]
  simp only [Bool.and_eq_true, Bool.not_eq_true'] at hplain
  exact hplain.2

/-- While a question is pending, the next answer is linked to it, and the controls are about it
and about the latest spoken answer exactly if the interviewer's latest turn is not the reply to a
control and the candidate's latest turn is not an artifact. -/
theorem controls_on_target {backend : Backend} {versions : List InterviewSession}
    (h : History backend FreshCalls versions) {session : InterviewSession}
    (hs : session ∈ versions) {question : Turn} (hq : previousQuestion session = some question) :
    (NextParent session question.id ∧ ∀ call request session',
      mutate call (.candidateControl request) session = .ok (some session') →
        NextParent session' question.id) ∧
    ((∀ call request handled result,
        handleCandidateControl call session request = .ok (handled, result) →
          request.OnTarget session question result) ↔
      ¬RepliedLast session ∧ ¬SubmittedLast session) := by
  have hids : (session.turns.map Turn.id).Nodup :=
    h.turnIds_nodup (fun _ _ _ hfresh => hfresh) session hs
  have hquestions : Questions session.turns :=
    h.transcript_invariant (P := fun turns _ => Questions turns) (by simp [Questions])
      (fun _ _ hquestions hstep => hquestions.step hstep) session hs
  obtain ⟨hmem, heval⟩ := find?_reverse_mem hq
  obtain ⟨turn, hlast⟩ := lastTurnBy_of_question hq
  obtain ⟨hturn, hspeaker⟩ := find?_reverse_mem hlast
  refine ⟨⟨nextParent_of_question hq, fun call request session' hm => ?_⟩, ?_, ?_⟩
  · exact nextParent_of_question ((candidateControl_question hm).trans hq)
  · intro hcontrols
    constructor
    · rintro ⟨reply, hreply, hflag⟩
      have hsame := repeat_finds hids hmem hreply (hcontrols plainAmbient ⟨.repeat, none⟩)
      rw [hsame, (Turn.evaluative_speaker heval).2] at hflag
      cases hflag
    · rintro ⟨artifact, hartifact, hflag⟩
      have hplain := correct_finds hids hartifact
        (hcontrols plainAmbient ⟨.correctLastAnswer, none⟩)
      rw [hplain] at hflag
      cases hflag
  · rintro ⟨hreplied, hsubmitted⟩ call request handled result hhandled
    have hasked : turn.evaluative = true := by
      rcases hquestions turn hturn (of_decide_eq_true hspeaker) with hasked | hflag
      · exact hasked
      · exact absurd ⟨turn, hlast, hflag⟩ hreplied
    have hsame : previousQuestion session = some turn :=
      find?_reverse_of_imp (fun _ he => decide_eq_true (Turn.evaluative_speaker he).1) hlast hasked
    cases hsame.symm.trans hq
    apply handleCandidateControl_onTarget hlast
    · intro answer hanswer
      have hplain : answer.flagged "artifact" = false :=
        Bool.eq_false_iff.mpr fun hflag => hsubmitted ⟨answer, hanswer, hflag⟩
      have hcandidate := (find?_reverse_mem hanswer).2
      apply find?_reverse_of_imp _ hanswer
      · rw [hcandidate, hplain]
        rfl
      · intro other hother
        exact (Bool.and_eq_true_iff.mp hother).1
    · exact hhandled

end

section Runs

attribute [local instance] checksumDigest

def freshTurnIds (_ : Operation) (session : InterviewSession) : Bool :=
  plainAmbient.uuid .turn session.turns.length ∉ session.turns.map Turn.id &&
    plainAmbient.uuid .turn (session.turns.length + 1) ∉ session.turns.map Turn.id &&
    plainAmbient.uuid .turn session.turns.length ≠
      plainAmbient.uuid .turn (session.turns.length + 1)

theorem freshTurnIds_fresh {allowed : Call → Operation → Prop} {call : Call}
    {operation : Operation} {session : InterviewSession}
    (ha : allowed call operation → call.toAmbient = plainAmbient)
    (h : Checked freshTurnIds allowed call operation session) :
    FreshCalls call operation session := by
  obtain ⟨⟨_, hallowed⟩, hcheck⟩ := h
  simp only [freshTurnIds, Bool.and_eq_true, decide_eq_true_eq] at hcheck
  obtain ⟨⟨hfirst, hsecond⟩, hapart⟩ := hcheck
  rw [FreshCalls, ha hallowed]
  exact ⟨hfirst, hsecond, hapart⟩

/-- The pending question is the latest interviewer turn, and a spoken answer the latest of the
candidate. -/
def onTarget (session : InterviewSession) : Bool :=
  (previousQuestion session).isSome &&
    (lastTurnBy session .interviewer).all (fun turn => !turn.flagged "candidate_control") &&
    (lastTurnBy session .candidate).all (fun turn => !turn.flagged "artifact")

theorem controls_on_target_answered : ∃ session past question,
    History .memory FreshCalls (session :: past) ∧ previousQuestion session = some question ∧
    ∀ call request handled result,
      handleCandidateControl call session request = .ok (handled, result) →
        request.OnTarget session question result := by
  have hrun : (checkedRun freshTurnIds plainJob .memory [(plainCall askDecision, .start),
      (plainCall askDecision, .candidateControl ⟨.repeat, none⟩),
      (plainCall askDecision, .answer "I built a queue." [])]).any
      (fun versions => versions.head?.any onTarget) = true := by decide +kernel
  obtain ⟨session, past, hhistory, hcheck⟩ :=
    checkedRun_last (fun call _ => call = plainCall askDecision) (by simp) hrun
  have hfresh := hhistory.mono fun _ _ _ ha =>
    freshTurnIds_fresh (fun hcall => congrArg Call.toAmbient hcall) ha
  simp only [onTarget, Bool.and_eq_true] at hcheck
  obtain ⟨⟨hquestion, hreply⟩, hartifact⟩ := hcheck
  obtain ⟨question, hq⟩ := Option.isSome_iff_exists.mp hquestion
  refine ⟨session, past, question, hfresh, hq,
    (controls_on_target hfresh List.mem_cons_self hq).2.mpr ⟨?_, ?_⟩⟩
  · rintro ⟨turn, hlast, hflag⟩
    rw [hlast, Option.all_some, hflag] at hreply
    cases hreply
  · rintro ⟨turn, hlast, hflag⟩
    rw [hlast, Option.all_some, hflag] at hartifact
    cases hartifact

/-- The control is about neither the pending question nor the latest spoken answer. -/
def offTarget (request : CandidateControlRequest) (session : InterviewSession) : Bool :=
  match previousQuestion session, handleCandidateControl plainAmbient session request with
  | some question, .ok (_, result) =>
    result.targetTurnId ≠ some question.id &&
      result.targetTurnId ≠ (lastSpokenAnswer session).map Turn.id
  | _, _ => false

theorem offTarget_misses {request : CandidateControlRequest} {session : InterviewSession}
    (hk : request.kind = .repeat ∨ request.kind = .correctLastAnswer)
    (h : offTarget request session = true) : ∃ question handled result,
      previousQuestion session = some question ∧
      handleCandidateControl plainAmbient session request = .ok (handled, result) ∧
      ¬request.OnTarget session question result := by
  unfold offTarget at h
  split at h
  next question handled result hq hhandled =>
    simp only [Bool.and_eq_true, decide_eq_true_eq] at h
    refine ⟨question, handled, result, hq, hhandled, fun htarget => ?_⟩
    rcases hk with hk | hk
    · rw [CandidateControlRequest.OnTarget, hk] at htarget
      exact h.1 htarget.target
    · rw [CandidateControlRequest.OnTarget, hk] at htarget
      obtain ⟨answer, hspoken, haimed⟩ := htarget
      rw [hspoken] at h
      exact h.2 haimed
  next => cases h

/-- A repetition after a candidate's question restates the reply to it, and a correction after a
submission rewrites the artifact. -/
theorem controls_off_target :
    (∃ session past question handled result, History .memory FreshCalls (session :: past) ∧
      previousQuestion session = some question ∧
      handleCandidateControl plainAmbient session ⟨.repeat, none⟩ = .ok (handled, result) ∧
      ¬CandidateControlRequest.OnTarget session question ⟨.repeat, none⟩ result) ∧
    ∃ session past question handled result, History .memory FreshCalls (session :: past) ∧
      previousQuestion session = some question ∧
      handleCandidateControl plainAmbient session ⟨.correctLastAnswer, some "I meant a log."⟩ =
        .ok (handled, result) ∧
      ¬CandidateControlRequest.OnTarget session question
        ⟨.correctLastAnswer, some "I meant a log."⟩ result := by
  have hasked : (checkedRun freshTurnIds plainJob .memory [(plainCall askDecision, .start),
      (plainCall askDecision, .candidateControl ⟨.candidateQuestion, some "How long is it?"⟩)]).any
      (fun versions => versions.head?.any (offTarget ⟨.repeat, none⟩)) = true := by
    decide +kernel
  have hworked : (checkedRun freshTurnIds plainJob .memory [(plainCall askDecision, .start),
      (plainCall askDecision, .answer "I built a queue." []),
      (plainCall askDecision, .openTool plainTool),
      (plainCall askDecision, .submitTool "artifact" ⟨[]⟩)]).any
      (fun versions => versions.head?.any
        (offTarget ⟨.correctLastAnswer, some "I meant a log."⟩)) = true := by
    decide +kernel
  constructor
  · obtain ⟨session, past, hhistory, hcheck⟩ :=
      checkedRun_last (fun call _ => call = plainCall askDecision) (by simp) hasked
    obtain ⟨question, handled, result, hq, hhandled, hmiss⟩ := offTarget_misses (Or.inl rfl) hcheck
    exact ⟨session, past, question, handled, result, hhistory.mono fun _ _ _ ha =>
      freshTurnIds_fresh (fun hcall => congrArg Call.toAmbient hcall) ha, hq, hhandled, hmiss⟩
  · obtain ⟨session, past, hhistory, hcheck⟩ :=
      checkedRun_last (fun call _ => call = plainCall askDecision) (by simp) hworked
    obtain ⟨question, handled, result, hq, hhandled, hmiss⟩ := offTarget_misses (Or.inr rfl) hcheck
    exact ⟨session, past, question, handled, result, hhistory.mono fun _ _ _ ha =>
      freshTurnIds_fresh (fun hcall => congrArg Call.toAmbient hcall) ha, hq, hhandled, hmiss⟩

end Runs

end NoraInterviewer
