import NoraInterviewer.Counterfactual
import NoraInterviewer.AnchorLane
import NoraInterviewer.QuestionBudget

namespace NoraInterviewer

open ExceptRules

/-- The counters that the transcript determines. -/
structure QuestionCounters where
  askedQuestions : Nat
  askedAnchorCompetencies : List String
  followupsByCompetency : Dict Nat

def InterviewSession.counters (session : InterviewSession) : QuestionCounters :=
  ⟨session.askedQuestions, session.askedAnchorCompetencies, session.followupsByCompetency⟩

def Conduct.counters (conduct : Conduct) : QuestionCounters :=
  ⟨conduct.askedQuestions, conduct.askedAnchorCompetencies, conduct.followupsByCompetency⟩

/-- What one more question of the transcript counts. -/
def QuestionCounters.ask (counters : QuestionCounters) (turn : Turn) : QuestionCounters where
  askedQuestions := counters.askedQuestions + 1
  askedAnchorCompetencies :=
    if turn.inLane .anchor then counters.askedAnchorCompetencies ++ turn.competencyTags
    else counters.askedAnchorCompetencies
  followupsByCompetency :=
    followedUp counters.followupsByCompetency turn.parentTurnId turn.competencyTags

def questionsOf (turns : List Turn) : List Turn := turns.filter Turn.evaluative

/-- The transcript with everything but its questions blotted out. -/
def questionMarks (turns : List Turn) : List (Option Turn) :=
  turns.map fun turn => if turn.evaluative then some turn else none

def countQuestions (turns : List Turn) : QuestionCounters :=
  (questionsOf turns).foldl QuestionCounters.ask ⟨0, [], []⟩

theorem isEvaluativeInterviewer_eq : isEvaluativeInterviewer = Turn.evaluative := by
  funext turn
  unfold isEvaluativeInterviewer Turn.evaluative
  rw [Bool.and_assoc, Bool.and_assoc, Bool.and_comm (!turn.flagged "candidate_control")]

theorem foldl_ask (turns : List Turn) (counters : QuestionCounters) :
    turns.foldl QuestionCounters.ask counters =
      ⟨counters.askedQuestions + turns.length,
        counters.askedAnchorCompetencies ++
          (turns.filter fun turn => turn.inLane .anchor).flatMap Turn.competencyTags,
        turns.foldl (fun counts turn => followedUp counts turn.parentTurnId turn.competencyTags)
          counters.followupsByCompetency⟩ := by
  induction turns generalizing counters with
  | nil => simp
  | cons turn rest ih =>
    rw [List.foldl_cons, ih]
    cases hlane : turn.inLane .anchor with
    | true => simp [QuestionCounters.ask, hlane, Nat.add_assoc, Nat.add_comm 1]
    | false => simp [QuestionCounters.ask, hlane, Nat.add_assoc, Nat.add_comm 1]

/-- The snapshot counts the questions of its transcript one after the other. -/
theorem snapshot_counters (session : InterviewSession) (turns : List Turn) (originalNext : Turn) :
    (snapshotForDecision session turns originalNext).counters = countQuestions turns := by
  rw [countQuestions, foldl_ask]
  simp only [InterviewSession.counters, snapshotForDecision, isEvaluativeInterviewer_eq, questionsOf,
    List.filter_filter, List.countP_eq_length_filter, Nat.zero_add, List.nil_append,
    Bool.and_comm (Turn.inLane _ _)]

theorem countQuestions_snoc (turns : List Turn) (turn : Turn) :
    countQuestions (turns ++ [turn]) =
      if turn.evaluative then (countQuestions turns).ask turn else countQuestions turns := by
  unfold countQuestions questionsOf
  rw [List.filter_append]
  split
  next h => simp [h]
  next h => simp [h]

theorem decisionTurn_evaluative (call : Ambient) (session : InterviewSession)
    (decision : AgentDecision) (latencyMs : Nat) :
    (decisionTurn call session decision latencyMs).evaluative = true := by
  simp [decisionTurn, Turn.evaluative, Turn.flagged, List.lookup_cons]

theorem decisionTurn_inLane (call : Ambient) (session : InterviewSession)
    (decision : AgentDecision) (latencyMs : Nat) (lane : QuestionLane) :
    (decisionTurn call session decision latencyMs).inLane lane = decide (laneFor decision = lane) := by
  have hlookup : (decisionTurn call session decision latencyMs).metadata.lookup "question_lane" =
      some (.str (laneFor decision).value) := rfl
  rw [Turn.inLane, hlookup]
  cases laneFor decision <;> cases lane <;> rfl

/-- An anchor decision asks about one competency that no anchor has asked about. -/
theorem nextAnchor_fresh {session : InterviewSession} {job : JobSpec} {decision : AgentDecision}
    (h : nextAnchor session job = some decision) :
    ∃ id, decision.competencyTags = [id] ∧ id ∉ session.askedAnchorCompetencies := by
  obtain ⟨chosen, hm, rfl⟩ := nextAnchor_some h
  exact ⟨chosen.id, rfl, (mem_unaskedAnchors.mp hm).2.2⟩

/-- A turn that puts a decision counts as the question that the service counts. -/
theorem decided_counters {conduct : Conduct} (h : conduct.counters = countQuestions conduct.turns)
    (call : Ambient) (session : InterviewSession) {decision : AgentDecision} (latencyMs : Nat)
    (hopen : laneFor decision ≠ .closing)
    (hanchor : laneFor decision = .anchor →
      ∃ id, decision.competencyTags = [id] ∧ id ∉ conduct.askedAnchorCompetencies)
    (covered : List String) (opened : List (Dict Json)) :
    (conduct.decided decision covered (decisionTurn call session decision latencyMs) opened).counters =
      countQuestions (conduct.turns ++ [decisionTurn call session decision latencyMs]) := by
  rw [countQuestions_snoc, if_pos (decisionTurn_evaluative call session decision latencyMs), ← h]
  have hlane := decisionTurn_inLane call session decision latencyMs .anchor
  simp only [Conduct.counters, Conduct.decided, Conduct.asked, QuestionCounters.ask, if_neg hopen,
    hlane, decide_eq_true_eq]
  split
  next ha =>
    obtain ⟨id, htags, hnew⟩ := hanchor ha
    have hmarked : markAsked conduct.askedAnchorCompetencies decision.competencyTags =
        conduct.askedAnchorCompetencies ++ decision.competencyTags := by
      rw [htags]
      simp [markAsked, hnew]
    rw [hmarked]
    rfl
  next => rfl

/-- While the interview goes on, the counters are those of the transcript. -/
def Conduct.Counted (conduct : Conduct) : Prop :=
  conduct.status = .created ∨ conduct.status = .running →
    conduct.counters = countQuestions conduct.turns

theorem Conduct.Counted.congr {conduct conduct' : Conduct} (h : conduct.Counted)
    (hs : conduct'.status = conduct.status) (hc : conduct'.counters = conduct.counters)
    (ht : questionsOf conduct'.turns = questionsOf conduct.turns) : conduct'.Counted := by
  intro hstatus
  rw [hs] at hstatus
  rw [hc, h hstatus, countQuestions, countQuestions, ht]

theorem questionsOf_snoc {turns : List Turn} {turn : Turn} (h : turn.evaluative = false) :
    questionsOf (turns ++ [turn]) = questionsOf turns := by
  simp [questionsOf, h]

theorem candidate_not_evaluative {turn : Turn} (h : turn.speaker = .candidate) :
    turn.evaluative = false := by
  simp [Turn.evaluative, h]

theorem controlled_not_evaluative {turn : Turn} (h : turn.flagged "candidate_control" = true) :
    turn.evaluative = false := by
  simp [Turn.evaluative, h]

theorem RuleBasedBrain.Decides.adaptive {decision : AgentDecision} (h : Decides decision) :
    laneFor decision ≠ .anchor := by
  unfold laneFor
  split
  next => simp
  next => rw [h.not_anchor]; simp

theorem openingDecision_rule {isWord : Char → Bool} {call : Call} {session result : InterviewSession}
    {job : JobSpec} {decision : AgentDecision} {latencyMs : Nat}
    (hb : call.brain = ruleBasedBrain isWord)
    (h : openingDecision call session job = .ok (result, decision, latencyMs)) :
    decision.parentTurnId = none ∧ decision.completesInterview = false ∧
      (nextAnchor session job = some decision ∨ RuleBasedBrain.Decides decision) := by
  unfold openingDecision at h
  split at h
  next hanchor =>
    cases h
    obtain ⟨chosen, _, rfl⟩ := nextAnchor_some hanchor
    exact ⟨rfl, rfl, Or.inl hanchor⟩
  next =>
    obtain ⟨reply, hreply, h⟩ := bind_ok h
    have hgiven := liftRaised_ok hreply
    rw [hb] at hgiven
    cases hgiven
    cases h
    exact ⟨rfl, rfl, Or.inr ((ruleBasedBrain_gives isWord).opening session job _ rfl)⟩

/-- After an answer the planner's anchor is put, or the brain's own decision. -/
theorem decideAfterAnswer_heard {call : Call} {session result : InterviewSession} {job : JobSpec}
    {decision : AgentDecision} {latencyMs : Nat}
    (h : decideAfterAnswer call session job = .ok (result, decision, latencyMs)) :
    nextAnchor session job = some decision ∨
      call.brain.afterAnswer session job = .ok (decision, result.coveredCompetencies) := by
  obtain ⟨⟨adaptive, covered⟩, hreply, h⟩ := bind_ok h
  have hgiven := liftRaised_ok hreply
  simp only at h
  split at h
  next =>
    cases h
    exact Or.inr hgiven
  next =>
    have hsame : nextAnchor { session with coveredCompetencies := covered } job =
        nextAnchor session job := nextAnchor_congr rfl job
    rw [hsame] at h
    cases h
    cases hanchor : nextAnchor session job with
    | some anchor => exact Or.inl rfl
    | none => exact Or.inr hgiven

section

variable [CanonicalDigest]

/-- The session that the brain is shown for its decision after a candidate turn. -/
inductive BrainAsked (call : Call) (job : JobSpec) (session : InterviewSession) :
    Operation → InterviewSession → Prop where
  | answer {text : String} {turnMetadata : Dict Json} {shown : InterviewSession}
    (h : prepareAnswer call session job text turnMetadata = .ok shown) :
    BrainAsked call job session (.answer text turnMetadata) shown
  | submitTool {toolId : String} {request : ToolSubmissionRequest} {work : ToolWork}
    (h : prepareTool call session job toolId request = .ok work) :
    BrainAsked call job session (.submitTool toolId request) work.session

/-- The brain is asked about a candidate turn, which is the last one; nothing else changed. -/
theorem BrainAsked.conduct {call : Call} {job : JobSpec} {session shown : InterviewSession}
    {operation : Operation} (h : BrainAsked call job session operation shown) :
    session.active ∧ ∃ turn : Turn, turn.speaker = .candidate ∧
      shown.conduct = { session.conduct with turns := session.turns ++ [turn] } := by
  cases h with
  | answer h =>
    obtain ⟨ha, hconduct⟩ := prepareAnswer_conduct h
    exact ⟨ha, _, rfl, hconduct⟩
  | submitTool h =>
    obtain ⟨ha, turn, hspeaker, _, hconduct⟩ := prepareTool_conduct h
    exact ⟨ha, turn, hspeaker, hconduct⟩

theorem BrainAsked.counted {call : Call} {job : JobSpec} {session shown : InterviewSession}
    {operation : Operation} (h : BrainAsked call job session operation shown)
    (hs : session.conduct.Counted) : shown.counters = countQuestions shown.turns := by
  obtain ⟨ha, turn, hspeaker, hconduct⟩ := h.conduct
  have hshown : shown.conduct.Counted := by
    rw [hconduct]
    exact hs.congr rfl rfl (questionsOf_snoc (candidate_not_evaluative hspeaker))
  have hstatus : shown.status = session.status := congrArg Conduct.status hconduct
  apply hshown
  show shown.status = .created ∨ shown.status = .running
  rw [hstatus]
  cases hsession : session.status with
  | created => exact Or.inl rfl
  | running => exact Or.inr rfl
  | completed => exact absurd hsession ha.1
  | cancelled => exact absurd hsession ha.2

/-- The calls of a run whose brain is the rule-based one. -/
def UnderRules (call : Call) (_ : Operation) (_ : InterviewSession) : Prop :=
  ∃ isWord, call.brain = ruleBasedBrain isWord

omit [CanonicalDigest] in
/-- A decision that goes on with the interview counts for both sides alike. -/
theorem Conduct.Counted.decided {conduct : Conduct} (hc : conduct.counters = countQuestions conduct.turns)
    {call : Ambient} {session : InterviewSession} {decision : AgentDecision} {latencyMs : Nat}
    (hanchor : laneFor decision = .anchor →
      ∃ id, decision.competencyTags = [id] ∧ id ∉ conduct.askedAnchorCompetencies)
    (covered : List String) (opened : List (Dict Json)) :
    (conduct.decided decision covered (decisionTurn call session decision latencyMs) opened).Counted := by
  intro hstatus
  by_cases hopen : laneFor decision = .closing
  · have hends : decision.completesInterview = true := by
      unfold laneFor at hopen
      split at hopen
      next h => exact h
      next => split at hopen <;> cases hopen
    simp [Conduct.decided, hends] at hstatus
  · exact decided_counters hc call session latencyMs hopen hanchor covered opened

theorem Counted.step {call : Call} {job : JobSpec} {operation : Operation}
    {session : InterviewSession} {conduct : Conduct} (hb : UnderRules call operation session)
    (hs : session.conduct.Counted) (h : Conducts call job session operation conduct) :
    conduct.Counted := by
  obtain ⟨isWord, hb⟩ := hb
  cases h with
  | @started shown decision covered latencyMs opened hfresh hshown hd =>
    obtain ⟨hparent, hgoes, hheard⟩ := openingDecision_rule hb hd
    have hcounted : shown.conduct.counters = countQuestions shown.conduct.turns := by
      rw [hshown]
      exact hs (hfresh.imp id And.left)
    have hanchor : laneFor decision = .anchor →
        ∃ id, decision.competencyTags = [id] ∧ id ∉ shown.askedAnchorCompetencies := by
      intro hlane
      rcases hheard with hanchor | hrule
      · exact nextAnchor_fresh hanchor
      · exact absurd hlane hrule.adaptive
    have hopen : laneFor decision ≠ .closing := by
      unfold laneFor
      rw [if_neg (by simp [hgoes])]
      split <;> simp
    have hdecided := decided_counters hcounted call.toAmbient shown latencyMs hopen hanchor covered
      opened
    intro _
    have hsame : followedUp shown.conduct.followupsByCompetency decision.parentTurnId
        decision.competencyTags = shown.conduct.followupsByCompetency := by
      rw [hparent]
      unfold followedUp
      split <;> rfl
    simp only [Conduct.counters, Conduct.decided, hsame] at hdecided
    exact hdecided
  | @answered text turnMetadata shown decision covered latencyMs opened hshown hd =>
    have hcounted : shown.conduct.counters = countQuestions shown.conduct.turns :=
      (BrainAsked.answer hshown).counted hs
    refine Conduct.Counted.decided hcounted (fun hlane => ?_) covered opened
    rcases decideAfterAnswer_heard hd with hanchor | hreply
    · exact nextAnchor_fresh hanchor
    · rw [hb] at hreply
      exact absurd hlane ((ruleBasedBrain_gives isWord).afterAnswer _ _ _ hreply).adaptive
  | @worked toolId request work decision covered opened hwork hd =>
    have hcounted : work.session.conduct.counters = countQuestions work.session.conduct.turns :=
      (BrainAsked.submitTool hwork).counted hs
    refine Conduct.Counted.decided hcounted (fun hlane => ?_) covered opened
    obtain ⟨reply, hreply, hd⟩ := bind_ok hd
    cases hd
    have hgiven := liftRaised_ok hreply
    rw [hb] at hgiven
    exact absurd hlane ((ruleBasedBrain_gives isWord).afterTool _ _ _ _ _ _ hgiven).adaptive
  | replied _ _ hflag =>
    exact hs.congr rfl rfl (questionsOf_snoc (controlled_not_evaluative hflag))
  | revised _ hturn hspeaker =>
    exact hs.congr rfl rfl (filter_modify hturn (candidate_not_evaluative hspeaker)
      (candidate_not_evaluative hspeaker))
  | opened => exact hs.congr rfl rfl rfl
  | cancelled =>
    intro h
    rcases h with h | h <;> cases h
  | kept => exact hs

omit [CanonicalDigest] in
theorem questionsOf_eq (turns : List Turn) :
    questionsOf turns = (questionMarks turns).filterMap id := by
  induction turns with
  | nil => rfl
  | cons turn rest ih =>
    unfold questionsOf questionMarks at ih ⊢
    cases h : turn.evaluative with
    | true => simp [h, ih]
    | false => simp [h, ih]

omit [CanonicalDigest] in
/-- A transcript that agrees on the questions up to a turn counts the same up to it. -/
theorem countQuestions_take {turns later : List Turn}
    (h : questionMarks turns <+: questionMarks later) :
    countQuestions (later.take turns.length) = countQuestions turns := by
  have hmarks : questionMarks (later.take turns.length) = questionMarks turns := by
    have htake := List.prefix_iff_eq_take.mp h
    have hlength : (questionMarks turns).length = turns.length := List.length_map _
    rw [htake, hlength]
    exact List.map_take
  rw [countQuestions, countQuestions, questionsOf_eq, questionsOf_eq, hmarks]

omit [CanonicalDigest] in
theorem questionMarks_append (turns more : List Turn) :
    questionMarks turns <+: questionMarks (turns ++ more) := by
  rw [questionMarks, questionMarks, List.map_append]
  exact List.prefix_append _ _

omit [CanonicalDigest] in
theorem questionMarks_modify {turns : List Turn} {index : Nat} {turn : Turn} {f : Turn → Turn}
    (ht : turns[index]? = some turn) (h : turn.evaluative = false)
    (hf : (f turn).evaluative = false) : questionMarks (turns.modify index f) = questionMarks turns := by
  apply List.ext_getElem?
  intro i
  simp only [questionMarks, List.getElem?_map, List.getElem?_modify]
  by_cases hi : index = i
  · subst hi
    simp [ht, h, hf]
  · simp [hi]

theorem BrainAsked.marks {call : Call} {job : JobSpec} {session shown : InterviewSession}
    {operation : Operation} (h : BrainAsked call job session operation shown) :
    questionMarks session.turns <+: questionMarks shown.turns := by
  obtain ⟨_, turn, _, hconduct⟩ := h.conduct
  have hturns : shown.turns = session.turns ++ [turn] := congrArg Conduct.turns hconduct
  rw [hturns]
  exact questionMarks_append _ _

/-- What the operation commits comes after what its brain was shown. -/
theorem Conducts.brainAsked {call : Call} {job : JobSpec} {operation : Operation}
    {session shown : InterviewSession} {conduct : Conduct}
    (h : Conducts call job session operation conduct)
    (hasked : BrainAsked call job session operation shown) :
    questionMarks shown.turns <+: questionMarks conduct.turns := by
  cases hasked with
  | answer hprepared =>
    cases h with
    | answered opened hshown =>
      cases hprepared.symm.trans hshown
      exact questionMarks_append _ _
    | revised hc => cases hc
    | opened hq => cases hq
    | kept hq => cases hq
  | submitTool hprepared =>
    cases h with
    | worked opened hwork =>
      cases hprepared.symm.trans hwork
      exact questionMarks_append _ _
    | revised hc => cases hc
    | opened hq => cases hq
    | kept hq => cases hq

/-- The questions that a transcript holds stay in their places. -/
theorem Conducts.marks {call : Call} {job : JobSpec} {operation : Operation}
    {session : InterviewSession} {conduct : Conduct}
    (h : Conducts call job session operation conduct) :
    questionMarks session.turns <+: questionMarks conduct.turns := by
  cases h with
  | @started shown decision covered latencyMs opened hfresh hshown =>
    have hturns : shown.turns = session.turns := congrArg Conduct.turns hshown
    rw [← hturns]
    exact questionMarks_append _ _
  | answered opened hshown =>
    exact (BrainAsked.answer hshown).marks.trans (questionMarks_append _ _)
  | worked opened hwork =>
    exact (BrainAsked.submitTool hwork).marks.trans (questionMarks_append _ _)
  | replied => exact questionMarks_append _ _
  | @revised _ index turn text metadata _ hturn hspeaker =>
    have hcandidate := candidate_not_evaluative hspeaker
    have hmarks : questionMarks (session.turns.modify index fun turn => { turn with text, metadata }) =
        questionMarks session.turns :=
      questionMarks_modify hturn hcandidate (candidate_not_evaluative hspeaker)
    show questionMarks session.turns <+:
      questionMarks (session.turns.modify index fun turn => { turn with text, metadata })
    rw [hmarks]
  | opened => exact List.prefix_refl _
  | cancelled => exact List.prefix_refl _
  | kept => exact List.prefix_refl _

theorem stored_marks (backend : Backend) {session session' : InterviewSession} {call : Call}
    {operation : Operation} (h : mutate call operation session = .ok (some session')) :
    questionMarks session.turns <+: questionMarks (backend.stored session').turns := by
  obtain ⟨job, _, hconducts⟩ := mutate_conducts h
  have hturns : (backend.stored session').turns = session'.turns :=
    congrArg Conduct.turns (stored_conduct backend session')
  rw [hturns]
  exact hconducts.marks

/-- A version's transcript starts with the questions of every version before it. -/
theorem History.marks {backend : Backend}
    {admissible : Call → Operation → InterviewSession → Prop} {versions : List InterviewSession}
    (h : History backend admissible versions) :
    versions.Pairwise fun later earlier =>
      questionMarks earlier.turns <+: questionMarks later.turns := by
  induction h with
  | created => exact List.pairwise_singleton _ _
  | @committed call operation session session' past _ _ hm ih =>
    have hstep := stored_marks backend hm
    refine List.pairwise_cons.mpr ⟨fun earlier he => ?_, ih⟩
    rcases List.mem_cons.mp he with rfl | he
    · exact hstep
    · exact ((List.pairwise_cons.mp ih).1 earlier he).trans hstep

theorem candidateControl_counters {call : Call} {request : CandidateControlRequest}
    {session session' : InterviewSession}
    (h : mutate call (.candidateControl request) session = .ok (some session')) :
    session'.counters = session.counters := by
  obtain ⟨job, _, hconducts⟩ := mutate_conducts h
  have hcounters : session'.conduct.counters = session.conduct.counters := by
    generalize session'.conduct = conduct at hconducts
    cases hconducts with
    | replied => rfl
    | revised => rfl
    | opened => rfl
    | kept => rfl
  exact hcounters

/-- For every reachable session under the rule-based brain, when the brain is asked for its decision
after a candidate turn, the counters are those that the snapshot derives from the transcript up to
that turn: from the transcript as it is then, and from any later version's. No control counts. -/
theorem counters_from_transcript {backend : Backend} {session : InterviewSession}
    {past : List InterviewSession} (h : History backend UnderRules (session :: past)) :
    (∀ {call : Call} {job : JobSpec} {operation : Operation} {shown : InterviewSession},
      call.job = some job → BrainAsked call job session operation shown →
      (∀ originalNext,
        (snapshotForDecision shown shown.turns originalNext).counters = shown.counters) ∧
      ∀ session' newer, mutate call operation session = .ok (some session') →
        History backend UnderRules (newer ++ backend.stored session' :: session :: past) →
        ∀ final ∈ newer ++ [backend.stored session'], ∀ originalNext,
          (snapshotForDecision final (final.turns.take shown.turns.length) originalNext).counters =
            shown.counters) ∧
    ∀ call request session', mutate call (.candidateControl request) session = .ok (some session') →
      session'.counters = session.counters := by
  have hcounted := h.conduct_invariant (P := Conduct.Counted) (fun _ => rfl)
    (fun _ ha hs hconducts => Counted.step ha hs hconducts) session List.mem_cons_self
  refine ⟨fun {call job operation shown} hjob hasked => ⟨fun originalNext => ?_,
    fun session' newer hm hnewer final hf originalNext => ?_⟩, fun call request session' hm => ?_⟩
  · rw [snapshot_counters, hasked.counted hcounted]
  · obtain ⟨job', hjob', hconducts⟩ := mutate_conducts hm
    cases hjob.symm.trans hjob'
    have hturns : (backend.stored session').turns = session'.turns :=
      congrArg Conduct.turns (stored_conduct backend session')
    have hmarks : questionMarks session'.turns <+: questionMarks final.turns := by
      rw [← hturns]
      rcases List.mem_append.mp hf with hf | hf
      · exact (List.pairwise_append.mp hnewer.marks).2.2 final hf _ List.mem_cons_self
      · rw [List.mem_singleton.mp hf]
    have hlater : questionMarks shown.turns <+: questionMarks final.turns :=
      (hconducts.brainAsked hasked).trans hmarks
    rw [snapshot_counters, countQuestions_take hlater, hasked.counted hcounted]
  · exact candidateControl_counters hm

end

section Runs

attribute [local instance] checksumDigest

/-- An anchor, a repetition of it, a follow-up. -/
def probedCalls : List (Call × Operation) := [
  (anchoredCall, .start),
  (anchoredCall, .candidateControl { kind := .repeat }),
  (anchoredCall, .answer "I built a queue." [])]

def probedAnswer : Operation := .answer "It was fast." []

/-- The brain is asked on the last version, and the call commits. -/
def probedCheck (session : InterviewSession) : Bool :=
  match prepareAnswer anchoredCall session anchoredJob "It was fast." [],
    mutate anchoredCall probedAnswer session with
  | .ok shown, .ok (some _) => shown.askedQuestions = 2 && shown.turns.length = 5
  | _, _ => false

/-- With two of four turns questions that count, the brain is shown the counters of the
transcript, and so is a replay of the version after. -/
theorem counters_from_transcript_probed : ∃ (session : InterviewSession)
    (past : List InterviewSession) (shown session' : InterviewSession),
    History .memory UnderRules (session :: past) ∧
    BrainAsked anchoredCall anchoredJob session probedAnswer shown ∧ shown.askedQuestions = 2 ∧
    mutate anchoredCall probedAnswer session = .ok (some session') ∧
    ∀ originalNext,
      (snapshotForDecision shown shown.turns originalNext).counters = shown.counters ∧
      (snapshotForDecision (Backend.memory.stored session')
        ((Backend.memory.stored session').turns.take 5) originalNext).counters = shown.counters := by
  have hrun : (jobRun anchoredJob .memory probedCalls).any
      (fun versions => versions.head?.any probedCheck) = true := by decide +kernel
  obtain ⟨session, past, hhistory, hcheck⟩ := jobRun_last (fun call _ => call = anchoredCall)
    (by simp [probedCalls]) hrun
  have hrules : History .memory UnderRules (session :: past) :=
    hhistory.mono fun call operation _ ha => ⟨asciiWord, by rw [ha.2]; rfl⟩
  unfold probedCheck at hcheck
  split at hcheck
  next shown session' hshown hm =>
    simp only [Bool.and_eq_true, decide_eq_true_eq] at hcheck
    obtain ⟨hasked, hlength⟩ := hcheck
    have hbrain : BrainAsked anchoredCall anchoredJob session probedAnswer shown := .answer hshown
    obtain ⟨hcounters, _⟩ := counters_from_transcript hrules
    obtain ⟨hlive, hlater⟩ := hcounters rfl hbrain
    have hnext : History .memory UnderRules (Backend.memory.stored session' :: session :: past) :=
      hrules.committed ⟨asciiWord, rfl⟩ hm
    refine ⟨session, past, shown, session', hrules, hbrain, hasked, hm, fun originalNext => ?_⟩
    have hreplay := hlater session' [] hm hnext _ List.mem_cons_self originalNext
    rw [hlength] at hreplay
    exact ⟨hlive originalNext, hreplay⟩
  next => cases hcheck

end Runs

end NoraInterviewer
