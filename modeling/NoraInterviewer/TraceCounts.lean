import NoraInterviewer.Traces
import NoraInterviewer.QuestionCounters

namespace NoraInterviewer

open ExceptRules

/-- A repetition or a clarification of a question in the ANCHOR lane. -/
def Turn.restatesAnchor (turn : Turn) : Bool :=
  turn.flagged "candidate_control" && turn.asksInLane .anchor

/-- An exported evaluative interviewer turn outside the CLOSING lane. -/
def TraceTurn.counted (turn : TraceTurn) : Bool :=
  let flagged key := (turn.metadata.lookup key).any Json.truthy
  turn.speaker = "interviewer" && !flagged "non_evaluative" && !flagged "candidate_control" &&
    !(turn.metadata.lookup "question_lane").any (Json.isStr QuestionLane.closing.value)

/-- The counts of the trace are those of the interview. -/
structure CountsAgree (trace : VoxRubricTrace) (session : InterviewSession) : Prop where
  anchors : trace.metadata.anchorTurns = session.askedAnchorCompetencies.length
  questions : trace.metadata.interviewerTurns = trace.turns.countP TraceTurn.counted
  le : trace.metadata.anchorTurns ≤ trace.metadata.interviewerTurns

/-- The operation is a REPEAT or a CLARIFY, and the question that it restates is in the ANCHOR
lane. -/
def RestatesAnchor (operation : Operation) (session : InterviewSession) : Prop :=
  ∃ request question, operation = .candidateControl request ∧
    (request.kind = .repeat ∨ request.kind = .clarify) ∧
    lastTurnBy session .interviewer = some question ∧ question.inLane .anchor = true

def countedTurn (turn : Turn) : Bool := turn.evaluative && !turn.inLane .closing

def anchorQuestion (turn : Turn) : Bool := turn.evaluative && turn.inLane .anchor

/-- The counters of the interview, as they are counted from the transcript. -/
structure Conduct.Traced (conduct : Conduct) : Prop where
  questions : conduct.askedQuestions = conduct.turns.countP countedTurn
  anchors : conduct.askedAnchorCompetencies.length = conduct.turns.countP anchorQuestion
  marked : ∀ turn ∈ conduct.turns, turn.speaker = .interviewer →
    turn.evaluative = true ∨ turn.flagged "candidate_control" = true

theorem Conduct.Traced.congr {conduct conduct' : Conduct} (h : conduct.Traced)
    (ht : conduct'.turns = conduct.turns) (hq : conduct'.askedQuestions = conduct.askedQuestions)
    (ha : conduct'.askedAnchorCompetencies = conduct.askedAnchorCompetencies) : conduct'.Traced :=
  ⟨by rw [ht, hq, h.questions], by rw [ht, ha, h.anchors], by rw [ht]; exact h.marked⟩

/-- One more turn that is no question. -/
theorem Conduct.Traced.snoc {conduct conduct' : Conduct} (h : conduct.Traced) {turn : Turn}
    (ht : conduct'.turns = conduct.turns ++ [turn]) (hturn : turn.evaluative = false)
    (hmarked : turn.speaker = .interviewer → turn.flagged "candidate_control" = true)
    (hq : conduct'.askedQuestions = conduct.askedQuestions)
    (ha : conduct'.askedAnchorCompetencies = conduct.askedAnchorCompetencies) : conduct'.Traced := by
  refine ⟨?_, ?_, fun other hother hspeaker => ?_⟩
  · simp [ht, hq, h.questions, countedTurn, hturn]
  · simp [ht, ha, h.anchors, anchorQuestion, hturn]
  · rw [ht] at hother
    rcases List.mem_append.mp hother with hold | hnew
    · exact h.marked other hold hspeaker
    · rw [List.mem_singleton.mp hnew] at hspeaker ⊢
      exact .inr (hmarked hspeaker)

/-- The question that puts a decision counts in its lane. -/
theorem Conduct.Traced.asked {conduct : Conduct} (h : conduct.Traced) (call : Ambient)
    (session : InterviewSession) {decision : AgentDecision} (latencyMs : Nat)
    (hanchor : laneFor decision = .anchor →
      ∃ id, decision.competencyTags = [id] ∧ id ∉ conduct.askedAnchorCompetencies)
    (covered : List String) (opened : List (Dict Json)) :
    (conduct.asked decision covered (decisionTurn call session decision latencyMs)
      opened).Traced := by
  have hquestion := decisionTurn_evaluative call session decision latencyMs
  have hlane := decisionTurn_inLane call session decision latencyMs
  refine ⟨?_, ?_, fun other hother hspeaker => ?_⟩
  · simp only [Conduct.asked, List.countP_append, List.countP_singleton, countedTurn, hquestion,
      hlane, h.questions]
    cases laneFor decision with
    | anchor => rfl
    | adaptive => rfl
    | closing => rfl
  · simp only [Conduct.asked, List.countP_append, List.countP_singleton, anchorQuestion, hquestion,
      hlane, ← h.anchors]
    split
    next ha =>
      obtain ⟨id, htags, hnew⟩ := hanchor ha
      simp [htags, markAsked, hnew, ha]
    next ha => simp [ha]
  · rcases List.mem_append.mp hother with hold | hnew
    · exact h.marked other hold hspeaker
    · rw [List.mem_singleton.mp hnew]
      exact .inl hquestion

theorem mem_modify {turns : List Turn} {index : Nat} {turn other : Turn} {f : Turn → Turn}
    (hturn : turns[index]? = some turn) (h : other ∈ turns.modify index f) :
    other = f turn ∨ other ∈ turns := by
  obtain ⟨i, hi⟩ := List.mem_iff_getElem?.mp h
  rw [List.getElem?_modify] at hi
  by_cases hindex : index = i
  · subst hindex
    simp only [if_true, hturn] at hi
    cases hi
    exact .inl rfl
  · simp only [if_neg hindex, Option.map_eq_map, Option.map_id'] at hi
    exact .inr (List.mem_of_getElem? hi)

section

variable [CanonicalDigest]

theorem BrainAsked.traced {call : Call} {job : JobSpec} {session shown : InterviewSession}
    {operation : Operation} (h : BrainAsked call job session operation shown)
    (hs : session.conduct.Traced) : shown.conduct.Traced := by
  obtain ⟨_, turn, hspeaker, hconduct⟩ := h.conduct
  rw [hconduct]
  refine hs.snoc rfl (candidate_not_evaluative hspeaker) (fun hinterviewer => ?_) rfl rfl
  rw [hspeaker] at hinterviewer
  cases hinterviewer

theorem Traced.step {call : Call} {job : JobSpec} {operation : Operation}
    {session : InterviewSession} {conduct : Conduct} (hb : UnderRules call operation session)
    (hs : session.conduct.Traced) (h : Conducts call job session operation conduct) :
    conduct.Traced := by
  obtain ⟨isWord, hb⟩ := hb
  cases h with
  | @started shown decision covered latencyMs opened hfresh hshown hd =>
    obtain ⟨_, _, hheard⟩ := openingDecision_rule hb hd
    have hshownTraced : shown.conduct.Traced := by
      rw [hshown]
      exact hs
    have hanchor : laneFor decision = .anchor →
        ∃ id, decision.competencyTags = [id] ∧ id ∉ shown.askedAnchorCompetencies := by
      intro hlane
      rcases hheard with hanchor | hrule
      · exact nextAnchor_fresh hanchor
      · exact absurd hlane hrule.adaptive
    exact (hshownTraced.asked call.toAmbient shown latencyMs hanchor covered opened).congr rfl rfl rfl
  | @answered text turnMetadata shown decision covered latencyMs opened hshown hd =>
    have hanchor : laneFor decision = .anchor →
        ∃ id, decision.competencyTags = [id] ∧ id ∉ shown.askedAnchorCompetencies := by
      intro hlane
      rcases decideAfterAnswer_heard hd with hanchor | hreply
      · exact nextAnchor_fresh hanchor
      · rw [hb] at hreply
        exact absurd hlane ((ruleBasedBrain_gives isWord).afterAnswer _ _ _ hreply).adaptive
    have hshownTraced := (BrainAsked.answer hshown).traced hs
    exact (hshownTraced.asked call.toAmbient shown latencyMs hanchor covered opened).congr rfl rfl rfl
  | @worked toolId request work decision covered opened hwork hd =>
    have hanchor : laneFor decision = .anchor →
        ∃ id, decision.competencyTags = [id] ∧ id ∉ work.session.askedAnchorCompetencies := by
      intro hlane
      obtain ⟨reply, hreply, hd⟩ := bind_ok hd
      cases hd
      have hgiven := liftRaised_ok hreply
      rw [hb] at hgiven
      exact absurd hlane ((ruleBasedBrain_gives isWord).afterTool _ _ _ _ _ _ hgiven).adaptive
    have hworkTraced := (BrainAsked.submitTool hwork).traced hs
    exact (hworkTraced.asked call.toAmbient work.session call.latencyMs hanchor covered
      opened).congr rfl rfl rfl
  | replied _ _ hflag => exact hs.snoc rfl (controlled_not_evaluative hflag) (fun _ => hflag) rfl rfl
  | @revised _ index turn text metadata _ hturn hspeaker =>
    have hold := candidate_not_evaluative hspeaker
    have hnew : Turn.evaluative { turn with text, metadata } = false :=
      candidate_not_evaluative hspeaker
    refine ⟨?_, ?_, fun other hother hinterviewer => ?_⟩
    · simp only [List.countP_eq_length_filter]
      rw [filter_modify hturn (by simp [countedTurn, hold]) (by simp [countedTurn, hnew]),
        ← List.countP_eq_length_filter]
      exact hs.questions
    · simp only [List.countP_eq_length_filter]
      rw [filter_modify hturn (by simp [anchorQuestion, hold]) (by simp [anchorQuestion, hnew]),
        ← List.countP_eq_length_filter]
      exact hs.anchors
    · rcases mem_modify hturn hother with rfl | hold
      · rw [hspeaker] at hinterviewer
        cases hinterviewer
      · exact hs.marked other hold hinterviewer
  | opened => exact hs.congr rfl rfl rfl
  | cancelled => exact hs.congr rfl rfl rfl
  | kept => exact hs

/-- A control adds the turn that it is answered with. -/
theorem recordControl_turns {call : Ambient} {session session' : InterviewSession}
    {request : CandidateControlRequest} {result : CandidateControlResult}
    (h : recordControl call session request = .ok (session', result)) :
    session'.turns = session.turns ++ result.interviewerTurn.toList ∧
      ∃ handled, handleCandidateControl call session request = .ok (handled, result) := by
  unfold recordControl at h
  obtain ⟨_, h⟩ := ite_error_ok h
  obtain ⟨_, h⟩ := ite_error_ok h
  obtain ⟨⟨handled, reply⟩, hhandled, h⟩ := bind_ok h
  obtain ⟨logged, hlogged, h⟩ := bind_ok h
  obtain ⟨replied, hreplied, h⟩ := bind_ok h
  cases h
  have hhandled := badRequestOnValueError_ok hhandled
  obtain ⟨rfl, _⟩ := handleCandidateControl_ok hhandled
  refine ⟨?_, _, hhandled⟩
  have hbefore : logged.turns = session.turns :=
    congrArg Conduct.turns (appendEvent_conduct (by decide) hlogged)
  unfold recordControlTurn at hreplied
  split at hreplied
  next hnone =>
    cases hreplied
    rw [hnone, hbefore]
    exact (List.append_nil _).symm
  next turn hsome =>
    obtain ⟨events, rfl, _⟩ := appendEvent_ok hreplied
    rw [hsome, ← hbefore]
    rfl

omit [CanonicalDigest] in
/-- The turn of a control is in the lane of the question that it restates. -/
theorem handleCandidateControl_lane {call : Ambient} {session handled : InterviewSession}
    {request : CandidateControlRequest} {result : CandidateControlResult}
    (h : handleCandidateControl call session request = .ok (handled, result)) {turn : Turn}
    (hturn : result.interviewerTurn = some turn) (hanchor : turn.restatesAnchor = true) :
    RestatesAnchor (.candidateControl request) session := by
  have hrestated : ∀ question text target, turn = restatedTurn call session request question text target →
      target ≠ "question_lane" → question.inLane .anchor = true := by
    rintro question text target rfl htarget
    have hne : ("question_lane" == target) = false := by simpa using htarget.symm
    have hlane : ((question.metadata.lookup "question_lane").getD (.str "adaptive")).isStr
        QuestionLane.anchor.value = true := by
      simpa [Turn.restatesAnchor, Turn.asksInLane, restatedTurn, Turn.flagged, List.lookup_cons, hne]
        using ((Bool.and_eq_true _ _).mp hanchor).2
    unfold Turn.inLane
    cases hlookup : question.metadata.lookup "question_lane" with
    | none =>
      rw [hlookup] at hlane
      cases hlane
    | some value =>
      rw [hlookup] at hlane
      exact hlane
  unfold handleCandidateControl at h
  cases hk : request.kind with
  | «repeat» =>
    simp only [hk] at h
    split at h
    next => cases h
    next question hquestion =>
      cases h
      exact ⟨request, question, rfl, .inl hk, hquestion,
        hrestated question _ _ (Option.some.inj hturn).symm (by decide)⟩
  | clarify =>
    simp only [hk] at h
    split at h
    next => cases h
    next question hquestion =>
      cases h
      exact ⟨request, question, rfl, .inr hk, hquestion,
        hrestated question _ _ (Option.some.inj hturn).symm (by decide)⟩
  | candidateQuestion =>
    simp only [hk] at h
    split at h
    next => cases h
    next =>
      cases h
      cases hturn
      simp [Turn.restatesAnchor, Turn.asksInLane, List.lookup_cons] at hanchor
  | thinkingTime =>
    simp only [hk] at h
    cases h
    cases hturn
  | resume =>
    simp only [hk] at h
    cases h
    cases hturn
  | correctLastAnswer =>
    simp only [hk] at h
    split at h
    next => cases h
    next =>
      cases h
      cases hturn

theorem candidateControl_added {call : Call} {session session' : InterviewSession}
    {request : CandidateControlRequest} {result : CandidateControlResult}
    (h : candidateControl call session request = .ok (.commit session' result)) {turn : Turn}
    (hturns : session'.turns = session.turns ++ [turn]) (hrestates : turn.restatesAnchor = true) :
    RestatesAnchor (.candidateControl request) session := by
  obtain ⟨⟨handled, reply⟩, hhandled, h⟩ := bind_ok h
  obtain ⟨hadded, value, hcontrol⟩ := recordControl_turns hhandled
  simp only at h
  split at h
  next =>
    cases h
    rw [hadded] at hturns
    have hlist := List.append_cancel_left hturns
    cases hsome : result.interviewerTurn with
    | none =>
      rw [hsome] at hlist
      cases hlist
    | some added =>
      rw [hsome] at hlist
      cases hlist
      exact handleCandidateControl_lane hcontrol hsome hrestates
  next correction hreq =>
    obtain ⟨⟨corrected, revision⟩, hcorrected, h⟩ := bind_ok h
    cases h
    have hkind : request.kind = .correctLastAnswer := by
      unfold requestedCorrection at hreq
      split at hreq
      next hc => exact hc.1
      next => cases hreq
    obtain ⟨_, _, hcorrect⟩ := handleCandidateControl_ok hcontrol
    obtain ⟨index, _, text, metadata, _, _, hfinal⟩ := applyTranscriptCorrection_conduct hcorrected
    have hmodified : corrected.turns = handled.turns.modify index
        fun turn => { turn with text, metadata } := congrArg Conduct.turns hfinal
    have hlength := congrArg List.length (hturns.symm.trans hmodified)
    rw [List.length_modify, hadded, (hcorrect hkind).1] at hlength
    simp at hlength

/-- Where no control restates an anchor, none of the turns does. -/
theorem Restates.step {call : Call} {operation : Operation} {session session' : InterviewSession}
    (h : mutate call operation session = .ok (some session'))
    (hno : ¬RestatesAnchor operation session)
    (hs : ∀ turn ∈ session.turns, turn.restatesAnchor = false) :
    ∀ turn ∈ session'.turns, turn.restatesAnchor = false := by
  have hcandidate : ∀ {turn : Turn}, turn.speaker = .candidate → turn.restatesAnchor = false := by
    intro turn hspeaker
    simp [Turn.restatesAnchor, Turn.asksInLane, hspeaker]
  have hdecision : ∀ call shown decision latencyMs,
      (decisionTurn call shown decision latencyMs).restatesAnchor = false := by
    intro call shown decision latencyMs
    simp [Turn.restatesAnchor, Turn.flagged, decisionTurn, List.lookup_cons]
  have hsnoc : ∀ {turns : List Turn} {turn : Turn}, (∀ t ∈ turns, t.restatesAnchor = false) →
      turn.restatesAnchor = false → ∀ t ∈ turns ++ [turn], t.restatesAnchor = false := by
    intro turns turn hturns hturn t ht
    rcases List.mem_append.mp ht with hold | hnew
    · exact hturns t hold
    · exact List.mem_singleton.mp hnew ▸ hturn
  obtain ⟨job, hjob, hconducts⟩ := mutate_conducts h
  have hshown : ∀ {shown : InterviewSession}, BrainAsked call job session operation shown →
      ∀ turn ∈ shown.turns, turn.restatesAnchor = false := by
    intro shown hasked
    obtain ⟨_, turn, hspeaker, hconduct⟩ := hasked.conduct
    have hturns : shown.turns = session.turns ++ [turn] := congrArg Conduct.turns hconduct
    rw [hturns]
    exact hsnoc hs (hcandidate hspeaker)
  have hturns : session'.turns = session'.conduct.turns := rfl
  generalize session'.conduct = conduct at hconducts hturns
  rw [hturns]
  cases hconducts with
  | @started shown decision covered latencyMs opened hfresh hbefore =>
    have hsame : shown.conduct.turns = session.turns := congrArg Conduct.turns hbefore
    exact hsnoc (by rw [hsame]; exact hs) (hdecision _ _ _ _)
  | answered opened hprepared => exact hsnoc (hshown (.answer hprepared)) (hdecision _ _ _ _)
  | worked opened hwork => exact hsnoc (hshown (.submitTool hwork)) (hdecision _ _ _ _)
  | @replied request turn =>
    unfold mutate at h
    rw [hjob] at h
    obtain ⟨_ | ⟨_, _⟩, hout, hw⟩ := map_ok h <;> cases hw
    refine hsnoc hs (Bool.eq_false_iff.mpr fun hrestates => hno ?_)
    exact candidateControl_added hout hturns hrestates
  | @revised _ index turn text metadata _ hturn hspeaker =>
    intro other hother
    rcases mem_modify hturn hother with rfl | hold
    · exact hcandidate hspeaker
    · exact hs other hold
  | opened => exact hs
  | cancelled => exact hs
  | kept => exact hs

omit [CanonicalDigest] in
theorem traced_counted (turn : Turn) : turn.traced.counted = countedTurn turn := by
  have hspeaker : decide (turn.speaker.value = "interviewer") =
      decide (turn.speaker = .interviewer) := by
    cases turn.speaker with
    | interviewer => rfl
    | candidate => rfl
    | system => rfl
  unfold TraceTurn.counted countedTurn Turn.evaluative Turn.inLane Turn.flagged Turn.traced
  simp only [hspeaker]

omit [CanonicalDigest] in
/-- The export counts the anchors and what restates them. -/
theorem countP_asksInLane {turns : List Turn} (hmarked : ∀ turn ∈ turns,
      turn.speaker = .interviewer → turn.evaluative = true ∨ turn.flagged "candidate_control" = true) :
    turns.countP (fun turn => turn.asksInLane .anchor) =
      turns.countP anchorQuestion + turns.countP Turn.restatesAnchor := by
  induction turns with
  | nil => rfl
  | cons turn rest ih =>
    have hrest := ih fun other hother => hmarked other (List.mem_cons_of_mem _ hother)
    have hturn := hmarked turn List.mem_cons_self
    have hone : (if turn.asksInLane .anchor = true then 1 else 0) =
        (if anchorQuestion turn = true then 1 else 0) +
          if turn.restatesAnchor = true then 1 else 0 := by
      by_cases hspeaker : turn.speaker = .interviewer
      · rcases hturn hspeaker with hquestion | hcontrol
        · have hcontrol : turn.flagged "candidate_control" = false := by
            simpa using ((Bool.and_eq_true _ _).mp hquestion).2
          simp [anchorQuestion, Turn.restatesAnchor, Turn.asksInLane, Turn.inLane, hquestion,
            hcontrol, hspeaker]
        · simp [anchorQuestion, Turn.restatesAnchor, Turn.asksInLane, controlled_not_evaluative,
            hcontrol, hspeaker]
      · simp [anchorQuestion, Turn.restatesAnchor, Turn.asksInLane, Turn.evaluative, hspeaker]
    simp only [List.countP_cons, hrest, hone]
    omega

omit [CanonicalDigest] in
theorem anchor_not_closing {turn : Turn} (h : turn.inLane .anchor = true) :
    turn.inLane .closing = false := by
  unfold Turn.inLane at h ⊢
  cases hlookup : turn.metadata.lookup "question_lane" with
  | none => rfl
  | some value =>
    rw [hlookup] at h
    cases value with
    | str text =>
      have htext : text = QuestionLane.anchor.value := of_decide_eq_true h
      rw [htext]
      rfl
    | _ => rfl

theorem History.unrestated {backend : Backend}
    {admissible : Call → Operation → InterviewSession → Prop}
    (hno : ∀ call operation session, admissible call operation session →
      ¬RestatesAnchor operation session)
    {versions : List InterviewSession} (h : History backend admissible versions) :
    ∀ session ∈ versions, ∀ turn ∈ session.turns, turn.restatesAnchor = false := by
  have hstored : ∀ session : InterviewSession, (backend.stored session).turns = session.turns :=
    fun session => congrArg Conduct.turns (stored_conduct backend session)
  induction h with
  | @created _ _ _ session h =>
    intro version hversion
    have hturns : session.turns = [] := congrArg Conduct.turns (createSession_conduct h)
    rw [List.mem_singleton.mp hversion, hstored, hturns]
    exact nofun
  | committed _ ha hm ih =>
    intro version hversion
    rcases List.mem_cons.mp hversion with rfl | hpast
    · rw [hstored]
      exact Restates.step hm (hno _ _ _ ha) (ih _ List.mem_cons_self)
    · exact ih version hpast

/-- The counts of a trace agree exactly where no turn restates an anchor. -/
theorem countsAgree_iff {session : InterviewSession} {job : JobSpec} {trace : VoxRubricTrace}
    (hs : session.conduct.Traced) (h : exportVoxrubric session job = .ok trace) :
    CountsAgree trace session ↔ ∀ turn ∈ session.turns, turn.restatesAnchor = false := by
  obtain ⟨_, _, h⟩ := bind_ok h
  cases h
  have hcount := countP_asksInLane hs.marked
  have hasked : session.askedAnchorCompetencies.length = session.turns.countP anchorQuestion :=
    hs.anchors
  have hcounted : (session.turns.map Turn.traced).countP TraceTurn.counted =
      session.turns.countP countedTurn := by
    rw [List.countP_map]
    exact List.countP_congr fun turn _ => by rw [Function.comp_apply, traced_counted]
  have hle : session.turns.countP anchorQuestion ≤ session.turns.countP countedTurn := by
    refine List.countP_mono_left fun turn _ hanchor => ?_
    obtain ⟨hquestion, hlane⟩ := (Bool.and_eq_true _ _).mp hanchor
    simp [countedTurn, hquestion, anchor_not_closing hlane]
  have hzero : session.turns.countP Turn.restatesAnchor = 0 ↔
      ∀ turn ∈ session.turns, turn.restatesAnchor = false := by
    simp
  rw [← hzero]
  constructor
  · intro hagree
    have hanchors : session.turns.countP (fun turn => turn.asksInLane .anchor) =
      session.askedAnchorCompetencies.length := hagree.anchors
    have hsum : session.turns.countP (fun turn => turn.asksInLane .anchor) =
      session.turns.countP anchorQuestion + session.turns.countP Turn.restatesAnchor := hcount
    omega
  · intro hnone
    have hanchors : session.turns.countP (fun turn => turn.asksInLane .anchor) =
        session.askedAnchorCompetencies.length := by
      have hsum : session.turns.countP (fun turn => turn.asksInLane .anchor) =
        session.turns.countP anchorQuestion + session.turns.countP Turn.restatesAnchor := hcount
      omega
    have hquestions : session.askedQuestions = session.turns.countP countedTurn := hs.questions
    refine ⟨hanchors, hquestions.trans hcounted.symm, ?_⟩
    change session.turns.countP (fun turn => turn.asksInLane .anchor) ≤ session.askedQuestions
    omega

/-- For every reachable session under the rule-based brain the counts of the exported trace agree
with the interview exactly where no turn repeats or clarifies an anchor; in a run in which no control
does, they agree in every version. -/
theorem trace_counts_agree {backend : Backend} {versions : List InterviewSession}
    (h : History backend UnderRules versions) :
    (∀ session ∈ versions, ∀ job trace, exportVoxrubric session job = .ok trace →
      (CountsAgree trace session ↔ ∀ turn ∈ session.turns, turn.restatesAnchor = false)) ∧
    (History backend (fun call operation session => UnderRules call operation session ∧
        ¬RestatesAnchor operation session) versions →
      ∀ session ∈ versions, ∀ job trace, exportVoxrubric session job = .ok trace →
        CountsAgree trace session) := by
  have htraced := h.conduct_invariant (P := Conduct.Traced) ⟨rfl, rfl, nofun⟩
    fun _ ha hs hconducts => Traced.step ha hs hconducts
  refine ⟨fun session hm job trace hexport => countsAgree_iff (htraced session hm) hexport,
    fun hspared session hm job trace hexport => ?_⟩
  exact (countsAgree_iff (htraced session hm) hexport).mpr
    (hspared.unrestated (fun _ _ _ ha => ha.2) session hm)

end

section Runs

attribute [local instance] checksumDigest

/-- An anchor and its answer. -/
def answeredAnchor : List (Call × Operation) := [
  (anchoredCall, .start),
  (anchoredCall, .answer "I built a queue." [])]

theorem trace_counts_agree_answered : ∃ session past trace,
    History .memory UnderRules (session :: past) ∧
    exportVoxrubric session anchoredJob = .ok trace ∧ trace.metadata.anchorTurns = 1 ∧
    CountsAgree trace session := by
  have hrun : (jobRun anchoredJob .memory answeredAnchor).any (fun versions =>
      versions.head?.any fun session => match exportVoxrubric session anchoredJob with
        | .ok trace => trace.metadata.anchorTurns = 1 &&
            session.turns.all fun turn => !turn.restatesAnchor
        | .error _ => false) = true := by
    decide +kernel
  obtain ⟨session, past, hhistory, hcheck⟩ := jobRun_last (fun call _ => call = anchoredCall)
    (by simp [answeredAnchor]) hrun
  have hrules : History .memory UnderRules (session :: past) :=
    hhistory.mono fun call operation _ ha => ⟨asciiWord, by rw [ha.2]; rfl⟩
  split at hcheck
  next trace hexport =>
    obtain ⟨hcount, hnone⟩ := (Bool.and_eq_true _ _).mp hcheck
    have hnone : ∀ turn ∈ session.turns, turn.restatesAnchor = false := by simpa using hnone
    refine ⟨session, past, trace, hrules, hexport, of_decide_eq_true hcount, ?_⟩
    exact ((trace_counts_agree hrules).1 session List.mem_cons_self _ _ hexport).mpr hnone
  next => cases hcheck

/-- An anchor that the candidate has repeated is counted twice. -/
theorem repeated_anchor_counted_twice :
    ¬∀ backend versions, History backend UnderRules versions → ∀ session ∈ versions,
      ∀ job trace, exportVoxrubric session job = .ok trace → CountsAgree trace session := by
  intro hclaim
  have hrun : (jobRun anchoredJob .memory [(anchoredCall, .start),
      (anchoredCall, .candidateControl { kind := .repeat })]).any (fun versions =>
      versions.head?.any fun session => match exportVoxrubric session anchoredJob with
        | .ok trace => trace.metadata.anchorTurns = 2 &&
            session.askedAnchorCompetencies.length = 1
        | .error _ => false) = true := by
    decide +kernel
  obtain ⟨session, past, hhistory, hcheck⟩ := jobRun_last (fun call _ => call = anchoredCall)
    (by simp) hrun
  have hrules : History .memory UnderRules (session :: past) :=
    hhistory.mono fun call operation _ ha => ⟨asciiWord, by rw [ha.2]; rfl⟩
  split at hcheck
  next trace hexport =>
    obtain ⟨htwo, hone⟩ := (Bool.and_eq_true _ _).mp hcheck
    have hagree := (hclaim _ _ hrules session List.mem_cons_self _ _ hexport).anchors
    rw [of_decide_eq_true htwo, of_decide_eq_true hone] at hagree
    cases hagree
  next => cases hcheck

end Runs

end NoraInterviewer
