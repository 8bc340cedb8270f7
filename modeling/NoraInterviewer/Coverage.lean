import NoraInterviewer.QuestionCounters
import NoraInterviewer.StartedFirst

/-! What an interview under the rule-based brain has covered when it is complete. -/

namespace NoraInterviewer

open ExceptRules

/-- A question about `id` that goes back to an earlier turn. -/
structure Turn.FollowsUp (turn : Turn) (id : String) : Prop where
  speaker : turn.speaker = .interviewer
  parent : given turn.parentTurnId = true
  tag : turn.competencyTags.head? = some id

/-- `answer` is a recorded answer to a question about `id`, and it is long enough or comes after a
follow-up about `id`. -/
structure Settles (isWord : Char → Bool) (id : String) (before : List Turn) (answer : Turn) : Prop where
  recorded : ∃ call text turnMetadata, answer = answerTurn call before text turnMetadata
  replies : ∃ question ∈ before, question.evaluative = true ∧
    question.competencyTags.head? = some id ∧ answer.parentTurnId = some question.id
  enough : 18 ≤ wordCount isWord answer.text ∨ ∃ turn ∈ before, turn.FollowsUp id

def CoveredBy (isWord : Char → Bool) (turns : List Turn) (id : String) : Prop :=
  ∃ before answer after, turns = before ++ answer :: after ∧ Settles isWord id before answer

theorem CoveredBy.append {isWord : Char → Bool} {turns : List Turn} {id : String}
    (h : CoveredBy isWord turns id) (more : List Turn) : CoveredBy isWord (turns ++ more) id := by
  obtain ⟨before, answer, after, rfl, hsettles⟩ := h
  exact ⟨before, answer, after ++ more, by simp, hsettles⟩

namespace RuleBasedBrain

/-- How the brain goes on after the answer `latest`. -/
inductive Reacts (isWord : Char → Bool) (session : InterviewSession) (job : JobSpec)
    (latest : Turn) : AgentDecision → List String → Prop where
  | limit (h : job.maxQuestions ≤ session.askedQuestions) :
    Reacts isWord session job latest close session.coveredCompetencies
  | probes {decision : AgentDecision} (hc : decision.completesInterview = false)
    (ht : decision.competencyTags ≠ []) :
    Reacts isWord session job latest decision session.coveredCompetencies
  | covers {decision : AgentDecision}
    (henough : 18 ≤ wordCount isWord latest.text ∨
      0 < (session.followupsByCompetency.lookup (active session job)).getD 0)
    (ht : decision.completesInterview = false → decision.competencyTags ≠ [])
    (hc : decision.completesInterview = true → ∀ competency ∈ job.competencies,
      competency.id ∈ cover session.coveredCompetencies (active session job)) :
    Reacts isWord session job latest decision
      (cover session.coveredCompetencies (active session job))

theorem advance_ends (session : InterviewSession) (job : JobSpec) (latest : Turn)
    (covered : List String) :
    ((advance session job latest covered).completesInterview = false →
      (advance session job latest covered).competencyTags ≠ []) ∧
    ((advance session job latest covered).completesInterview = true →
      ∀ competency ∈ job.competencies, competency.id ∈ covered) := by
  unfold advance
  split
  next => exact ⟨fun _ => by simp, nofun⟩
  next =>
    split
    next hnone =>
      refine ⟨nofun, fun _ competency hm => ?_⟩
      simpa using List.find?_eq_none.mp hnone competency hm
    next => exact ⟨fun _ => by simp, nofun⟩

theorem afterAnswer_reacts {isWord : Char → Bool} {session : InterviewSession} {job : JobSpec}
    {latest : Turn} {decision : AgentDecision} {covered : List String}
    (hlatest : (session.turns.filter fun turn => turn.speaker = .candidate).getLast? = some latest)
    (h : afterAnswer isWord session job = .ok (decision, covered)) :
    Reacts isWord session job latest decision covered := by
  unfold afterAnswer at h
  rw [hlatest] at h
  simp only at h
  split at h
  next hlimit =>
    cases h
    exact .limit hlimit
  next =>
    split at h
    next =>
      cases h
      exact .probes rfl (by simp)
    next hless =>
      cases h
      obtain ⟨htags, hends⟩ := advance_ends session job latest
        (cover session.coveredCompetencies (active session job))
      refine .covers ?_ htags hends
      rw [not_and_or] at hless
      omega

theorem mem_cover {covered : List String} {id other : String} (h : other ∈ cover covered id) :
    other ∈ covered ∨ other = id := by
  unfold cover at h
  split at h
  next => exact .inl h
  next => simpa using h

/-- The question that an answer replies to decides what the answer is about. -/
theorem active_answer {session shown : InterviewSession} {job : JobSpec} {answer question : Turn}
    {id : String} (hshown : shown.turns = session.turns ++ [answer])
    (hquestion : previousQuestion session = some question)
    (htag : question.competencyTags.head? = some id) : active shown job = id := by
  unfold active questionBefore
  rw [hshown, List.dropLast_concat]
  unfold previousQuestion at hquestion
  rw [hquestion, Option.map_some]
  cases htags : question.competencyTags with
  | nil =>
    rw [htags] at htag
    cases htag
  | cons first rest =>
    rw [htags] at htag
    exact Option.some.inj htag

end RuleBasedBrain

/-- A decision after an answer is the brain's, or an anchor in its place; what is covered is up to
the brain. -/
theorem decideAfterAnswer_brain {call : Call} {session result : InterviewSession} {job : JobSpec}
    {decision : AgentDecision} {latencyMs : Nat}
    (h : decideAfterAnswer call session job = .ok (result, decision, latencyMs)) :
    ∃ adaptive, call.brain.afterAnswer session job = .ok (adaptive, result.coveredCompetencies) ∧
      (decision = adaptive ∨ nextAnchor session job = some decision) := by
  obtain ⟨⟨adaptive, covered⟩, hreply, h⟩ := bind_ok h
  have hgiven := liftRaised_ok hreply
  simp only at h
  split at h
  next =>
    cases h
    exact ⟨_, hgiven, .inl rfl⟩
  next =>
    have hsame : nextAnchor { session with coveredCompetencies := covered } job =
        nextAnchor session job := nextAnchor_congr rfl job
    rw [hsame] at h
    cases h
    refine ⟨adaptive, hgiven, ?_⟩
    cases hanchor : nextAnchor session job with
    | some anchor => exact .inr rfl
    | none => exact .inl rfl

/-- What the counters and the covered competencies say of the transcript. -/
structure Conduct.Covers (isWord : Char → Bool) (job : JobSpec) (conduct : Conduct) : Prop where
  covered : ∀ id ∈ conduct.coveredCompetencies, CoveredBy isWord conduct.turns id
  followups : ∀ id, 0 < (conduct.followupsByCompetency.lookup id).getD 0 →
    ∃ turn ∈ conduct.turns, turn.FollowsUp id
  asked : conduct.status = .running → ∃ turn ∈ conduct.turns, turn.evaluative = true
  tagged : conduct.status = .created ∨ conduct.status = .running →
    ∀ turn ∈ conduct.turns, turn.evaluative = true → turn.competencyTags ≠ []
  ended : conduct.status = .completed → job.maxQuestions ≤ conduct.askedQuestions ∨
    ∀ competency ∈ job.competencies, competency.id ∈ conduct.coveredCompetencies

namespace Conduct.Covers

variable {isWord : Char → Bool} {job : JobSpec} {conduct conduct' : Conduct}

/-- Turns that are no questions change nothing. -/
theorem added (h : conduct.Covers isWord job) {more : List Turn}
    (ht : conduct'.turns = conduct.turns ++ more) (hm : ∀ turn ∈ more, turn.evaluative = false)
    (hs : conduct'.status = conduct.status)
    (hq : conduct'.askedQuestions = conduct.askedQuestions)
    (hf : conduct'.followupsByCompetency = conduct.followupsByCompetency)
    (hc : conduct'.coveredCompetencies = conduct.coveredCompetencies) :
    conduct'.Covers isWord job := by
  constructor
  · rw [hc, ht]
    exact fun id hid => (h.covered id hid).append more
  · intro id hid
    rw [hf] at hid
    obtain ⟨turn, hturn, hfollows⟩ := h.followups id hid
    exact ⟨turn, by rw [ht]; exact List.mem_append_left _ hturn, hfollows⟩
  · intro hrunning
    obtain ⟨turn, hturn, hquestion⟩ := h.asked (hs ▸ hrunning)
    exact ⟨turn, by rw [ht]; exact List.mem_append_left _ hturn, hquestion⟩
  · intro hopen turn hturn hquestion
    rw [ht] at hturn
    rcases List.mem_append.mp hturn with hold | hnew
    · exact h.tagged (hs ▸ hopen) turn hold hquestion
    · rw [hm turn hnew] at hquestion
      cases hquestion
  · rw [hs, hq, hc]
    exact h.ended

theorem followedUp_pos {counts : Dict Nat} {parentTurnId : Option String} {tags : List String}
    {id : String} (h : 0 < ((followedUp counts parentTurnId tags).lookup id).getD 0) :
    0 < (counts.lookup id).getD 0 ∨ given parentTurnId = true ∧ tags.head? = some id := by
  unfold followedUp at h
  split at h
  next => exact .inl h
  next key rest =>
    split at h
    next hgiven =>
      by_cases hkey : id = key
      · exact .inr ⟨hgiven, by rw [hkey]; rfl⟩
      · rw [Dict.lookup_set_ne hkey] at h
        exact .inl h
    next => exact .inl h

/-- A question that is put to a session that goes on. -/
theorem put (h : conduct.Covers isWord job)
    (hopen : conduct.status = .created ∨ conduct.status = .running) {turn : Turn}
    (hturn : turn.evaluative = true) (ht : conduct'.turns = conduct.turns ++ [turn])
    (hf : conduct'.followupsByCompetency =
      followedUp conduct.followupsByCompetency turn.parentTurnId turn.competencyTags)
    (hc : ∀ id ∈ conduct'.coveredCompetencies, CoveredBy isWord conduct.turns id)
    (htags : conduct'.status = .created ∨ conduct'.status = .running → turn.competencyTags ≠ [])
    (hended : conduct'.status = .completed → job.maxQuestions ≤ conduct'.askedQuestions ∨
      ∀ competency ∈ job.competencies, competency.id ∈ conduct'.coveredCompetencies) :
    conduct'.Covers isWord job := by
  have hlast : turn ∈ conduct'.turns := by simp [ht]
  constructor
  · rw [ht]
    exact fun id hid => (hc id hid).append [turn]
  · intro id hid
    rw [hf] at hid
    rcases followedUp_pos hid with hold | ⟨hgiven, htag⟩
    · obtain ⟨other, hother, hfollows⟩ := h.followups id hold
      exact ⟨other, by rw [ht]; exact List.mem_append_left _ hother, hfollows⟩
    · have hspeaker : turn.speaker = .interviewer := by
        simp only [Turn.evaluative, Bool.and_eq_true, decide_eq_true_eq] at hturn
        exact hturn.1.1
      exact ⟨turn, hlast, hspeaker, hgiven, htag⟩
  · exact fun _ => ⟨turn, hlast, hturn⟩
  · intro hopen' other hother hquestion
    rw [ht] at hother
    rcases List.mem_append.mp hother with hold | hnew
    · exact h.tagged hopen other hold hquestion
    · rw [List.mem_singleton.mp hnew]
      exact htags hopen'
  · exact hended

/-- A decision that goes on with the session, or ends it. -/
theorem decided (h : conduct.Covers isWord job)
    (hopen : conduct.status = .created ∨ conduct.status = .running) {call : Ambient}
    {session : InterviewSession} {decision : AgentDecision} {latencyMs : Nat} {covered : List String}
    {opened : List (Dict Json)} (hc : ∀ id ∈ covered, CoveredBy isWord conduct.turns id)
    (htags : decision.completesInterview = false → decision.competencyTags ≠ [])
    (hends : decision.completesInterview = true → job.maxQuestions ≤ conduct.askedQuestions ∨
      ∀ competency ∈ job.competencies, competency.id ∈ covered) :
    (conduct.decided decision covered (decisionTurn call session decision latencyMs)
      opened).Covers isWord job := by
  refine h.put hopen (decisionTurn_evaluative call session decision latencyMs) rfl rfl hc
    (fun hgoes => ?_) fun hcompleted => ?_
  · cases hcase : decision.completesInterview with
    | false => exact htags hcase
    | true => simp [Conduct.decided, hcase] at hgoes
  · cases hcase : decision.completesInterview with
    | true =>
      have hasked : (conduct.decided decision covered
          (decisionTurn call session decision latencyMs) opened).askedQuestions =
            conduct.askedQuestions := by
        simp [Conduct.decided, Conduct.asked, laneFor, hcase]
      rw [hasked]
      exact hends hcase
    | false =>
      simp only [Conduct.decided, hcase, Bool.false_eq_true, if_false] at hcompleted
      rw [hcompleted] at hopen
      simp at hopen

end Conduct.Covers

theorem anchor_tagged {session : InterviewSession} {job : JobSpec} {decision : AgentDecision}
    (h : nextAnchor session job = some decision) :
    decision.completesInterview = false ∧ decision.competencyTags ≠ [] := by
  obtain ⟨chosen, _, rfl⟩ := nextAnchor_some h
  exact ⟨rfl, by simp [anchorDecision]⟩

theorem openingDecision_keeps {isWord : Char → Bool} {call : Call} {session result : InterviewSession}
    {job : JobSpec} {decision : AgentDecision} {latencyMs : Nat}
    (hb : call.brain = ruleBasedBrain isWord)
    (h : openingDecision call session job = .ok (result, decision, latencyMs)) :
    result.coveredCompetencies = session.coveredCompetencies ∧ decision.competencyTags ≠ [] := by
  unfold openingDecision at h
  split at h
  next hanchor =>
    cases h
    exact ⟨rfl, (anchor_tagged hanchor).2⟩
  next =>
    obtain ⟨reply, hreply, h⟩ := bind_ok h
    have hgiven := liftRaised_ok hreply
    rw [hb] at hgiven
    cases hgiven
    cases h
    exact ⟨rfl, by simp⟩

section

variable [CanonicalDigest] {call : Call} {job : JobSpec} {isWord : Char → Bool}

omit [CanonicalDigest] in
/-- The question that the next answer of a running session replies to. -/
theorem Conduct.Covers.question {session : InterviewSession} (h : session.conduct.Covers isWord job)
    (hrunning : session.status = .running) : ∃ question id,
      previousQuestion session = some question ∧ question ∈ session.turns ∧
      question.evaluative = true ∧ question.competencyTags.head? = some id := by
  obtain ⟨turn, hturn, hquestion⟩ := h.asked hrunning
  have hsome : (previousQuestion session).isSome := by
    unfold previousQuestion
    rw [List.find?_isSome]
    exact ⟨turn, List.mem_reverse.mpr hturn, hquestion⟩
  obtain ⟨question, hprevious⟩ := Option.isSome_iff_exists.mp hsome
  have hmem : question ∈ session.turns := List.mem_reverse.mp (List.mem_of_find?_eq_some hprevious)
  have hevaluative := List.find?_some hprevious
  have htags := h.tagged (.inr hrunning) question hmem hevaluative
  cases hcase : question.competencyTags with
  | nil => exact absurd hcase htags
  | cons id rest => exact ⟨question, id, hprevious, hmem, hevaluative, by rw [hcase]; rfl⟩

omit [CanonicalDigest] in
/-- What the brain adds to the covered competencies has an answer. -/
theorem Conduct.Covers.reacts {session shown : InterviewSession}
    (h : session.conduct.Covers isWord job) (hrunning : session.status = .running) {text : String}
    {turnMetadata : Dict Json} (hshown : shown.conduct = { session.conduct with
      turns := session.turns ++ [answerTurn call.toAmbient session.turns text turnMetadata] })
    {decision : AgentDecision} {covered : List String}
    (hr : RuleBasedBrain.Reacts isWord shown job
      (answerTurn call.toAmbient session.turns text turnMetadata) decision covered) :
    ∀ id ∈ covered, CoveredBy isWord shown.turns id := by
  have hturns : shown.turns =
      session.turns ++ [answerTurn call.toAmbient session.turns text turnMetadata] :=
    congrArg Conduct.turns hshown
  have hbefore : shown.coveredCompetencies = session.coveredCompetencies :=
    congrArg Conduct.coveredCompetencies hshown
  have hcounts : shown.followupsByCompetency = session.followupsByCompetency :=
    congrArg Conduct.followupsByCompetency hshown
  have hold : ∀ id ∈ shown.coveredCompetencies, CoveredBy isWord shown.turns id := by
    rw [hbefore, hturns]
    exact fun id hid => (h.covered id hid).append _
  cases hr with
  | limit => exact hold
  | probes => exact hold
  | covers henough =>
    obtain ⟨question, tag, hprevious, hmem, hevaluative, htag⟩ := h.question hrunning
    rw [RuleBasedBrain.active_answer hturns hprevious htag] at henough ⊢
    intro id hid
    rcases RuleBasedBrain.mem_cover hid with hin | rfl
    · exact hold id hin
    · have hparent : (answerTurn call.toAmbient session.turns text turnMetadata).parentTurnId =
          some question.id := congrArg (Option.map Turn.id) hprevious
      refine ⟨session.turns, _, [], hturns, ⟨_, text, turnMetadata, rfl⟩,
        ⟨question, hmem, hevaluative, htag, hparent⟩, henough.imp_right fun hcount => ?_⟩
      rw [hcounts] at hcount
      exact h.followups id hcount

/-- The runs of the interviews on `job` under the rule-based brain that correct no transcript. -/
def Uncorrected (isWord : Char → Bool) (job : JobSpec) (call : Call) (operation : Operation)
    (session : InterviewSession) : Prop :=
  Admits (fun call _ => call.job = some job ∧ call.brain = ruleBasedBrain isWord) call operation
    session ∧ operation.correction session = none

theorem Covers.step {operation : Operation} {session : InterviewSession} {conduct : Conduct}
    (ha : Uncorrected isWord job call operation session)
    (hs : session.conduct.Covers isWord job)
    (h : Conducts call job session operation conduct) : conduct.Covers isWord job := by
  obtain ⟨⟨hready, _, hb⟩, hcorrection⟩ := ha
  cases h with
  | @started shown decision covered latencyMs opened hfresh hshown hd =>
    obtain ⟨hparent, _, _⟩ := openingDecision_rule hb hd
    obtain ⟨hkept, htags⟩ := openingDecision_keeps hb hd
    have hcovered : covered = session.coveredCompetencies :=
      hkept.trans (congrArg Conduct.coveredCompetencies hshown)
    rw [hshown, hcovered]
    refine hs.put (hfresh.imp id And.left) (decisionTurn_evaluative call.toAmbient shown decision
      latencyMs) rfl ?_ hs.covered (fun _ => htags) fun h => by cases h
    show session.followupsByCompetency =
      followedUp session.followupsByCompetency decision.parentTurnId decision.competencyTags
    rw [hparent]
    unfold followedUp
    split <;> rfl
  | @answered text turnMetadata shown decision covered latencyMs opened hshown hd =>
    obtain ⟨ha, hconduct⟩ := prepareAnswer_conduct hshown
    have hrunning := running_of_active ha hready
    have hafter : shown.conduct.Covers isWord job := by
      rw [hconduct]
      exact hs.added rfl (by simp [answerTurn, Turn.evaluative]) rfl rfl rfl rfl
    obtain ⟨adaptive, hreply, hput⟩ := decideAfterAnswer_brain hd
    rw [hb] at hreply
    have hlatest : (shown.turns.filter fun turn => turn.speaker = .candidate).getLast? =
        some (answerTurn call.toAmbient session.turns text turnMetadata) := by
      have hturns : shown.turns = session.turns ++ [_] := congrArg Conduct.turns hconduct
      rw [hturns, List.filter_append]
      simp [answerTurn]
    have hreacts := RuleBasedBrain.afterAnswer_reacts hlatest hreply
    have hcovered := hs.reacts hrunning hconduct hreacts
    have hopen : shown.status = .created ∨ shown.status = .running :=
      .inr ((congrArg Conduct.status hconduct).trans hrunning)
    rcases hput with rfl | hanchor
    · refine hafter.decided hopen hcovered ?_ ?_
      · cases hreacts with
        | limit => exact fun hends => by cases hends
        | probes _ ht => exact fun _ => ht
        | covers _ ht => exact ht
      · cases hreacts with
        | limit hlimit => exact fun _ => .inl hlimit
        | probes hc => exact fun hends => absurd hends (by simp [hc])
        | covers _ _ hc => exact fun hends => .inr (hc hends)
    · obtain ⟨hgoes, htags⟩ := anchor_tagged hanchor
      exact hafter.decided hopen hcovered (fun _ => htags) fun hends => by simp [hgoes] at hends
  | @worked toolId request work decision covered opened hwork hd =>
    obtain ⟨ha, artifact, hspeaker, _, hconduct⟩ := prepareTool_conduct hwork
    have hafter : work.session.conduct.Covers isWord job := by
      rw [hconduct]
      refine hs.added rfl (fun other hother => ?_) rfl rfl rfl rfl
      rw [List.mem_singleton.mp hother]
      exact candidate_not_evaluative hspeaker
    have hstatus : work.session.status = session.status := congrArg Conduct.status hconduct
    obtain ⟨reply, hreply, hd⟩ := bind_ok hd
    have hgiven := liftRaised_ok hreply
    rw [hb] at hgiven
    cases hgiven
    cases hd
    have hopen : work.session.status = .created ∨ work.session.status = .running := by
      rw [hstatus]
      by_cases hcreated : session.status = .created
      · exact .inl hcreated
      · exact .inr (running_of_active ha hcreated)
    refine hafter.decided hopen hafter.covered (fun _ => ?_) fun h => by cases h
    simp only
    split
    next => simp
    next htags => simpa using htags
  | @replied request turn _ _ hflag =>
    refine hs.added rfl (fun other hother => ?_) rfl rfl rfl rfl
    rw [List.mem_singleton.mp hother]
    exact controlled_not_evaluative hflag
  | revised hc =>
    rw [hcorrection] at hc
    cases hc
  | opened => exact hs.added (List.append_nil _).symm (by simp) rfl rfl rfl rfl
  | cancelled => exact ⟨hs.covered, hs.followups, (fun h => by cases h), by simp, fun h => by cases h⟩
  | kept => exact hs

/-- An interview that has come to its end has used up its questions, or it has an answer on every
competency of the job. -/
theorem coverage_at_completion {backend : Backend} {versions : List InterviewSession}
    (h : History backend (Uncorrected isWord job) versions) :
    ∀ session ∈ versions, session.status = .completed →
      job.maxQuestions ≤ session.askedQuestions ∨
        ∀ competency ∈ job.competencies, CoveredBy isWord session.turns competency.id := by
  intro session hm hcompleted
  have hcovers : session.conduct.Covers isWord job := by
    refine h.conduct_invariant ?_ (fun hjob ha hs hconducts => ?_) session hm
    · exact ⟨by simp, by simp, nofun, by simp, nofun⟩
    · have hsame := ha.1.2.1
      rw [hjob] at hsame
      cases hsame
      exact Covers.step ha hs hconducts
  rcases hcovers.ended hcompleted with hlimit | hall
  · exact .inl hlimit
  · exact .inr fun competency hin => hcovers.covered _ (hall competency hin)

end

section Runs

attribute [local instance] checksumDigest

def pairedCall : Call := jobCall pairJob (ruleBasedBrain asciiWord)

/-- Two competencies, each one with a short answer and a follow-up, well below the limit. -/
theorem coverage_at_completion_pair : ∃ session past,
    History .memory (Uncorrected asciiWord pairJob) (session :: past) ∧
    session.status = .completed ∧ session.askedQuestions < pairJob.maxQuestions ∧
    ∀ competency ∈ pairJob.competencies, CoveredBy asciiWord session.turns competency.id := by
  have hrun : (checkedRun (fun operation session => (operation.correction session).isNone) pairJob
      .memory ((pairedCall, .start) ::
        List.replicate 4 (pairedCall, .answer "I built a queue." []))).any (fun versions =>
      versions.head?.any fun session => session.status = .completed &&
        decide (session.askedQuestions < pairJob.maxQuestions)) = true := by
    decide +kernel
  obtain ⟨session, past, hhistory, hcheck⟩ := checkedRun_last (fun call _ => call = pairedCall)
    (by simp) hrun
  obtain ⟨hcompleted, hroom⟩ := Bool.and_eq_true_iff.mp hcheck
  have huncorrected : History .memory (Uncorrected asciiWord pairJob) (session :: past) := by
    refine hhistory.mono fun call operation session ⟨⟨hready, hcall⟩, hnone⟩ => ?_
    rw [hcall]
    exact ⟨⟨hready, rfl, rfl⟩, Option.isNone_iff_eq_none.mp hnone⟩
  have hroom := of_decide_eq_true hroom
  rcases coverage_at_completion huncorrected session List.mem_cons_self
    (of_decide_eq_true hcompleted) with hlimit | hall
  · omega
  · exact ⟨session, past, huncorrected, of_decide_eq_true hcompleted, hroom, hall⟩

end Runs

end NoraInterviewer
