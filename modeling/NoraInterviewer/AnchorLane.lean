import NoraInterviewer.BrainDecisions
import NoraInterviewer.Execution
import NoraInterviewer.ReplayEffects

namespace NoraInterviewer

/-- A question that is labelled as an anchor. -/
def Turn.isAnchor (turn : Turn) : Bool :=
  turn.speaker = .interviewer && !turn.flagged "candidate_control" &&
    (turn.metadata.lookup "question_lane").any (Json.isStr QuestionLane.anchor.value)

def InterviewSession.anchorTurns (session : InterviewSession) : List Turn :=
  session.turns.filter Turn.isAnchor

/-- The questions that are labelled as anchors are the ones that the planner scheduled. -/
structure AnchorsAuthentic (job : JobSpec) (session : InterviewSession) : Prop where
  scheduled : ∀ turn ∈ session.anchorTurns, ∃ c ∈ job.competencies,
    turn.competencyTags = [c.id] ∧ c.anchorQuestion = some turn.text ∧
    c.id ∈ session.askedAnchorCompetencies
  once : (session.anchorTurns.flatMap Turn.competencyTags).Nodup

theorem AnchorsAuthentic.congr {job : JobSpec} {session session' : InterviewSession}
    (h : AnchorsAuthentic job session) (ht : session'.anchorTurns = session.anchorTurns)
    (ha : session.askedAnchorCompetencies ⊆ session'.askedAnchorCompetencies) :
    AnchorsAuthentic job session' := by
  refine ⟨fun turn hm => ?_, ht ▸ h.once⟩
  rw [ht] at hm
  obtain ⟨c, hc, htags, hq, hasked⟩ := h.scheduled turn hm
  exact ⟨c, hc, htags, hq, ha hasked⟩

theorem anchorTurns_snoc {session session' : InterviewSession} {turn : Turn}
    (ht : session'.turns = session.turns ++ [turn]) (hn : turn.isAnchor = false) :
    session'.anchorTurns = session.anchorTurns := by
  simp [InterviewSession.anchorTurns, ht, hn]

theorem candidate_not_anchor {turn : Turn} (h : turn.speaker = .candidate) :
    turn.isAnchor = false := by
  simp [Turn.isAnchor, h]

theorem filter_modify {α : Type} {p : α → Bool} {f : α → α} {items : List α} {index : Nat} {item : α}
    (hi : items[index]? = some item) (hp : p item = false) (hf : p (f item) = false) :
    (items.modify index f).filter p = items.filter p := by
  induction items generalizing index with
  | nil => cases hi
  | cons first rest ih =>
    cases index with
    | zero =>
      cases hi
      simp [List.modify_zero_cons, hp, hf]
    | succ index => simp [List.modify_succ_cons, List.filter_cons, ih hi]

theorem subset_markAsked (asked tags : List String) : asked ⊆ markAsked asked tags := by
  induction tags generalizing asked with
  | nil => exact List.Subset.refl _
  | cons tag rest ih =>
    refine List.Subset.trans (fun id hm => ?_) (ih _)
    change id ∈ if asked.contains tag then asked else asked ++ [tag]
    split
    · exact hm
    · exact List.mem_append_left _ hm

theorem Turn.Puts.lane_anchor {turn : Turn} {decision : AgentDecision} (h : turn.Puts decision)
    (ha : turn.isAnchor = true) : laneFor decision = .anchor := by
  simp only [Turn.isAnchor, h.lane, Option.any_some, Bool.and_eq_true] at ha
  have hvalue := ha.2
  cases hl : laneFor decision with
  | anchor => rfl
  | adaptive => simp [hl, Json.isStr, QuestionLane.value] at hvalue
  | closing => simp [hl, Json.isStr, QuestionLane.value] at hvalue

/-- A turn that puts a decision, if it is labelled as an anchor, puts the planner's. -/
theorem AnchorsAuthentic.puts {job : JobSpec} {session session' : InterviewSession}
    {decision : AgentDecision} {turn : Turn} (h : AnchorsAuthentic job session)
    (ht : turn.Puts decision) (hs : session'.turns = session.turns ++ [turn])
    (ha : session'.askedAnchorCompetencies = if laneFor decision = .anchor
      then markAsked session.askedAnchorCompetencies decision.competencyTags
      else session.askedAnchorCompetencies)
    (hd : laneFor decision = .anchor → nextAnchor session job = some decision) :
    AnchorsAuthentic job session' := by
  have hsubset : session.askedAnchorCompetencies ⊆ session'.askedAnchorCompetencies := by
    rw [ha]
    split
    · exact subset_markAsked _ _
    · exact List.Subset.refl _
  cases hturn : turn.isAnchor with
  | false => exact h.congr (anchorTurns_snoc hs hturn) hsubset
  | true =>
    have hlane := ht.lane_anchor hturn
    obtain ⟨chosen, hm, rfl⟩ := nextAnchor_some (hd hlane)
    obtain ⟨hc, hanchored, hnew⟩ := mem_unaskedAnchors.mp hm
    have hturns : session'.anchorTurns = session.anchorTurns ++ [turn] := by
      simp [InterviewSession.anchorTurns, hs, hturn]
    have htags : turn.competencyTags = [chosen.id] := ht.competencyTags
    have hquestion : chosen.anchorQuestion = some turn.text := by
      rw [ht.text, anchorDecision]
      unfold Competency.anchored given at hanchored
      cases hq : chosen.anchorQuestion with
      | none => simp [hq] at hanchored
      | some question => rfl
    have hasked : chosen.id ∈ session'.askedAnchorCompetencies := by
      rw [ha, if_pos hlane]
      simp [markAsked, anchorDecision, hnew]
    refine ⟨fun other ho => ?_, ?_⟩
    · rw [hturns] at ho
      rcases List.mem_append.mp ho with ho | ho
      · obtain ⟨c, hc, htags, hq, hmem⟩ := h.scheduled other ho
        exact ⟨c, hc, htags, hq, hsubset hmem⟩
      · rw [List.mem_singleton.mp ho]
        exact ⟨chosen, hc, htags, hquestion, hasked⟩
    · rw [hturns, List.flatMap_append, List.flatMap_singleton, htags]
      refine h.once.append (List.nodup_singleton _) (List.disjoint_singleton.mpr fun hmem => ?_)
      obtain ⟨other, ho, hid⟩ := List.mem_flatMap.mp hmem
      obtain ⟨c, _, hothers, _, hcounted⟩ := h.scheduled other ho
      rw [hothers] at hid
      exact hnew (List.mem_singleton.mp hid ▸ hcounted)

section

variable [CanonicalDigest]

theorem AnchorsAuthentic.effect {policy : Policy} {job : JobSpec} {session session' : InterviewSession}
    (hs : ∀ decision, policy.starts session.stance decision → laneFor decision = .anchor →
      nextAnchor session job = some decision)
    (hd : ∀ decision, policy.decides session.stance decision → laneFor decision = .anchor →
      nextAnchor session job = some decision)
    (h : AnchorsAuthentic job session) (he : Effect policy session session') :
    AnchorsAuthentic job session' := by
  cases he with
  | evidence he =>
    obtain ⟨_, _, _, _, rfl, _⟩ := he
    exact h.congr rfl (List.Subset.refl _)
  | started _ hstarts ht => exact h.puts ht rfl rfl (hs _ hstarts)
  | asked _ hdecides ht => exact h.puts ht rfl rfl (hd _ hdecides)
  | answered _ _ _ hc =>
    exact h.congr (anchorTurns_snoc rfl (candidate_not_anchor hc)) (List.Subset.refl _)
  | worked _ _ _ _ _ hc =>
    exact h.congr (anchorTurns_snoc rfl (candidate_not_anchor hc)) (List.Subset.refl _)
  | replied _ _ _ hf =>
    exact h.congr (anchorTurns_snoc rfl (by simp [Turn.isAnchor, hf])) (List.Subset.refl _)
  | corrected ht hc =>
    refine h.congr (filter_modify ht (candidate_not_anchor hc) ?_) (List.Subset.refl _)
    exact candidate_not_anchor hc
  | _ => exact h.congr rfl (List.Subset.refl _)

/-- The condition on the calls of a run: no decision of a model that is put to the candidate as a
question calls itself an anchor. -/
def KeepsLane (job : JobSpec) (call : Call) (operation : Operation) (session : InterviewSession) :
    Prop :=
  Admits (UnderBuiltIn job) call operation session ∧
    ∀ decision, UsesModel call.brain → operation.Hears call job session decision →
      decision.completesInterview = false → startsWith decision.reason "anchor:" = false

theorem KeepsLane.heard {job : JobSpec} {call : Call} {operation : Operation}
    {session : InterviewSession} (h : KeepsLane job call operation session)
    {decision : AgentDecision} (hheard : operation.Hears call job session decision) :
    laneFor decision ≠ .anchor := by
  obtain ⟨⟨_, _, hb⟩, hmodel⟩ := h
  intro hlane
  unfold laneFor at hlane
  split at hlane
  next => cases hlane
  next hopen =>
    split at hlane
    next hreason =>
      rcases hb with ⟨isWord, hrule⟩ | hb
      · have hgives : call.brain.Gives RuleBasedBrain.Decides := hrule ▸ ruleBasedBrain_gives isWord
        rw [(hheard.given hgives).not_anchor] at hreason
        cases hreason
      · rw [hmodel decision hb hheard (Bool.eq_false_iff.mpr hopen)] at hreason
        cases hreason
    next => cases hlane

/-- In every run that meets the condition the ANCHOR lane holds the planner's anchors only. -/
theorem anchor_lane_authentic {job : JobSpec} {backend : Backend} {versions : List InterviewSession}
    (h : History backend (KeepsLane job) versions) :
    ∀ session ∈ versions, AnchorsAuthentic job session := by
  refine h.invariant (fun session hf => ?_) (fun session hs => ?_) ?_
  · have hnone : session.anchorTurns = [] := by simp [InterviewSession.anchorTurns, hf.turns]
    exact ⟨by simp [hnone], by simp [hnone]⟩
  · cases backend with
    | memory => exact hs.congr rfl (List.Subset.refl _)
    | json => exact hs.congr rfl (List.Subset.refl _)
  · intro call job' operation session session' hj ha hs heffects
    have hjob : job' = job := Option.some.inj (hj.symm.trans ha.1.2.1)
    subst hjob
    refine heffects.invariant (fun h he => h.effect (fun decision hd hl => ?_)
      (fun decision hd hl => ?_) he) hs
    · obtain ⟨hstance, hstarts⟩ := hd
      rw [nextAnchor_congr hstance]
      exact hstarts.heard.resolve_right fun hheard => ha.heard hheard hl
    · obtain ⟨hstance, htakes⟩ := hd
      rw [nextAnchor_congr hstance]
      exact htakes.heard.resolve_right fun hheard => ha.heard hheard hl

end

section Runs

attribute [local instance] checksumDigest

def advanceOutput : BrainOutput where
  action := .advance
  text := "Tell me about a queue."
  competencyIds := ["systems"]
  reason := "anchor: an opening question"
  text_range := by decide
  toolTemplateId_range := no_template_range
  reason_range := by decide

/-- A job without anchors, on which the brain has the first word. -/
def modelCall (output : BrainOutput) : Call := jobCall plainJob (llmBrain fun _ _ _ => .ok output)

theorem modelCall_builtIn (output : BrainOutput) (operation : Operation) :
    UnderBuiltIn plainJob (modelCall output) operation :=
  ⟨rfl, Or.inr (.alone _)⟩

/-- The first question is the planner's, whatever the model calls its own ones. -/
theorem anchor_lane_authentic_started :
    ∃ versions, checkedRun (fun _ session => (nextAnchor session anchoredJob).isSome) anchoredJob
        .memory [(jobCall anchoredJob (llmBrain fun _ _ _ => .ok advanceOutput), .start)] =
          some versions ∧
      versions.map (fun session => session.anchorTurns.map Turn.competencyTags) =
        [[["systems"]], []] ∧
      ∀ session ∈ versions, AnchorsAuthentic anchoredJob session := by
  have hrun : (checkedRun (fun _ session => (nextAnchor session anchoredJob).isSome) anchoredJob
      .memory [(jobCall anchoredJob (llmBrain fun _ _ _ => .ok advanceOutput), .start)]).any
        (fun versions => versions.map (fun session => session.anchorTurns.map Turn.competencyTags) =
          [[["systems"]], []]) = true := by
    decide +kernel
  obtain ⟨versions, hv, hcheck⟩ := (Option.any_eq_true _ _).mp hrun
  have hhistory := checkedRun_history (fun call operation => UnderBuiltIn anchoredJob call operation ∧
    operation = .start) hv (by simpa using ⟨rfl, Or.inr (.alone _)⟩)
  have hkeeps : History .memory (KeepsLane anchoredJob) versions := by
    refine hhistory.mono ?_
    rintro call operation session ⟨⟨hready, hb, rfl⟩, hdue⟩
    refine ⟨⟨hready, hb⟩, ?_⟩
    rintro decision _ ⟨_, _, _, _, hnone⟩
    have hsome : (nextAnchor session anchoredJob).isSome = true := hdue
    rw [hnone] at hsome
    cases hsome
  exact ⟨versions, hv, of_decide_eq_true hcheck, anchor_lane_authentic hkeeps⟩

/-- The model labels its own question. -/
theorem anchor_lane_claimed_by_model :
    ¬∀ job backend versions, History backend (Admits (UnderBuiltIn job)) versions →
      ∀ session ∈ versions, AnchorsAuthentic job session := by
  intro hclaim
  have hrun : (jobRun plainJob .memory [(modelCall advanceOutput, .start)]).any (fun versions =>
      versions.head?.any fun session => session.anchorTurns.length = 1) = true := by
    decide +kernel
  obtain ⟨session, past, hhistory, hcheck⟩ := jobRun_last (UnderBuiltIn plainJob)
    (by simp [modelCall_builtIn]) hrun
  have hauthentic := hclaim _ _ _ hhistory session List.mem_cons_self
  obtain ⟨turn, hturn⟩ := List.length_eq_one_iff.mp (of_decide_eq_true hcheck)
  obtain ⟨c, hc, _, hquestion, _⟩ := hauthentic.scheduled turn (hturn ▸ List.mem_cons_self)
  simp only [plainJob, List.mem_singleton] at hc
  subst hc
  cases hquestion

end Runs

end NoraInterviewer
