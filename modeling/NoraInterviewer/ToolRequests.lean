import NoraInterviewer.Lineage
import NoraInterviewer.JobIntake
import NoraInterviewer.JudgeSteps

namespace NoraInterviewer

open ExceptRules

/-- What the brains check of a tool that they request: the budget, the use, and the policy. -/
structure LegalRequest (job : JobSpec) (session : InterviewSession) (decision : AgentDecision)
    (request : AgentToolRequest) : Prop where
  budget : session.tools.length < job.maxTools
  unused : request.templateId ∉ usedTemplates session
  policy : ∃ allowed, (job.toolTemplates.find? fun item => item.templateId = request.templateId) =
    some allowed ∧
    (allowed.competencyIds ≠ [] → ∀ tag ∈ decision.competencyTags, tag ∈ allowed.competencyIds)

/-- Every tool that the decision requests is requested legally. -/
def Lawful (job : JobSpec) (session : InterviewSession) (decision : AgentDecision) : Prop :=
  ∀ request, decision.toolRequest = some request → LegalRequest job session decision request

theorem Lawful.none {job : JobSpec} {session : InterviewSession} {decision : AgentDecision}
    (h : decision.toolRequest = none) : Lawful job session decision := by
  intro request hr
  rw [h] at hr
  cases hr

theorem find?_of_nodup {α β : Type} [DecidableEq β] {key : α → β} {items : List α}
    (hn : (items.map key).Nodup) {item : α} (hm : item ∈ items) :
    (items.find? fun other => key other = key item) = some item := by
  have hsome : (items.find? fun other => key other = key item).isSome := by
    rw [List.find?_isSome]
    exact ⟨item, hm, decide_eq_true rfl⟩
  obtain ⟨found, hfound⟩ := Option.isSome_iff_exists.mp hsome
  have hkey : key found = key item := by simpa using List.find?_some hfound
  rw [hfound, List.inj_on_of_nodup_map hn (List.mem_of_find?_eq_some hfound) hm hkey]

namespace RuleBasedBrain

theorem advance_lawful {session : InterviewSession} {job : JobSpec} {latest : Turn}
    {covered : List String} : Lawful job session (advance session job latest covered) := by
  unfold advance
  split
  next item hitem =>
    intro request hr
    cases hr
    unfold templateFor at hitem
    split at hitem
    next hbudget =>
      have hmem := List.mem_of_find?_eq_some hitem
      have hfits := List.find?_some hitem
      rw [Bool.and_eq_true, Bool.or_eq_true, decide_eq_true_eq] at hfits
      obtain ⟨hunused, hpolicy⟩ := hfits
      refine ⟨hbudget, hunused, item, find?_of_nodup job.template_ids_nodup hmem, ?_⟩
      intro hnonempty tag htag
      rw [List.mem_singleton.mp htag]
      rcases hpolicy with hempty | hin
      · exact absurd (List.isEmpty_iff.mp hempty) hnonempty
      · simpa using hin
    next => cases hitem
  next =>
    split
    next => exact .none rfl
    next => exact .none rfl

theorem afterAnswer_lawful {isWord : Char → Bool} {session : InterviewSession} {job : JobSpec}
    {reply : AgentDecision × List String} (h : afterAnswer isWord session job = .ok reply) :
    Lawful job session reply.1 := by
  unfold afterAnswer at h
  split at h
  next => cases h
  next =>
    simp only at h
    split at h
    next =>
      cases h
      exact .none rfl
    next =>
      split at h
      next =>
        cases h
        exact .none rfl
      next =>
        cases h
        exact advance_lawful

end RuleBasedBrain

namespace LlmBrain

theorem check_tool {session : InterviewSession} {job : JobSpec} {output checked : BrainOutput}
    (h : check session job output = .ok checked) (ht : output.action = .openTool) :
    session.tools.length < job.maxTools ∧
      output.toolTemplateId.getD "" ∉ usedTemplates session ∧
      ∃ allowed, (job.toolTemplates.find? fun item =>
        item.templateId = output.toolTemplateId.getD "") = some allowed ∧
        (allowed.competencyIds ≠ [] → ∀ id ∈ output.competencyIds, id ∈ allowed.competencyIds) := by
  unfold check at h
  simp only at h
  obtain ⟨_, h⟩ := ite_error_ok h
  obtain ⟨_, h⟩ := ite_error_ok h
  rw [if_pos ht] at h
  unfold checkTool at h
  obtain ⟨_, h⟩ := ite_error_ok h
  simp only at h
  split at h
  next => cases h
  next allowed hallowed =>
    obtain ⟨hbudget, h⟩ := ite_error_ok h
    obtain ⟨hunused, h⟩ := ite_error_ok h
    obtain ⟨hpolicy, _⟩ := ite_error_ok h
    refine ⟨Nat.lt_of_not_le hbudget, hunused, allowed, hallowed, fun hnonempty id hid => ?_⟩
    have hnone : (output.competencyIds.filter fun id => id ∉ allowed.competencyIds) = [] := by
      by_contra houtside
      exact hpolicy ⟨hnonempty, houtside⟩
    simpa using List.filter_eq_nil_iff.mp hnone id hid

theorem toDecision_request {output : BrainOutput} {session : InterviewSession} {job : JobSpec}
    {allowParent : Bool} {decision : AgentDecision} {request : AgentToolRequest}
    (h : toDecision output session job allowParent = .ok decision)
    (hr : decision.toolRequest = some request) :
    output.action = .openTool ∧ output.toolTemplateId = some request.templateId ∧
      decision.competencyTags = output.competencyIds := by
  unfold toDecision at h
  split at h
  next =>
    cases h
    cases hr
  next =>
    split at h
    next =>
      split at h
      next => cases h
      next =>
        split at h
        next haction =>
          split at h
          next => cases h
          next templateId htemplate =>
            cases h
            cases hr
            exact ⟨haction, htemplate, rfl⟩
        next =>
          cases h
          cases hr
    next =>
      cases h
      cases hr

theorem decided_lawful {model : Model} {phase : Phase} {session : InterviewSession} {job : JobSpec}
    {output : BrainOutput} {allowParent : Bool} {decision : AgentDecision}
    (hc : complete model phase session job = .ok output)
    (h : toDecision output session job allowParent = .ok decision) :
    Lawful job session decision := by
  intro request hr
  obtain ⟨raw, _, hchecked⟩ := bind_ok hc
  obtain ⟨rfl, _⟩ := check_known hchecked
  obtain ⟨haction, htemplate, htags⟩ := toDecision_request h hr
  obtain ⟨hbudget, hunused, allowed, hallowed, hpolicy⟩ := check_tool hchecked haction
  rw [htemplate, Option.getD_some] at hunused hallowed
  refine ⟨hbudget, hunused, allowed, hallowed, ?_⟩
  rw [htags]
  exact hpolicy

theorem openingOutput_action (output : BrainOutput) :
    (openingOutput output).action ≠ .openTool := by
  unfold openingOutput
  split
  next => simp
  next hother => exact fun hopen => hother (Or.inr hopen)

end LlmBrain

/-- What a brain decides requests tools lawfully, and none in the opening. -/
structure Brain.Lawful (brain : Brain) : Prop where
  opening : ∀ {session job reply}, brain.opening session job = .ok reply →
    reply.1.toolRequest = none
  afterAnswer : ∀ {session job reply}, brain.afterAnswer session job = .ok reply →
    NoraInterviewer.Lawful job session reply.1
  afterTool : ∀ {session job invocation submission evaluation reply},
    brain.afterTool session job invocation submission evaluation = .ok reply →
    NoraInterviewer.Lawful job session reply.1

theorem ruleBasedBrain_lawful (isWord : Char → Bool) : (ruleBasedBrain isWord).Lawful where
  opening := by
    intro session job reply h
    cases h
    rfl
  afterAnswer := RuleBasedBrain.afterAnswer_lawful
  afterTool := by
    intro session job invocation submission evaluation reply h
    cases h
    exact .none rfl

theorem llmBrain_lawful (model : Model) : (llmBrain model).Lawful where
  opening := by
    intro session job reply h
    obtain ⟨output, _, h⟩ := bind_ok h
    obtain ⟨decision, hd, h⟩ := bind_ok h
    cases h
    cases hr : decision.toolRequest with
    | none => rfl
    | some request =>
      obtain ⟨haction, _⟩ := LlmBrain.toDecision_request hd hr
      exact absurd haction (LlmBrain.openingOutput_action output)
  afterAnswer := by
    intro session job reply h
    obtain ⟨output, houtput, h⟩ := bind_ok h
    obtain ⟨decision, hd, h⟩ := bind_ok h
    cases h
    exact LlmBrain.decided_lawful houtput hd
  afterTool := by
    intro session job invocation submission evaluation reply h
    obtain ⟨output, houtput, h⟩ := bind_ok h
    obtain ⟨decision, hd, h⟩ := bind_ok h
    cases h
    exact LlmBrain.decided_lawful houtput hd

theorem Lawful.degraded {job : JobSpec} {session : InterviewSession} {decision : AgentDecision}
    (h : Lawful job session decision) (e : Raised) :
    Lawful job session (FallbackBrain.degraded decision e) := by
  intro request hr
  obtain ⟨hbudget, hunused, hpolicy⟩ := h request hr
  exact ⟨hbudget, hunused, hpolicy⟩

theorem fallbackBrain_lawful {primary fallback : Brain} (hp : primary.Lawful)
    (hf : fallback.Lawful) : (fallbackBrain primary fallback).Lawful where
  opening h := FallbackBrain.reply_gives (P := fun decision => decision.toolRequest = none)
    (fun _ hr => hp.opening hr) (fun _ hr _ => hf.opening hr) h
  afterAnswer h := FallbackBrain.reply_gives (fun _ hr => hp.afterAnswer hr)
    (fun _ hr e => (hf.afterAnswer hr).degraded e) h
  afterTool h := FallbackBrain.reply_gives (fun _ hr => hp.afterTool hr)
    (fun _ hr e => (hf.afterTool hr).degraded e) h

theorem BuiltIn.lawful {brain : Brain} (h : BuiltIn brain) : brain.Lawful := by
  rcases h with ⟨isWord, rfl⟩ | hmodel
  · exact ruleBasedBrain_lawful isWord
  · cases hmodel with
    | alone model => exact llmBrain_lawful model
    | fallback model isWord =>
      exact fallbackBrain_lawful (llmBrain_lawful model) (ruleBasedBrain_lawful isWord)

theorem nextAnchor_request {session : InterviewSession} {job : JobSpec} {decision : AgentDecision}
    (h : nextAnchor session job = some decision) : decision.toolRequest = none := by
  obtain ⟨chosen, _, rfl⟩ := nextAnchor_some h
  rfl

/-- The template that the decision requests is registered, and the competencies that it names are
the job's. -/
def AgentDecision.Grantable (decision : AgentDecision) (templates : List ToolTemplate)
    (job : JobSpec) : Prop :=
  ∀ request, decision.toolRequest = some request →
    request.templateId ∈ templates.map ToolTemplate.templateId ∧
      ∀ tag ∈ decision.competencyTags, tag ∈ job.competencyIds

variable {call : Call} {job : JobSpec}

theorem instantiateTemplate_registered {session : InterviewSession} {templateId : String}
    {tags : List String} {opened : Option String} :
    (∃ tool, instantiateTemplate call session templateId tags opened = .ok tool) ↔
      templateId ∈ call.templates.map ToolTemplate.templateId := by
  constructor
  · rintro ⟨tool, h⟩
    unfold instantiateTemplate at h
    split at h
    next => cases h
    next template hfind =>
      have hid : template.templateId = templateId := by simpa using List.find?_some hfind
      rw [← hid]
      exact List.mem_map_of_mem (List.mem_of_find?_eq_some hfind)
  · intro h
    obtain ⟨template, hmem, hid⟩ := List.mem_map.mp h
    have hsome : (call.templates.find? fun other => other.templateId = templateId).isSome := by
      rw [List.find?_isSome]
      exact ⟨template, hmem, decide_eq_true hid⟩
    obtain ⟨found, hfound⟩ := Option.isSome_iff_exists.mp hsome
    unfold instantiateTemplate
    rw [hfound]
    exact ⟨_, rfl⟩

theorem instantiateTemplate_tool {session : InterviewSession} {templateId : String}
    {tags : List String} {opened : Option String} {tool : ToolInvocation}
    (h : instantiateTemplate call session templateId tags opened = .ok tool) :
    tool.id = call.uuid .tool session.tools.length ∧ tool.competencyTags = tags ∧
      tool.openedFromTurnId = opened := by
  unfold instantiateTemplate at h
  split at h
  next => cases h
  next template _ =>
    cases h
    cases template with
    | static => exact ⟨rfl, rfl, rfl⟩
    | coding => exact ⟨rfl, rfl, rfl⟩

section

variable [CanonicalDigest]

/-- A tool with a new id, known tags and a known source is appended. -/
theorem appendTool_of {call : Ambient} {session : InterviewSession} {tool : ToolInvocation}
    (ha : session.active) (happ : Appendable session.events)
    (hid : tool.id ∉ session.tools.map ToolInvocation.id)
    (htags : ∀ tag ∈ tool.competencyTags, tag ∈ job.competencyIds)
    (hsource : ∀ turnId, tool.openedFromTurnId = some turnId → turnId ∈ session.turns.map Turn.id) :
    ∃ session', appendTool call session job tool = .ok session' ∧ Appendable session'.events := by
  have hknown : (tool.competencyTags.filter fun tag => tag ∉ job.competencyIds) = [] := by
    refine List.filter_eq_nil_iff.mpr fun tag htag => ?_
    simpa using htags tag htag
  have hfrom : ¬(given tool.openedFromTurnId ∧
      tool.openedFromTurnId.getD "" ∉ session.turns.map Turn.id) := by
    rintro ⟨hgiven, hmissing⟩
    cases hopened : tool.openedFromTurnId with
    | none =>
      rw [hopened] at hgiven
      cases hgiven
    | some turnId =>
      rw [hopened] at hmissing
      exact hmissing (hsource turnId hopened)
  have hopen : Appendable { session with tools := session.tools ++ [tool] }.events := happ
  obtain ⟨events, hevents, happended⟩ :=
    hopen.append call .toolOpened none (toolOpenedPayload tool)
  refine ⟨{ session with tools := session.tools ++ [tool], events := events }, ?_, happended⟩
  unfold appendTool
  rw [if_neg ha.1, if_neg ha.2, if_neg hid]
  simp only [hknown, ne_eq, not_true_eq_false, if_false]
  rw [if_neg hfrom]
  exact hevents

theorem openRequestedTool_grantable {session : InterviewSession} {decision : AgentDecision}
    {turnId : String} {result : InterviewSession × Option ToolInvocation}
    (h : openRequestedTool call session job decision turnId = .ok result) :
    decision.Grantable call.templates job := by
  intro request hrequest
  unfold openRequestedTool at h
  rw [hrequest] at h
  obtain ⟨_, h⟩ := ite_error_ok h
  obtain ⟨_, h⟩ := ite_error_ok h
  split at h
  next => cases h
  next allowed _ =>
    obtain ⟨_, h⟩ := ite_error_ok h
    obtain ⟨tool, htool, h⟩ := bind_ok h
    obtain ⟨opened, hopened, _⟩ := bind_ok h
    have hinstantiated := badRequestOnValueError_ok htool
    refine ⟨instantiateTemplate_registered.mp ⟨tool, hinstantiated⟩, ?_⟩
    rw [← (instantiateTemplate_tool hinstantiated).2.1]
    exact (appendTool_opens hopened).tags

/-- A lawful request that is grantable is accepted. -/
theorem openRequestedTool_of {session : InterviewSession} {decision : AgentDecision}
    {turnId : String} (hlawful : Lawful job session decision) (ha : session.active)
    (happ : Appendable session.events)
    (hid : call.uuid .tool session.tools.length ∉ session.tools.map ToolInvocation.id)
    (hturn : turnId ∈ session.turns.map Turn.id) (hgrant : decision.Grantable call.templates job) :
    ∃ result, openRequestedTool call session job decision turnId = .ok result ∧
      Appendable result.1.events := by
  unfold openRequestedTool
  cases hr : decision.toolRequest with
  | none => exact ⟨_, rfl, happ⟩
  | some request =>
    obtain ⟨hbudget, hunused, allowed, hallowed, hpolicy⟩ := hlawful request hr
    have houtside : ¬(allowed.competencyIds ≠ [] ∧
        (decision.competencyTags.filter fun tag => tag ∉ allowed.competencyIds) ≠ []) := by
      rintro ⟨hnonempty, hsome⟩
      refine hsome (List.filter_eq_nil_iff.mpr fun tag htag => ?_)
      simpa using hpolicy hnonempty tag htag
    simp only [hallowed, if_neg (Nat.not_le.mpr hbudget), if_neg hunused, if_neg houtside]
    obtain ⟨hregistered, hknown⟩ := hgrant request hr
    have hinstantiates : ∃ tool, instantiateTemplate call session request.templateId
        decision.competencyTags (some turnId) = .ok tool :=
      instantiateTemplate_registered.mpr hregistered
    obtain ⟨tool, htool⟩ := hinstantiates
    obtain ⟨htoolId, htags, hsource⟩ := instantiateTemplate_tool htool
    have hopened : ∃ session', appendTool call.toAmbient session job tool = .ok session' ∧
        Appendable session'.events := by
      refine appendTool_of ha happ ?_ ?_ ?_
      · rw [htoolId]
        exact hid
      · rw [htags]
        exact hknown
      · intro source hfrom
        rw [hsource] at hfrom
        cases hfrom
        exact hturn
    obtain ⟨session', happend, hfinal⟩ := hopened
    refine ⟨(session', some tool), ?_, hfinal⟩
    rw [htool]
    show (appendTool call.toAmbient session job tool >>= fun session =>
      pure (session, some tool)) = _
    rw [happend]
    rfl

end

end NoraInterviewer
