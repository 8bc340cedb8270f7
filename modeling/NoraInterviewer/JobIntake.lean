import NoraInterviewer.Stores

namespace NoraInterviewer

/-- `InterviewService.create_job`, up to the store. -/
def createJob (templates : List ToolTemplate) (job : JobSpec) (organizationId : Option String) :
    Except PyError JobSpec :=
  if organizationId.isSome ∧ job.organizationId.isSome ∧ job.organizationId ≠ organizationId then
    .error (.http 403 "Job organization does not match authenticated organization" [])
  else
    let job := if organizationId.isSome then { job with organizationId } else job
    match job.toolTemplates.find? fun item =>
        item.templateId ∉ templates.map ToolTemplate.templateId with
    | some item => .error (.http 400 s!"unknown tool template: {item.templateId}" [])
    | none => .ok job

/-- What a recruiter approves; the last fields are the bounds of the schema. -/
structure RubricApprovalRequest where
  jobId : Option String := none
  title : String
  description : String
  competencies : List Competency
  maxQuestions : Nat := 10
  anchorRatio : ℚ := 2 / 5
  toolTemplates : List JobToolTemplate := []
  maxTools : Nat := 2
  reviewNote : Option String := none
  competencies_range : 3 ≤ competencies.length ∧ competencies.length ≤ 12
  anchor_questions_given : ∀ c ∈ competencies, ∀ q, c.anchorQuestion = some q → 4 ≤ q.length
  maxQuestions_range : 3 ≤ maxQuestions ∧ maxQuestions ≤ 30
  anchorRatio_range : 1 / 5 ≤ anchorRatio ∧ anchorRatio ≤ 4 / 5
  maxTools_range : maxTools ≤ 10

/-- `validate_job_contract` of the job that the request describes. -/
structure RubricApprovalRequest.Contract (request : RubricApprovalRequest) : Prop where
  competency_ids_nodup : (request.competencies.map Competency.id).Nodup
  template_ids_nodup : (request.toolTemplates.map JobToolTemplate.templateId).Nodup
  template_competencies_known : ∀ item ∈ request.toolTemplates, ∀ id ∈ item.competencyIds,
    id ∈ request.competencies.map Competency.id

instance (request : RubricApprovalRequest) : Decidable request.Contract :=
  decidable_of_iff ((request.competencies.map Competency.id).Nodup ∧
      (request.toolTemplates.map JobToolTemplate.templateId).Nodup ∧
      ∀ item ∈ request.toolTemplates, ∀ id ∈ item.competencyIds,
        id ∈ request.competencies.map Competency.id)
    ⟨fun h => ⟨h.1, h.2.1, h.2.2⟩, fun h =>
      ⟨h.competency_ids_nodup, h.template_ids_nodup, h.template_competencies_known⟩⟩

def RubricApprovalRequest.job (request : RubricApprovalRequest) (h : request.Contract)
    (jobId : String) (organizationId : Option String) : JobSpec where
  id := jobId
  organizationId := organizationId
  title := request.title
  description := request.description
  competencies := request.competencies
  maxQuestions := request.maxQuestions
  anchorRatio := request.anchorRatio
  toolTemplates := request.toolTemplates
  maxTools := request.maxTools
  competencies_ne_nil := by
    have hlength := request.competencies_range.1
    intro hnil
    rw [hnil] at hlength
    cases hlength
  anchor_questions_given := request.anchor_questions_given
  maxQuestions_range := ⟨by have hrange := request.maxQuestions_range.1; omega,
    request.maxQuestions_range.2⟩
  anchorRatio_range := by
    obtain ⟨hlow, hhigh⟩ := request.anchorRatio_range
    exact ⟨le_trans (by decide +kernel) hlow, le_trans hhigh (by decide +kernel)⟩
  maxTools_range := request.maxTools_range
  competency_ids_nodup := h.competency_ids_nodup
  template_ids_nodup := h.template_ids_nodup
  template_competencies_known := h.template_competencies_known

def RubricDraft.approved (draft : RubricDraft) (jobId approvedBy : String)
    (approvedAt : DateTime) : RubricDraft :=
  { draft with
    activationStatus := .approved
    approvedJobId := some jobId
    approvedBy := some approvedBy
    approvedAt := some approvedAt
    approval := ⟨rfl, rfl, rfl⟩ }

/-- `RubricWorkflowService.approve` between the store's reading and its writing; `minted` is the id
that `uuid4` gives a job without one. It does not look at the template registry. -/
def approveRubricDraft (draft : RubricDraft) (request : RubricApprovalRequest)
    (minted approvedBy : String) (organizationId : Option String) (approvedAt : DateTime) :
    Except PyError (RubricDraft × JobSpec) :=
  if draft.activationStatus ≠ .draftOnly then
    .error (.http 409 "rubric draft is already approved" [])
  else
    let jobId := if given request.jobId then request.jobId.getD "" else minted
    let organizationId :=
      if given organizationId then organizationId else draft.organizationId
    if h : request.Contract then
      .ok (draft.approved jobId approvedBy approvedAt, request.job h jobId organizationId)
    else .error (.raised (.validationError "job contract"))

theorem createJob_registered {templates : List ToolTemplate} {raw job : JobSpec}
    {organizationId : Option String} (h : createJob templates raw organizationId = .ok job) :
    ∀ item ∈ job.toolTemplates, item.templateId ∈ templates.map ToolTemplate.templateId := by
  unfold createJob at h
  split at h
  next => cases h
  next =>
    simp only at h
    split at h
    next => cases h
    next hnone =>
      cases h
      intro item hitem
      simpa using List.find?_eq_none.mp hnone item hitem

end NoraInterviewer
