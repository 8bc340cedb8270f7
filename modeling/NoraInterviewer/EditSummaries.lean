import NoraInterviewer.JobIntake
import NoraInterviewer.Counterfactual
import NoraInterviewer.Execution

/-! What an approval records of the recruiter's edits, and what it does not. -/

namespace NoraInterviewer

open ExceptRules

structure EditSummary where
  titleChanged : Bool
  descriptionChanged : Bool
  maxQuestionsChanged : Bool
  anchorRatioChanged : Bool
  competenciesAdded : List String
  competenciesRemoved : List String
  competenciesModified : List String
  deriving DecidableEq

structure RubricProvenance where
  draftId : String
  drafterId : String
  approvedBy : String
  approvedAt : DateTime
  reviewNote : Option String
  editSummary : EditSummary

/-- `Competency(…)` of `to_job_spec`. -/
def RubricDraftCompetency.competency (item : RubricDraftCompetency) : Competency where
  id := item.id
  description := item.description
  weight := item.weight
  anchorQuestion := some item.anchorQuestion

theorem defaultMaxTools_range : 2 ≤ 10 := by decide

theorem draftRatio_range : (0 : ℚ) ≤ 1 / 5 ∧ (4 : ℚ) / 5 ≤ 1 := by decide +kernel

/-- `to_job_spec`; `jobId` is its argument, or what `uuid4` gives. -/
def RubricDraft.toJobSpec (draft : RubricDraft) (jobId : String) : Except PyError JobSpec :=
  if h : ∀ c ∈ draft.competencies.map RubricDraftCompetency.competency,
      ∀ q, c.anchorQuestion = some q → 4 ≤ q.length then
    .ok {
      id := jobId
      title := draft.title
      description := draft.jobDescription
      competencies := draft.competencies.map RubricDraftCompetency.competency
      maxQuestions := draft.maxQuestions
      anchorRatio := draft.anchorRatio
      competencies_ne_nil := by
        have hlength := draft.ranges.1
        intro hnil
        rw [List.map_eq_nil_iff.mp hnil] at hlength
        cases hlength
      anchor_questions_given := h
      maxQuestions_range := by
        obtain ⟨-, -, hlow, hhigh, -⟩ := draft.ranges
        exact ⟨by omega, hhigh⟩
      anchorRatio_range := by
        obtain ⟨-, -, -, -, hlow, hhigh⟩ := draft.ranges
        exact ⟨le_trans draftRatio_range.1 hlow, le_trans hhigh draftRatio_range.2⟩
      maxTools_range := defaultMaxTools_range
      competency_ids_nodup := by
        rw [List.map_map]
        exact draft.competency_ids_nodup
      template_ids_nodup := by exact List.nodup_nil
      template_competencies_known := fun _ h => by cases h }
  else .error (.raised (.validationError "anchor_question: string_too_short"))

/-- `{item.id: item for item in …}[id]`: the last item with the id. -/
def draftItem (draft : RubricDraft) (id : String) : Option RubricDraftCompetency :=
  draft.competencies.reverse.find? fun item => item.id = id

def requestItem (request : RubricApprovalRequest) (id : String) : Option Competency :=
  request.competencies.reverse.find? fun item => item.id = id

/-- The comparison of the two items of one id. -/
def modifiedItem (draft : RubricDraft) (request : RubricApprovalRequest) (id : String) : Bool :=
  match draftItem draft id, requestItem request id with
  | some before, some after => before.description ≠ after.description ||
    before.weight ≠ after.weight || some before.anchorQuestion ≠ after.anchorQuestion
  | _, _ => false

/-- `_edit_summary`. -/
def editSummary (draft : RubricDraft) (request : RubricApprovalRequest) : EditSummary :=
  let original := draft.competencies.map RubricDraftCompetency.id
  let approved := request.competencies.map Competency.id
  { titleChanged := request.title ≠ draft.title
    descriptionChanged := request.description ≠ draft.jobDescription
    maxQuestionsChanged := request.maxQuestions ≠ draft.maxQuestions
    anchorRatioChanged := request.anchorRatio ≠ draft.anchorRatio
    competenciesAdded := sortedSet (approved.filter fun id => id ∉ original)
    competenciesRemoved := sortedSet (original.filter fun id => id ∉ approved)
    competenciesModified := (sortedSet (original.filter fun id => id ∈ approved)).filter
      (modifiedItem draft request) }

/-- `approve_rubric_draft`, with the provenance that it puts on the job. -/
def approveWithProvenance (draft : RubricDraft) (request : RubricApprovalRequest)
    (minted approvedBy : String) (organizationId : Option String) (approvedAt : DateTime) :
    Except PyError (RubricDraft × JobSpec × RubricProvenance) := do
  let (approved, job) ←
    approveRubricDraft draft request minted approvedBy organizationId approvedAt
  if draft.id = "" ∨ draft.drafterId = "" ∨ 500 < draft.drafterId.length ∨ approvedBy = "" ∨
      256 < approvedBy.length then
    .error (.raised (.validationError "RubricProvenance"))
  else .ok (approved, job, {
    draftId := draft.id
    drafterId := draft.drafterId
    approvedBy
    approvedAt
    reviewNote := request.reviewNote
    editSummary := editSummary draft request })

/-- No flag is set and no list has an entry. -/
def EditSummary.reportsNothing (summary : EditSummary) : Prop :=
  summary = ⟨false, false, false, false, [], [], []⟩

/-- The two jobs agree in everything that configures an interview. -/
structure SameInterview (job job' : JobSpec) : Prop where
  title : job.title = job'.title
  description : job.description = job'.description
  competencies : job.competencies = job'.competencies
  maxQuestions : job.maxQuestions = job'.maxQuestions
  anchorRatio : job.anchorRatio = job'.anchorRatio
  toolTemplates : job.toolTemplates = job'.toolTemplates
  maxTools : job.maxTools = job'.maxTools

/-- The summary reports just what distinguishes the job from the one that the draft describes. -/
structure FaithfulSummary (draft : RubricDraft) (job : JobSpec) (summary : EditSummary) : Prop where
  nothing : summary.reportsNothing ↔
    ∃ jobId spec, draft.toJobSpec jobId = .ok spec ∧ SameInterview job spec
  added : ∀ id, id ∈ summary.competenciesAdded ↔ id ∈ job.competencies.map Competency.id ∧
    id ∉ draft.competencies.map RubricDraftCompetency.id
  removed : ∀ id, id ∈ summary.competenciesRemoved ↔
    id ∈ draft.competencies.map RubricDraftCompetency.id ∧ id ∉ job.competencies.map Competency.id
  modified : ∀ id, id ∈ summary.competenciesModified ↔
    ∃ before ∈ draft.competencies, ∃ after ∈ job.competencies,
      before.id = id ∧ after.id = id ∧ after ≠ before.competency

/-- The request edits nothing that the summary looks at. -/
structure SeenSame (draft : RubricDraft) (request : RubricApprovalRequest) : Prop where
  title : request.title = draft.title
  description : request.description = draft.jobDescription
  maxQuestions : request.maxQuestions = draft.maxQuestions
  anchorRatio : request.anchorRatio = draft.anchorRatio
  competencies : request.competencies.Perm
    (draft.competencies.map RubricDraftCompetency.competency)

/-- What the summary does not look at is as the draft has it. -/
structure UnseenSame (draft : RubricDraft) (request : RubricApprovalRequest) : Prop where
  order : request.competencies.map Competency.id =
    draft.competencies.map RubricDraftCompetency.id
  toolTemplates : request.toolTemplates = []
  maxTools : request.maxTools = 2

theorem mem_sortedSet {items : List String} {item : String} :
    item ∈ sortedSet items ↔ item ∈ items := by
  rw [sortedSet, List.mem_mergeSort, List.mem_dedup]

theorem sortedSet_eq_nil {items : List String} : sortedSet items = [] ↔ items = [] := by
  simp only [List.eq_nil_iff_forall_not_mem, mem_sortedSet]

/-- Where keys are distinct, the last item with a key is the item with it. -/
theorem find_last_iff {α : Type} {key : α → String} {items : List α} (hn : (items.map key).Nodup)
    {id : String} {item : α} :
    items.reverse.find? (fun other => key other = id) = some item ↔ item ∈ items ∧ key item = id := by
  constructor
  · intro h
    exact ⟨List.mem_reverse.mp (List.mem_of_find?_eq_some h), by simpa using List.find?_some h⟩
  · rintro ⟨hm, rfl⟩
    cases hf : items.reverse.find? fun other => key other = key item with
    | none => exact absurd (decide_eq_true rfl) (List.find?_eq_none.mp hf item (List.mem_reverse.mpr hm))
    | some other =>
      have hkey : key other = key item := by simpa using List.find?_some hf
      rw [List.inj_on_of_nodup_map hn (List.mem_reverse.mp (List.mem_of_find?_eq_some hf)) hm hkey]

variable {draft : RubricDraft} {request : RubricApprovalRequest}

theorem draftItem_iff {id : String} {item : RubricDraftCompetency} :
    draftItem draft id = some item ↔ item ∈ draft.competencies ∧ item.id = id :=
  find_last_iff draft.competency_ids_nodup

theorem requestItem_iff (h : request.Contract) {id : String} {item : Competency} :
    requestItem request id = some item ↔ item ∈ request.competencies ∧ item.id = id :=
  find_last_iff h.competency_ids_nodup

/-- Two competencies of one id differ in what the summary compares. -/
theorem competency_ne_iff {before : RubricDraftCompetency} {after : Competency}
    (hid : after.id = before.id) : (before.description ≠ after.description ||
      before.weight ≠ after.weight || some before.anchorQuestion ≠ after.anchorQuestion) = true ↔
      after ≠ before.competency := by
  obtain ⟨id, description, weight, anchorQuestion⟩ := after
  subst hid
  simp only [RubricDraftCompetency.competency, ne_eq, decide_not, Bool.or_eq_true,
    Bool.not_eq_true', decide_eq_false_iff_not, Competency.mk.injEq, true_and, not_and_or,
    or_assoc, eq_comm (a := before.description), eq_comm (a := before.weight),
    eq_comm (a := some before.anchorQuestion)]

theorem modifiedItem_iff (h : request.Contract) {id : String} :
    modifiedItem draft request id = true ↔ ∃ before ∈ draft.competencies,
      ∃ after ∈ request.competencies, before.id = id ∧ after.id = id ∧
        after ≠ before.competency := by
  unfold modifiedItem
  constructor
  · intro hm
    split at hm
    next before after hb ha =>
      obtain ⟨hbm, hbid⟩ := draftItem_iff.mp hb
      obtain ⟨ham, haid⟩ := (requestItem_iff h).mp ha
      exact ⟨before, hbm, after, ham, hbid, haid, (competency_ne_iff (haid.trans hbid.symm)).mp hm⟩
    next => cases hm
  · rintro ⟨before, hbm, after, ham, hbid, haid, hne⟩
    rw [draftItem_iff.mpr ⟨hbm, hbid⟩, (requestItem_iff h).mpr ⟨ham, haid⟩]
    exact (competency_ne_iff (haid.trans hbid.symm)).mpr hne

theorem mem_modified (h : request.Contract) {id : String} :
    id ∈ (editSummary draft request).competenciesModified ↔ ∃ before ∈ draft.competencies,
      ∃ after ∈ request.competencies, before.id = id ∧ after.id = id ∧
        after ≠ before.competency := by
  simp only [editSummary, List.mem_filter, mem_sortedSet, decide_eq_true_eq, modifiedItem_iff h]
  constructor
  · exact fun hm => hm.2
  · rintro ⟨before, hbm, after, ham, rfl, haid, hne⟩
    exact ⟨⟨List.mem_map_of_mem hbm, List.mem_map.mpr ⟨after, ham, haid⟩⟩,
      before, hbm, after, ham, rfl, haid, hne⟩

theorem added_eq_nil : (editSummary draft request).competenciesAdded = [] ↔
    ∀ id ∈ request.competencies.map Competency.id,
      id ∈ draft.competencies.map RubricDraftCompetency.id := by
  simp only [editSummary, sortedSet_eq_nil, List.filter_eq_nil_iff, decide_eq_true_eq, not_not]

theorem removed_eq_nil : (editSummary draft request).competenciesRemoved = [] ↔
    ∀ id ∈ draft.competencies.map RubricDraftCompetency.id,
      id ∈ request.competencies.map Competency.id := by
  simp only [editSummary, sortedSet_eq_nil, List.filter_eq_nil_iff, decide_eq_true_eq, not_not]

theorem map_competency_id (items : List RubricDraftCompetency) :
    (items.map RubricDraftCompetency.competency).map Competency.id =
      items.map RubricDraftCompetency.id := by
  rw [List.map_map]
  rfl

/-- A request that lists each competency of the draft as it is, and no other. -/
theorem competencies_perm_iff (h : request.Contract) :
    (editSummary draft request).competenciesAdded = [] ∧
      (editSummary draft request).competenciesRemoved = [] ∧
      (editSummary draft request).competenciesModified = [] ↔
    request.competencies.Perm (draft.competencies.map RubricDraftCompetency.competency) := by
  have hdraft : ((draft.competencies.map RubricDraftCompetency.competency).map Competency.id).Nodup := by
    rw [map_competency_id]
    exact draft.competency_ids_nodup
  constructor
  · rintro ⟨hadded, hremoved, hmodified⟩
    have hsame : ∀ before ∈ draft.competencies, ∀ after ∈ request.competencies,
        after.id = before.id → after = before.competency := by
      intro before hb after ha hid
      by_contra hne
      have hm := (mem_modified h).mpr ⟨before, hb, after, ha, rfl, hid, hne⟩
      rw [hmodified] at hm
      cases hm
    refine (List.perm_ext_iff_of_nodup (.of_map _ h.competency_ids_nodup) (.of_map _ hdraft)).mpr
      fun item => ⟨fun ha => ?_, fun hb => ?_⟩
    · obtain ⟨before, hb, hid⟩ :=
        List.mem_map.mp (added_eq_nil.mp hadded item.id (List.mem_map_of_mem ha))
      exact List.mem_map.mpr ⟨before, hb, (hsame before hb item ha hid.symm).symm⟩
    · obtain ⟨before, hbefore, rfl⟩ := List.mem_map.mp hb
      obtain ⟨after, ha, hid⟩ :=
        List.mem_map.mp (removed_eq_nil.mp hremoved before.id (List.mem_map_of_mem hbefore))
      rw [← hsame before hbefore after ha hid]
      exact ha
  · intro hperm
    have hids : ∀ id, id ∈ request.competencies.map Competency.id ↔
        id ∈ draft.competencies.map RubricDraftCompetency.id := by
      intro id
      rw [← map_competency_id]
      exact (hperm.map Competency.id).mem_iff
    refine ⟨added_eq_nil.mpr fun id => (hids id).mp, removed_eq_nil.mpr fun id => (hids id).mpr,
      List.eq_nil_iff_forall_not_mem.mpr fun id hm => ?_⟩
    obtain ⟨before, hb, after, ha, hbid, haid, hne⟩ := (mem_modified h).mp hm
    have hsame : after = before.competency := List.inj_on_of_nodup_map hdraft (hperm.mem_iff.mp ha)
      (List.mem_map_of_mem hb) (haid.trans hbid.symm)
    exact hne hsame

theorem reportsNothing_iff (h : request.Contract) :
    (editSummary draft request).reportsNothing ↔ SeenSame draft request := by
  have hfields : (editSummary draft request).reportsNothing ↔
      request.title = draft.title ∧ request.description = draft.jobDescription ∧
        request.maxQuestions = draft.maxQuestions ∧ request.anchorRatio = draft.anchorRatio ∧
        (editSummary draft request).competenciesAdded = [] ∧
        (editSummary draft request).competenciesRemoved = [] ∧
        (editSummary draft request).competenciesModified = [] := by
    simp only [EditSummary.reportsNothing, editSummary, EditSummary.mk.injEq, ne_eq, decide_not,
      Bool.not_eq_eq_eq_not, Bool.not_false, decide_eq_true_eq]
  rw [hfields, competencies_perm_iff h]
  exact ⟨fun ⟨h1, h2, h3, h4, h5⟩ => ⟨h1, h2, h3, h4, h5⟩,
    fun h => ⟨h.title, h.description, h.maxQuestions, h.anchorRatio, h.competencies⟩⟩

theorem approveWithProvenance_ok {minted approvedBy : String} {organizationId : Option String}
    {approvedAt : DateTime} {approved : RubricDraft} {job : JobSpec} {provenance : RubricProvenance}
    (h : approveWithProvenance draft request minted approvedBy organizationId approvedAt =
      .ok (approved, job, provenance)) :
    ∃ hc : request.Contract, ∃ jobId organizationId, job = request.job hc jobId organizationId ∧
      provenance.editSummary = editSummary draft request := by
  obtain ⟨⟨approved', job'⟩, happrove, h⟩ := bind_ok h
  obtain ⟨-, h⟩ := ite_error_ok h
  cases h
  obtain ⟨-, happrove⟩ := ite_error_ok happrove
  dsimp only at happrove
  split at happrove
  next hc =>
    cases happrove
    exact ⟨hc, _, _, rfl, rfl⟩
  next => cases happrove

/-- Two orders of the same competencies are one if the ids are in one order. -/
theorem eq_of_perm_ids {items others : List Competency} (hp : items.Perm others)
    (hids : items.map Competency.id = others.map Competency.id)
    (hn : (others.map Competency.id).Nodup) : items = others := by
  refine List.ext_getElem hp.length_eq fun i hi ho => ?_
  refine List.inj_on_of_nodup_map hn (hp.mem_iff.mp (List.getElem_mem hi)) (List.getElem_mem ho) ?_
  have hmap : (items.map Competency.id)[i]? = (others.map Competency.id)[i]? := by rw [hids]
  rw [List.getElem?_map, List.getElem?_map, List.getElem?_eq_getElem hi,
    List.getElem?_eq_getElem ho] at hmap
  exact Option.some.inj hmap

/-- The configuration is the draft's just when neither what the summary looks at nor what it does
not look at has been edited. -/
theorem sameInterview_iff (h : request.Contract) (jobId : String) (organizationId : Option String) :
    (∃ jobId' spec, draft.toJobSpec jobId' = .ok spec ∧
      SameInterview (request.job h jobId organizationId) spec) ↔
    SeenSame draft request ∧ UnseenSame draft request := by
  constructor
  · rintro ⟨jobId', spec, hspec, hsame⟩
    unfold RubricDraft.toJobSpec at hspec
    split at hspec
    next =>
      cases hspec
      have hcompetencies : request.competencies =
          draft.competencies.map RubricDraftCompetency.competency := hsame.competencies
      refine ⟨⟨hsame.title, hsame.description, hsame.maxQuestions, hsame.anchorRatio, ?_⟩,
        ⟨?_, hsame.toolTemplates, hsame.maxTools⟩⟩
      · rw [hcompetencies]
      · rw [hcompetencies, map_competency_id]
    next => cases hspec
  · rintro ⟨hseen, hunseen⟩
    have hcompetencies : request.competencies =
        draft.competencies.map RubricDraftCompetency.competency := by
      refine eq_of_perm_ids hseen.competencies ?_ ?_
      · rw [hunseen.order, map_competency_id]
      · rw [map_competency_id]
        exact draft.competency_ids_nodup
    have hanchors : ∀ c ∈ draft.competencies.map RubricDraftCompetency.competency,
        ∀ q, c.anchorQuestion = some q → 4 ≤ q.length := by
      rw [← hcompetencies]
      exact request.anchor_questions_given
    refine ⟨jobId, _, dif_pos hanchors, ⟨hseen.title, hseen.description, hcompetencies,
      hseen.maxQuestions, hseen.anchorRatio, hunseen.toolTemplates, hunseen.maxTools⟩⟩

/-- The summary of an approval is faithful just when the request edits something that the summary
looks at, or leaves the order of the competencies, the tool templates and the tool budget as the
draft has them. -/
theorem edit_summary_faithful_iff {minted approvedBy : String} {organizationId : Option String}
    {approvedAt : DateTime} {approved : RubricDraft} {job : JobSpec} {provenance : RubricProvenance}
    (h : approveWithProvenance draft request minted approvedBy organizationId approvedAt =
      .ok (approved, job, provenance)) :
    FaithfulSummary draft job provenance.editSummary ↔
      (SeenSame draft request → UnseenSame draft request) := by
  obtain ⟨hc, jobId, organizationId, rfl, hsummary⟩ := approveWithProvenance_ok h
  rw [hsummary]
  constructor
  · intro hfaithful hseen
    have hnothing := (reportsNothing_iff hc).mpr hseen
    exact ((sameInterview_iff hc jobId organizationId).mp (hfaithful.nothing.mp hnothing)).2
  · intro hunseen
    refine ⟨?_, fun id => ?_, fun id => ?_, fun id => mem_modified hc⟩
    · rw [reportsNothing_iff hc, sameInterview_iff hc]
      exact (and_iff_left_of_imp hunseen).symm
    · simp only [editSummary, mem_sortedSet, List.mem_filter, decide_eq_true_eq]
      exact Iff.rfl
    · simp only [editSummary, mem_sortedSet, List.mem_filter, decide_eq_true_eq]
      exact Iff.rfl

def storageDraft : RubricDraft :=
  { systemsDraft with jobDescription := "Builds and runs distributed storage systems." }

/-- An approval of `storageDraft` with every competency as drafted. -/
def storageApproval (title : String) (maxTools : Nat) (h : maxTools ≤ 10) :
    RubricApprovalRequest where
  title := title
  description := "Builds and runs distributed storage systems."
  competencies := storageDraft.competencies.map RubricDraftCompetency.competency
  maxTools := maxTools
  competencies_range := by decide
  anchor_questions_given := by
    have hlengths : ∀ item ∈ storageDraft.competencies, 4 ≤ item.anchorQuestion.length := by decide
    intro c hc q hq
    obtain ⟨item, hi, rfl⟩ := List.mem_map.mp hc
    obtain rfl := Option.some.inj hq
    exact hlengths item hi
  maxQuestions_range := ghostApproval.maxQuestions_range
  anchorRatio_range := ghostApproval.anchorRatio_range
  maxTools_range := h

/-- A new title is reported. -/
theorem edit_summary_faithful_title : ∃ approved job provenance,
    approveWithProvenance storageDraft (storageApproval "Storage engineer" 2 (by decide)) "job"
      "recruiter" none 0 = .ok (approved, job, provenance) ∧
    FaithfulSummary storageDraft job provenance.editSummary := by
  have hok : (approveWithProvenance storageDraft (storageApproval "Storage engineer" 2 (by decide))
      "job" "recruiter" none 0).isOk = true := by decide +kernel
  cases h : approveWithProvenance storageDraft (storageApproval "Storage engineer" 2 (by decide))
      "job" "recruiter" none 0 with
  | error e =>
    rw [h] at hok
    cases hok
  | ok result =>
    refine ⟨result.1, result.2.1, result.2.2, rfl, (edit_summary_faithful_iff h).mpr fun hseen => ?_⟩
    exact absurd hseen.title (by decide)

/-- A tool budget of zero is not reported. -/
theorem edit_summary_blind : ∃ approved job provenance,
    approveWithProvenance storageDraft (storageApproval "Engineer" 0 (by decide)) "job" "recruiter"
      none 0 = .ok (approved, job, provenance) ∧
    provenance.editSummary.reportsNothing ∧
    ¬FaithfulSummary storageDraft job provenance.editSummary := by
  have hok : (approveWithProvenance storageDraft (storageApproval "Engineer" 0 (by decide))
      "job" "recruiter" none 0).isOk = true := by decide +kernel
  cases h : approveWithProvenance storageDraft (storageApproval "Engineer" 0 (by decide))
      "job" "recruiter" none 0 with
  | error e =>
    rw [h] at hok
    cases hok
  | ok result =>
    obtain ⟨hc, jobId, organizationId, hjob, hsummary⟩ := approveWithProvenance_ok h
    have hnothing := (reportsNothing_iff hc).mpr ⟨rfl, rfl, rfl, rfl, .refl _⟩
    rw [← hsummary] at hnothing
    refine ⟨result.1, result.2.1, result.2.2, rfl, hnothing, fun hfaithful => ?_⟩
    have hsame := hfaithful.nothing.mp hnothing
    rw [hjob] at hsame
    have htools := ((sameInterview_iff hc jobId organizationId).mp hsame).2.maxTools
    exact absurd htools (by decide)

end NoraInterviewer
