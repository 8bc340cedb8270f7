import NoraInterviewer.History
import NoraInterviewer.JobIntake

namespace NoraInterviewer

section Execute

variable [CanonicalDigest]

instance (session : InterviewSession) (operation : Operation) :
    Decidable (operation.ready session) := by
  cases operation
  case answer => exact inferInstanceAs (Decidable (session.status ≠ .created))
  all_goals exact isTrue trivial

/-- Run the calls one after the other on the stored session; each one has to pass the check and
to commit. -/
def execute (check : Operation → InterviewSession → Bool) (backend : Backend)
    (versions : List InterviewSession) : List (Call × Operation) → Option (List InterviewSession)
  | [] => some versions
  | (call, operation) :: rest =>
    match versions with
    | [] => none
    | session :: past =>
      if operation.ready session ∧ check operation session then
        match mutate call operation session with
        | .ok (some session') => execute check backend (backend.stored session' :: session :: past) rest
        | _ => none
      else none

def Admits (allowed : Call → Operation → Prop) (call : Call) (operation : Operation)
    (session : InterviewSession) : Prop :=
  operation.ready session ∧ allowed call operation

def Checked (check : Operation → InterviewSession → Bool) (allowed : Call → Operation → Prop)
    (call : Call) (operation : Operation) (session : InterviewSession) : Prop :=
  Admits allowed call operation session ∧ check operation session = true

theorem History.execute {check : Operation → InterviewSession → Bool} {backend : Backend}
    {allowed : Call → Operation → Prop} {versions versions' : List InterviewSession}
    {calls : List (Call × Operation)} (h : History backend (Checked check allowed) versions)
    (hc : ∀ entry ∈ calls, allowed entry.1 entry.2)
    (he : NoraInterviewer.execute check backend versions calls = some versions') :
    History backend (Checked check allowed) versions' := by
  induction calls generalizing versions with
  | nil => cases he; exact h
  | cons entry rest ih =>
    obtain ⟨call, operation⟩ := entry
    unfold NoraInterviewer.execute at he
    split at he
    next => cases he
    next session past =>
      split at he
      next hr =>
        split at he
        next session' hm =>
          have ha : Admits allowed call operation session :=
            ⟨hr.1, hc (call, operation) List.mem_cons_self⟩
          refine ih (.committed h ⟨ha, hr.2⟩ hm) ?_ he
          exact fun entry hm => hc entry (List.mem_cons_of_mem _ hm)
        next => cases he
      next => cases he

end Execute

mutual

/-- A cheap digest of a JSON value, for evaluating runs. -/
def Json.checksum : Json → Nat
  | .null => 1
  | .bool value => if value then 2 else 3
  | .num value => (5 * value.num.natAbs + 7 * value.den) % 999983
  | .str value => value.toList.foldl (fun sum c => (31 * sum + c.toNat) % 999983) 11
  | .arr items => checksumItems items
  | .obj fields => checksumFields fields

def Json.checksumItems : List Json → Nat
  | [] => 13
  | item :: rest => (17 * item.checksum + 19 * checksumItems rest) % 999983

def Json.checksumFields : List (String × Json) → Nat
  | [] => 23
  | (key, value) :: rest =>
    (29 * key.length + 37 * value.checksum + 41 * checksumFields rest) % 999983

end

@[reducible]
def checksumDigest : CanonicalDigest where
  hexdigest value := toString value.checksum

def Minted.label : Minted → String
  | session => "session"
  | turn => "turn"
  | evidence => "evidence"
  | judgeRun => "judge_run"
  | revision => "revision"
  | appeal => "appeal"
  | signal => "signal"
  | tool => "tool"
  | submission => "submission"
  | challenge => "challenge"

/-- Ids that count, and a clock that stands still. -/
def plainAmbient : Ambient where
  uuid kind n := kind.label ++ "-" ++ toString n
  uuid_ne kind n := by
    intro h
    have hlen := congrArg String.length h
    rw [String.length_append, String.length_append] at hlen
    have hone : ("-" : String).length = 1 := rfl
    have hzero : ("" : String).length = 0 := rfl
    omega
  now _ := 0

/-- One competency, which has no anchor question. -/
def plainJob : JobSpec where
  id := "job"
  title := "Engineer"
  description := "Builds things"
  competencies := [{ id := "systems", description := "systems design" }]
  competencies_ne_nil := by decide
  anchor_questions_given := by simp
  maxQuestions_range := by decide
  anchorRatio_range := by decide +kernel
  maxTools_range := by decide
  competency_ids_nodup := by decide
  template_ids_nodup := by decide
  template_competencies_known := by simp

/-- `plainJob` with a second competency. -/
def pairJob : JobSpec where
  id := "job"
  title := "Engineer"
  description := "Builds things"
  competencies := [{ id := "systems", description := "systems design" },
    { id := "storage", description := "storage engines" }]
  competencies_ne_nil := by decide
  anchor_questions_given := by simp
  maxQuestions_range := by decide
  anchorRatio_range := by decide +kernel
  maxTools_range := by decide
  competency_ids_nodup := by decide
  template_ids_nodup := by decide
  template_competencies_known := by simp

def anchored (id : String) : Competency where
  id := id
  description := "system design"
  anchorQuestion := some "Tell me about a system that you designed."

/-- Two questions, two anchors, and a share between one half and one. -/
def anchoredJob : JobSpec where
  id := "job"
  title := "Engineer"
  description := "Builds things"
  competencies := [anchored "systems", anchored "storage"]
  maxQuestions := 2
  anchorRatio := 3 / 5
  competencies_ne_nil := by decide
  anchor_questions_given := by
    have hlength : 4 ≤ "Tell me about a system that you designed.".length := by decide
    simp [anchored, hlength]
  maxQuestions_range := by decide
  anchorRatio_range := by decide +kernel
  maxTools_range := by decide
  competency_ids_nodup := by decide
  template_ids_nodup := by decide
  template_competencies_known := by simp

/-- `plainJob` with two tools that may be opened. -/
def workshopJob : JobSpec where
  id := "job"
  title := "Engineer"
  description := "Builds things"
  competencies := [{ id := "systems", description := "systems design" }]
  toolTemplates := [
    { templateId := "note", purpose := "design", competencyIds := [] },
    { templateId := "sketch", purpose := "design", competencyIds := [] }]
  competencies_ne_nil := by decide
  anchor_questions_given := by simp
  maxQuestions_range := by decide
  anchorRatio_range := by decide +kernel
  maxTools_range := by decide
  competency_ids_nodup := by decide
  template_ids_nodup := by decide
  template_competencies_known := by simp

def draftedSkill (id : String) : RubricDraftCompetency where
  id := id
  description := "system design"
  anchorQuestion := "Tell me about a system that you designed."
  rationale := "The job needs it."
  observableEvidence := ["names trade-offs"]

def systemsDraft : RubricDraft where
  id := "draft"
  createdAt := 0
  title := "Engineer"
  jobDescription := "Builds things"
  locale := "en"
  competencies := [draftedSkill "systems", draftedSkill "storage", draftedSkill "delivery"]
  maxQuestions := 10
  anchorRatio := 2 / 5
  drafterId := "drafter"
  ranges := by decide +kernel
  competency_ids_nodup := by decide
  approval := unapproved_draft

/-- An approval with a template that no registry has. -/
def ghostApproval : RubricApprovalRequest where
  title := "Engineer"
  description := "Builds things"
  competencies := [{ id := "systems", description := "systems design" },
    { id := "storage", description := "storage engines" },
    { id := "delivery", description := "delivery" }]
  toolTemplates := [{ templateId := "ghost", purpose := "design", competencyIds := [] }]
  competencies_range := by decide
  anchor_questions_given := by simp
  maxQuestions_range := by decide
  anchorRatio_range := by decide +kernel
  maxTools_range := by decide

/-- A brain that gives the same decision on every occasion. -/
def steadyBrain (decision : AgentDecision) : Brain where
  opening session _ := .ok (decision, session.coveredCompetencies)
  afterAnswer session _ := .ok (decision, session.coveredCompetencies)
  afterTool session _ _ _ _ := .ok (decision, session.coveredCompetencies)

def askDecision : AgentDecision where
  text := "Tell me more."
  competencyTags := ["systems"]
  reason := "ask"

def closeDecision : AgentDecision where
  text := "Thank you."
  completesInterview := true
  reason := "done"

/-- A call whose tools pass. -/
def jobCall (job : JobSpec) (brain : Brain) : Call where
  toAmbient := plainAmbient
  job := some job
  brain := brain
  evaluate tool submission _ _ := .ok {
    toolId := tool.id, submissionId := submission.id, passed := some true, summary := "passed" }

/-- A call on `plainJob` whose brain decides `decision`. -/
def plainCall (decision : AgentDecision) : Call := jobCall plainJob (steadyBrain decision)

def plainTool : ToolInvocation where
  id := "artifact"
  kind := .document
  title := "Design note"
  instructions := "Write it down."
  competencyTags := ["systems"]

def plainConsent : CreateSession where
  jobId := "job"
  candidateRef := "candidate"
  consentToAiInterview := true
  consentToTranscript := true

/-- A fresh session on `job`, and then the calls, each of which has to pass the check. -/
def checkedRun [CanonicalDigest] (check : Operation → InterviewSession → Bool) (job : JobSpec)
    (backend : Backend) (calls : List (Call × Operation)) : Option (List InterviewSession) :=
  match createSession (jobCall job (steadyBrain askDecision)) plainConsent none with
  | .ok session => execute check backend [backend.stored session] calls
  | .error _ => none

def jobRun [CanonicalDigest] : JobSpec → Backend → List (Call × Operation) →
    Option (List InterviewSession) :=
  checkedRun fun _ _ => true

theorem checkedRun_history [CanonicalDigest] {check : Operation → InterviewSession → Bool}
    {job : JobSpec} {backend : Backend} (allowed : Call → Operation → Prop)
    {calls : List (Call × Operation)} {versions : List InterviewSession}
    (h : checkedRun check job backend calls = some versions)
    (hc : ∀ entry ∈ calls, allowed entry.1 entry.2) :
    History backend (Checked check allowed) versions := by
  unfold checkedRun at h
  split at h
  next session hcreated => exact (History.created hcreated).execute hc h
  next => cases h

theorem jobRun_history [CanonicalDigest] {job : JobSpec} {backend : Backend}
    (allowed : Call → Operation → Prop) {calls : List (Call × Operation)}
    {versions : List InterviewSession} (h : jobRun job backend calls = some versions)
    (hc : ∀ entry ∈ calls, allowed entry.1 entry.2) :
    History backend (Admits allowed) versions :=
  (checkedRun_history allowed h hc).mono fun _ _ _ ha => ha.1

/-- A check of the last version of a run that goes through is a version of some history. -/
theorem checkedRun_last [CanonicalDigest] {check : Operation → InterviewSession → Bool}
    {job : JobSpec} {backend : Backend} (allowed : Call → Operation → Prop)
    {calls : List (Call × Operation)} (hc : ∀ entry ∈ calls, allowed entry.1 entry.2)
    {last : InterviewSession → Bool}
    (h : (checkedRun check job backend calls).any
      (fun versions => versions.head?.any last) = true) :
    ∃ session past, History backend (Checked check allowed) (session :: past) ∧
      last session = true := by
  cases hv : checkedRun check job backend calls with
  | none =>
    rw [hv] at h
    cases h
  | some versions =>
    rw [hv] at h
    cases versions with
    | nil => cases h
    | cons session past => exact ⟨session, past, checkedRun_history allowed hv hc, h⟩

theorem jobRun_last [CanonicalDigest] {job : JobSpec} {backend : Backend}
    (allowed : Call → Operation → Prop) {calls : List (Call × Operation)}
    (hc : ∀ entry ∈ calls, allowed entry.1 entry.2) {check : InterviewSession → Bool}
    (h : (jobRun job backend calls).any (fun versions => versions.head?.any check) = true) :
    ∃ session past, History backend (Admits allowed) (session :: past) ∧ check session = true := by
  obtain ⟨session, past, hhistory, hlast⟩ := checkedRun_last allowed hc h
  exact ⟨session, past, hhistory.mono fun _ _ _ ha => ha.1, hlast⟩

end NoraInterviewer
