import NoraInterviewer.ReviewAssignments
import NoraInterviewer.Replay
import Mathlib.Logic.Relation

/-! What a review request does to the assignments and to the log. -/

namespace NoraInterviewer

open ExceptRules

def EventType.ofReview : EventType → Bool
  | .reviewAssigned | .reviewStarted | .reviewCompleted | .reviewAssignmentCancelled => true
  | _ => false

/-- What a `REVIEW_*` event says of its assignment. -/
structure ReviewEvent where
  type : EventType
  assignmentId : String
  reviewerId : String
  deriving DecidableEq

def LogEntry.review (entry : LogEntry) : Option ReviewEvent :=
  if entry.type.ofReview then
    some ⟨entry.type, entry.text "assignment_id", entry.text "reviewer_id"⟩
  else none

/-- The `REVIEW_*` events of a log. -/
def reviewEvents (log : List LogEntry) : List ReviewEvent := log.filterMap LogEntry.review

def StoredSession.reviewLog (session : StoredSession) : List ReviewEvent := reviewEvents session.log

/-- The transitions that an assignment has made, by its state. -/
def ReviewAssignment.made (assignment : ReviewAssignment) : List EventType :=
  [.reviewAssigned] ++ (if assignment.startedAt.isSome then [.reviewStarted] else []) ++
    (match assignment.status with
      | .completed => [.reviewCompleted]
      | .cancelled => [.reviewAssignmentCancelled]
      | .open | .inReview => [])

def ReviewAssignment.events (assignment : ReviewAssignment) : List ReviewEvent :=
  assignment.made.map fun type => ⟨type, assignment.id, assignment.reviewerId⟩

/-- One transition of an assignment, by a principal, and the type of its event. -/
inductive ReviewMove (principalId : String) (assignment : ReviewAssignment) :
    EventType → ReviewAssignment → Prop where
  | start (at_ : DateTime) (ho : assignment.status = .open) (hr : assignment.reviewerId = principalId) :
    ReviewMove principalId assignment .reviewStarted
      { assignment with status := .inReview, startedAt := some at_ }
  | complete (at_ : DateTime) (note : Option String) (hi : assignment.status = .inReview)
    (hr : assignment.reviewerId = principalId) :
    ReviewMove principalId assignment .reviewCompleted
      { assignment with status := .completed, completedAt := some at_, completionNote := note }
  | cancel (at_ : DateTime) (reason : Option String) (ha : assignment.status.active = true) :
    ReviewMove principalId assignment .reviewAssignmentCancelled
      { assignment with
        status := .cancelled, cancelledAt := some at_, cancellationReason := reason }

/-- Some transition of somebody. -/
def Moves (assignment moved : ReviewAssignment) : Prop :=
  ∃ principalId type, ReviewMove principalId assignment type moved

/-- As an assignment is when it is made. -/
structure ReviewAssignment.Fresh (assignment : ReviewAssignment) : Prop where
  status : assignment.status = .open
  startedAt : assignment.startedAt = none
  completedAt : assignment.completedAt = none
  cancelledAt : assignment.cancelledAt = none

/-- One review request of a principal: one transition of one assignment, and its event. -/
inductive ReviewStep (principalId : String) (base written : StoredSession) : Prop where
  | assigned (assignment : ReviewAssignment)
    (hnone : ∀ item ∈ base.reviewAssignments, item.status.active = false)
    (hnew : assignment.id ∉ base.reviewAssignments.map ReviewAssignment.id)
    (hfresh : assignment.Fresh) (hby : assignment.assignedBy = principalId)
    (hwritten : written.reviewAssignments = base.reviewAssignments ++ [assignment])
    (hlog : written.reviewLog =
      base.reviewLog ++ [⟨.reviewAssigned, assignment.id, assignment.reviewerId⟩])
  | moved (before after : List ReviewAssignment) (assignment moved : ReviewAssignment)
    (type : EventType) (hbase : base.reviewAssignments = before ++ assignment :: after)
    (hmove : ReviewMove principalId assignment type moved)
    (hwritten : written.reviewAssignments = before ++ moved :: after)
    (hlog : written.reviewLog = base.reviewLog ++ [⟨type, assignment.id, assignment.reviewerId⟩])

theorem ReviewMove.keeps {principalId : String} {assignment moved : ReviewAssignment}
    {type : EventType} (h : ReviewMove principalId assignment type moved) :
    moved.id = assignment.id ∧ moved.reviewerId = assignment.reviewerId ∧
      assignment.status.active = true := by
  cases h with
  | start _ ho _ => exact ⟨rfl, rfl, by rw [ho]; rfl⟩
  | complete _ _ hi _ => exact ⟨rfl, rfl, by rw [hi]; rfl⟩
  | cancel _ _ ha => exact ⟨rfl, rfl, ha⟩

theorem moves_id {assignment moved : ReviewAssignment}
    (h : Relation.ReflTransGen Moves assignment moved) : moved.id = assignment.id := by
  induction h with
  | refl => rfl
  | tail _ hstep ih =>
    obtain ⟨_, _, hmove⟩ := hstep
    exact hmove.keeps.1.trans ih

/-- A completed or cancelled assignment stays what it is. -/
theorem moves_settled {assignment moved : ReviewAssignment}
    (h : Relation.ReflTransGen Moves assignment moved) (hs : assignment.status.active = false) :
    moved = assignment := by
  induction h with
  | refl => rfl
  | tail _ hstep ih =>
    obtain ⟨_, _, hmove⟩ := hstep
    rw [ih] at hmove
    have hactive := hmove.keeps.2.2
    rw [hs] at hactive
    cases hactive

theorem writeAssignment_split {assignment written : ReviewAssignment} {items : List ReviewAssignment}
    (hf : items.find? (fun item => item.id = written.id) = some assignment) :
    ∃ before after, items = before ++ assignment :: after ∧
      writeAssignment written items = before ++ written :: after := by
  induction items with
  | nil => cases hf
  | cons item rest ih =>
    rw [List.find?_cons] at hf
    unfold writeAssignment
    by_cases hid : item.id = written.id
    · simp only [hid, decide_true, Option.some.injEq] at hf
      subst hf
      rw [if_pos hid]
      exact ⟨[], rest, rfl, rfl⟩
    · simp only [hid, decide_false] at hf
      obtain ⟨before, after, hitems, hwritten⟩ := ih hf
      rw [if_neg hid]
      exact ⟨item :: before, after, by rw [hitems]; rfl, by rw [hwritten]; rfl⟩

theorem findAssignment_ok {session : StoredSession} {assignmentId : String}
    {assignment : ReviewAssignment} (h : findAssignment session assignmentId = .ok assignment) :
    session.reviewAssignments.find? (fun item => item.id = assignmentId) = some assignment ∧
      assignment.id = assignmentId := by
  unfold findAssignment at h
  split at h
  next => cases h
  next found hf =>
    cases h
    exact ⟨hf, by simpa using List.find?_some hf⟩

/-- The trace of a request does not hide what the event says. -/
theorem withTrace_text (correlationId : Option String) (type : EventType) (payload : Dict Json)
    {key : String} (hk : key ≠ "_trace") :
    LogEntry.text ⟨type, none, withTrace correlationId payload⟩ key =
      LogEntry.text ⟨type, none, payload⟩ key := by
  unfold LogEntry.text withTrace
  cases correlationId with
  | none => rfl
  | some id =>
    simp only
    split
    next => rfl
    next => rw [Dict.lookup_set_ne hk]

variable [CanonicalDigest]

/-- What a logged request leaves: the assignments as they were written, and one event more. -/
theorem logReview_ok {call : ReviewCall} {session logged : StoredSession} {type : EventType}
    {payload : Dict Json} (h : logReview call session type payload = .ok logged)
    (ht : type.ofReview = true) :
    logged.version = session.version ∧ logged.reviewAssignments = session.reviewAssignments ∧
      logged.reviewLog = session.reviewLog ++
        [⟨type, LogEntry.text ⟨type, none, payload⟩ "assignment_id",
          LogEntry.text ⟨type, none, payload⟩ "reviewer_id"⟩] := by
  obtain ⟨session', happend, rfl⟩ := map_ok h
  obtain ⟨events, rfl, hlog, -⟩ := appendEvent_ok happend
  refine ⟨rfl, rfl, ?_⟩
  show reviewEvents (events.map InterviewEvent.entry) = _
  rw [hlog, reviewEvents, List.filterMap_append]
  refine congrArg (_ ++ ·) ?_
  simp only [List.filterMap_cons, List.filterMap_nil, LogEntry.review, ht, if_true, Option.map_none]
  rw [withTrace_text _ _ _ (by decide), withTrace_text _ _ _ (by decide)]

theorem assign_step {call : ReviewCall} {request : ReviewAssignmentCreateRequest}
    {assignedBy : String} {base written : StoredSession} {assignment : ReviewAssignment}
    (h : assign call request assignedBy base = .ok (assignment, written)) :
    written.version = base.version ∧ ReviewStep assignedBy base written := by
  unfold assign at h
  split at h
  next => cases h
  next hnone =>
    obtain ⟨made, hmade, h⟩ := bind_ok h
    obtain ⟨logged, hlogged, h⟩ := bind_ok h
    cases h
    unfold newAssignment at hmade
    obtain ⟨-, hmade⟩ := ite_error_ok hmade
    obtain ⟨-, hmade⟩ := ite_error_ok hmade
    cases hmade
    obtain ⟨hversion, hwritten, hlog⟩ := logReview_ok hlogged rfl
    refine ⟨hversion, .assigned _ (fun item hi => ?_) (call.mint_fresh _) ⟨rfl, rfl, rfl, rfl⟩ rfl
      hwritten hlog⟩
    have hall := List.find?_eq_none.mp hnone item hi
    simpa using hall

/-- A request that writes an assignment back, moved. -/
theorem write_step {call : ReviewCall} {principalId : String} {base written : StoredSession}
    {assignment moved : ReviewAssignment} {assignmentId : String} {type : EventType}
    {payload : Dict Json} (hf : findAssignment base assignmentId = .ok assignment)
    (hmove : ReviewMove principalId assignment type moved) (ht : type.ofReview = true)
    (hid : LogEntry.text ⟨type, none, payload⟩ "assignment_id" = assignment.id)
    (hreviewer : LogEntry.text ⟨type, none, payload⟩ "reviewer_id" = assignment.reviewerId)
    (h : logReview call (base.write moved) type payload = .ok written) :
    written.version = base.version ∧ ReviewStep principalId base written := by
  obtain ⟨hfind, hfound⟩ := findAssignment_ok hf
  rw [← hfound, ← hmove.keeps.1] at hfind
  obtain ⟨before, after, hitems, hwrite⟩ := writeAssignment_split hfind
  obtain ⟨hversion, hwritten, hlog⟩ := logReview_ok h ht
  rw [hid, hreviewer] at hlog
  exact ⟨hversion, .moved before after assignment moved type hitems hmove (hwritten.trans hwrite) hlog⟩

/-- What a review request makes of a session is one transition. -/
theorem perform_step {call : ReviewCall} {principalId : String} {request : ReviewRequest}
    {base written : StoredSession} {assignment : ReviewAssignment}
    (h : request.perform call principalId base = .ok (assignment, written)) :
    written.version = base.version ∧ ReviewStep principalId base written := by
  cases request with
  | assign request => exact assign_step h
  | start assignmentId =>
    obtain ⟨found, hf, h⟩ := bind_ok h
    obtain ⟨hreviewer, h⟩ := ite_error_ok h
    obtain ⟨hopen, h⟩ := ite_error_ok h
    obtain ⟨logged, hlogged, h⟩ := bind_ok h
    cases h
    refine write_step hf (.start _ (not_not.mp hopen) (not_not.mp hreviewer)) rfl rfl ?_ hlogged
    exact (not_not.mp hreviewer).symm
  | complete assignmentId request =>
    obtain ⟨found, hf, h⟩ := bind_ok h
    obtain ⟨hreviewer, h⟩ := ite_error_ok h
    obtain ⟨hreview, h⟩ := ite_error_ok h
    obtain ⟨logged, hlogged, h⟩ := bind_ok h
    cases h
    refine write_step hf (.complete _ _ (not_not.mp hreview) (not_not.mp hreviewer)) rfl rfl ?_
      hlogged
    exact (not_not.mp hreviewer).symm
  | cancel assignmentId request =>
    obtain ⟨found, hf, h⟩ := bind_ok h
    obtain ⟨hactive, h⟩ := ite_error_ok h
    obtain ⟨logged, hlogged, h⟩ := bind_ok h
    cases h
    exact write_step hf (.cancel _ _ (by simpa using hactive)) rfl rfl rfl hlogged

end NoraInterviewer
