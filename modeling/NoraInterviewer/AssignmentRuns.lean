import NoraInterviewer.AssignmentProtocol
import NoraInterviewer.Lifecycle

namespace NoraInterviewer

open ExceptRules OptimisticRuns

theorem reviewEvents_append {log entries : List LogEntry}
    (h : ∀ entry ∈ entries, entry.type.ofReview = false) :
    reviewEvents (log ++ entries) = reviewEvents log := by
  have hnil : entries.filterMap LogEntry.review = [] := by
    refine List.filterMap_eq_nil_iff.mpr fun entry he => ?_
    rw [LogEntry.review, h entry he]
    rfl
  rw [reviewEvents, List.filterMap_append, hnil, List.append_nil]
  rfl

/-- What a correction writes into event payloads is not what a `REVIEW_*` event says. -/
theorem writeMetadata_reviewEvents (session : InterviewSession) (index : Nat) (text : String)
    (metadata : Dict Json) :
    reviewEvents (writeMetadata session index text metadata).log = reviewEvents session.log := by
  have hentry : ∀ i (event : InterviewEvent), LogEntry.review (InterviewEvent.entry
      (if (i, index) ∈ session.sharedMetadata then
        { event with payload := Dict.set "metadata" (.obj metadata) event.payload }
      else event)) = LogEntry.review event.entry := by
    intro i event
    split
    next =>
      unfold LogEntry.review LogEntry.text InterviewEvent.entry
      simp only [Dict.lookup_set_ne (by decide : "assignment_id" ≠ "metadata"),
        Dict.lookup_set_ne (by decide : "reviewer_id" ≠ "metadata")]
    next => rfl
  have hreviews : (writeMetadata session index text metadata).events.map
        (LogEntry.review ∘ InterviewEvent.entry) =
      session.events.map (LogEntry.review ∘ InterviewEvent.entry) := by
    apply List.ext_getElem?
    intro i
    simp only [writeMetadata, List.getElem?_map, List.getElem?_mapIdx]
    cases session.events[i]? with
    | none => rfl
    | some event => exact congrArg some (hentry i event)
  have hlog : ∀ session : InterviewSession, reviewEvents session.log =
      (session.events.map (LogEntry.review ∘ InterviewEvent.entry)).filterMap id := by
    intro session
    rw [List.filterMap_map]
    exact List.filterMap_map
  rw [hlog, hlog, hreviews]

section

variable [CanonicalDigest]

theorem Grows.reviewEvents {events events' : List InterviewEvent} {entries : List LogEntry}
    (h : Grows events events' entries) (hn : ∀ entry ∈ entries, entry.type.ofReview = false) :
    reviewEvents (events'.map InterviewEvent.entry) = reviewEvents (events.map InterviewEvent.entry) := by
  rw [h.log, reviewEvents_append hn]

theorem Effect.reviewEvents {policy : Policy} {session session' : InterviewSession}
    (h : Effect policy session session') :
    reviewEvents session'.log = NoraInterviewer.reviewEvents session.log := by
  cases h with
  | evidence h =>
    obtain ⟨_, _, _, _, rfl, hg, htypes⟩ := h
    refine hg.reviewEvents fun entry he => ?_
    have habout := htypes entry he
    cases ht : entry.type <;> simp_all [EventType.aboutEvidence, EventType.ofReview]
  | covered => rfl
  | followups => rfl
  | started _ _ _ hf he hg =>
    exact hg.reviewEvents (by simp [hf, he.type, EventType.ofReview])
  | asked _ _ _ he hg => exact hg.reviewEvents (by simp [he.type, EventType.ofReview])
  | opened _ _ _ he hg => exact hg.reviewEvents (by simp [he.type, EventType.ofReview])
  | completed _ _ _ _ he hg => exact hg.reviewEvents (by simp [he, EventType.ofReview])
  | answered _ _ _ _ he hg => exact hg.reviewEvents (by simp [he.type, EventType.ofReview])
  | worked _ _ _ _ _ _ h1 h2 h3 hg =>
    exact hg.reviewEvents (by simp [h1.type, h2.type, h3.type, EventType.ofReview])
  | controlled _ he hg => exact hg.reviewEvents (by simp [he.type, EventType.ofReview])
  | replied _ _ _ _ he hg => exact hg.reviewEvents (by simp [he.type, EventType.ofReview])
  | corrected _ _ _ _ he hl _ _ =>
    refine (congrArg NoraInterviewer.reviewEvents hl).trans ?_
    rw [reviewEvents_append (by simp [he.type, EventType.ofReview])]
    exact writeMetadata_reviewEvents _ _ _ _
  | appealed _ he hg => exact hg.reviewEvents (by simp [he.type, EventType.ofReview])
  | reviewed _ he hg =>
    refine hg.reviewEvents fun entry hentry => ?_
    obtain rfl := List.mem_singleton.mp hentry
    simp only [List.mem_cons, List.not_mem_nil, or_false] at he
    rcases he with he | he | he
    · rw [he]; rfl
    · rw [he]; rfl
    · rw [he]; rfl
  | cancelled _ _ hc he hg =>
    refine hg.reviewEvents fun entry hentry => ?_
    rcases List.mem_append.mp hentry with hentry | hentry
    · rw [cancelled_types hc entry.type (List.mem_map_of_mem hentry)]
      rfl
    · obtain rfl := List.mem_singleton.mp hentry
      rw [he]
      rfl

theorem Effects.keepsReviews {policy : Policy} {session session' : InterviewSession}
    (h : Effects policy session session') (reviewAssignments : List ReviewAssignment)
    (artifacts : List ArtifactRecord) :
    KeepsReviews ⟨session, reviewAssignments, artifacts⟩ ⟨session', reviewAssignments, artifacts⟩ where
  version := h.identity.version
  reviewAssignments := rfl
  reviewLog := by
    show reviewEvents session'.log = reviewEvents session.log
    induction h with
    | nil => rfl
    | snoc _ he ih => exact he.reviewEvents.trans ih

/-- An operation of the interview service, as a client that writes whole sessions. -/
def Operation.sessionProg (call : Call) (operation : Operation) : SessionProg :=
  .load fun session =>
    match mutate call operation session.toInterviewSession with
    | .error e => .done (.error e)
    | .ok none => .done (.ok none)
    | .ok (some mutated) => .put { session with toInterviewSession := mutated } fun committed =>
      .done (if committed then .ok none else .error changedConcurrently)

theorem sessionProg_grounded (call : Call) (operation : Operation) :
    Grounded KeepsReviews (fun _ => True) none (operation.sessionProg call) := by
  intro session
  beta_reduce
  split
  next => exact trivial
  next => exact trivial
  next mutated hm =>
    obtain ⟨job, -, heffects⟩ := mutate_ok hm
    exact ⟨heffects.keepsReviews _ _, trivial, _, rfl, trivial⟩

/-- A client of the store: a review request, or any program whose puts keep the assignments and the
`REVIEW_*` events of the session they loaded. -/
inductive SessionClient where
  | review (client : ReviewClient)
  | other (prog : SessionProg) (grounded : Grounded KeepsReviews (fun _ => True) none prog)

def SessionClient.prog : SessionClient → SessionProg
  | .review client => client.route
  | .other prog _ => prog

def SessionClient.ofOperation (call : Call) (operation : Operation) : SessionClient :=
  .other (operation.sessionProg call) (sessionProg_grounded call operation)

/-- What a client does to the session it replaces: one transition of its principal with its event,
or nothing to any assignment. -/
def SessionClient.Writes : SessionClient → StoredSession → StoredSession → Prop
  | .review client, base, written =>
    written.version = base.version ∧ ReviewStep client.principalId base written
  | .other _ _, base, written => KeepsReviews base written

theorem SessionClient.grounded (client : SessionClient) :
    Grounded client.Writes (fun _ => True) none client.prog := by
  cases client with
  | other prog hg => exact hg
  | review client =>
    have hservice : Grounded (Writes (.review client)) (fun _ => True) none client.service := by
      intro session
      beta_reduce
      split
      next => exact trivial
      next =>
        split
        next => exact trivial
        next assignment written hp => exact ⟨perform_step hp, trivial, _, rfl, trivial⟩
    exact hservice.guarded client.guard

omit [CanonicalDigest] in
theorem SessionClient.Writes.version {client : SessionClient} {base written : StoredSession}
    (h : client.Writes base written) : written.version = base.version := by
  cases client with
  | review client => exact h.1
  | other prog hg => exact KeepsReviews.version h

end

def StoredSession.stored (backend : Backend) (session : StoredSession) : StoredSession :=
  { session with toInterviewSession := backend.stored session.toInterviewSession }

/-- The versions that a backend keeps of one whole session. -/
def Backend.sessions (backend : Backend) : Versioned StoredSession where
  version session := session.version
  stored := StoredSession.stored backend
  version_stored _ := rfl

theorem stored_keeps (backend : Backend) (session : StoredSession) :
    (session.stored backend).reviewAssignments = session.reviewAssignments ∧
      (session.stored backend).reviewLog = session.reviewLog := by
  cases backend with
  | memory => exact ⟨rfl, rfl⟩
  | json => exact ⟨rfl, rfl⟩

theorem SessionClient.Writes.kept {client : SessionClient} {base written : StoredSession}
    (h : client.Writes base written) (hk : AssignmentsKept base) (backend : Backend) :
    AssignmentsKept (written.stored backend) := by
  have hwritten : AssignmentsKept written := by
    cases client with
    | review client => exact ReviewStep.kept h.2 hk
    | other prog hg => exact hk.congr h.reviewAssignments h.reviewLog
  exact hwritten.congr (stored_keeps backend written).1 (stored_keeps backend written).2

theorem SessionClient.Writes.moves {client : SessionClient} {base written : StoredSession}
    (h : client.Writes base written) (backend : Backend) :
    AssignmentsMoved base (written.stored backend) := by
  have hwritten : AssignmentsMoved base written := by
    cases client with
    | review client => exact ReviewStep.moves h.2
    | other prog hg => exact .of_same h.reviewAssignments h.reviewLog
  exact hwritten.trans (.of_same (stored_keeps backend written).1 (stored_keeps backend written).2)

section

variable [CanonicalDigest]

theorem created_kept {call : Call} {request : CreateSession} {organizationId : Option String}
    {session : InterviewSession} (h : createSession call request organizationId = .ok session)
    (backend : Backend) : AssignmentsKept { toInterviewSession := backend.stored session } := by
  have hlog : StoredSession.reviewLog { toInterviewSession := backend.stored session } = [] := by
    obtain ⟨payload, hlog⟩ := ((createSession_meets _ _ _).of_ok h).log
    have hsame := (stored_keeps backend { toInterviewSession := session }).2
    refine hsame.trans ?_
    show reviewEvents session.log = []
    rw [hlog]
    rfl
  exact { active_le := Nat.zero_le _
          ids_nodup := List.nodup_nil
          shaped := fun _ hi => by cases hi
          events := fun _ hi => by cases hi
          known := fun event he => by
            rw [hlog] at he
            cases he }

/-- In every run of the clients of a session that was created, every stored version keeps the
assignments and their events, later versions move the assignments of earlier ones, and every commit
is what its client may write. -/
theorem review_protocol {ι : Type} [DecidableEq ι] (backend : Backend) (clients : ι → SessionClient)
    {call : Call} {request : CreateSession} {organizationId : Option String}
    {session : InterviewSession} (hcreated : createSession call request organizationId = .ok session)
    {events : List (Event ι StoredSession)}
    {final : State ι StoredSession (Except PyError (Option ReviewAssignment))}
    (hrun : Run backend.sessions {
      cell := { toInterviewSession := backend.stored session }
      past := []
      clients := fun i => (clients i).prog } events final) :
    (∀ version ∈ final.cell :: final.past, AssignmentsKept version) ∧
      (final.cell :: final.past).Pairwise (fun newer older => AssignmentsMoved older newer) ∧
      ∀ i base value, .committed i base value ∈ events →
        ∃ written, (clients i).Writes base written ∧ value = written.stored backend := by
  have hversion : ∀ i base written, (clients i).Writes base written →
      backend.sessions.version written = backend.sessions.version base :=
    fun _ _ _ hw => hw.version
  have howned : Owned backend.sessions (fun i => (clients i).Writes) (fun _ => True) {
      cell := { toInterviewSession := backend.stored session }
      past := []
      clients := fun i => (clients i).prog } := owned_initial fun i => (clients i).grounded
  have hfirst := created_kept hcreated backend
  obtain ⟨hkept, hmoved⟩ := hrun.preserves (P := fun versions =>
      (∀ version ∈ versions, AssignmentsKept version) ∧
        versions.Pairwise fun newer older => AssignmentsMoved older newer)
    (fun base written ⟨i, hw⟩ => hversion i base written hw) (by
      rintro base past written ⟨hkept, hmoved⟩ ⟨i, hw⟩
      have hstep := hw.moves backend
      refine ⟨fun version hv => ?_, List.pairwise_cons.mpr ⟨fun older ho => ?_, hmoved⟩⟩
      · rcases List.mem_cons.mp hv with rfl | hv
        · exact hw.kept (hkept base List.mem_cons_self) backend
        · exact hkept version hv
      · rcases List.mem_cons.mp ho with rfl | ho
        · exact hstep
        · exact ((List.pairwise_cons.mp hmoved).1 older ho).trans hstep)
    howned.sound ⟨fun version hv => by rw [List.mem_singleton.mp hv]; exact hfirst,
      List.pairwise_singleton _ _⟩
  refine ⟨hkept, hmoved, fun i base value he => ?_⟩
  have hevents := (hrun.owned (P := fun _ => True) hversion (fun _ _ _ _ _ => trivial) howned
    trivial).2.2
  exact (hevents _ he).2

end

section Runs

attribute [local instance] checksumDigest

def longest (ids : List String) : Nat := ids.foldr (fun id n => max id.length n) 0

theorem le_longest {ids : List String} {id : String} (h : id ∈ ids) : id.length ≤ longest ids := by
  induction ids with
  | nil => cases h
  | cons first rest ih =>
    rcases List.mem_cons.mp h with rfl | h
    · exact Nat.le_max_left _ _
    · exact (ih h).trans (Nat.le_max_right _ _)

/-- A draw of `uuid4` that is longer than every id at hand. -/
def plainReview (timestamp : DateTime) : ReviewCall where
  toAmbient := plainAmbient
  timestamp := timestamp
  mint ids := String.ofList (List.replicate (longest ids + 1) 'r')
  mint_fresh ids hm := by
    have hle := le_longest hm
    rw [String.length_ofList, List.length_replicate] at hle
    omega

def reviewBy (principalId : String) (timestamp : DateTime) (request : ReviewRequest) :
    SessionClient :=
  .review { principalId, request, call := plainReview timestamp, guard := fun _ => none }

def forReviewer (reviewerId : String)
    (h : 1 ≤ reviewerId.length ∧ reviewerId.length ≤ 256 := by decide) :
    ReviewAssignmentCreateRequest where
  reviewerId := reviewerId
  reviewerId_length := h
  note_length := fun _ h => by cases h

/-- Two assigns at once, a start of the interview, and the work of the reviewer. -/
def reviewRace : Nat → SessionClient
  | 0 => reviewBy "recruiter" 1 (.assign (forReviewer "reviewer"))
  | 1 => reviewBy "recruiter" 2 (.assign (forReviewer "other"))
  | 2 => .ofOperation (plainCall askDecision) .start
  | 3 => reviewBy "reviewer" 3 (.start "r")
  | 4 => reviewBy "other" 4 (.start "r")
  | _ => reviewBy "reviewer" 5 (.complete "r" { note_length := fun _ h => by cases h })

def reviewSchedule : Option (InterviewSession × List (Event Nat StoredSession) ×
    State Nat StoredSession (Except PyError (Option ReviewAssignment))) :=
  match createSession (plainCall askDecision) plainConsent none with
  | .error _ => none
  | .ok session => (State.schedule Backend.memory.sessions [] {
      cell := { toInterviewSession := Backend.memory.stored session }
      past := []
      clients := fun i => (reviewRace i).prog }
    [0, 1, 0, 1, 0, 1, 2, 2, 3, 3, 3, 4, 4, 5, 5, 5]).map (session, ·)

theorem reviewSchedule_run {session : InterviewSession} {events : List (Event Nat StoredSession)}
    {final : State Nat StoredSession (Except PyError (Option ReviewAssignment))}
    (h : reviewSchedule = some (session, events, final)) :
    createSession (plainCall askDecision) plainConsent none = .ok session ∧
      Run Backend.memory.sessions {
        cell := { toInterviewSession := Backend.memory.stored session }
        past := []
        clients := fun i => (reviewRace i).prog } events final := by
  unfold reviewSchedule at h
  split at h
  next => cases h
  next created hcreated =>
    obtain ⟨⟨events', final'⟩, hs, heq⟩ := Option.map_eq_some_iff.mp h
    cases heq
    exact ⟨hcreated, Run.nil.schedule hs⟩

theorem review_protocol_race : ∃ session events final,
    Run Backend.memory.sessions {
      cell := { toInterviewSession := Backend.memory.stored session }
      past := []
      clients := fun i => (reviewRace i).prog } events final ∧
    final.cell.reviewLog.map ReviewEvent.type =
      [.reviewAssigned, .reviewStarted, .reviewCompleted] ∧
    ∀ version ∈ final.cell :: final.past, AssignmentsKept version := by
  have hrun : (reviewSchedule.any fun result =>
      result.2.2.cell.reviewLog.map ReviewEvent.type =
        [.reviewAssigned, .reviewStarted, .reviewCompleted]) = true := by
    decide +kernel
  obtain ⟨⟨session, events, final⟩, hs, hlog⟩ := (Option.any_eq_true _ _).mp hrun
  obtain ⟨hcreated, hr⟩ := reviewSchedule_run hs
  exact ⟨session, events, final, hr, of_decide_eq_true hlog,
    (review_protocol .memory reviewRace hcreated hr).1⟩

end Runs

end NoraInterviewer
