import NoraInterviewer.LoadedPairs
import NoraInterviewer.EvidenceBundles
import NoraInterviewer.AssignmentRuns
import NoraInterviewer.WithdrawnEvidence

/-! The two bundles that a session is exported in, each assembled from loads of its own. -/

namespace NoraInterviewer

open OptimisticRuns

/-- What `_canonical_sha256` is taken of, the bundle before it has a hash. -/
structure UnsignedBundle where
  schema : String := "nora.evidence.bundle.v1"
  organizationId : Option String
  sessionId : String
  jobId : String
  role : String
  locale : String
  evidence : List PortableEvidenceRecord
  artifacts : List PortableArtifactReference
  audit : AuditAnchor
  voxrubric : PortableVoxRubricAnchor

/-- `_canonical_sha256` of the two payloads that are hashed. -/
class BundleDigest where
  trace : VoxRubricTrace → String
  unsigned : UnsignedBundle → String

structure PortableEvidenceBundle extends UnsignedBundle where
  generatedAt : DateTime
  bundleSha256 : String

structure ReviewBundle where
  schemaVersion : String := "1.0"
  generatedAt : DateTime
  report : RecruiterSessionReport
  trace : VoxRubricTrace
  audit : AuditAnchor

/-- `build_review_bundle`. -/
def buildReviewBundle (now : DateTime) (report : RecruiterSessionReport) (trace : VoxRubricTrace) :
    ReviewBundle where
  generatedAt := now
  report
  trace
  audit := trace.metadata.auditChain

section

variable [CanonicalDigest] [Sha256] [BundleDigest] [Printable]

/-- `build_portable_evidence_bundle`. -/
def buildPortableEvidenceBundle (now : DateTime) (session : StoredSession) (job : JobSpec)
    (trace : VoxRubricTrace) : Except PyError PortableEvidenceBundle := do
  let auditHead ← verifyEventChain session.events
  let unsigned : UnsignedBundle := {
    organizationId := session.organizationId
    sessionId := session.id
    jobId := job.id
    role := job.title
    locale := session.locale
    evidence := evidenceRecords session.toInterviewSession
    artifacts := artifactRefs session
    audit := auditAnchor auditHead session.events
    voxrubric := {
      traceSha256 := BundleDigest.trace trace
      turnCount := trace.turns.length
      scorecardCount := trace.scorecards.length } }
  pure { unsigned with generatedAt := now, bundleSha256 := BundleDigest.unsigned unsigned }

/-- A portable bundle, with the trace whose hash it anchors. -/
structure PortableExport where
  bundle : PortableEvidenceBundle
  trace : VoxRubricTrace

/-- What a request meets: whether the principal has the permission for the session that it loads first,
the jobs that the store has at its two accesses, and the time. -/
structure ExportRequest where
  require : StoredSession → Except PyError Unit
  firstJob : String → Option JobSpec
  secondJob : String → Option JobSpec
  now : DateTime

/-- `_get`, once it has the session. -/
def foundJob (jobs : String → Option JobSpec) (session : StoredSession) : Except PyError JobSpec :=
  match jobs session.jobId with
  | none => .error missingJob
  | some job => .ok job

namespace ExportRequest

variable (request : ExportRequest)

/-- `portable_evidence_bundle` up to `export_voxrubric`. -/
def portableJob (session : StoredSession) : Except PyError JobSpec := do
  request.require session
  foundJob request.firstJob session

/-- `export_voxrubric`, on the session that it loads. -/
def trace (session : StoredSession) : Except PyError VoxRubricTrace := do
  let job ← foundJob request.secondJob session
  exportVoxrubric session.toInterviewSession job

def portable (session : StoredSession) (job : JobSpec) (exported : StoredSession) :
    Except PyError PortableExport := do
  let trace ← request.trace exported
  let bundle ← buildPortableEvidenceBundle request.now session job trace
  pure ⟨bundle, trace⟩

/-- `session_report`, on the session that it loads. -/
def report (session : StoredSession) : Except PyError RecruiterSessionReport := do
  let job ← foundJob request.firstJob session
  buildRecruiterReport session job

def review (report : RecruiterSessionReport) (exported : StoredSession) :
    Except PyError ReviewBundle := do
  let trace ← request.trace exported
  pure (buildReviewBundle request.now report trace)

end ExportRequest

/-- What a client of the store comes to: one of the two bundles, or whatever it is that a writer has. -/
inductive ExportReply where
  | portable (result : Except PyError PortableExport)
  | review (result : Except PyError ReviewBundle)
  | other

abbrev ExportProg := Prog StoredSession ExportReply

namespace ExportRequest

variable (request : ExportRequest)

/-- `portable_evidence_bundle`. -/
def portableProgram : ExportProg :=
  .load fun session =>
    match request.portableJob session with
    | .error e => .done (.portable (.error e))
    | .ok job => .load fun exported => .done (.portable (request.portable session job exported))

/-- `recruiter_review_bundle`; the session that the permission is checked of goes into nothing. -/
def reviewProgram : ExportProg :=
  .load fun session =>
    match request.require session with
    | .error e => .done (.review (.error e))
    | .ok _ => .load fun reported =>
      match request.report reported with
      | .error e => .done (.review (.error e))
      | .ok report => .load fun exported => .done (.review (request.review report exported))

end ExportRequest

/-- The head and the length of the audit chain are those inside the trace, and the evidence and the
artifacts are those of the session that the trace was exported from. -/
structure PortableExport.OneVersion (result : PortableExport) (exported : StoredSession) : Prop where
  headHash : result.bundle.audit.headHash = result.trace.metadata.auditChain.headHash
  eventCount : result.bundle.audit.eventCount = result.trace.metadata.auditChain.eventCount
  evidence : result.bundle.evidence = evidenceRecords exported.toInterviewSession
  artifacts : result.bundle.artifacts = artifactRefs exported

open ExceptRules

variable {request : ExportRequest} {session exported : StoredSession} {job : JobSpec}

omit [Sha256] [BundleDigest] [Printable] in
theorem ExportRequest.trace_anchors {trace : VoxRubricTrace} (h : request.trace exported = .ok trace) :
    ∃ head, verifyEventChain exported.events = .ok head ∧
      trace.metadata.auditChain = auditAnchor head exported.events := by
  obtain ⟨found, _, h⟩ := bind_ok h
  obtain ⟨head, hhead, h⟩ := bind_ok h
  cases h
  exact ⟨head, hhead, rfl⟩

omit [Printable] in
/-- What a portable export is made of. -/
theorem ExportRequest.portable_ok {result : PortableExport}
    (h : request.portable session job exported = .ok result) :
    ∃ head, request.trace exported = .ok result.trace ∧ verifyEventChain session.events = .ok head ∧
      result.bundle.audit = auditAnchor head session.events ∧
      result.bundle.evidence = evidenceRecords session.toInterviewSession ∧
      result.bundle.artifacts = artifactRefs session ∧
      result.bundle.voxrubric.traceSha256 = BundleDigest.trace result.trace := by
  obtain ⟨trace, htrace, h⟩ := bind_ok h
  obtain ⟨bundle, hbundle, h⟩ := bind_ok h
  obtain ⟨head, hhead, hbundle⟩ := bind_ok hbundle
  cases hbundle
  cases h
  exact ⟨head, htrace, hhead, rfl, rfl, rfl, rfl⟩

omit [Printable] in
theorem ExportRequest.portable_same {result : PortableExport}
    (h : request.portable session job session = .ok result) : result.OneVersion session := by
  obtain ⟨head, htrace, hhead, haudit, hevidence, hartifacts, _⟩ := portable_ok h
  obtain ⟨traced, htraced, hanchor⟩ := trace_anchors htrace
  rw [hhead] at htraced
  cases htraced
  exact ⟨by rw [haudit, hanchor], by rw [haudit, hanchor], hevidence, hartifacts⟩

omit [Printable] in
theorem ExportRequest.portable_length {result : PortableExport}
    (h : request.portable session job exported = .ok result) (hone : result.OneVersion exported) :
    session.events.length = exported.events.length := by
  obtain ⟨head, htrace, _, haudit, _⟩ := portable_ok h
  obtain ⟨traced, _, hanchor⟩ := trace_anchors htrace
  have hcount := hone.eventCount
  rw [haudit, hanchor] at hcount
  exact hcount

section Runs

variable {ι : Type} [DecidableEq ι] {backend : Backend} {i : ι}
  {s s' : State ι StoredSession ExportReply} {events : List (Event ι StoredSession)}

/-- What the other clients did between two loads of a client, and what that makes of the loads. -/
structure Between (events : List (Event ι StoredSession)) (i : ι)
    (between : List (Event ι StoredSession)) (first second : StoredSession) : Prop where
  within : ∃ before after,
    events = before ++ .loaded i first :: (between ++ .loaded i second :: after)
  same : Unwritten between → first = second
  version : Unwritten between ↔ first.version = second.version
  grown : Growing (fun session : StoredSession => session.events.length) between →
    ¬Unwritten between → first.events.length < second.events.length

omit [CanonicalDigest] [Sha256] [BundleDigest] [Printable] in
/-- The two loads of a client that comes to its end. -/
theorem Between.of_loads (next : StoredSession → StoredSession → ExportReply)
    {result : ExportReply} {mid : State ι StoredSession ExportReply}
    {before rest : List (Event ι StoredSession)}
    (hevents : events = before ++ .loaded i mid.cell :: rest)
    (hrest : Run backend.sessions { mid with
      clients := Function.update mid.clients i
        (.load fun exported => .done (next mid.cell exported)) } rest s')
    (hdone : s'.clients i = .done result) :
    ∃ between second, Between events i between mid.cell second ∧ result = next mid.cell second := by
  obtain ⟨between, loaded, after, rfl, hbetween, hafter⟩ :=
    hrest.loads (Function.update_self i _ _) hdone
  have hresult := hafter.done_stays (Function.update_self i _ _)
  rw [hdone] at hresult
  have hresult := Prog.done.inj hresult
  refine ⟨between, loaded.cell, ⟨⟨before, after, hevents⟩, fun hquiet => ?_, ?_, ?_⟩, hresult⟩
  · exact (hbetween.quiet_cell hquiet).symm
  · exact hbetween.same_version
  · exact fun hgrowing hloud => (hbetween.growing hgrowing).2 hloud

omit [Printable] in
theorem portable_between (h : Run backend.sessions s events s')
    (hi : s.clients i = request.portableProgram) {result : PortableExport}
    (hdone : s'.clients i = .done (.portable (.ok result))) :
    ∃ between session exported job, Between events i between session exported ∧
      request.portable session job exported = .ok result := by
  obtain ⟨before, mid, rest, hevents, _, hrest⟩ := h.loads hi hdone
  cases hjob : request.portableJob mid.cell with
  | error e =>
    simp only [hjob] at hrest
    have hend := hrest.done_stays (Function.update_self i _ _)
    rw [hdone] at hend
    cases hend
  | ok job =>
    simp only [hjob] at hrest
    obtain ⟨between, exported, hbetween, hresult⟩ := Between.of_loads
      (fun session exported => .portable (request.portable session job exported)) hevents hrest hdone
    exact ⟨between, mid.cell, exported, job, hbetween, (ExportReply.portable.inj hresult).symm⟩

omit [Sha256] [BundleDigest] in
theorem review_between (h : Run backend.sessions s events s')
    (hi : s.clients i = request.reviewProgram) {result : ReviewBundle}
    (hdone : s'.clients i = .done (.review (.ok result))) :
    ∃ between reported exported report, Between events i between reported exported ∧
      request.report reported = .ok report ∧ request.review report exported = .ok result := by
  obtain ⟨before, mid, rest, hevents, _, hrest⟩ := h.loads hi hdone
  cases hrequire : request.require mid.cell with
  | error e =>
    simp only [hrequire] at hrest
    have hend := hrest.done_stays (Function.update_self i _ _)
    rw [hdone] at hend
    cases hend
  | ok _ =>
    simp only [hrequire] at hrest
    obtain ⟨before', mid', rest', hevents', _, hrest'⟩ :=
      hrest.loads (Function.update_self i _ _) hdone
    cases hreport : request.report mid'.cell with
    | error e =>
      simp only [hreport] at hrest'
      have hend := hrest'.done_stays (Function.update_self i _ _)
      rw [hdone] at hend
      cases hend
    | ok report =>
      simp only [hreport] at hrest'
      rw [hevents', List.cons_append.symm, ← List.append_assoc] at hevents
      obtain ⟨between, exported, hbetween, hresult⟩ := Between.of_loads
        (fun _ exported => .review (request.review report exported)) hevents hrest' hdone
      exact ⟨between, mid'.cell, exported, report, hbetween, hreport,
        (ExportReply.review.inj hresult).symm⟩

/-- A bundle describes one version of its session when no write comes between the two loads that it is
made of. Writes that add events make a portable bundle that tells two versions apart, and any write at
all takes the trace of a review bundle from a later version than its report. -/
theorem exports_one_version (request : ExportRequest) (h : Run backend.sessions s events s') :
    (∀ result, s.clients i = request.portableProgram →
      s'.clients i = .done (.portable (.ok result)) →
      ∃ between session exported, Between events i between session exported ∧
        request.trace exported = .ok result.trace ∧
        result.bundle.voxrubric.traceSha256 = BundleDigest.trace result.trace ∧
        (Unwritten between → result.OneVersion exported) ∧
        (Growing (fun session : StoredSession => session.events.length) between →
          result.OneVersion exported → Unwritten between)) ∧
    ∀ result, s.clients i = request.reviewProgram → s'.clients i = .done (.review (.ok result)) →
      ∃ between reported exported, Between events i between reported exported ∧
        request.report reported = .ok result.report ∧
        request.trace exported = .ok result.trace ∧
        (reported.version = exported.version ↔ Unwritten between) := by
  constructor
  · intro result hi hdone
    obtain ⟨between, session, exported, job, hbetween, hresult⟩ := portable_between h hi hdone
    obtain ⟨_, htrace, _, _, _, _, hsha⟩ := ExportRequest.portable_ok hresult
    refine ⟨between, session, exported, hbetween, htrace, hsha, fun hquiet => ?_, ?_⟩
    · have hsame := hbetween.same hquiet
      subst hsame
      exact ExportRequest.portable_same hresult
    · intro hgrowing hone
      by_contra hloud
      have hlt := hbetween.grown hgrowing hloud
      have hlength := ExportRequest.portable_length hresult hone
      omega
  · intro result hi hdone
    obtain ⟨between, reported, exported, report, hbetween, hreport, hresult⟩ :=
      review_between h hi hdone
    obtain ⟨trace, htrace, hresult⟩ := bind_ok hresult
    cases hresult
    exact ⟨between, reported, exported, hbetween, hreport, htrace, hbetween.version.symm⟩

end Runs

end

section Fixtures

/-- A stand-in for the hashes of the two payloads. -/
@[reducible] def countDigest : BundleDigest where
  trace trace := toString trace.turns.length
  unsigned bundle := toString bundle.evidence.length

attribute [local instance] checksumDigest asciiPrintable byteSum countDigest

def calmSession : StoredSession where
  id := "session"
  createdAt := 0
  jobId := "job"
  candidateRef := "candidate"
  locale := "en"
  status := .running
  version := 1

/-- One event more. -/
def writtenSession : StoredSession :=
  { calmSession with events := [{ seq := 1, type := .sessionCreated, createdAt := 0 }] }

def openRequest : ExportRequest where
  require _ := .ok ()
  firstJob _ := some plainJob
  secondJob _ := some plainJob
  now := 0

/-- An export, and a write of the session. -/
def exporting (program : ExportProg) : State Bool StoredSession ExportReply where
  cell := calmSession
  past := []
  clients exports := if exports then program else .put writtenSession fun _ => .done .other

/-- Nobody writes between the loads, or before them. -/
theorem exports_one_version_quiet : ∃ events s',
    Run (Backend.sessions .memory) (exporting openRequest.portableProgram) events s' ∧
    ∃ result, s'.clients true = .done (.portable (.ok result)) ∧
      ∃ between session exported, Between events true between session exported ∧
        (Unwritten between → result.OneVersion exported) := by
  have hrun := Run.nil.schedule (rfl : (exporting openRequest.portableProgram).schedule
    (Backend.sessions .memory) [] [true, true] = some (_, _))
  refine ⟨_, _, hrun, _, rfl, ?_⟩
  obtain ⟨hportable, _⟩ := exports_one_version openRequest hrun (i := true)
  obtain ⟨between, session, exported, hbetween, _, _, hone, _⟩ := hportable _ rfl rfl
  exact ⟨between, session, exported, hbetween, hone⟩

/-- The session is written between the loads: the bundle anchors a trace with one event more than its own
audit counts, and the trace of the review bundle has one that the report was made without. -/
theorem exports_mix_versions :
    (∃ events s' result, Run (Backend.sessions .memory) (exporting openRequest.portableProgram)
        events s' ∧
      s'.clients true = .done (.portable (.ok result)) ∧
      result.bundle.audit.eventCount ≠ result.trace.metadata.auditChain.eventCount) ∧
    ∃ events s' result reported exported,
      Run (Backend.sessions .memory) (exporting openRequest.reviewProgram) events s' ∧
      s'.clients true = .done (.review (.ok result)) ∧
      openRequest.report reported = .ok result.report ∧
      openRequest.trace exported = .ok result.trace ∧ reported.version ≠ exported.version := by
  constructor
  · have hrun := Run.nil.schedule (rfl : (exporting openRequest.portableProgram).schedule
      (Backend.sessions .memory) [] [true, false, true] = some (_, _))
    exact ⟨_, _, _, hrun, rfl, by decide⟩
  · obtain ⟨report, hreport⟩ : ∃ report, openRequest.report calmSession = .ok report := by
      have hok : (openRequest.report calmSession).isOk := by decide +kernel
      cases h : openRequest.report calmSession with
      | error e => rw [h] at hok; cases hok
      | ok report => exact ⟨report, rfl⟩
    have hmid := Run.nil.schedule (rfl : (exporting openRequest.reviewProgram).schedule
      (Backend.sessions .memory) [] [true] = some (_, _))
    have hloaded := hmid.snoc (.load (i := true) rfl)
    have hwritten := hloaded.snoc (.commit (i := false) rfl rfl)
    have hexported := hwritten.snoc (.load (i := true) (show _ = Prog.load fun exported =>
      .done (.review (openRequest.review report exported)) by simp [exporting, hreport]))
    exact ⟨_, _, _, calmSession, writtenSession.stored .memory, hexported, rfl, hreport, rfl, by decide⟩

end Fixtures

end NoraInterviewer
