import NoraInterviewer.ArtifactClients
import NoraInterviewer.WithdrawnEvidence

namespace NoraInterviewer

open ExceptRules ObjectRuns OptimisticRuns

/-- What any other program that saves sessions keeps to: it touches no artifact and no object. -/
def otherRules : ArtifactRules :=
  ⟨fun _ base value => value.artifacts = base.artifacts, fun _ _ _ => False, fun _ _ => False⟩

/-- What `_save` of the interview service raises. -/
def StoreFailure.orChanged (failure : StoreFailure) : PyError :=
  match failure with
  | .conflict => changedConcurrently
  | _ => failure.raised

/-- An operation of the interview service, which saves the session with the artifacts it had. -/
def Operation.storedProg [CanonicalDigest] (call : Call) (operation : Operation) :
    ArtifactProg ArtifactResult :=
  loadArtifacts fun session =>
    match mutate call operation session.toInterviewSession with
    | .error e => .done (.error e)
    | .ok none => .done (.ok .other)
    | .ok (some mutated) => .put { session with toInterviewSession := mutated } fun saved =>
      match saved with
      | .ok () => .done (.ok .other)
      | .error failure => .done (.error failure.orChanged)

theorem storedProg_keeps [CanonicalDigest] (backend : Backend) (call : Call) (operation : Operation)
    (lossy : Bool) : (operation.storedProg call).Keeps backend.sessions lossy otherRules
      (fun _ _ => True) {} := by
  refine keeps_loadArtifacts (fun session => ?_) fun _ => trivial
  split
  next => exact trivial
  next => exact trivial
  next mutated hm =>
    obtain ⟨job, -, heffects⟩ := mutate_ok hm
    refine ⟨⟨session, rfl, heffects.identity.version, rfl, fun outcome _ => ?_⟩, fun _ => trivial⟩
    cases outcome with
    | ok => exact trivial
    | error failure => exact trivial

/-- A client of the two stores: a call of the artifact service, or any program that saves sessions
with the artifacts they had. -/
inductive ArtifactClient (backend : Backend) where
  | service (call : ArtifactCall) (operation : ArtifactOperation)
  | other (prog : ArtifactProg ArtifactResult)
    (keeps : ∀ lossy, prog.Keeps backend.sessions lossy otherRules (fun _ _ => True) {})

namespace ArtifactClient

variable [Sha256] {backend : Backend}

def rules : ArtifactClient backend → ArtifactRules
  | service call operation => operation.rules call
  | other _ _ => otherRules

def prog [CanonicalDigest] (service : ArtifactService) :
    ArtifactClient backend → ArtifactProg ArtifactResult
  | .service call operation => operation.prog service call
  | other prog _ => prog

def Ends (lossy : Bool) : ArtifactClient backend →
    Track StoredSession String (List UInt8) StoreFailure → Except PyError ArtifactResult → Prop
  | service call operation => EndsWell lossy call operation.verified
  | other _ _ => fun _ _ => True

def ofOperation [CanonicalDigest] (call : Call) (operation : Operation) : ArtifactClient backend :=
  other (operation.storedProg call) (storedProg_keeps backend call operation)

theorem keeps [CanonicalDigest] (artifactService : ArtifactService) (lossy : Bool)
    (client : ArtifactClient backend) : (client.prog artifactService).Keeps backend.sessions lossy
      client.rules (client.Ends lossy) {} := by
  cases client with
  | other prog hkeeps => exact hkeeps lossy
  | service call operation =>
    cases operation with
    | create data kind mediaType createdBy =>
      exact create_keeps artifactService data kind mediaType createdBy
    | list => exact list_keeps artifactService
    | issueAccess sign artifactId => exact issueAccess_keeps artifactService sign artifactId
    | readToken verified => exact readToken_keeps artifactService verified
    | delete artifactId deletedBy reason =>
      exact delete_keeps artifactService artifactId deletedBy reason
    | purgeSession deletedBy reason => exact purgeSession_keeps artifactService deletedBy reason

end ArtifactClient

/-- The artifacts of a version, and those that a later one added. -/
inductive ExtendsArtifacts : List ArtifactRecord → List ArtifactRecord → Prop where
  | nil {new : List ArtifactRecord} : ExtendsArtifacts new []
  | cons {new old : ArtifactRecord} {news olds : List ArtifactRecord} (h : Inherits new old)
    (hs : ExtendsArtifacts news olds) : ExtendsArtifacts (new :: news) (old :: olds)

namespace ExtendsArtifacts

theorem of_forall₂ {new old : List ArtifactRecord} (h : List.Forall₂ Inherits new old) :
    ExtendsArtifacts new old := by
  induction h with
  | nil => exact .nil
  | cons h _ ih => exact .cons h ih

theorem append (old added : List ArtifactRecord) : ExtendsArtifacts (old ++ added) old := by
  induction old with
  | nil => exact .nil
  | cons item rest ih => exact .cons (.refl item) ih

theorem refl (old : List ArtifactRecord) : ExtendsArtifacts old old := by
  simpa only [List.append_nil] using append old []

theorem trans {c b a : List ArtifactRecord} (hcb : ExtendsArtifacts c b)
    (hba : ExtendsArtifacts b a) : ExtendsArtifacts c a := by
  induction hba generalizing c with
  | nil => exact .nil
  | cons h _ ih =>
    cases hcb with
    | cons h' hs' => exact .cons (h'.trans h) (ih hs')

/-- An artifact that a later version still has as live was live. -/
theorem found {new old : List ArtifactRecord} (h : ExtendsArtifacts new old) {artifactId : String}
    {artifact record : ArtifactRecord}
    (hnew : new.find? (fun item => item.id = artifactId) = some artifact)
    (hold : old.find? (fun item => item.id = artifactId) = some record)
    (hlive : artifact.deletedAt = none) : record.deletedAt = none := by
  induction h with
  | nil => cases hold
  | @cons newer older news olds hi _ ih =>
    by_cases hid : older.id = artifactId
    · simp only [List.find?_cons, hid, hi.id, decide_true, Option.some.injEq] at hnew hold
      subst hnew hold
      exact hi.live hlive ▸ hlive
    · simp only [List.find?_cons, hid, hi.id, decide_false] at hnew hold
      exact ih hnew hold

end ExtendsArtifacts

/-- No client takes an artifact away or makes a deleted one live again. -/
theorem ArtifactClient.puts_extend [Sha256] {backend : Backend} {client : ArtifactClient backend}
    {track : Track StoredSession String (List UInt8) StoreFailure} {base value : StoredSession}
    (h : client.rules.puts track base value) : ExtendsArtifacts value.artifacts base.artifacts := by
  cases client with
  | other prog keeps =>
    have hsame : value.artifacts = base.artifacts := h
    rw [hsame]
    exact .refl _
  | service call operation =>
    cases operation with
    | create data kind mediaType createdBy =>
      obtain ⟨-, record, _, -, hartifacts, -⟩ := h
      rw [hartifacts]
      exact .append _ _
    | list => exact h.elim
    | issueAccess sign artifactId => exact h.elim
    | readToken verified =>
      obtain ⟨artifact, haccess⟩ := h
      rw [haccess.artifacts]
      exact .refl _
    | delete artifactId deletedBy reason => exact .of_forall₂ h
    | purgeSession deletedBy reason => exact .of_forall₂ h

section

variable [Sha256] [CanonicalDigest] {ι σ : Type} [DecidableEq ι] [DecidableEq σ]

abbrev ArtifactState (ι σ : Type) :=
  State ι σ StoredSession String (List UInt8) StoreFailure (Except PyError ArtifactResult)

abbrev ArtifactMove (ι σ : Type) :=
  Move ι σ StoredSession String (List UInt8) StoreFailure (Except PyError ArtifactResult)

/-- The clients at work on the sessions `cells`; the session of a client is its `home`. -/
def artifactStart {backend : Backend} (service : ArtifactService)
    (clients : ι → ArtifactClient backend) (cells : σ → StoredSession)
    (objects : String → Option (List UInt8)) : ArtifactState ι σ :=
  { cells, objects, clients := fun i => (clients i).prog service }

variable {service : ArtifactService} {backend : Backend} {home : ι → σ} {lossy : Bool}
  {clients : ι → ArtifactClient backend} {cells : σ → StoredSession}
  {objects : String → Option (List UInt8)} {moves : List (ArtifactMove ι σ)}
  {final : ArtifactState ι σ}

omit [DecidableEq ι] [DecidableEq σ] in
theorem artifactStart_keeps (i : ι) :
    ((artifactStart (σ := σ) service clients cells objects).clients i).Keeps backend.sessions lossy
      (clients i).rules ((clients i).Ends lossy) {} :=
  (clients i).keeps service lossy

omit [CanonicalDigest] in
theorem step_extends {s s' : ArtifactState ι σ} {i : ι}
    {event : Event StoredSession String (List UInt8) StoreFailure}
    {track : Track StoredSession String (List UInt8) StoreFailure}
    (hs : Step backend.sessions home lossy s i event s')
    (hp : event.Permitted backend.sessions (clients i).rules track) (session : σ) :
    ExtendsArtifacts (s'.cells session).artifacts (s.cells session).artifacts := by
  cases hs with
  | save h hv outcome ho =>
    obtain ⟨-, value, hputs, hvalue⟩ := hp
    dsimp only at hputs hvalue ⊢
    by_cases hsession : session = home i
    · rw [hsession, Function.update_self, hvalue]
      have hextends : ExtendsArtifacts value.artifacts (s.cells (home i)).artifacts :=
        ArtifactClient.puts_extend hputs
      exact hextends
    · rw [Function.update_of_ne hsession]
      exact .refl _
  | load | unsave | write | fetch | erase => exact .refl _

/-- Every version that a run has saved is one whose artifacts the stored session still has. -/
theorem extends_saved
    (h : Run backend.sessions home lossy (artifactStart service clients cells objects) moves final) :
    ∀ move ∈ moves, ∀ save, move.event = .saved save →
      ExtendsArtifacts (final.cells (home move.client)).artifacts save.value.artifacts := by
  induction h with
  | nil => exact fun _ hm => by cases hm
  | @snoc moves mid final i event hrun hstep ih =>
    obtain ⟨hkeeps, hheld⟩ := hrun.tracked artifactStart_keeps i
    have hpermitted := (hstep.permitted hkeeps hheld).1
    intro move hm save hsave
    rcases List.mem_append.mp hm with hm | hm
    · exact (step_extends hstep hpermitted _).trans (ih move hm save hsave)
    · obtain rfl := List.mem_singleton.mp hm
      dsimp only at hsave ⊢
      subst hsave
      cases hstep
      dsimp only
      rw [Function.update_self]
      exact .refl _

/-- A read returns only bytes with the recorded digest, and only after a save of its own that adds
the one event of the access to a version in which the artifact is live, as it is in every version
saved before; a read that fails saves nothing. -/
theorem artifact_reads_audited
    (h : Run backend.sessions home false (artifactStart service clients cells objects) moves final)
    (i : ι) (call : ArtifactCall) (verified : Except PyError String)
    (hi : clients i = .service call (.readToken verified)) :
    (∀ artifact data, final.clients i = .done (.ok (.content artifact data)) →
      Sha256.hexdigest data = artifact.sha256 ∧ verified = .ok artifact.id ∧
      ∃ before move after base value, moves = before ++ move :: after ∧ move.client = i ∧
        move.event = .saved ⟨base, value, .ok ()⟩ ∧ savesOf moves i = [⟨base, value, .ok ()⟩] ∧
        move.before.cells (home i) = base ∧ move.after.cells (home i) = value ∧
        Accesses call artifact base value ∧
        ∀ earlier ∈ before, home earlier.client = home i → ∀ save, earlier.event = .saved save →
          ∀ record, findArtifact save.value artifact.id = .ok record → record.deletedAt = none) ∧
    ∀ e, final.clients i = .done (.error e) → savesOf moves i = [] := by
  obtain ⟨hkeeps, -⟩ := h.tracked artifactStart_keeps i
  rw [hi] at hkeeps
  refine ⟨fun artifact data hdone => ?_, fun e hdone => ?_⟩
  · rw [hdone] at hkeeps
    obtain ⟨hsha, hverified, base, value, hsaves, haccess⟩ := hkeeps.content artifact data rfl
    rw [trackOf_saves] at hsaves
    obtain ⟨move, hm, hclient, hevent⟩ := savesOf_mem.mp (hsaves ▸ List.mem_singleton_self _)
    obtain ⟨before, after, hmoves⟩ := List.append_of_mem hm
    obtain ⟨hbefore, hstep⟩ := h.split hmoves
    rw [hevent, hclient] at hstep
    obtain ⟨hbase, hvalue, -⟩ := hstep.replaces
    refine ⟨hsha, Option.some.inj hverified, before, move, after, base, value, hmoves, hclient,
      hevent, hsaves, hbase, hvalue, haccess, fun earlier he hhome save hsave record hrecord => ?_⟩
    have hextends := extends_saved hbefore earlier he save hsave
    rw [hhome, hbase] at hextends
    have hold := findArtifact_find hrecord
    rw [(findArtifact_ok hrecord).2] at hold
    exact hextends.found (findArtifact_find haccess.found) hold haccess.live
  · rw [hdone] at hkeeps
    refine List.eq_nil_iff_forall_not_mem.mpr fun save hs => ?_
    rw [← trackOf_saves] at hs
    exact absurd (hkeeps.error e rfl save hs).2 Bool.false_ne_true

end

section Runs

attribute [local instance] checksumDigest byteSum

/-- The moves of some clients of one new session, in the given order. -/
def artifactSchedule (clients : Nat → ArtifactClient .memory) (order : List (Nat × Fate StoreFailure)) :
    Option (StoredSession × List (ArtifactMove Nat Unit) × ArtifactState Nat Unit) :=
  match createSession (plainCall askDecision) plainConsent none with
  | .error _ => none
  | .ok session =>
    let stored : StoredSession := { toInterviewSession := Backend.memory.stored session }
    (State.schedule Backend.memory.sessions (fun _ => ()) []
      (artifactStart localArtifacts clients (fun _ => stored) fun _ => none) order).map (stored, ·)

theorem artifactSchedule_run {clients : Nat → ArtifactClient .memory}
    {order : List (Nat × Fate StoreFailure)} {stored : StoredSession}
    {moves : List (ArtifactMove Nat Unit)} {final : ArtifactState Nat Unit} (lossy : Bool)
    (h : artifactSchedule clients order = some (stored, moves, final)) :
    stored.artifacts = [] ∧ Run Backend.memory.sessions (fun _ => ()) lossy
      (artifactStart localArtifacts clients (fun _ => stored) fun _ => none) moves final := by
  unfold artifactSchedule at h
  split at h
  next => cases h
  next session _ =>
    obtain ⟨⟨moves', final'⟩, hs, heq⟩ := Option.map_eq_some_iff.mp h
    cases heq
    exact ⟨rfl, Run.nil.schedule hs⟩

/-- One note, its reading, and its deletion, while the interview goes on. -/
def noteClients : Nat → ArtifactClient .memory
  | 0 => .service plainArtifactCall (.create [7] "notes" "text/plain" "recruiter")
  | 1 => .service plainArtifactCall (.readToken (.ok plainArtifactCall.artifactId))
  | 2 => .service plainArtifactCall (.delete plainArtifactCall.artifactId "recruiter" none)
  | _ => .ofOperation (plainCall askDecision) .start

def contentOf : Except PyError ArtifactResult → Option (ArtifactRecord × List UInt8)
  | .ok (.content artifact data) => some (artifact, data)
  | _ => none

theorem contentOf_eq_some {result : Except PyError ArtifactResult} {artifact : ArtifactRecord}
    {data : List UInt8} (h : contentOf result = some (artifact, data)) :
    result = .ok (.content artifact data) := by
  unfold contentOf at h
  split at h
  next =>
    cases h
    rfl
  next => cases h

/-- The read loads after the deletion has loaded, and saves before it. -/
theorem artifact_reads_audited_race : ∃ stored moves final artifact,
    Run Backend.memory.sessions (fun _ => ()) false
      (artifactStart localArtifacts noteClients (fun _ => stored) fun _ => none) moves final ∧
    final.clients 1 = .done (.ok (.content artifact [7])) ∧
    final.clients 2 = .done (.error StoreFailure.conflict.orConflict) ∧
    Sha256.hexdigest [7] = artifact.sha256 ∧
    ∃ save, savesOf moves 1 = [save] ∧ save.outcome = .ok () := by
  have hrun : (artifactSchedule noteClients [(0, .works), (0, .works), (0, .works), (3, .works),
      (3, .works), (2, .works), (1, .works), (1, .works), (1, .works), (2, .works), (2, .raises .conflict false)]).any
        (fun run => ((run.2.2.clients 1).result.bind contentOf).any (fun content =>
            content.2 = [7]) &&
          (run.2.2.clients 2).result = some (.error StoreFailure.conflict.orConflict)) = true := by
    decide +kernel
  obtain ⟨⟨stored, moves, final⟩, hs, hcheck⟩ := (Option.any_eq_true _ _).mp hrun
  obtain ⟨hread, hdeleted⟩ := Bool.and_eq_true_iff.mp hcheck
  obtain ⟨⟨artifact, data⟩, hcontent, hdata⟩ := (Option.any_eq_true _ _).mp hread
  obtain ⟨result, hresult, hcontent⟩ := Option.bind_eq_some_iff.mp hcontent
  obtain rfl : data = [7] := of_decide_eq_true hdata
  have hdone := Prog.done_of_result (hresult.trans (congrArg some (contentOf_eq_some hcontent)))
  obtain ⟨-, hr⟩ := artifactSchedule_run false hs
  obtain ⟨hsha, -, before, move, after, base, value, -, -, -, hsaves, -⟩ :=
    (artifact_reads_audited hr 1 plainArtifactCall (.ok plainArtifactCall.artifactId) rfl).1 artifact [7] hdone
  exact ⟨stored, moves, final, artifact, hr, hdone, Prog.done_of_result (of_decide_eq_true hdeleted),
    hsha, _, hsaves, rfl⟩

end Runs

end NoraInterviewer
