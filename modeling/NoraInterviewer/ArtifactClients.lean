import NoraInterviewer.ArtifactService
import NoraInterviewer.AssignmentRuns
import NoraInterviewer.TrackedRuns

/-! The calls of the artifact service as clients of the two stores, and what each of them keeps
to. -/

namespace NoraInterviewer

open ExceptRules ObjectRuns OptimisticRuns

inductive ArtifactOperation where
  | create (data : List UInt8) (kind mediaType createdBy : String)
  | list
  | issueAccess (sign : Dict Json → Except PyError String) (artifactId : String)
  | readToken (verified : Except PyError String)
  | delete (artifactId deletedBy : String) (reason : Option String)
  | purgeSession (deletedBy reason : String)

inductive ArtifactResult where
  | record (artifact : ArtifactRecord)
  | records (artifacts : List ArtifactRecord)
  | grant (grant : ArtifactAccessGrant)
  | content (artifact : ArtifactRecord) (data : List UInt8)
  | count (n : Nat)
  | other
  deriving DecidableEq

/-- A record as a later version has it: the same, or marked deleted. -/
structure Inherits (new old : ArtifactRecord) : Prop where
  id : new.id = old.id
  storageKey : new.storageKey = old.storageKey
  live : new.deletedAt = none → new = old

/-- A version that adds no artifact. -/
def KeepsArtifacts (base value : StoredSession) : Prop :=
  List.Forall₂ Inherits value.artifacts base.artifacts

theorem Inherits.refl (artifact : ArtifactRecord) : Inherits artifact artifact :=
  ⟨rfl, rfl, fun _ => rfl⟩

theorem Inherits.trans {c b a : ArtifactRecord} (hcb : Inherits c b) (hba : Inherits b a) :
    Inherits c a := by
  refine ⟨hcb.id.trans hba.id, hcb.storageKey.trans hba.storageKey, fun h => ?_⟩
  obtain rfl := hcb.live h
  exact hba.live h

theorem Inherits.markDeleted (artifact : ArtifactRecord) (at_ : DateTime) (deletedBy : String)
    (reason : Option String) : Inherits (artifact.markDeleted at_ deletedBy reason) artifact :=
  ⟨rfl, rfl, fun h => by cases h⟩

theorem keepsArtifacts_of_eq {base value : StoredSession} (h : value.artifacts = base.artifacts) :
    KeepsArtifacts base value := by
  unfold KeepsArtifacts
  rw [h]
  exact List.forall₂_same.mpr fun artifact _ => .refl artifact

variable [Sha256]

/-- What a read saves over `base`: one `ARTIFACT_ACCESSED` event of an artifact that is live. -/
structure Accesses (call : ArtifactCall) (artifact : ArtifactRecord) (base value : StoredSession) :
    Prop where
  found : findArtifact base artifact.id = .ok artifact
  live : artifact.deletedAt = none
  artifacts : value.artifacts = base.artifacts
  log : value.log = base.log ++ [⟨.artifactAccessed, none, withTrace call.correlationId [
    ("artifact_id", .str artifact.id), ("access_method", .str "signed_token")]⟩]

/-- What a creation saves over `base`: the record of the object that it wrote. -/
structure Creates (call : ArtifactCall) (track : Track StoredSession String (List UInt8) StoreFailure)
    (base value : StoredSession) : Prop where
  first : track.saves = []
  wrote : ∃ record data, track.wrote = some (record.storageKey, data) ∧
    value.artifacts = base.artifacts ++ [record] ∧ record.id = call.artifactId ∧
    record.deletedAt = none ∧ record.sha256 = Sha256.hexdigest data ∧ record.sizeBytes = data.length

/-- A key of the artifact with the id. -/
def SpellsKey (key artifactId : String) : Prop := ∃ scope, key = scope ++ artifactId

omit [Sha256] in
theorem storageKey_spells (session : StoredSession) (artifactId : String) :
    SpellsKey (storageKey session artifactId) artifactId := ⟨_, rfl⟩

/-- The key of an artifact of the session that the client has loaded. -/
def HasKey (track : Track StoredSession String (List UInt8) StoreFailure) (key : String) : Prop :=
  ∃ base, track.loaded = some base ∧ ∃ artifact ∈ base.artifacts, artifact.storageKey = key

abbrev ArtifactRules := Rules StoredSession String (List UInt8) StoreFailure

def ArtifactOperation.rules (call : ArtifactCall) : ArtifactOperation → ArtifactRules
  | create _ _ _ _ => {
      puts := Creates call
      writes := fun track key _ => track.saves = [] ∧ SpellsKey key call.artifactId
      erases := fun _ key => SpellsKey key call.artifactId }
  | list => ⟨fun _ _ _ => False, fun _ _ _ => False, fun _ _ => False⟩
  | issueAccess _ _ => ⟨fun _ _ _ => False, fun _ _ _ => False, fun _ _ => False⟩
  | readToken _ => {
      puts := fun _ base value => ∃ artifact, Accesses call artifact base value
      writes := fun _ _ _ => False
      erases := fun _ _ => False }
  | delete _ _ _ => ⟨fun _ base value => KeepsArtifacts base value, fun _ _ _ => False, HasKey⟩
  | purgeSession _ _ => ⟨fun _ base value => KeepsArtifacts base value, fun _ _ _ => False, HasKey⟩

/-- What an operation may end with: an error only if no save of its own has returned, bytes only
after the one save of their access. -/
structure EndsWell (lossy : Bool) (call : ArtifactCall) (verified : Option (Except PyError String))
    (track : Track StoredSession String (List UInt8) StoreFailure)
    (result : Except PyError ArtifactResult) : Prop where
  error : ∀ e, result = .error e → ∀ save ∈ track.saves, save.outcome ≠ .ok () ∧ lossy = true
  content : ∀ artifact data, result = .ok (.content artifact data) →
    Sha256.hexdigest data = artifact.sha256 ∧ verified = some (.ok artifact.id) ∧
    ∃ base value, track.saves = [⟨base, value, .ok ()⟩] ∧ Accesses call artifact base value

def ArtifactOperation.verified : ArtifactOperation → Option (Except PyError String)
  | readToken verified => some verified
  | _ => none

variable {lossy : Bool} {backend : Backend} {call : ArtifactCall}
  {verified : Option (Except PyError String)}
  {track : Track StoredSession String (List UInt8) StoreFailure}

/-- An operation that ends before it saves anything, and not with bytes. -/
theorem endsWell_unsaved {result : Except PyError ArtifactResult} (h : track.saves = [])
    (hr : ∀ artifact data, result ≠ .ok (.content artifact data)) :
    EndsWell lossy call verified track result where
  error _ _ save hs := by
    rw [h] at hs
    cases hs
  content artifact data he := absurd he (hr artifact data)

theorem endsWell_error {e : PyError} (h : track.saves = []) :
    EndsWell lossy call verified track (.error e) :=
  endsWell_unsaved h fun _ _ he => by cases he

theorem endsWell_returned {result : ArtifactResult}
    (hr : ∀ artifact data, result ≠ .content artifact data) :
    EndsWell lossy call verified track (.ok result) where
  error _ he := by cases he
  content artifact data he := absurd (Except.ok.inj he) (hr artifact data)

/-- A save that raises is the last call of its operation. -/
theorem endsWell_raised {e : PyError} {base value : StoredSession} {failure : StoreFailure}
    (h : track.saves = [⟨base, value, .error failure⟩]) (hl : lossy = true) :
    EndsWell lossy call verified track (.error e) where
  error _ _ save hs := by
    rw [h] at hs
    obtain rfl := List.mem_singleton.mp hs
    exact ⟨(by intro he; cases he), hl⟩
  content _ _ he := by cases he

theorem newArtifact_ok {session : StoredSession} {data : List UInt8}
    {kind mediaType createdBy : String} {record : ArtifactRecord}
    (h : newArtifact call session data kind mediaType createdBy = .ok record) :
    record.id = call.artifactId ∧ record.storageKey = storageKey session call.artifactId ∧
      record.deletedAt = none ∧ record.sha256 = Sha256.hexdigest data ∧
      record.sizeBytes = data.length := by
  unfold newArtifact at h
  obtain ⟨-, h⟩ := ite_error_ok h
  obtain ⟨-, h⟩ := ite_error_ok h
  obtain ⟨-, h⟩ := ite_error_ok h
  cases h
  exact ⟨rfl, rfl, rfl, rfl, rfl⟩

omit [Sha256] in
theorem findArtifact_ok {session : StoredSession} {artifactId : String} {artifact : ArtifactRecord}
    (h : findArtifact session artifactId = .ok artifact) :
    artifact ∈ session.artifacts ∧ artifact.id = artifactId := by
  unfold findArtifact at h
  split at h
  next => cases h
  next found hf =>
    cases h
    exact ⟨List.mem_of_find?_eq_some hf, by simpa using List.find?_some hf⟩

omit [Sha256] in
theorem findArtifact_find {session : StoredSession} {artifactId : String} {artifact : ArtifactRecord}
    (h : findArtifact session artifactId = .ok artifact) :
    session.artifacts.find? (fun item => item.id = artifact.id) = some artifact := by
  obtain ⟨-, rfl⟩ := findArtifact_ok h
  unfold findArtifact at h
  split at h
  next => cases h
  next found hf =>
    cases h
    exact hf

omit [Sha256] in
theorem writeArtifact_inherits {artifacts : List ArtifactRecord} {artifact : ArtifactRecord}
    (h : artifacts.find? (fun item => item.id = artifact.id) = some artifact) {at_ : DateTime}
    {deletedBy : String} {reason : Option String} :
    List.Forall₂ Inherits
      (writeArtifact (artifact.markDeleted at_ deletedBy reason) artifacts) artifacts := by
  induction artifacts with
  | nil => exact .nil
  | cons item rest ih =>
    have hid : (artifact.markDeleted at_ deletedBy reason).id = artifact.id := rfl
    rw [writeArtifact, hid]
    by_cases hi : item.id = artifact.id
    · simp only [List.find?_cons, hi, decide_true] at h
      obtain rfl := Option.some.inj h
      rw [if_pos hi]
      exact .cons (.markDeleted item at_ deletedBy reason)
        (List.forall₂_same.mpr fun other _ => .refl other)
    · simp only [List.find?_cons, hi, decide_false] at h
      rw [if_neg hi]
      exact .cons (.refl item) (ih h)

omit [Sha256] in
theorem markAll_inherits (call : ArtifactCall) (deletedBy reason : String)
    (session : StoredSession) : List.Forall₂ Inherits
      (ArtifactService.markAll call deletedBy reason session).artifacts session.artifacts := by
  unfold ArtifactService.markAll
  rw [List.forall₂_map_left_iff]
  refine List.forall₂_same.mpr fun item _ => ?_
  split
  · exact .markDeleted item _ _ _
  · exact .refl item

omit [Sha256] in
theorem Accesses.stored {artifact : ArtifactRecord} {base value : StoredSession}
    (h : Accesses call artifact base value) : Accesses call artifact base (value.stored backend) := by
  obtain ⟨hfound, hlive, hartifacts, hlog⟩ := h
  cases backend with
  | memory => exact ⟨hfound, hlive, hartifacts, hlog⟩
  | json => exact ⟨hfound, hlive, hartifacts, hlog⟩

variable {α : Type} {rules : ArtifactRules}
  {ends : Track StoredSession String (List UInt8) StoreFailure → Except PyError α → Prop}

omit [Sha256] in
theorem keeps_loadArtifacts {next : StoredSession → ArtifactProg α}
    (h : ∀ session, (next session).Keeps backend.sessions lossy rules ends (track.load session))
    (he : ∀ e, ends track (.error e)) :
    (loadArtifacts next).Keeps backend.sessions lossy rules ends track :=
  ⟨h, fun e => he e.raised⟩

omit [Sha256] in
theorem keeps_persistArtifacts {value base : StoredSession} {result : α}
    (hb : track.loaded = some base) (hv : value.version = base.version)
    (hp : rules.puts track base value)
    (hok : ends (track.save ⟨base, value.stored backend, .ok ()⟩) (.ok result))
    (hraised : lossy = true → ∀ failure e,
      ends (track.save ⟨base, value.stored backend, .error failure⟩) (.error e))
    (he : ∀ e, ends track (.error e)) :
    (persistArtifacts value (.done (.ok result))).Keeps backend.sessions lossy rules ends track := by
  refine ⟨⟨base, hb, hv, hp, fun outcome ho => ?_⟩, fun e => he _⟩
  cases outcome with
  | ok => exact hok
  | error failure =>
    rcases ho with ho | ho
    · cases ho
    · exact hraised ho failure _

omit [Sha256] in
theorem keeps_eraseAll {next : ArtifactProg α} {items : List ArtifactRecord}
    (hw : track.wrote = none) (hitems : ∀ item ∈ items, rules.erases track item.storageKey)
    (hnext : next.Keeps backend.sessions lossy rules ends track)
    (he : ∀ e, ends track (.error e)) :
    (ArtifactService.eraseAll items next).Keeps backend.sessions lossy rules ends track := by
  have hsame : track.erase = track := by
    obtain ⟨loaded, wrote, saves⟩ := track
    cases hw
    rfl
  induction items with
  | nil => exact hnext
  | cons item rest ih =>
    obtain ⟨hitem, hrest⟩ := List.forall_mem_cons.mp hitems
    refine ⟨hitem, fun fate => ?_⟩
    rw [hsame]
    cases fate with
    | works => exact ih hrest
    | raises e done => exact he _

variable [CanonicalDigest]

namespace ArtifactOperation

def prog (service : ArtifactService) (call : ArtifactCall) :
    ArtifactOperation → ArtifactProg ArtifactResult
  | create data kind mediaType createdBy =>
    (service.create call data kind mediaType createdBy).map (Except.map .record)
  | list => ArtifactService.list.map (Except.map .records)
  | issueAccess sign artifactId =>
    (service.issueAccess call sign artifactId).map (Except.map .grant)
  | readToken verified => (service.readToken call verified).map
    (Except.map fun (artifact, data) => .content artifact data)
  | delete artifactId deletedBy reason =>
    (service.delete call artifactId deletedBy reason).map (Except.map .record)
  | purgeSession deletedBy reason =>
    (service.purgeSession call deletedBy reason).map (Except.map .count)

end ArtifactOperation

omit [Sha256] in
theorem logArtifact_ok {session session' : StoredSession} {type : EventType} {payload : Dict Json}
    (h : logArtifact call session type payload = .ok session') :
    session'.artifacts = session.artifacts ∧ session'.version = session.version ∧
      session'.log = session.log ++ [⟨type, none, withTrace call.correlationId payload⟩] := by
  obtain ⟨logged, hl, rfl⟩ := map_ok h
  obtain ⟨events, rfl, hlog, -⟩ := appendEvent_ok hl
  exact ⟨rfl, rfl, hlog⟩

omit [Sha256] in
theorem logAllDeleted_ok {deletedBy reason : String} {items : List ArtifactRecord}
    {session session' : StoredSession}
    (h : ArtifactService.logAllDeleted call deletedBy reason items session = .ok session') :
    session'.artifacts = session.artifacts ∧ session'.version = session.version := by
  induction items generalizing session with
  | nil =>
    cases h
    exact ⟨rfl, rfl⟩
  | cons item rest ih =>
    obtain ⟨mid, hm, hr⟩ := bind_ok h
    obtain ⟨hartifacts, hversion⟩ := ih hr
    obtain ⟨hartifacts', hversion', -⟩ := logArtifact_ok hm
    exact ⟨hartifacts.trans hartifacts', hversion.trans hversion'⟩

theorem create_keeps (service : ArtifactService) (data : List UInt8)
    (kind mediaType createdBy : String) :
    ((ArtifactOperation.create data kind mediaType createdBy).prog service call).Keeps
      backend.sessions lossy ((ArtifactOperation.create data kind mediaType createdBy).rules call)
      (EndsWell lossy call none) {} := by
  refine Prog.Keeps.map ?_
  unfold ArtifactService.create
  split
  next => exact endsWell_error rfl
  next kind mediaType hcheck =>
    refine keeps_loadArtifacts (fun session => ?_) fun e => endsWell_error rfl
    split
    next => exact endsWell_error rfl
    next record hrecord =>
      obtain ⟨hid, hkey, hlive, hsha, hsize⟩ := newArtifact_ok hrecord
      have hspells : SpellsKey record.storageKey call.artifactId :=
        hkey ▸ storageKey_spells session call.artifactId
      refine ⟨⟨rfl, hspells⟩, fun fate => ?_⟩
      cases fate with
      | raises e done =>
        cases done with
        | false => exact endsWell_error rfl
        | true => exact endsWell_error rfl
      | works =>
        simp only [Fate.outcome]
        split
        next => exact endsWell_error rfl
        next logged hlogged =>
          obtain ⟨hartifacts, hversion, -⟩ := logArtifact_ok hlogged
          refine ⟨⟨session, rfl, hversion, ⟨rfl, record, data, rfl, hartifacts, hid, hlive, hsha,
            hsize⟩, fun outcome ho => ?_⟩, fun e => ?_⟩
          · cases outcome with
            | ok => exact endsWell_returned fun _ _ he => by cases he
            | error failure =>
              rcases ho with ho | ho
              · cases ho
              refine ⟨hspells, fun fate => ?_⟩
              cases fate with
              | works => exact endsWell_raised rfl ho
              | raises => exact endsWell_raised rfl ho
          · refine ⟨hspells, fun fate => ?_⟩
            cases fate with
            | works => exact endsWell_error rfl
            | raises => exact endsWell_error rfl

theorem list_keeps (service : ArtifactService) :
    (ArtifactOperation.list.prog service call).Keeps backend.sessions lossy
      (ArtifactOperation.list.rules call) (EndsWell lossy call none) {} := by
  refine Prog.Keeps.map (keeps_loadArtifacts (fun session => ?_) fun e => endsWell_error rfl)
  exact endsWell_returned fun _ _ he => by cases he

theorem issueAccess_keeps (service : ArtifactService) (sign : Dict Json → Except PyError String)
    (artifactId : String) :
    ((ArtifactOperation.issueAccess sign artifactId).prog service call).Keeps backend.sessions lossy
      ((ArtifactOperation.issueAccess sign artifactId).rules call) (EndsWell lossy call none) {} := by
  refine Prog.Keeps.map ?_
  unfold ArtifactService.issueAccess
  split
  next => exact endsWell_error rfl
  next =>
    refine keeps_loadArtifacts (fun session => ?_) fun e => endsWell_error rfl
    split
    next => exact endsWell_error rfl
    next artifact _ =>
      split
      next => exact endsWell_error rfl
      next =>
        refine endsWell_unsaved rfl fun _ _ he => ?_
        obtain ⟨grant, -, hg⟩ := map_ok he
        cases hg

theorem readToken_keeps (service : ArtifactService) (verified : Except PyError String) :
    ((ArtifactOperation.readToken verified).prog service call).Keeps backend.sessions lossy
      ((ArtifactOperation.readToken verified).rules call)
      (EndsWell lossy call (some verified)) {} := by
  refine Prog.Keeps.map ?_
  unfold ArtifactService.readToken
  split
  next => exact endsWell_error rfl
  next =>
    split
    next => exact endsWell_error rfl
    next artifactId =>
      refine keeps_loadArtifacts (fun session => ?_) fun e => endsWell_error rfl
      split
      next => exact endsWell_error rfl
      next artifact hfound =>
        split
        next => exact endsWell_error rfl
        next hlive =>
          intro fetched
          cases fetched with
          | error => exact endsWell_error rfl
          | ok data =>
            dsimp only
            split
            next => exact endsWell_error rfl
            next hsha =>
              split
              next => exact endsWell_error rfl
              next logged hlogged =>
                obtain ⟨hartifacts, hversion, hlog⟩ := logArtifact_ok hlogged
                obtain ⟨-, rfl⟩ := findArtifact_ok hfound
                have haccess : Accesses call artifact session logged :=
                  ⟨hfound, not_ne_iff.mp hlive, hartifacts, hlog⟩
                refine keeps_persistArtifacts rfl hversion ⟨artifact, haccess⟩ ?_
                  (fun hl _ _ => endsWell_raised rfl hl) fun _ => endsWell_error rfl
                refine ⟨(fun _ he => by cases he), fun _ _ he => ?_⟩
                cases he
                exact ⟨not_ne_iff.mp hsha, rfl, session, logged.stored backend, rfl, haccess.stored⟩

theorem delete_keeps (service : ArtifactService) (artifactId deletedBy : String)
    (reason : Option String) :
    ((ArtifactOperation.delete artifactId deletedBy reason).prog service call).Keeps
      backend.sessions lossy ((ArtifactOperation.delete artifactId deletedBy reason).rules call)
      (EndsWell lossy call none) {} := by
  refine Prog.Keeps.map ?_
  unfold ArtifactService.delete
  split
  next => exact endsWell_error rfl
  next =>
    refine keeps_loadArtifacts (fun session => ?_) fun e => endsWell_error rfl
    split
    next => exact endsWell_error rfl
    next artifact hfound =>
      split
      next => exact endsWell_returned fun _ _ he => by cases he
      next hlive =>
        refine ⟨⟨session, rfl, artifact, (findArtifact_ok hfound).1, rfl⟩, fun fate => ?_⟩
        cases fate with
        | raises => exact endsWell_error rfl
        | works =>
          simp only [Fate.outcome]
          split
          next => exact endsWell_error rfl
          next logged hlogged =>
            obtain ⟨hartifacts, hversion, -⟩ := logArtifact_ok hlogged
            refine keeps_persistArtifacts rfl hversion ?_
              (endsWell_returned fun _ _ he => by cases he)
              (fun hl _ _ => endsWell_raised rfl hl) fun _ => endsWell_error rfl
            show List.Forall₂ Inherits logged.artifacts session.artifacts
            rw [hartifacts]
            exact writeArtifact_inherits (findArtifact_find hfound)

theorem purgeSession_keeps (service : ArtifactService) (deletedBy reason : String) :
    ((ArtifactOperation.purgeSession deletedBy reason).prog service call).Keeps
      backend.sessions lossy ((ArtifactOperation.purgeSession deletedBy reason).rules call)
      (EndsWell lossy call none) {} := by
  refine Prog.Keeps.map (keeps_loadArtifacts (fun session => ?_) fun e => endsWell_error rfl)
  dsimp only
  split
  next => exact endsWell_returned fun _ _ he => by cases he
  next =>
    split
    next => exact endsWell_error rfl
    next =>
      refine keeps_eraseAll rfl (fun item hitem => ?_) ?_ fun e => endsWell_error rfl
      · exact ⟨session, rfl, item, List.mem_of_mem_filter hitem, rfl⟩
      · split
        next => exact endsWell_error rfl
        next logged hlogged =>
          obtain ⟨hartifacts, hversion⟩ := logAllDeleted_ok hlogged
          refine keeps_persistArtifacts rfl hversion ?_
            (endsWell_returned fun _ _ he => by cases he)
            (fun hl _ _ => endsWell_raised rfl hl) fun _ => endsWell_error rfl
          show List.Forall₂ Inherits logged.artifacts session.artifacts
          rw [hartifacts]
          exact markAll_inherits call deletedBy reason session

end NoraInterviewer
