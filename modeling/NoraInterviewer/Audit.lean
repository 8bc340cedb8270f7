import NoraInterviewer.Models
import NoraInterviewer.Errors
import NoraInterviewer.ExceptRules
import NoraInterviewer.HashChain

namespace NoraInterviewer

open ExceptRules HashChain

/-- The collections whose members get a `uuid4` id. -/
inductive Minted where
  | session | turn | evidence | judgeRun | revision | appeal | signal | tool | submission | challenge
  deriving DecidableEq, Repr

/-- The clock readings of one call; an event reads the clock once, for its own seq. -/
inductive Reading where
  | event (seq : Nat) | created | completed | cancelled | judgeRun
  deriving DecidableEq, Repr

/-- What the interpreter gives one service call. A draw of `uuid4` is indexed by the size
of the collection its id goes into, so two draws of one call never share an index. -/
structure Ambient where
  uuid : Minted → Nat → String
  uuid_ne : ∀ kind n, uuid kind n ≠ ""
  now : Reading → DateTime
  correlationId : Option String := none

/-- `sha256(json.dumps(material, sort_keys=True, separators=(",", ":")))` as a hex digest. -/
class CanonicalDigest where
  hexdigest : Json → String

def hashVersion : Nat := 1

def hashMaterial (event : InterviewEvent) (prevHash : Option String) : Json :=
  .obj [
    ("hash_version", .nat hashVersion),
    ("seq", .nat event.seq),
    ("type", .str event.type.value),
    ("turn_id", .ofOption event.turnId),
    ("payload", .obj event.payload),
    ("created_at", .nat event.createdAt),
    ("prev_hash", .ofOption prevHash)]

variable [CanonicalDigest]

def computeEventHash (event : InterviewEvent) (prevHash : Option String) : String :=
  CanonicalDigest.hexdigest (hashMaterial event prevHash)

def InterviewEvent.hashed (event : InterviewEvent) : Bool :=
  event.hashVersion.isSome || event.prevHash.isSome || event.eventHash.isSome

/-- The loop of `verify_event_chain`. -/
def verifyFrom (expectedPrev : Option String) : List InterviewEvent → Except PyError (Option String)
  | [] => .ok expectedPrev
  | event :: rest =>
    if event.hashVersion ≠ some hashVersion then
      .error (.auditChain s!"unsupported audit hash version at seq {event.seq}")
    else if event.prevHash ≠ expectedPrev then
      .error (.auditChain s!"audit previous-hash mismatch at seq {event.seq}")
    else if event.eventHash ≠ some (computeEventHash event expectedPrev) then
      .error (.auditChain s!"audit event hash mismatch at seq {event.seq}")
    else verifyFrom event.eventHash rest

def verifyEventChain (events : List InterviewEvent) : Except PyError (Option String) :=
  if events.any InterviewEvent.hashed then
    if events.all InterviewEvent.hashed then verifyFrom none events
    else .error (.auditChain
      "mixed legacy and hashed audit events are not a valid sealed chain")
  else .ok none

/-- The loop of `seal_event_chain`. -/
def sealFrom (prevHash : Option String) : List InterviewEvent → List InterviewEvent × Option String
  | [] => ([], prevHash)
  | event :: rest =>
    let hash := computeEventHash event prevHash
    let (sealed, head) := sealFrom (some hash) rest
    ({ event with hashVersion := some hashVersion, prevHash, eventHash := some hash } :: sealed, head)

/-- The events after the call (sealing writes their hash fields in place) and the head hash. -/
def sealEventChain (events : List InterviewEvent) :
    Except PyError (List InterviewEvent × Option String) :=
  if events.any InterviewEvent.hashed then (verifyEventChain events).map fun head => (events, head)
  else .ok (sealFrom none events)

def withTrace (correlationId : Option String) (payload : Dict Json) : Dict Json :=
  match correlationId with
  | none => payload
  | some id =>
    if id = "" then payload
    else
      let trace := match payload.lookup "_trace" with
        | some (.obj fields) => fields
        | _ => []
      Dict.set "_trace" (.obj (Dict.setDefault "correlation_id" (.str id) trace)) payload

def appendEvent (call : Ambient) (session : InterviewSession) (type : EventType)
    (turn : Option Turn := none) (payload : Dict Json := []) : Except PyError InterviewSession := do
  let (events, prevHash) ← sealEventChain session.events
  let seq := session.events.length + 1
  let event : InterviewEvent := {
    seq, type, turnId := turn.map Turn.id
    payload := withTrace call.correlationId payload
    createdAt := call.now (.event seq)
    hashVersion := some hashVersion, prevHash }
  let event := { event with eventHash := some (computeEventHash event prevHash) }
  pure { session with events := events ++ [event] }

/-- What an event says, apart from its place in the chain. -/
structure LogEntry where
  type : EventType
  turnId : Option String := none
  payload : Dict Json := []

def InterviewEvent.entry (event : InterviewEvent) : LogEntry :=
  ⟨event.type, event.turnId, event.payload⟩

def InterviewSession.log (session : InterviewSession) : List LogEntry :=
  session.events.map InterviewEvent.entry

def auditLinks : Links InterviewEvent String where
  prev := InterviewEvent.prevHash
  hash := InterviewEvent.eventHash
  digest := computeEventHash
  admits event := event.hashVersion = some hashVersion

/-- Sequence numbers are exactly `1..n`. -/
def Contiguous (events : List InterviewEvent) : Prop :=
  events.map InterviewEvent.seq = List.range' 1 events.length

/-- The log is a verified chain with sequence numbers `1..n`. -/
structure Sealed (events : List InterviewEvent) : Prop where
  linked : Linked auditLinks none events
  contiguous : Contiguous events

theorem verifyFrom_ok {prev head : Option String} {events : List InterviewEvent}
    (h : verifyFrom prev events = .ok head) :
    Linked auditLinks prev events ∧ HashChain.head auditLinks prev events = head := by
  induction events generalizing prev with
  | nil => exact ⟨trivial, Except.ok.inj h⟩
  | cons event rest ih =>
    rw [verifyFrom] at h
    obtain ⟨hv, h⟩ := ite_error_ok h
    obtain ⟨hp, h⟩ := ite_error_ok h
    obtain ⟨he, h⟩ := ite_error_ok h
    obtain ⟨hl, hh⟩ := ih h
    exact ⟨⟨not_not.mp hv, not_not.mp hp, not_not.mp he, hl⟩, hh⟩

theorem verifyFrom_of_linked {prev : Option String} {events : List InterviewEvent}
    (h : Linked auditLinks prev events) :
    verifyFrom prev events = .ok (HashChain.head auditLinks prev events) := by
  induction events generalizing prev with
  | nil => rfl
  | cons event rest ih =>
    obtain ⟨hv, hp, hh, hl⟩ := h
    have hv' : event.hashVersion = some hashVersion := hv
    have hp' : event.prevHash = prev := hp
    have hh' : event.eventHash = some (computeEventHash event prev) := hh
    rw [verifyFrom, if_neg (not_not.mpr hv'), if_neg (not_not.mpr hp'), if_neg (not_not.mpr hh')]
    exact ih hl

theorem linked_all_hashed {prev : Option String} {events : List InterviewEvent}
    (h : Linked auditLinks prev events) : ∀ event ∈ events, event.hashed = true := by
  intro event he
  have hv : event.hashVersion = some hashVersion := h.admits_of_mem auditLinks he
  simp [InterviewEvent.hashed, hv]

theorem verifyEventChain_of_linked {events : List InterviewEvent}
    (h : Linked auditLinks none events) :
    verifyEventChain events = .ok (HashChain.head auditLinks none events) := by
  have hall := linked_all_hashed h
  rw [verifyEventChain, if_pos (List.all_eq_true.mpr hall)]
  cases events with
  | nil => rfl
  | cons event rest => rw [if_pos (by simp [hall event]), verifyFrom_of_linked h]

theorem sealFrom_linked (prev : Option String) (events : List InterviewEvent) :
    Linked auditLinks prev (sealFrom prev events).1 ∧
      HashChain.head auditLinks prev (sealFrom prev events).1 = (sealFrom prev events).2 := by
  induction events generalizing prev with
  | nil => exact ⟨trivial, rfl⟩
  | cons event rest ih =>
    obtain ⟨hl, hh⟩ := ih (some (computeEventHash event prev))
    exact ⟨⟨rfl, rfl, rfl, hl⟩, hh⟩

theorem sealFrom_entries (prev : Option String) (events : List InterviewEvent) :
    (sealFrom prev events).1.map InterviewEvent.entry = events.map InterviewEvent.entry ∧
      (sealFrom prev events).1.map InterviewEvent.seq = events.map InterviewEvent.seq := by
  induction events generalizing prev with
  | nil => exact ⟨rfl, rfl⟩
  | cons event rest ih =>
    obtain ⟨he, hs⟩ := ih (some (computeEventHash event prev))
    exact ⟨congrArg (event.entry :: ·) he, congrArg (event.seq :: ·) hs⟩

/-- Sealing leaves a verified chain; it changes no entry and no sequence number, and
nothing at all in a history that was sealed before. -/
theorem sealEventChain_ok {events events' : List InterviewEvent} {head : Option String}
    (h : sealEventChain events = .ok (events', head)) :
    Linked auditLinks none events' ∧ HashChain.head auditLinks none events' = head ∧
      events'.map InterviewEvent.entry = events.map InterviewEvent.entry ∧
      events'.map InterviewEvent.seq = events.map InterviewEvent.seq ∧
      (events.any InterviewEvent.hashed → events' = events) := by
  rw [sealEventChain] at h
  split at h
  next hany =>
    obtain ⟨_, hv, he⟩ := map_ok h
    obtain ⟨rfl, rfl⟩ := Prod.mk.inj he
    rw [verifyEventChain, if_pos hany] at hv
    split at hv
    next =>
      obtain ⟨hl, hh⟩ := verifyFrom_ok hv
      exact ⟨hl, hh, rfl, rfl, fun _ => rfl⟩
    next => cases hv
  next hany =>
    obtain ⟨rfl, rfl⟩ := Prod.mk.inj (Except.ok.inj h)
    obtain ⟨hl, hh⟩ := sealFrom_linked none events
    obtain ⟨he, hs⟩ := sealFrom_entries none events
    exact ⟨hl, hh, he, hs, fun hc => absurd hc hany⟩

theorem sealEventChain_of_linked {events : List InterviewEvent}
    (h : Linked auditLinks none events) :
    sealEventChain events = .ok (events, HashChain.head auditLinks none events) := by
  rw [sealEventChain]
  split
  next => rw [verifyEventChain_of_linked h]; rfl
  next hany =>
    cases events with
    | nil => rfl
    | cons event rest => exact absurd (by simp [linked_all_hashed h event]) hany

omit [CanonicalDigest] in
theorem Contiguous.concat {events : List InterviewEvent} {event : InterviewEvent}
    (h : Contiguous events) (hs : event.seq = events.length + 1) : Contiguous (events ++ [event]) := by
  rw [Contiguous] at h ⊢
  simp only [List.map_append, List.map_cons, List.map_nil, List.length_append, List.length_singleton]
  rw [List.range'_concat, ← h, hs, Nat.one_mul, Nat.add_comm 1]

/-- All that a successful `append_event` does: one entry at the end, on a verified chain. -/
theorem appendEvent_ok {call : Ambient} {session session' : InterviewSession} {type : EventType}
    {turn : Option Turn} {payload : Dict Json}
    (h : appendEvent call session type turn payload = .ok session') :
    ∃ events, session' = { session with events := events } ∧
      events.map InterviewEvent.entry = session.log ++
        [⟨type, turn.map Turn.id, withTrace call.correlationId payload⟩] ∧
      Linked auditLinks none events ∧ (Contiguous session.events → Contiguous events) ∧
      (session.events.any InterviewEvent.hashed → session.events <+: events) := by
  obtain ⟨⟨events, head⟩, hs, h⟩ := bind_ok h
  obtain ⟨hl, hh, he, hq, hkeep⟩ := sealEventChain_ok hs
  cases Except.ok.inj h
  refine ⟨_, rfl, ?_, ?_, ?_, ?_⟩
  · simp only [List.map_append, List.map_cons, List.map_nil, he]
    rfl
  · exact hl.concat auditLinks rfl hh.symm (by rw [hh]; rfl)
  · intro hc
    have hlen : events.length = session.events.length := by
      simpa using congrArg List.length hq
    have hc' : Contiguous events := by
      rw [Contiguous, hq, hlen]
      exact hc
    exact hc'.concat (by rw [hlen])
  · intro hany
    rw [hkeep hany]
    exact List.prefix_append _ _

/-- On a sealed log the earlier events stay as they are. -/
theorem appendEvent_extends {call : Ambient} {session session' : InterviewSession} {type : EventType}
    {turn : Option Turn} {payload : Dict Json}
    (h : appendEvent call session type turn payload = .ok session') (hs : Sealed session.events) :
    Sealed session'.events ∧ session.events <+: session'.events := by
  obtain ⟨events, rfl, _, hl, hc, hp⟩ := appendEvent_ok h
  refine ⟨⟨hl, hc hs.contiguous⟩, ?_⟩
  cases he : session.events with
  | nil => exact List.nil_prefix
  | cons first rest =>
    rw [← he]
    exact hp (by simp [he, linked_all_hashed hs.linked first])

theorem appendEvent_of_linked (call : Ambient) {session : InterviewSession}
    (h : Linked auditLinks none session.events) (type : EventType) (turn : Option Turn)
    (payload : Dict Json) :
    ∃ session', appendEvent call session type turn payload = .ok session' := by
  rw [appendEvent, sealEventChain_of_linked h]
  exact ⟨_, rfl⟩

/-- The log gained `entries` at its end. A sealed log is still sealed, and its events are
as they were. -/
structure Grows (events events' : List InterviewEvent) (entries : List LogEntry) : Prop where
  log : events'.map InterviewEvent.entry = events.map InterviewEvent.entry ++ entries
  seals : Sealed events → Sealed events'
  keeps : Sealed events → events <+: events'

theorem Grows.refl (events : List InterviewEvent) : Grows events events [] :=
  ⟨(List.append_nil _).symm, id, fun _ => List.prefix_refl _⟩

theorem Grows.trans {a b c : List InterviewEvent} {first second : List LogEntry}
    (hab : Grows a b first) (hbc : Grows b c second) : Grows a c (first ++ second) where
  log := by rw [hbc.log, hab.log, List.append_assoc]
  seals h := hbc.seals (hab.seals h)
  keeps h := (hab.keeps h).trans (hbc.keeps (hab.seals h))

/-- An exception that is no complaint about a log which verifies. -/
def Refusal (events : List InterviewEvent) (e : PyError) : Prop :=
  Sealed events → e.isAuditChain = false

theorem Grows.refusal {a b : List InterviewEvent} {entries : List LogEntry} {e : PyError}
    (h : Grows a b entries) (he : Refusal b e) : Refusal a e :=
  fun hs => he (h.seals hs)

/-- `append_event` adds one entry, and it does not raise on a sealed log. -/
theorem appendEvent_meets (call : Ambient) (session : InterviewSession) (type : EventType)
    (turn : Option Turn) (payload : Dict Json) :
    Meets (appendEvent call session type turn payload)
      (fun session' => ∃ events, session' = { session with events := events } ∧
        Grows session.events events [⟨type, turn.map Turn.id, withTrace call.correlationId payload⟩])
      (Refusal session.events) := by
  cases h : appendEvent call session type turn payload with
  | error e =>
    intro hs
    obtain ⟨session', hok⟩ := appendEvent_of_linked call hs.linked type turn payload
    rw [h] at hok
    cases hok
  | ok session' =>
    obtain ⟨events, he, hlog, _⟩ := appendEvent_ok h
    have hext := fun hs => appendEvent_extends h hs
    subst he
    exact ⟨events, rfl, hlog, fun hs => (hext hs).1, fun hs => (hext hs).2⟩

end NoraInterviewer
