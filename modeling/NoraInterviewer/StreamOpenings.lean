import NoraInterviewer.ChunkPushes
import NoraInterviewer.VoiceOutputBridge
import NoraInterviewer.JudgeSteps

/-! `open` of `VoiceStreamBridge` and of `VoiceOutputBridge`, each call from its beginning to its end,
with what becomes of every await. -/

namespace NoraInterviewer

open RealtimeVoiceCoordinator

/-- What `open` raises: an exception, one of the manager, or the cancellation of its task. -/
inductive OpenFailure where
  | raised (exception : PyError)
  | audio (error : AudioError)
  | cancelled

/-- What an operation of the coordinator gets from the store: the session, and what becomes of its
write. -/
structure VoiceAwaits where
  session : Except OpenFailure (Option InterviewSession)
  call : VoiceCall
  write : Except OpenFailure Unit := .ok ()

/-- How a call of `open` ends: what it returns or raises, what it leaves, and the provider session that
it made, if any, with whether that was cancelled. -/
structure Opened (World Result : Type) where
  outcome : Except OpenFailure Result
  world : World
  cancelled : Option Bool := none

variable [CanonicalDigest]

/-- An operation of the coordinator that writes to the store last. -/
def coordinate (operation : VoiceOperation) (awaits : VoiceAwaits) (voice : VoiceSessionState) :
    Except OpenFailure Unit × VoiceSessionState :=
  match awaits.session with
  | .error failure => (.error failure, voice)
  | .ok none => (.error (.raised (.http 404 "Session not found" [])), voice)
  | .ok (some session) =>
    match RealtimeVoiceCoordinator.perform .memory { awaits.call with persists := true } operation ⟨voice, session⟩ with
    | .error e world => (.error (.raised e), world.voice)
    | .ok _ world => (awaits.write, world.voice)

namespace VoiceStreamBridge

/-- The arguments of `open`, with the ids that it draws and what the bridge was made with. -/
structure OpenRequest where
  sessionId : String
  config : AudioStreamConfig
  streamId : String
  token : ReconnectToken
  providerId : String
  vadConfig : Option VadConfig := none

structure OpenAwaits where
  provider : Except OpenFailure Unit := .ok ()
  started : VoiceAwaits
  cancel : Except OpenFailure Unit := .ok ()
  selected : VoiceAwaits

/-- The manager, the table of the bridge, and the voice state of the session. -/
structure World where
  manager : AudioStreamManager := {}
  providerStreams : Dict SttStream := []
  voice : VoiceSessionState := {}

/-- `_ProviderStream` of a stream that opens. -/
def OpenRequest.stream (request : OpenRequest) : SttStream where
  vad :=
    if request.config.encoding = .pcm16 then
      request.vadConfig.map fun config => ⟨{ config }, Pcm16EnergyVad.sound_start config⟩
    else none

/-- `except Exception: await provider_session.cancel(); raise`. -/
def abandon {World Result : Type} (cancel : Except OpenFailure Unit) (failure : OpenFailure)
    (world : World) : Opened World Result :=
  match failure, cancel with
  | .cancelled, _ => ⟨.error .cancelled, world, some false⟩
  | _, .error other => ⟨.error other, world, some true⟩
  | failure, .ok _ => ⟨.error failure, world, some true⟩

def open_ (request : OpenRequest) (awaits : OpenAwaits) (world : World) :
    Opened World AudioStreamOpenResult :=
  match awaits.provider with
  | .error failure => ⟨.error failure, world, none⟩
  | .ok _ =>
    let started := coordinate .speechStarted awaits.started world.voice
    let world := { world with voice := started.2 }
    match started.1 with
    | .error failure => abandon awaits.cancel failure world
    | .ok _ =>
      let opened := world.manager.openStream request.sessionId world.voice.generation request.config
        request.streamId request.token
      let world := { world with manager := opened.2 }
      match opened.1 with
      | .error e => ⟨.error (.audio e), world, some false⟩
      | .ok result =>
        let selected := coordinate
          (.transportSelected .stt .server (some request.providerId) none) awaits.selected world.voice
        let world := { world with voice := selected.2 }
        match selected.1 with
        | .error failure => ⟨.error failure, world, some false⟩
        | .ok _ => ⟨.ok result, { world with
            providerStreams := world.providerStreams.set request.streamId request.stream }, some false⟩

end VoiceStreamBridge

namespace VoiceOutputBridge

structure OpenRequest where
  sessionId : String
  turnId : String
  locale : Option String := none
  providerId : String

structure OpenAwaits where
  session : Except OpenFailure (Option InterviewSession)
  provider : Except OpenFailure Unit := .ok ()
  failed : VoiceAwaits
  started : VoiceAwaits
  cancel : Except OpenFailure Unit := .ok ()
  selected : VoiceAwaits

/-- What `open` checks before it asks the provider. -/
def opening (request : OpenRequest) (session : Option InterviewSession) (world : OutputWorld) :
    Except PyError Opening :=
  match session with
  | none => .error (.http 404 "Session not found" [])
  | some session =>
    match turnOf session request.turnId with
    | none => .error (.http 404 "Interviewer turn not found" [])
    | some turn =>
      if turn.speaker ≠ .interviewer then
        .error (.http 400 "Streaming TTS requires an interviewer turn" [])
      else if world.activeBySession request.sessionId ≠ none ∨
          world.openingSessions request.sessionId ≠ none then
        .error (.raised (.other "TtsStreamConflictError" "session already has an active TTS stream"))
      else .ok {
        sessionId := request.sessionId
        turn
        locale := if given request.locale then request.locale.getD "" else session.locale
        generation := (world.voice request.sessionId).generation }

/-- What a provider that raises makes of the call: `provider_failed` is told of it, unless the circuit
was open, and its own exceptions are passed over. -/
def synthesizeFails (request : OpenRequest) (awaits : OpenAwaits) (failure : OpenFailure)
    (voice : VoiceSessionState) : OpenFailure :=
  match failure with
  | .raised e =>
    if e.className = "ProviderCircuitOpenError" then failure
    else
      match (coordinate (.providerFailed .tts request.providerId e.className e.message) awaits.failed
        voice).1 with
      | .error .cancelled => .cancelled
      | _ => failure
  | failure => failure

/-- `open`; `n` numbers the call, and `streamId n` is what `uuid4` gives it. -/
def open_ (streamId : ℕ → String) (n : ℕ) (request : OpenRequest) (awaits : OpenAwaits)
    (world : OutputWorld) : Opened OutputWorld String :=
  match awaits.session with
  | .error failure => ⟨.error failure, world, none⟩
  | .ok session =>
    match opening request session world with
    | .error e => ⟨.error (.raised e), world, none⟩
    | .ok opening =>
      let world := { world with
        openingSessions := Function.update world.openingSessions request.sessionId (some n) }
      match awaits.provider with
      | .error failure =>
        ⟨.error (synthesizeFails request awaits failure (world.voice request.sessionId)),
          discardOpening world request.sessionId, none⟩
      | .ok _ =>
        let started := coordinate (.ttsStarted opening.turn.id) awaits.started
          (world.voice request.sessionId)
        let world := setVoice world request.sessionId started.2
        match started.1 with
        | .error failure =>
          VoiceStreamBridge.abandon awaits.cancel failure (discardOpening world request.sessionId)
        | .ok _ =>
          let selected := coordinate
            (.transportSelected .tts .server (some request.providerId) none) awaits.selected
            (world.voice request.sessionId)
          let world := setVoice world request.sessionId selected.2
          match selected.1 with
          | .error failure =>
            VoiceStreamBridge.abandon awaits.cancel failure (discardOpening world request.sessionId)
          | .ok _ => ⟨.ok (streamId n), register streamId n opening world, some false⟩

end VoiceOutputBridge

namespace RealtimeVoiceCoordinator

open Voicing

variable {call : VoiceCall} {session : InterviewSession} {voice : VoiceSessionState}

theorem log_appendable (call : VoiceCall) (h : Appendable session.events) (type : EventType)
    (turn : Option Turn) (payload : Dict Json) :
    ∃ logged, (∀ world, log call session type turn payload world = .ok logged world) ∧
      Appendable logged.events := by
  obtain ⟨events, hok, happendable⟩ := h.append call.toAmbient type turn payload
  refine ⟨{ session with events := events }, fun world => ?_, happendable⟩
  unfold log
  rw [hok]
  rfl

theorem log_not_appendable (call : VoiceCall) (h : ¬Appendable session.events) (type : EventType)
    (turn : Option Turn) (payload : Dict Json) :
    ∃ e, ∀ world, log call session type turn payload world = .error e world := by
  obtain ⟨e, he⟩ := not_appendable_append h call.toAmbient type turn payload
  refine ⟨e, fun world => ?_⟩
  unfold log
  rw [he]
  rfl

theorem logOnly_appendable (call : VoiceCall) (voice : VoiceSessionState)
    (h : Appendable session.events) (type : EventType) (payload : VoiceSessionState → Dict Json) :
    ∃ logged, logOnly .memory { call with persists := true } type payload ⟨voice, session⟩ =
      .ok () ⟨voice, logged⟩ := by
  obtain ⟨logged, hlog, _⟩ := log_appendable { call with persists := true } h type none (payload voice)
  refine ⟨Backend.memory.stored logged, ?_⟩
  unfold logOnly
  simp only [bind_apply, session_apply, voice_apply, hlog, persistVoice_apply, if_true]

theorem logOnly_not_appendable (call : VoiceCall) (voice : VoiceSessionState)
    (h : ¬Appendable session.events) (type : EventType) (payload : VoiceSessionState → Dict Json) :
    ∃ e, logOnly .memory { call with persists := true } type payload ⟨voice, session⟩ =
      .error e ⟨voice, session⟩ := by
  obtain ⟨e, he⟩ := log_not_appendable { call with persists := true } h type none (payload voice)
  refine ⟨e, ?_⟩
  unfold logOnly
  simp only [bind_apply, session_apply, voice_apply, he]

/-- The voice state once speech that starts has been noted, and nothing written of it. -/
theorem speechStarted_appendable (call : VoiceCall) (voice : VoiceSessionState)
    (ha : ¬Ended session) (h : Appendable session.events) :
    ∃ logged, speechStarted .memory { call with persists := true } ⟨voice, session⟩ =
      .ok (heard voice call.nowMs) ⟨heard voice call.nowMs, logged⟩ := by
  unfold speechStarted
  rw [bind_ok (session_apply _), ensureInputAllowed_active ha]
  by_cases hspeaking : voice.phase = .speaking
  · obtain ⟨first, hfirst, hbarged⟩ := log_appendable { call with persists := true } h .voiceBargeIn
      none [
        ("generation", .nat (voice.generation + 1)),
        ("interrupted_turn_id", .ofOption voice.activeTtsTurnId),
        ("interruption_count", .nat (voice.interruptionCount + 1))]
    obtain ⟨second, hsecond, hcancelled⟩ := log_appendable { call with persists := true } hbarged
      .voiceTtsCancelled none [
        ("turn_id", .ofOption voice.activeTtsTurnId),
        ("reason", .str "barge_in"),
        ("generation", .nat (voice.generation + 1))]
    obtain ⟨logged, hlog, _⟩ := log_appendable { call with persists := true } hcancelled
      .voiceSpeechStarted none [("generation", .nat (voice.generation + 1)),
        ("started_at_ms", .nat call.nowMs)]
    refine ⟨Backend.memory.stored logged, ?_⟩
    simp only [heard, hspeaking, if_true]
    simp only [bind_apply, voice_apply, setVoice_apply, pure_apply, hspeaking, if_true, bargeIn,
      bargeInPayload, hfirst, hsecond, hlog, persistVoice_apply]
  · obtain ⟨logged, hlog, _⟩ := log_appendable { call with persists := true } h .voiceSpeechStarted
      none [("generation", .nat voice.generation), ("started_at_ms", .nat call.nowMs)]
    refine ⟨Backend.memory.stored logged, ?_⟩
    simp only [heard, hspeaking, if_false]
    simp only [bind_apply, voice_apply, setVoice_apply, pure_apply, hspeaking, if_false, hlog,
      persistVoice_apply, if_true]

/-- A log that takes nothing stops a barge-in before the audio is given up. -/
theorem speechStarted_not_appendable (call : VoiceCall) (voice : VoiceSessionState)
    (ha : ¬Ended session) (h : ¬Appendable session.events) :
    ∃ e after, speechStarted .memory { call with persists := true } ⟨voice, session⟩ =
        .error e after ∧
      after.voice.phase = (if voice.phase = .speaking then .speaking else .listening) ∧
      after.voice.activeTtsTurnId = voice.activeTtsTurnId := by
  unfold speechStarted
  rw [bind_ok (session_apply _), ensureInputAllowed_active ha]
  by_cases hspeaking : voice.phase = .speaking
  · obtain ⟨e, he⟩ := log_not_appendable { call with persists := true } h .voiceBargeIn none [
      ("generation", .nat (voice.generation + 1)),
      ("interrupted_turn_id", .ofOption voice.activeTtsTurnId),
      ("interruption_count", .nat (voice.interruptionCount + 1))]
    simp only [bind_apply, voice_apply, setVoice_apply, pure_apply, hspeaking, if_true, bargeIn,
      bargeInPayload, he]
    exact ⟨e, _, rfl, rfl, rfl⟩
  · obtain ⟨e, he⟩ := log_not_appendable { call with persists := true } h .voiceSpeechStarted
      none [("generation", .nat voice.generation), ("started_at_ms", .nat call.nowMs)]
    simp only [bind_apply, voice_apply, setVoice_apply, pure_apply, hspeaking, if_false, he]
    exact ⟨e, _, rfl, rfl, rfl⟩

/-- `tts_started` of a turn of the session, while no other one is active. -/
theorem ttsStarted_goes (call : VoiceCall) {turnId : String} {turn : Turn}
    (hs : session.status ≠ .cancelled) (hturn : turnOf session turnId = some turn)
    (ha : voice.activeTtsTurnId = none ∨ voice.activeTtsTurnId = some turnId) :
    (Appendable session.events → ∃ logged,
      ttsStarted .memory { call with persists := true } turnId ⟨voice, session⟩ =
        .ok (playing voice call.nowMs turnId) ⟨playing voice call.nowMs turnId, logged⟩) ∧
    (¬Appendable session.events → ∃ e,
      ttsStarted .memory { call with persists := true } turnId ⟨voice, session⟩ =
        .error e ⟨playing voice call.nowMs turnId, session⟩) := by
  have hactive : ¬(voice.activeTtsTurnId ≠ none ∧ voice.activeTtsTurnId ≠ some turnId) :=
    fun hstale => ha.elim hstale.1 hstale.2
  have hplaying :
      ttsStarted .memory { call with persists := true } turnId ⟨voice, session⟩ =
        (log { call with persists := true } session .voiceTtsStarted (some turn) [
          ("generation", .nat (playing voice call.nowMs turnId).generation),
          ("response_to_tts_ms",
            optionalNat (playing voice call.nowMs turnId).lastResponseToTtsMs)] >>= fun logged => do
          persistVoice .memory true logged
          Voicing.voice) ⟨playing voice call.nowMs turnId, session⟩ := by
    unfold ttsStarted
    rw [bind_ok (session_apply _), if_neg hs, hturn]
    unfold playing
    cases hready : voice.responseReadyAtMs with
    | none => simp only [bind_apply, voice_apply, setVoice_apply, if_neg hactive, hready]
    | some ready => simp only [bind_apply, voice_apply, setVoice_apply, if_neg hactive, hready]
  constructor
  · intro h
    obtain ⟨logged, hlog, _⟩ := log_appendable { call with persists := true } h .voiceTtsStarted
      (some turn) [
        ("generation", .nat (playing voice call.nowMs turnId).generation),
        ("response_to_tts_ms", optionalNat (playing voice call.nowMs turnId).lastResponseToTtsMs)]
    refine ⟨Backend.memory.stored logged, ?_⟩
    rw [hplaying, bind_ok (hlog _)]
    rfl
  · intro h
    obtain ⟨e, he⟩ := log_not_appendable { call with persists := true } h .voiceTtsStarted
      (some turn) [
        ("generation", .nat (playing voice call.nowMs turnId).generation),
        ("response_to_tts_ms", optionalNat (playing voice call.nowMs turnId).lastResponseToTtsMs)]
    refine ⟨e, ?_⟩
    rw [hplaying, bind_error (he _)]

end RealtimeVoiceCoordinator

namespace VoiceAwaits

/-- An operation that writes one event comes to its end. -/
def Logs (awaits : VoiceAwaits) : Prop :=
  ∃ session, awaits.session = .ok (some session) ∧ Appendable session.events ∧ awaits.write = .ok ()

/-- None of the awaits that such an operation comes to is cancelled. -/
def Uncut (awaits : VoiceAwaits) : Prop :=
  awaits.session ≠ .error .cancelled ∧
    ∀ session, awaits.session = .ok (some session) → Appendable session.events →
      awaits.write ≠ .error .cancelled

end VoiceAwaits

section Coordinator

variable {operation : VoiceOperation} {awaits : VoiceAwaits} {voice : VoiceSessionState}
  {session : InterviewSession}

theorem coordinate_failed {failure : OpenFailure} (h : awaits.session = .error failure) :
    coordinate operation awaits voice = (.error failure, voice) := by
  unfold coordinate
  rw [h]

theorem coordinate_missing (h : awaits.session = .ok none) :
    coordinate operation awaits voice =
      (.error (.raised (.http 404 "Session not found" [])), voice) := by
  unfold coordinate
  rw [h]

theorem coordinate_error {e : PyError} {after : VoiceWorld} (h : awaits.session = .ok (some session))
    (hperform : RealtimeVoiceCoordinator.perform .memory { awaits.call with persists := true }
      operation ⟨voice, session⟩ = .error e after) :
    coordinate operation awaits voice = (.error (.raised e), after.voice) := by
  unfold coordinate
  rw [h]
  simp only
  rw [hperform]

theorem coordinate_ok {reply : VoiceReply} {after : VoiceWorld}
    (h : awaits.session = .ok (some session))
    (hperform : RealtimeVoiceCoordinator.perform .memory { awaits.call with persists := true }
      operation ⟨voice, session⟩ = .ok reply after) :
    coordinate operation awaits voice = (awaits.write, after.voice) := by
  unfold coordinate
  rw [h]
  simp only
  rw [hperform]

theorem coordinate_ended (voice : VoiceSessionState)
    (h : awaits.session = .ok (some session)) (hended : Ended session) :
    ∃ e, coordinate .speechStarted awaits voice =
      (.error (.raised e), { voice with phase := .closed }) := by
  obtain ⟨e, he⟩ := @speechStarted_ended _ .memory { awaits.call with persists := true }
    ⟨voice, session⟩ hended
  have hperform : RealtimeVoiceCoordinator.perform .memory { awaits.call with persists := true }
      .speechStarted ⟨voice, session⟩ = .error e (shut ⟨voice, session⟩) := Voicing.bind_error he
  exact ⟨e, coordinate_error h hperform⟩

theorem coordinate_heard (voice : VoiceSessionState)
    (h : awaits.session = .ok (some session)) (ha : ¬Ended session)
    (happendable : Appendable session.events) :
    coordinate .speechStarted awaits voice = (awaits.write, heard voice awaits.call.nowMs) := by
  obtain ⟨logged, hok⟩ := speechStarted_appendable awaits.call voice ha happendable
  have hperform : RealtimeVoiceCoordinator.perform .memory { awaits.call with persists := true }
      .speechStarted ⟨voice, session⟩ = .ok _ ⟨heard voice awaits.call.nowMs, logged⟩ :=
    Voicing.bind_ok hok
  exact coordinate_ok h hperform

theorem coordinate_unheard (voice : VoiceSessionState)
    (h : awaits.session = .ok (some session)) (ha : ¬Ended session)
    (happendable : ¬Appendable session.events) :
    ∃ e after, coordinate .speechStarted awaits voice = (.error (.raised e), after) ∧
      after.phase = (if voice.phase = .speaking then .speaking else .listening) ∧
      after.activeTtsTurnId = voice.activeTtsTurnId := by
  obtain ⟨e, after, he, hphase, hactive⟩ :=
    speechStarted_not_appendable awaits.call voice ha happendable
  have hperform : RealtimeVoiceCoordinator.perform .memory { awaits.call with persists := true }
      .speechStarted ⟨voice, session⟩ = .error e after := Voicing.bind_error he
  exact ⟨e, after.voice, coordinate_error h hperform, hphase, hactive⟩

theorem coordinate_selected (direction : VoiceDirection) (transport : VoiceTransport)
    (providerId reason : Option String) (awaits : VoiceAwaits) (voice : VoiceSessionState) :
    ∃ outcome, coordinate (.transportSelected direction transport providerId reason) awaits voice =
        (outcome, voice) ∧
      (outcome = .ok () ↔ awaits.Logs) ∧ (outcome ≠ .error .cancelled ↔ awaits.Uncut) := by
  cases hsession : awaits.session with
  | error failure =>
    refine ⟨_, coordinate_failed hsession, ⟨fun h => (by cases h), ?_⟩, ?_⟩
    · rintro ⟨session, hsome, _⟩
      rw [hsession] at hsome
      cases hsome
    · unfold VoiceAwaits.Uncut
      rw [hsession]
      refine ⟨fun h => ⟨fun hcut => h (by cases hcut; rfl), fun _ hsome => (by cases hsome)⟩, ?_⟩
      exact fun h hcut => h.1 (by cases hcut; rfl)
  | ok found =>
    cases found with
    | none =>
      refine ⟨_, coordinate_missing hsession, ⟨fun h => (by cases h), ?_⟩, ?_⟩
      · rintro ⟨session, hsome, _⟩
        rw [hsession] at hsome
        cases hsome
      · unfold VoiceAwaits.Uncut
        rw [hsession]
        exact ⟨fun _ => ⟨fun h => (by cases h), fun _ h => (by cases h)⟩, fun _ h => (by cases h)⟩
    | some session =>
      by_cases happendable : Appendable session.events
      · obtain ⟨logged, hlogged⟩ := logOnly_appendable awaits.call voice happendable
          .voiceTransportSelected fun _ => ("direction", .str direction.value) ::
            ("transport", .str transport.value) ::
            excludeNone [("provider_id", providerId), ("reason", reason)]
        have hperform : RealtimeVoiceCoordinator.perform .memory
            { awaits.call with persists := true }
            (.transportSelected direction transport providerId reason) ⟨voice, session⟩ =
            .ok .logged ⟨voice, logged⟩ := Voicing.bind_ok hlogged
        refine ⟨_, coordinate_ok hsession hperform, ?_, ?_⟩
        · exact ⟨fun h => ⟨session, hsession, happendable, h⟩, fun ⟨_, _, _, h⟩ => h⟩
        · unfold VoiceAwaits.Uncut
          rw [hsession]
          refine ⟨fun h => ⟨fun hcut => (by cases hcut), fun _ _ _ => h⟩, fun h => ?_⟩
          exact h.2 session rfl happendable
      · obtain ⟨e, he⟩ := logOnly_not_appendable awaits.call voice happendable
          .voiceTransportSelected fun _ => ("direction", .str direction.value) ::
            ("transport", .str transport.value) ::
            excludeNone [("provider_id", providerId), ("reason", reason)]
        have hperform : RealtimeVoiceCoordinator.perform .memory
            { awaits.call with persists := true }
            (.transportSelected direction transport providerId reason) ⟨voice, session⟩ =
            .error e ⟨voice, session⟩ := Voicing.bind_error he
        refine ⟨_, coordinate_error hsession hperform, ⟨fun h => (by cases h), ?_⟩, ?_⟩
        · rintro ⟨found, hfound, hlogs, _⟩
          rw [hsession] at hfound
          cases hfound
          exact absurd hlogs happendable
        · unfold VoiceAwaits.Uncut
          rw [hsession]
          refine ⟨fun _ => ⟨fun h => (by cases h), fun found hfound hlogs => ?_⟩, fun _ h => (by cases h)⟩
          cases hfound
          exact absurd hlogs happendable

end Coordinator

end NoraInterviewer
