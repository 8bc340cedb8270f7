import NoraInterviewer.ServicePrograms
import NoraInterviewer.HttpRoutes

/-! `RealtimeVoiceCoordinator` of one session. A call runs from its first await to its end; what
it meets there, the clock, the store and the interview, comes with it. -/

namespace NoraInterviewer

inductive VoicePhase where
  | idle | listening | processing | speaking | closed
  deriving DecidableEq, Repr

def VoicePhase.value : VoicePhase → String
  | idle => "idle"
  | listening => "listening"
  | processing => "processing"
  | speaking => "speaking"
  | closed => "closed"

structure VoiceSessionState where
  phase : VoicePhase := .idle
  generation : Nat := 0
  interruptionCount : Nat := 0
  activeTtsTurnId : Option String := none
  speechStartedAtMs : Option Nat := none
  responseReadyAtMs : Option Nat := none
  lastSpeechToFinalMs : Option Nat := none
  lastFinalToResponseMs : Option Nat := none
  lastResponseToTtsMs : Option Nat := none
  deriving DecidableEq

structure TranscriptEvent where
  text : String
  confidence : Option UnitScore := none
  locale : Option String := none
  dialect : Option String := none
  technicalVocabularyPacks : List String := []
  asrReferenceText : Option String := none
  asrCriticalTerms : List String := []

inductive VoiceDirection where
  | stt | tts
  deriving DecidableEq

def VoiceDirection.value : VoiceDirection → String
  | stt => "stt"
  | tts => "tts"

inductive VoiceTransport where
  | server | browser
  deriving DecidableEq

def VoiceTransport.value : VoiceTransport → String
  | server => "server"
  | browser => "browser"

/-- What the voice activity detector saw when it recommended to commit. -/
structure VadObservation where
  state : String
  utteranceMs : Nat
  silenceMs : Nat
  frameMs : Nat
  autoCommitRecommended : Bool

/-- The operations of the coordinator. -/
inductive VoiceOperation where
  | speechStarted
  | transcriptPartial (event : TranscriptEvent)
  | transcriptFinal (event : TranscriptEvent)
  | ttsStarted (turnId : String)
  | ttsCompleted (turnId : String)
  | ttsCancelled (turnId reason : String)
  | providerFailed (direction : VoiceDirection) (providerId errorType message : String)
  | transportSelected (direction : VoiceDirection) (transport : VoiceTransport)
      (providerId reason : Option String)
  | transportFallback (direction : VoiceDirection) (from_ to_ : VoiceTransport) (reason : String)
  | vadEndpoint (observation : VadObservation)
  | closeSession (reason : String)

/-- The turn that a TTS event is about. -/
def VoiceOperation.ttsTurn : VoiceOperation → Option String
  | .ttsStarted turnId | .ttsCompleted turnId | .ttsCancelled turnId _ => some turnId
  | _ => none

/-- `speech_started`, `transcript_partial` or `transcript_final`. -/
def VoiceOperation.isInput : VoiceOperation → Bool
  | .speechStarted | .transcriptPartial _ | .transcriptFinal _ => true
  | _ => false

/-- The event of an operation that only writes one. -/
def VoiceOperation.logs : VoiceOperation → Option EventType
  | .providerFailed .. => some .voiceProviderFailed
  | .transportSelected .. => some .voiceTransportSelected
  | .transportFallback .. => some .voiceTransportFallback
  | .vadEndpoint _ => some .voiceVadEndpoint
  | _ => none

structure VoiceTurnResult where
  state : VoiceSessionState
  interviewerTurn : Option Turn
  toolInvocation : Option ToolInvocation
  completed : Bool

inductive VoiceReply where
  | state (state : VoiceSessionState)
  | turn (result : VoiceTurnResult)
  | logged

/-- What one call of the coordinator meets: the clock, the metadata of the transcript, the service
call that an answer makes, with the start before it, and which writes the store takes. -/
structure VoiceCall extends Ambient where
  nowMs : Nat := 0
  responseStartedMs : Nat := 0
  responseReadyMs : Nat := 0
  languageMetadata : TranscriptEvent → String → Except Raised (Dict Json)
  startCall : Call
  call : Call
  persists : Bool := true
  startPersists : Bool := true
  answerPersists : Bool := true
  responsePersists : Bool := true

/-- The state in memory and the session in the store. -/
structure VoiceWorld where
  voice : VoiceSessionState := {}
  stored : InterviewSession

/-- A call of the coordinator; an exception leaves the world as far as the call got. -/
abbrev Voicing := EStateM PyError VoiceWorld

namespace Voicing

def raise {α : Type} (e : PyError) : Voicing α := fun world => .error e world

def session : Voicing InterviewSession := fun world => .ok world.stored world

def voice : Voicing VoiceSessionState := fun world => .ok world.voice world

def setVoice (f : VoiceSessionState → VoiceSessionState) : Voicing Unit := fun world =>
  .ok () { world with voice := f world.voice }

def lift {α : Type} : Except PyError α → Voicing α
  | .ok a => fun world => .ok a world
  | .error e => raise e

/-- A write of the store, which fails with `e` when another writer came first. -/
def put (backend : Backend) (e : PyError) (persists : Bool) (session : InterviewSession) :
    Voicing Unit := fun world =>
  if persists then .ok () { world with stored := backend.stored session } else .error e world

end Voicing

namespace RealtimeVoiceCoordinator

open Voicing

/-- `_ensure_input_allowed`. -/
def ensureInputAllowed (session : InterviewSession) : Voicing Unit :=
  if session.status = .completed then do
    setVoice fun voice => { voice with phase := .closed }
    raise alreadyComplete
  else if session.status = .cancelled then do
    setVoice fun voice => { voice with phase := .closed }
    raise isCancelled
  else pure ()

/-- `payload={"confidence": event.confidence}`. -/
def confidenceJson (event : TranscriptEvent) : Json :=
  event.confidence.elim .null fun confidence => .num confidence.val

def optionalNat : Option Nat → Json
  | some n => .nat n
  | none => .null

def bargeInPayload (voice : VoiceSessionState) (interrupted : Option String) : Dict Json := [
  ("generation", .nat voice.generation),
  ("interrupted_turn_id", .ofOption interrupted),
  ("interruption_count", .nat voice.interruptionCount)]

def turnOf (session : InterviewSession) (turnId : String) : Option Turn :=
  session.turns.find? fun turn => turn.id = turnId

variable [CanonicalDigest] (backend : Backend) (call : VoiceCall)

def persistVoice (persists : Bool) (session : InterviewSession) : Voicing Unit :=
  put backend voiceChangedConcurrently persists session

def log (session : InterviewSession) (type : EventType) (turn : Option Turn)
    (payload : Dict Json) : Voicing InterviewSession :=
  lift (appendEvent call.toAmbient session type turn payload)

/-- `speech_started` while interviewer audio is playing. -/
def bargeIn (session : InterviewSession) : Voicing InterviewSession := do
  let interrupted := (← voice).activeTtsTurnId
  setVoice fun voice => { voice with
    interruptionCount := voice.interruptionCount + 1
    generation := voice.generation + 1 }
  let session ← log call session .voiceBargeIn none (bargeInPayload (← voice) interrupted)
  let session ← log call session .voiceTtsCancelled none [
    ("turn_id", .ofOption interrupted),
    ("reason", .str "barge_in"),
    ("generation", .nat (← voice).generation)]
  setVoice fun voice => { voice with activeTtsTurnId := none }
  pure session

def speechStarted : Voicing VoiceSessionState := do
  let session ← session
  ensureInputAllowed session
  let session ← if (← voice).phase = .speaking then bargeIn call session else pure session
  setVoice fun voice => { voice with phase := .listening, speechStartedAtMs := some call.nowMs }
  let session ← log call session .voiceSpeechStarted none [
    ("generation", .nat (← voice).generation),
    ("started_at_ms", .nat call.nowMs)]
  persistVoice backend call.persists session
  voice

def transcriptPartial (event : TranscriptEvent) : Voicing VoiceSessionState := do
  let session ← session
  ensureInputAllowed session
  if (← voice).phase ≠ .listening then
    raise (.http 409 "Partial transcript received while voice phase is {state.phase.value}"
      [(← voice).phase.value])
  else
    let session ← log call session .voiceTranscriptPartial none [
      ("text", .str event.text),
      ("confidence", confidenceJson event),
      ("generation", .nat (← voice).generation)]
    persistVoice backend call.persists session
    voice

/-- A commit of the service, or its return without a write. -/
def commitOutcome {α : Type} (persists : Bool) : Except PyError (Outcome α) → Voicing α
  | .error e => raise e
  | .ok (.keep result) => pure result
  | .ok (.commit session result) => do
    put backend changedConcurrently persists session
    pure result

/-- `_get` and then `start`. -/
def startInterview : Voicing SessionStep := do
  let session ← session
  match call.startCall.job with
  | none => raise missingJob
  | some job => commitOutcome backend call.startPersists (start call.startCall session job)

/-- `InterviewService.answer`; it starts a session that is still CREATED, and loads it again. -/
def answerInterview (text : String) (turnMetadata : Dict Json) : Voicing SessionStep := do
  if (← session).status = .created then
    let _ ← startInterview backend call
  let session ← session
  match call.call.job with
  | none => raise missingJob
  | some job =>
    commitOutcome backend call.answerPersists (answer call.call session job text turnMetadata)

/-- What `transcript_final` does once the interview has answered. -/
def respond (step : SessionStep) : Voicing VoiceTurnResult := do
  setVoice fun voice => { voice with
    lastFinalToResponseMs := some (call.responseReadyMs - call.responseStartedMs)
    responseReadyAtMs := some call.responseReadyMs
    activeTtsTurnId := step.interviewerTurn.map Turn.id }
  let current ← session
  let current ← log call current .voiceResponseReady step.interviewerTurn [
    ("generation", .nat (← voice).generation),
    ("final_to_response_ms", optionalNat (← voice).lastFinalToResponseMs),
    ("interviewer_turn_id", .ofOption (step.interviewerTurn.map Turn.id))]
  persistVoice backend call.responsePersists current
  if step.status = .completed ∧ step.interviewerTurn = none then
    setVoice fun voice => { voice with phase := .closed }
  pure {
    state := ← voice
    interviewerTurn := step.interviewerTurn
    toolInvocation := step.toolInvocation
    completed := step.status = .completed }

/-- `speech_to_final_ms` of a speech whose start is known. -/
def timed (voice : VoiceSessionState) (nowMs : Nat) : VoiceSessionState :=
  match voice.speechStartedAtMs with
  | some started => { voice with lastSpeechToFinalMs := some (nowMs - started) }
  | none => voice

def unprocessable {α : Type} : Except Raised α → Except PyError α
  | .ok a => .ok a
  | .error e => .error (if e.isValueError then .http 422 e.message [] else .raised e)

/-- `transcript_final` up to the answer of the interview. -/
def takeFinal (event : TranscriptEvent) : Voicing SessionStep := do
  let session ← session
  ensureInputAllowed session
  if (← voice).phase ≠ .listening then
    raise (.http 409 "Final transcript received while voice phase is {state.phase.value}"
      [(← voice).phase.value])
  else
    setVoice fun voice => timed voice call.nowMs
    let languageMetadata ← lift (unprocessable (call.languageMetadata event
      (if given event.locale then event.locale.getD "" else session.locale)))
    let session ← log call session .voiceTranscriptFinal none [
      ("text", .str event.text),
      ("confidence", confidenceJson event),
      ("generation", .nat (← voice).generation),
      ("speech_to_final_ms", optionalNat (← voice).lastSpeechToFinalMs),
      ("language_metadata", .obj languageMetadata)]
    persistVoice backend call.persists session
    setVoice fun voice => { voice with phase := .processing }
    answerInterview backend call event.text languageMetadata

def transcriptFinal (event : TranscriptEvent) : Voicing VoiceTurnResult := do
  let step ← takeFinal backend call event
  respond backend call step

def ttsStarted (turnId : String) : Voicing VoiceSessionState := do
  let session ← session
  if session.status = .cancelled then
    setVoice fun voice => { voice with phase := .closed }
    raise isCancelled
  else
    match turnOf session turnId with
    | none => raise (.http 400 "TTS event references unknown turn" [])
    | some knownTurn =>
      if (← voice).activeTtsTurnId ≠ none ∧ (← voice).activeTtsTurnId ≠ some turnId then
        raise (.http 409 "TTS started for a stale interviewer turn" [])
      else
        setVoice fun voice =>
          match voice.responseReadyAtMs with
          | some ready => { voice with lastResponseToTtsMs := some (call.nowMs - ready) }
          | none => voice
        setVoice fun voice => { voice with phase := .speaking, activeTtsTurnId := some turnId }
        let session ← log call session .voiceTtsStarted (some knownTurn) [
          ("generation", .nat (← voice).generation),
          ("response_to_tts_ms", optionalNat (← voice).lastResponseToTtsMs)]
        persistVoice backend call.persists session
        voice

def ttsCompleted (turnId : String) : Voicing VoiceSessionState := do
  let session ← session
  if (← voice).activeTtsTurnId ≠ some turnId then
    raise (.http 409 "TTS completion does not match the active interviewer turn" [])
  else
    let logged ← log call session .voiceTtsCompleted (turnOf session turnId) [
      ("generation", .nat (← voice).generation)]
    setVoice fun voice => { voice with
      activeTtsTurnId := none
      responseReadyAtMs := none
      speechStartedAtMs := none
      phase := if session.status = .completed then .closed else .idle }
    persistVoice backend call.persists logged
    voice

def ttsCancelled (turnId reason : String) : Voicing VoiceSessionState := do
  let session ← session
  if (← voice).activeTtsTurnId ≠ some turnId then
    raise (.http 409 "TTS cancellation does not match the active interviewer turn" [])
  else
    let session ← log call session .voiceTtsCancelled (turnOf session turnId) [
      ("generation", .nat (← voice).generation),
      ("reason", .str reason)]
    setVoice fun voice => { voice with
      activeTtsTurnId := none
      responseReadyAtMs := none
      phase := .idle }
    persistVoice backend call.persists session
    voice

/-- `provider_failed`, `transport_selected`, `transport_fallback` and `vad_endpoint`: one event,
and nothing in memory. -/
def logOnly (type : EventType) (payload : VoiceSessionState → Dict Json) : Voicing Unit := do
  let session ← session
  let session ← log call session type none (payload (← voice))
  persistVoice backend call.persists session

def providerFailed (direction : VoiceDirection) (providerId errorType message : String) :
    Voicing Unit :=
  logOnly backend call .voiceProviderFailed fun _ => [
    ("direction", .str direction.value),
    ("provider_id", .str providerId),
    ("error_type", .str errorType),
    ("message", .str (String.ofList (message.toList.take 1000)))]

/-- `model_dump(mode="json", exclude_none=True)` of the optional fields. -/
def excludeNone (fields : List (String × Option String)) : Dict Json :=
  fields.filterMap fun field => field.2.map fun value => (field.1, .str value)

def transportSelected (direction : VoiceDirection) (transport : VoiceTransport)
    (providerId reason : Option String) : Voicing Unit :=
  logOnly backend call .voiceTransportSelected fun _ =>
    ("direction", .str direction.value) :: ("transport", .str transport.value) ::
      excludeNone [("provider_id", providerId), ("reason", reason)]

def transportFallback (direction : VoiceDirection) (from_ to_ : VoiceTransport) (reason : String) :
    Voicing Unit :=
  logOnly backend call .voiceTransportFallback fun _ => [
    ("direction", .str direction.value),
    ("from_transport", .str from_.value),
    ("to_transport", .str to_.value),
    ("reason", .str reason)]

def vadEndpoint (observation : VadObservation) : Voicing Unit :=
  logOnly backend call .voiceVadEndpoint fun voice => [
    ("generation", .nat voice.generation),
    ("state", .str observation.state),
    ("utterance_ms", .nat observation.utteranceMs),
    ("silence_ms", .nat observation.silenceMs),
    ("frame_ms", .nat observation.frameMs),
    ("auto_commit_recommended", .bool observation.autoCommitRecommended)]

def closeSession (reason : String) : Voicing VoiceSessionState := do
  let session ← session
  setVoice fun voice => { voice with generation := voice.generation + 1 }
  match (← voice).activeTtsTurnId with
  | none => pure ()
  | some active =>
    let session ← log call session .voiceTtsCancelled (turnOf session active) [
      ("generation", .nat (← voice).generation),
      ("reason", .str reason)]
    persistVoice backend call.persists session
  setVoice fun voice => { voice with
    activeTtsTurnId := none
    responseReadyAtMs := none
    speechStartedAtMs := none
    phase := .closed }
  voice

def perform : VoiceOperation → Voicing VoiceReply
  | .speechStarted => return .state (← speechStarted backend call)
  | .transcriptPartial event => return .state (← transcriptPartial backend call event)
  | .transcriptFinal event => return .turn (← transcriptFinal backend call event)
  | .ttsStarted turnId => return .state (← ttsStarted backend call turnId)
  | .ttsCompleted turnId => return .state (← ttsCompleted backend call turnId)
  | .ttsCancelled turnId reason => return .state (← ttsCancelled backend call turnId reason)
  | .providerFailed direction providerId errorType message => do
    providerFailed backend call direction providerId errorType message
    return .logged
  | .transportSelected direction transport providerId reason => do
    transportSelected backend call direction transport providerId reason
    return .logged
  | .transportFallback direction from_ to_ reason => do
    transportFallback backend call direction from_ to_ reason
    return .logged
  | .vadEndpoint observation => do
    vadEndpoint backend call observation
    return .logged
  | .closeSession reason => return .state (← closeSession backend call reason)

end RealtimeVoiceCoordinator

end NoraInterviewer
