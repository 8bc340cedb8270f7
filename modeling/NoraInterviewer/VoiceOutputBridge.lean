import NoraInterviewer.VoiceSteps
import NoraInterviewer.Cooperative

/-! `VoiceOutputBridge`: the TTS streams of all sessions, with each call suspended wherever the
source awaits the store, the provider or the voice coordinator. The bodies of its
`async with self._lock` await nothing, so the lock is never found taken. -/

namespace NoraInterviewer

open RealtimeVoiceCoordinator

structure TtsAudioChunk where
  sequence : Nat
  generation : Nat
  audio : List UInt8

structure TtsStreamState where
  streamId : String
  sessionId : String
  turnId : String
  generation : Nat
  closed : Bool := false
  cancelled : Bool := false
  chunksSent : Nat := 0
  bytesSent : Nat := 0

/-- `_OutputStream`; its provider session is that of the call of `open` that made it. -/
structure OutputStream where
  state : TtsStreamState
  openedBy : Nat

/-- An exception that an await raised; `circuitOpen` for a `ProviderCircuitOpenError`. -/
structure AwaitFailure where
  circuitOpen : Bool := false
  typeName : String
  message : String

/-- The calls that run into each other: those of the bridge, `speech_started`, and any other
operation of the coordinator, which is taken whole. -/
inductive OutputCall where
  | open_ (sessionId turnId : String) (locale : Option String)
  | chunks (streamId : String)
  | cancelActive (sessionId reason : String)
  | close (streamId reason : String)
  | closeAll
  | speechStarted (sessionId : String)
  | coordinator (sessionId : String) (call : VoiceCall) (session : InterviewSession)
      (operation : VoiceOperation)

/-- What `open` has read before it asks the provider. -/
structure Opening where
  sessionId : String
  turn : Turn
  locale : String
  generation : Nat

/-- Who called `_mark_cancelled`. -/
inductive Canceller where
  | chunks
  | cancelActive
  | close
  | closeAll (rest : List String)

/-- What a call goes on with after an operation of the coordinator. -/
inductive AfterVoice where
  | openFailed (opening : Opening)
  | openStarted (opening : Opening)
  | openSelected (opening : Opening)
  | chunksReported (streamId : String)
  | markedCancelled (streamId : String) (raised : Bool) (canceller : Canceller)
  | chunksCompleted (streamId : String)
  | speechStarted

/-- Where a call is suspended. -/
inductive OutputPoint where
  | fetching (sessionId turnId : String) (locale : Option String)
  | synthesizing (opening : Opening)
  | abandoning (opening : Opening)
  | pulling (streamId : String)
  | yielded (streamId : String) (chunk : TtsAudioChunk)
  | dropping (streamId : String)
  | cancelling (streamId reason : String) (canceller : Canceller)
  /-- an operation of the coordinator waits for its session, or for its write -/
  | voice (sessionId : String) (operation : VoiceOperation) (persisting : Bool) (after : AfterVoice)

/-- What an await comes back with. The caller of `chunks` asks for the `next` one, or closes the
iteration, which is a cancellation like that of the task. -/
inductive AwaitReply where
  | session (session : Option InterviewSession) (call : VoiceCall)
  | returned
  | chunk (chunk : TtsAudioChunk)
  | exhausted
  | next
  | raised (failure : AwaitFailure)
  | cancelled

/-- The tables of the bridge, the records that were ever in them, and the voice states.
`openingSessions` also says which call put the session there. -/
structure OutputWorld where
  voice : String → VoiceSessionState := fun _ => {}
  records : String → Option OutputStream := fun _ => none
  streams : List String := []
  activeBySession : String → Option String := fun _ => none
  openingSessions : String → Option Nat := fun _ => none
  /-- streams for which an iteration of `chunks`, a `cancel_active` or a `close` has ended -/
  finished : List String := []
  /-- sessions and calls of `speech_started` that have returned -/
  interrupted : List (String × Nat) := []

namespace VoiceOutputBridge

abbrev Segment := OutputWorld × Option OutputPoint

/-- The call ends, with a result or an exception. -/
def ends (world : OutputWorld) : Segment := (world, none)

def setRecord (world : OutputWorld) (streamId : String)
    (f : TtsStreamState → TtsStreamState) : OutputWorld :=
  { world with
    records := Function.update world.records streamId
      ((world.records streamId).map fun record => { record with state := f record.state }) }

def finish (world : OutputWorld) (streamId : String) : OutputWorld :=
  { world with finished := streamId :: world.finished }

/-- `_release`. -/
def release (world : OutputWorld) (record : OutputStream) : OutputWorld :=
  { world with
    streams := world.streams.filter (· ≠ record.state.streamId)
    activeBySession :=
      if world.activeBySession record.state.sessionId = some record.state.streamId then
        Function.update world.activeBySession record.state.sessionId none
      else world.activeBySession }

/-- `record.state.closed = True` and `_release`, with which a call for the stream ends. -/
def closes (world : OutputWorld) (streamId : String) (record : OutputStream) : OutputWorld :=
  finish (release (setRecord world streamId fun state => { state with closed := true }) record)
    streamId

def discardOpening (world : OutputWorld) (sessionId : String) : OutputWorld :=
  { world with openingSessions := Function.update world.openingSessions sessionId none }

/-- An exception in `open` while there is a provider session. -/
def openRaises (opening : Opening) (reply : AwaitReply) (world : OutputWorld) : Segment :=
  match reply with
  | .cancelled => ends (discardOpening world opening.sessionId)
  | _ => (world, some (.abandoning opening))

variable (providerId : String) (streamId : Nat → String)

def providerFailed (failure : AwaitFailure) : VoiceOperation :=
  .providerFailed .tts providerId failure.typeName failure.message

/-- `open` once it has its session. -/
def openFetched (n : Nat) (sessionId turnId : String) (locale : Option String)
    (session : Option InterviewSession) (world : OutputWorld) : Segment :=
  match session with
  | none => ends world
  | some session =>
    match turnOf session turnId with
    | none => ends world
    | some turn =>
      if turn.speaker ≠ .interviewer then ends world
      else if world.activeBySession sessionId ≠ none ∨ world.openingSessions sessionId ≠ none then
        ends world
      else
        ({ world with openingSessions := Function.update world.openingSessions sessionId (some n) },
          some (.synthesizing {
            sessionId, turn
            locale := if given locale then locale.getD "" else session.locale
            generation := (world.voice sessionId).generation }))

/-- `open` once the provider has answered. -/
def openSynthesized (opening : Opening) (reply : AwaitReply) (world : OutputWorld) : Segment :=
  match reply with
  | .returned => (world, some (.voice opening.sessionId (.ttsStarted opening.turn.id) false
      (.openStarted opening)))
  | .raised failure =>
    if failure.circuitOpen then ends (discardOpening world opening.sessionId)
    else (world, some (.voice opening.sessionId (providerFailed providerId failure) false
      (.openFailed opening)))
  | _ => ends (discardOpening world opening.sessionId)

/-- The last part of `open`: the stream is in both tables, and no longer opening. -/
def register (n : Nat) (opening : Opening) (world : OutputWorld) : OutputWorld :=
  discardOpening { world with
    records := Function.update world.records (streamId n) (some {
      state := {
        streamId := streamId n
        sessionId := opening.sessionId
        turnId := opening.turn.id
        generation := opening.generation }
      openedBy := n })
    streams := world.streams ++ [streamId n]
    activeBySession := Function.update world.activeBySession opening.sessionId (some (streamId n)) }
    opening.sessionId

/-- `_record`, of a stream that is in the table. -/
def recordOf (world : OutputWorld) (streamId : String) : Option OutputStream :=
  if streamId ∈ world.streams then world.records streamId else none

/-- `TtsStreamNotFoundError` for a stream that was released. -/
def notFound (world : OutputWorld) (streamId : String) : OutputWorld :=
  match world.records streamId with
  | none => world
  | some _ => finish world streamId

/-- `close_all`, for the ids that are left: a stream that is marked already is released at once. -/
def closeNext : List String → OutputWorld → Segment
  | [], world => ends world
  | streamId :: rest, world =>
    match recordOf world streamId with
    | none => closeNext rest (notFound world streamId)
    | some record =>
      if record.state.cancelled then closeNext rest (closes world streamId record)
      else (setRecord world streamId fun state => { state with cancelled := true },
        some (.cancelling streamId "server_shutdown" (.closeAll rest)))

/-- What the caller of `_mark_cancelled` does when that returns or raises: `chunks` is in its
`except` clause, and comes to its `finally` in both cases; the others release only on return. -/
def afterMark (streamId : String) (record : OutputStream) (raised : Bool) (canceller : Canceller)
    (world : OutputWorld) : Segment :=
  match canceller with
  | .chunks => ends (closes world streamId record)
  | .cancelActive | .close =>
    if raised then ends (finish world streamId) else ends (closes world streamId record)
  | .closeAll rest =>
    if raised then ends (finish world streamId)
    else closeNext rest (closes world streamId record)

/-- `_mark_cancelled`. -/
def markCancelled (streamId reason : String) (record : OutputStream) (canceller : Canceller)
    (world : OutputWorld) : Segment :=
  if record.state.cancelled then afterMark streamId record false canceller world
  else (setRecord world streamId fun state => { state with cancelled := true },
    some (.cancelling streamId reason canceller))

/-- `_mark_cancelled` once the provider has been told. -/
def providerCancelled (streamId reason : String) (record : OutputStream) (canceller : Canceller)
    (reply : AwaitReply) (world : OutputWorld) : Segment :=
  let raised := match reply with
    | .raised _ | .cancelled => true
    | _ => false
  if (world.voice record.state.sessionId).activeTtsTurnId = some record.state.turnId then
    (world, some (.voice record.state.sessionId (.ttsCancelled record.state.turnId reason) false
      (.markedCancelled streamId raised canceller)))
  else afterMark streamId record raised canceller world

/-- An exception inside the loop of `chunks`. -/
def chunksRaise (streamId : String) (record : OutputStream) (failure : AwaitFailure)
    (world : OutputWorld) : Segment :=
  if failure.circuitOpen then
    markCancelled streamId "tts_provider_failure" record .chunks world
  else (world, some (.voice record.state.sessionId (providerFailed providerId failure) false
    (.chunksReported streamId)))

/-- The provider hands `chunks` one more chunk. -/
def chunkPulled (streamId : String) (record : OutputStream) (chunk : TtsAudioChunk)
    (world : OutputWorld) : Segment :=
  if chunk.generation ≠ record.state.generation then
    chunksRaise providerId streamId record
      { typeName := "RuntimeError", message := "TTS provider emitted a stale generation" } world
  else
    let currentVoice := world.voice record.state.sessionId
    if currentVoice.generation ≠ record.state.generation ∨
        currentVoice.activeTtsTurnId ≠ some record.state.turnId then
      (setRecord world streamId fun state => { state with cancelled := true },
        some (.dropping streamId))
    else
      (setRecord world streamId fun state => { state with
        chunksSent := state.chunksSent + 1
        bytesSent := state.bytesSent + chunk.audio.length },
        some (.yielded streamId chunk))

/-- The loop of `chunks` has come to its end. -/
def chunksExhausted (streamId : String) (record : OutputStream) (world : OutputWorld) : Segment :=
  let currentVoice := world.voice record.state.sessionId
  if currentVoice.activeTtsTurnId = some record.state.turnId ∧
      currentVoice.generation = record.state.generation then
    (world, some (.voice record.state.sessionId (.ttsCompleted record.state.turnId) false
      (.chunksCompleted streamId)))
  else
    ends (closes (setRecord world streamId fun state => { state with cancelled := true }) streamId
      record)

/-- A call goes on when its operation of the coordinator returned, raised or was cancelled. -/
def afterVoice (n : Nat) (sessionId : String) (after : AfterVoice) (reply : AwaitReply)
    (world : OutputWorld) : Segment :=
  match after with
  | .openFailed opening => ends (discardOpening world opening.sessionId)
  | .openStarted opening =>
    match reply with
    | .returned => (world, some (.voice opening.sessionId
        (.transportSelected .tts .server (some providerId) none) false (.openSelected opening)))
    | _ => openRaises opening reply world
  | .openSelected opening =>
    match reply with
    | .returned => ends (register streamId n opening world)
    | _ => openRaises opening reply world
  | .chunksReported streamId =>
    match world.records streamId with
    | none => ends world
    | some record =>
      match reply with
      | .cancelled => ends (closes world streamId record)
      | _ => markCancelled streamId "tts_provider_failure" record .chunks world
  | .markedCancelled streamId raised canceller =>
    match world.records streamId with
    | none => ends world
    | some record =>
      match reply with
      | .returned => afterMark streamId record raised canceller world
      | _ => afterMark streamId record true canceller world
  | .chunksCompleted streamId =>
    match world.records streamId with
    | none => ends world
    | some record =>
      match reply with
      | .returned => ends (closes world streamId record)
      | _ => ends (finish world streamId)
  | .speechStarted =>
    match reply with
    | .returned => ends { world with interrupted := (sessionId, n) :: world.interrupted }
    | _ => ends world

variable [CanonicalDigest]

/-- What an operation of the coordinator does to the state in memory once it has its session, and
whether it comes to its write. -/
def voiceSegment (call : VoiceCall) (session : InterviewSession) (operation : VoiceOperation)
    (voice : VoiceSessionState) : Bool × VoiceSessionState :=
  let result := RealtimeVoiceCoordinator.perform .memory { call with persists := true } operation ⟨voice, session⟩
  (accepted result, (landed result).voice)

def setVoice (world : OutputWorld) (sessionId : String) (voice : VoiceSessionState) : OutputWorld :=
  { world with voice := Function.update world.voice sessionId voice }

/-- An operation of the coordinator gets its session. -/
def voiceLoaded (n : Nat) (sessionId : String) (operation : VoiceOperation) (after : AfterVoice)
    (session : Option InterviewSession) (call : VoiceCall) (world : OutputWorld) : Segment :=
  let notFound : AwaitFailure := { typeName := "HTTPException", message := "404: Session not found" }
  match session with
  | none => afterVoice providerId streamId n sessionId after (.raised notFound) world
  | some session =>
    let segment := voiceSegment call session operation (world.voice sessionId)
    let world := setVoice world sessionId segment.2
    if segment.1 then (world, some (.voice sessionId operation true after))
    else afterVoice providerId streamId n sessionId after
      (.raised { typeName := "HTTPException", message := "409" }) world

/-- A suspended call goes on with the reply; one that the await cannot give leaves it suspended. -/
def resume (n : Nat) (point : OutputPoint) (reply : AwaitReply) (world : OutputWorld) : Segment :=
  match point with
  | .fetching sessionId turnId locale =>
    match reply with
    | .session session _ => openFetched n sessionId turnId locale session world
    | .raised _ | .cancelled => ends world
    | _ => (world, some point)
  | .synthesizing opening =>
    match reply with
    | .returned | .raised _ | .cancelled => openSynthesized providerId opening reply world
    | _ => (world, some point)
  | .abandoning opening =>
    match reply with
    | .returned | .raised _ | .cancelled => ends (discardOpening world opening.sessionId)
    | _ => (world, some point)
  | .pulling streamId =>
    match world.records streamId with
    | none => ends world
    | some record =>
      match reply with
      | .chunk chunk => chunkPulled providerId streamId record chunk world
      | .exhausted => chunksExhausted streamId record world
      | .raised failure => chunksRaise providerId streamId record failure world
      | .cancelled => ends (closes world streamId record)
      | _ => (world, some point)
  | .yielded streamId _ =>
    match world.records streamId with
    | none => ends world
    | some record =>
      match reply with
      | .next => (world, some (.pulling streamId))
      | .cancelled => ends (closes world streamId record)
      | _ => (world, some point)
  | .dropping streamId =>
    match world.records streamId with
    | none => ends world
    | some record =>
      match reply with
      | .returned | .cancelled => ends (closes world streamId record)
      | .raised failure => chunksRaise providerId streamId record failure world
      | _ => (world, some point)
  | .cancelling streamId reason canceller =>
    match world.records streamId with
    | none => ends world
    | some record =>
      match reply with
      | .returned | .raised _ | .cancelled =>
        providerCancelled streamId reason record canceller reply world
      | _ => (world, some point)
  | .voice sessionId operation false after =>
    match reply with
    | .session session call =>
      voiceLoaded providerId streamId n sessionId operation after session call world
    | .raised _ | .cancelled => afterVoice providerId streamId n sessionId after reply world
    | _ => (world, some point)
  | .voice sessionId _ true after =>
    match reply with
    | .returned | .raised _ | .cancelled => afterVoice providerId streamId n sessionId after reply world
    | _ => (world, some point)

/-- A call up to its first await. -/
def enter (_n : Nat) (call : OutputCall) (world : OutputWorld) : Segment :=
  match call with
  | .open_ sessionId turnId locale => (world, some (.fetching sessionId turnId locale))
  | .chunks streamId =>
    match recordOf world streamId with
    | none => ends (notFound world streamId)
    | some _ => (world, some (.pulling streamId))
  | .cancelActive sessionId reason =>
    match (world.activeBySession sessionId).bind fun streamId =>
        (recordOf world streamId).map fun record => (streamId, record) with
    | none => ends world
    | some (streamId, record) => markCancelled streamId reason record .cancelActive world
  | .close streamId reason =>
    match recordOf world streamId with
    | none => ends (notFound world streamId)
    | some record => markCancelled streamId reason record .close world
  | .closeAll => closeNext world.streams world
  | .speechStarted sessionId =>
    (world, some (.voice sessionId .speechStarted false .speechStarted))
  | .coordinator sessionId call session operation =>
    ends (setVoice world sessionId
      (landed (RealtimeVoiceCoordinator.perform .memory call operation ⟨world.voice sessionId, session⟩)).voice)

def program : Cooperative.Program OutputWorld OutputPoint OutputCall AwaitReply where
  enter := enter
  resume := resume providerId streamId

end VoiceOutputBridge

end NoraInterviewer
