import NoraInterviewer.AudioLedger
import NoraInterviewer.VoiceCoordinator
import NoraInterviewer.Cooperative

/-! `audio_socket` and the expiry tasks of `api.py`. Every handler of a socket and every expiry task
is suspended at each of its awaits; what is awaited (the provider, the voice coordinator, the TTS
bridge, the socket) replies as it likes. The model of a handler begins once its socket is accepted. -/

namespace NoraInterviewer

structure AudioStreamOpenRequest where
  locale : String := "en"
  config : AudioStreamConfig := {}

structure AudioStreamReconnectRequest where
  streamId : String
  reconnectToken : String
  generation : ℕ
  nextSequence : ℕ

structure AudioStreamCloseRequest where
  streamId : String
  cancelProvider : Bool := false

/-- An exception in `audio_socket`. -/
inductive SocketFailure where
  /-- `WebSocketDisconnect` -/
  | disconnected
  | audio (error : AudioError)
  | circuitOpen
  | speechUnavailable
  | validation
  | http (status : ℕ)
  | cancelled
  | other (className : String)

/-- The classes that the second `except` clause names. -/
def SocketFailure.listed : SocketFailure → Bool
  | .audio (.raised (.validationError _)) => true
  | .audio error => error.code.isSome
  | .circuitOpen | .speechUnavailable | .validation | .http _ => true
  | .disconnected | .cancelled | .other _ => false

/-- A JSON message; its data is there if it passes validation, and a `close` may have none. -/
inductive SocketMessage where
  | notAnObject
  | ping
  | open_ (data : Option AudioStreamOpenRequest)
  | reconnect (data : Option AudioStreamReconnectRequest)
  | chunk (data : Option AudioChunkMessage)
  | commit
  | closeDefault
  | close (data : Option AudioStreamCloseRequest)
  | unknown (type : String)

/-- The local variables of a handler. -/
structure SocketHandler where
  sessionId : String
  activeStreamId : Option String := none

/-- Where the loop of a handler is suspended. -/
inductive SocketPoint where
  | receiving
  | sending
  | openingProvider (request : AudioStreamOpenRequest)
  | openingSpeech (request : AudioStreamOpenRequest)
  | abandoning (failure : SocketFailure)
  | openingTransport (streamId : String)
  | openingTts (streamId : String)
  | pushing (bytes : ℕ)
  | reportingPush (bytes : ℕ) (failure : SocketFailure)
  | acknowledging (autoCommit : Bool)
  | reportingEndpoint
  | committing
  | reportingCommit (failure : SocketFailure)
  | closingProvider
  | closingPump
  | confirmingClose

/-- The stream that the handler has opened and not yet taken for its own. -/
def SocketPoint.opens : SocketPoint → Option String
  | .openingTransport streamId | .openingTts streamId => some streamId
  | _ => none

inductive ExpiryPoint where
  | created
  | sleeping
  | closingProvider
  | closingPump

/-- A task of `expire`. -/
structure AudioExpiry where
  streamId : String
  point : ExpiryPoint := .created
  /-- it was cancelled, and has not run since -/
  cancelled : Bool := false

inductive AudioPoint where
  | socket (socket : SocketHandler) (point : SocketPoint)
  | reportingError (socket : SocketHandler)
  | hangingUp
  | expiring (k : ℕ)

/-- A socket is accepted, or the task that `create_task` made of the `k`-th `expire` begins. -/
inductive AudioEntry where
  | connect (sessionId : String)
  | expire (k : ℕ)

inductive SocketReply where
  | message (message : SocketMessage)
  | returned
  | voiceState (state : VoiceSessionState)
  /-- the provider took the audio; what `vad.observe` says of it, if there is one -/
  | pushed (vad : Except SocketFailure (Option Bool))
  | raised (failure : SocketFailure)

/-- `_ProviderStream`; the fields that the handlers read. -/
structure ProviderStream where
  committed : Bool := false

structure AudioServer where
  manager : AudioStreamManager := {}
  providerStreams : String → Option ProviderStream := fun _ => none
  /-- how many streams were opened -/
  opened : ℕ := 0
  expiryTasks : String → Option ℕ := fun _ => none
  /-- the expiry tasks that have not ended -/
  expiries : ℕ → Option AudioExpiry := fun _ => none
  created : ℕ := 0

namespace AudioSockets

/-- `_cancel_audio_expiry`. -/
def cancelAudioExpiry (streamId : String) (server : AudioServer) : AudioServer :=
  match server.expiryTasks streamId with
  | none => server
  | some k => { server with
      expiryTasks := Function.update server.expiryTasks streamId none
      expiries := Function.update server.expiries k
        ((server.expiries k).map fun expiry => { expiry with cancelled := true }) }

/-- `_schedule_audio_expiry`. -/
def scheduleAudioExpiry (streamId : String) (server : AudioServer) : AudioServer :=
  let server := cancelAudioExpiry streamId server
  { server with
    expiryTasks := Function.update server.expiryTasks streamId (some server.created)
    expiries := Function.update server.expiries server.created (some { streamId })
    created := server.created + 1 }

/-- The `finally` of `expire`. -/
def expiryEnds (k : ℕ) (expiry : AudioExpiry) (server : AudioServer) : AudioServer :=
  { server with
    expiryTasks := Function.update server.expiryTasks expiry.streamId none
    expiries := Function.update server.expiries k none }

def expiryWaits (k : ℕ) (expiry : AudioExpiry) (point : ExpiryPoint) (server : AudioServer) :
    AudioServer :=
  { server with expiries := Function.update server.expiries k (some { expiry with point }) }

/-- `VoiceStreamBridge.close` up to its first await; whether there is one. -/
def closeStream (streamId : String) (server : AudioServer) :
    Except AudioError Bool × AudioServer :=
  let closed := server.manager.close streamId
  let server := { server with manager := closed.2 }
  match closed.1 with
  | .error e => (.error e, server)
  | .ok _ => (.ok (server.providerStreams streamId).isSome,
      { server with providerStreams := Function.update server.providerStreams streamId none })

/-- `expire` from one await to the next. -/
def resumeExpiry (k : ℕ) (reply : SocketReply) (server : AudioServer) :
    AudioServer × Option AudioPoint :=
  match server.expiries k with
  | none => (server, none)
  | some expiry =>
    match expiry.point, reply with
    | .created, _ => (server, none)
    | .sleeping, reply =>
      if expiry.cancelled then (expiryEnds k expiry server, none)
      else
        match reply with
        | .returned =>
          match closeStream expiry.streamId server with
          | (.ok true, server) =>
            (expiryWaits k expiry .closingProvider server, some (.expiring k))
          | (_, server) => (expiryEnds k expiry server, none)
        | _ => (server, some (.expiring k))
    | .closingProvider, .returned =>
      (expiryWaits k expiry .closingPump server, some (.expiring k))
    | .closingProvider, .raised _ | .closingPump, .raised _ | .closingPump, .returned =>
      (expiryEnds k expiry server, none)
    | _, _ => (server, some (.expiring k))

/-- What the `try` block of a handler comes to: it is suspended again, or it raises. -/
abbrev Body := Except SocketFailure (SocketHandler × SocketPoint) × AudioServer

def waits (socket : SocketHandler) (point : SocketPoint) (server : AudioServer) : Body :=
  (.ok (socket, point), server)

def raises (failure : SocketFailure) (server : AudioServer) : Body := (.error failure, server)

def noProvider : SocketFailure := .other "RuntimeError"

def noStream : SocketFailure := .audio (.invalidReconnect "open or reconnect an audio stream first")

variable (streamId : ℕ → String) (token : ℕ → ReconnectToken)

/-- `manager.acknowledge_processed`, and then what the call goes on with. -/
def acknowledges (active : String) (bytes : ℕ) (server : AudioServer)
    (next : AudioServer → Body) : Body :=
  let acknowledged := server.manager.acknowledgeProcessed active bytes
  let server := { server with manager := acknowledged.2 }
  match acknowledged.1 with
  | .error e => raises (.audio e) server
  | .ok _ => next server

/-- `VoiceStreamBridge.push_chunk` up to its first await. -/
def pushChunk (socket : SocketHandler) (active : String) (chunk : AudioChunkMessage)
    (server : AudioServer) : Body :=
  let accepted := server.manager.acceptChunk active chunk
  let server := { server with manager := accepted.2 }
  match accepted.1 with
  | .error e => raises (.audio e) server
  | .ok (_, audio) =>
    match server.providerStreams active with
    | none => raises noProvider server
    | some provider =>
      match audio with
      | none => waits socket (.acknowledging false) server
      | some audio =>
        if provider.committed then
          acknowledges active audio.length server (waits socket (.acknowledging false))
        else waits socket (.pushing audio.length) server

/-- `VoiceStreamBridge.commit` up to its first await. -/
def commit (socket : SocketHandler) (active : String) (server : AudioServer) : Body :=
  match server.providerStreams active with
  | none => raises noProvider server
  | some provider =>
    if provider.committed then waits socket .sending server else waits socket .committing server

/-- A message is received. -/
def receives (socket : SocketHandler) (message : SocketMessage) (server : AudioServer) : Body :=
  match message with
  | .notAnObject => raises (.other "AttributeError") server
  | .ping | .unknown _ => waits socket .sending server
  | .open_ data =>
    if socket.activeStreamId.isSome then waits socket .sending server
    else
      match data with
      | none => raises .validation server
      | some request => waits socket (.openingProvider request) server
  | .reconnect data =>
    if socket.activeStreamId.isSome then waits socket .sending server
    else
      match data with
      | none => raises .validation server
      | some request =>
        let reconnected := server.manager.reconnect request.streamId socket.sessionId
          request.reconnectToken request.generation request.nextSequence
        let server := { server with manager := reconnected.2 }
        match reconnected.1 with
        | .error e => raises (.audio e) server
        | .ok _ =>
          match server.providerStreams request.streamId with
          | none => raises noProvider server
          | some _ => waits { socket with activeStreamId := some request.streamId } .sending
              (cancelAudioExpiry request.streamId server)
  | .chunk data =>
    match socket.activeStreamId with
    | none => raises noStream server
    | some active =>
      match data with
      | none => raises .validation server
      | some chunk => pushChunk socket active chunk server
  | .commit =>
    match socket.activeStreamId with
    | none => raises noStream server
    | some active => commit socket active server
  | .closeDefault => closes socket server
  | .close data =>
    match socket.activeStreamId with
    | none => waits socket .sending server
    | some active =>
      match data with
      | none => raises .validation server
      | some request =>
        if request.streamId ≠ active then
          raises (.audio (.invalidReconnect "close request references a different audio stream"))
            server
        else closes socket server
where
  /-- A `close` of the active stream. -/
  closes (socket : SocketHandler) (server : AudioServer) : Body :=
    match socket.activeStreamId with
    | none => waits socket .sending server
    | some active =>
      match closeStream active (cancelAudioExpiry active server) with
      | (.error e, server) => raises (.audio e) server
      | (.ok true, server) => waits socket .closingProvider server
      | (.ok false, server) => waits socket .confirmingClose server

/-- `manager.open`, once the speech has started. -/
def opensStream (socket : SocketHandler) (request : AudioStreamOpenRequest) (state : VoiceSessionState)
    (server : AudioServer) : Body :=
  let opened := server.manager.openStream socket.sessionId state.generation request.config
    (streamId server.opened) (token server.opened)
  let raised := { server with manager := opened.2 }
  match opened.1 with
  | .error e => raises (.audio e) raised
  | .ok result => waits socket (.openingTransport result.state.streamId)
      { raised with opened := server.opened + 1 }

/-- The `try` block from one await to the next, with an active stream where there must be one. -/
def goesOn (socket : SocketHandler) (active : String) (point : SocketPoint) (reply : SocketReply)
    (server : AudioServer) : Body :=
  match point, reply with
  | .pushing bytes, .pushed vad =>
    acknowledges active bytes server fun server =>
      match vad with
      | .error failure => raises failure server
      | .ok observed => waits socket (.acknowledging (observed.getD false)) server
  | .pushing bytes, .raised .cancelled => acknowledges active bytes server (raises .cancelled)
  | .pushing bytes, .raised failure => waits socket (.reportingPush bytes failure) server
  | .reportingPush bytes _, .raised .cancelled =>
    acknowledges active bytes server (raises .cancelled)
  | .reportingPush bytes failure, .returned | .reportingPush bytes failure, .raised _ =>
    acknowledges active bytes server (raises failure)
  | .reportingEndpoint, .returned => commit socket active server
  | .committing, .returned => waits socket .sending { server with
      providerStreams := Function.update server.providerStreams active
        ((server.providerStreams active).map fun provider => { provider with committed := true }) }
  | .committing, .raised .cancelled => raises .cancelled server
  | .committing, .raised failure => waits socket (.reportingCommit failure) server
  | .reportingCommit failure, .returned => raises failure server
  | _, _ => waits socket point server

/-- The `try` block of a handler from one await to the next. -/
def body (socket : SocketHandler) (point : SocketPoint) (reply : SocketReply) (server : AudioServer) :
    Body :=
  match point, reply with
  | .receiving, .message message => receives socket message server
  | .sending, .returned => waits socket .receiving server
  | .openingProvider request, .returned => waits socket (.openingSpeech request) server
  | .openingSpeech request, .voiceState state =>
    opensStream streamId token socket request state server
  | .openingSpeech _, .raised .cancelled => raises .cancelled server
  | .openingSpeech _, .raised failure => waits socket (.abandoning failure) server
  | .abandoning failure, .returned => raises failure server
  | .openingTransport id, .returned => waits socket (.openingTts id)
      { server with providerStreams := Function.update server.providerStreams id (some {}) }
  | .openingTts id, .returned => waits { socket with activeStreamId := some id } .sending server
  | .acknowledging autoCommit, .returned =>
    waits socket (if autoCommit then .reportingEndpoint else .receiving) server
  | .closingProvider, .returned => waits socket .closingPump server
  | .closingPump, .returned | .closingPump, .raised .cancelled =>
    waits socket .confirmingClose server
  | .confirmingClose, .returned => waits { socket with activeStreamId := none } .receiving server
  | .pushing _, reply | .reportingPush _ _, reply | .committing, reply =>
    match socket.activeStreamId with
    | none => waits socket point server
    | some active => goesOn socket active point reply server
  | .reportingEndpoint, .returned | .reportingCommit _, .returned =>
    match socket.activeStreamId with
    | none => waits socket point server
    | some active => goesOn socket active point reply server
  | _, .raised failure => raises failure server
  | _, _ => waits socket point server

/-- The `except` clauses of a handler. -/
def leaves (socket : SocketHandler) (failure : SocketFailure) (server : AudioServer) :
    AudioServer × Option AudioPoint :=
  match failure with
  | .disconnected =>
    match socket.activeStreamId with
    | none => (server, none)
    | some active => (scheduleAudioExpiry active server, none)
  | failure =>
    if failure.listed then (server, some (.reportingError socket)) else (server, none)

def enter (_n : ℕ) (entry : AudioEntry) (server : AudioServer) : AudioServer × Option AudioPoint :=
  match entry with
  | .connect sessionId => (server, some (.socket { sessionId } .receiving))
  | .expire k =>
    match server.expiries k with
    | some ⟨id, .created, cancelled⟩ =>
      -- a task that is cancelled before it begins does not come to its `finally`
      if cancelled then ({ server with expiries := Function.update server.expiries k none }, none)
      else (expiryWaits k ⟨id, .created, cancelled⟩ .sleeping server, some (.expiring k))
    | _ => (server, none)

def resume (_n : ℕ) (point : AudioPoint) (reply : SocketReply) (server : AudioServer) :
    AudioServer × Option AudioPoint :=
  match point with
  | .socket socket point =>
    match body streamId token socket point reply server with
    | (.ok (socket, point), server) => (server, some (.socket socket point))
    | (.error failure, server) => leaves socket failure server
  | .reportingError socket =>
    match reply with
    | .returned | .raised _ =>
      match socket.activeStreamId with
      | none => (server, some .hangingUp)
      | some active => (scheduleAudioExpiry active server, some .hangingUp)
    | _ => (server, some point)
  | .hangingUp =>
    match reply with
    | .returned | .raised _ => (server, none)
    | _ => (server, some point)
  | .expiring k => resumeExpiry k reply server

def program : Cooperative.Program AudioServer AudioPoint AudioEntry SocketReply where
  enter := enter
  resume := resume streamId token

end AudioSockets

end NoraInterviewer
