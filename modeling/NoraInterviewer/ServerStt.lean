import NoraInterviewer.AudioStreams
import Mathlib.Algebra.BigOperators.Group.List.Basic
import Mathlib.Algebra.GroupWithZero.Nat

/-! The browser's microphone client, the audio socket that serves it, and the network between
them. -/

namespace NoraInterviewer

/-- `Number::toString` of the browser: at most 17 digits and an exponent. -/
structure NumberText where
  text : ℕ → List Char
  short : ∀ n, (text n).length ≤ 25

/-- What `stream_opened` tells the client; the stream id is `str(uuid4())`. -/
structure StreamIdentity where
  streamId : String
  sessionId : String
  reconnectToken : ReconnectToken
  streamId_size : streamId.length = 36

/-- `Math.max(160, Math.round(sample_rate_hz * 0.02))`. -/
def frameSamples (config : AudioStreamConfig) : ℕ := max 160 ((config.sampleRateHz + 25) / 50)

/-- The samples of an `Int16Array` frame; the last frame of an utterance may be short. -/
structure PcmFrame (config : AudioStreamConfig) where
  samples : List UInt16
  nonempty : samples ≠ []
  fits : samples.length ≤ frameSamples config

namespace PcmFrame

variable {config : AudioStreamConfig}

/-- `new Uint8Array(frame.buffer)`. -/
def bytes (frame : PcmFrame config) : List UInt8 :=
  frame.samples.flatMap fun sample : UInt16 => [sample.toUInt8, (sample >>> 8).toUInt8]

def pcmToBase64 (frame : PcmFrame config) : List Char := Base64.encode frame.bytes

theorem bytes_length (frame : PcmFrame config) :
    frame.bytes.length = 2 * frame.samples.length := by
  simp [bytes, List.length_flatMap, Nat.mul_comm]

theorem pcmToBase64_length (frame : PcmFrame config) :
    4 ≤ frame.pcmToBase64.length ∧ frame.pcmToBase64.length ≤ 5120 := by
  have hpos := List.length_pos_iff.mpr frame.nonempty
  have hfits := frame.fits
  have hrate := config.sampleRate_range.2
  unfold frameSamples at hfits
  rw [pcmToBase64, Base64.encode_length, bytes_length]
  omega

end PcmFrame

inductive ClientMessage where
  | chunk (sequence generation : ℕ) (audioBase64 : List Char)
  | reconnect (streamId reconnectToken : String) (generation nextSequence : ℕ)

/-- `JSON.stringify` of the message. -/
def ClientMessage.json (number : NumberText) : ClientMessage → List Char
  | chunk sequence generation audioBase64 =>
    "\x7b\"type\":\"chunk\",\"data\":\x7b\"sequence\":".toList ++ number.text sequence ++
      ",\"generation\":".toList ++ number.text generation ++
      ",\"audio_base64\":\"".toList ++ audioBase64 ++ "\"\x7d\x7d".toList
  | reconnect streamId reconnectToken generation nextSequence =>
    "\x7b\"type\":\"reconnect\",\"data\":\x7b\"stream_id\":\"".toList ++ streamId.toList ++
      "\",\"reconnect_token\":\"".toList ++ reconnectToken.toList ++
      "\",\"generation\":".toList ++ number.text generation ++
      ",\"next_sequence\":".toList ++ number.text nextSequence ++ "\x7d\x7d".toList

theorem chunk_json_length (number : NumberText) (sequence generation : ℕ)
    (audioBase64 : List Char) :
    ((ClientMessage.chunk sequence generation audioBase64).json number).length =
      (number.text sequence).length + (number.text generation).length + audioBase64.length + 69 := by
  have htype : "\x7b\"type\":\"chunk\",\"data\":\x7b\"sequence\":".length = 35 := by decide
  have hgeneration : ",\"generation\":".length = 14 := by decide
  have haudio : ",\"audio_base64\":\"".length = 17 := by decide
  have hclose : "\"\x7d\x7d".length = 3 := by decide
  unfold ClientMessage.json
  simp only [List.length_append, String.length_toList, htype, hgeneration, haudio, hclose]
  omega

theorem reconnect_json_length (number : NumberText) (streamId reconnectToken : String)
    (generation nextSequence : ℕ) :
    ((ClientMessage.reconnect streamId reconnectToken generation nextSequence).json
        number).length =
      streamId.length + reconnectToken.length + (number.text generation).length +
        (number.text nextSequence).length + 96 := by
  have htype : "\x7b\"type\":\"reconnect\",\"data\":\x7b\"stream_id\":\"".length = 41 := by decide
  have htoken : "\",\"reconnect_token\":\"".length = 21 := by decide
  have hgeneration : "\",\"generation\":".length = 15 := by decide
  have hnext : ",\"next_sequence\":".length = 17 := by decide
  have hclose : "\x7d\x7d".length = 2 := by decide
  unfold ClientMessage.json
  simp only [List.length_append, String.length_toList, htype, htoken, hgeneration, hnext, hclose]
  omega

/-- What the client heeds of the messages that the server sends. -/
inductive ServerMessage where
  | chunkAck (nextSequence : ℕ) (autoCommitRecommended : Bool)
  | streamReconnected (nextSequence : ℕ)
  | error

/-- `ws.bufferedAmount`: of the messages that the server has not got yet, the bytes that the
browser has not transmitted. -/
def bufferedAmount (number : NumberText) (wire : List ClientMessage) (transmitted : ℕ) : ℕ :=
  (wire.map fun message => (message.json number).length).sum - transmitted

/-- `map.set(key, value)` of a JavaScript `Map`. -/
def mapSet {α : Type} (key : ℕ) (value : α) : List (ℕ × α) → List (ℕ × α)
  | [] => [(key, value)]
  | entry :: rest =>
    if entry.1 = key then (key, value) :: rest else entry :: mapSet key value rest

/-- The fields that move audio. `streamOpen` is `streamId !== null`, `awaitingReply` is
`reconnectPromise !== null`. -/
structure NoraServerSttClient (config : AudioStreamConfig) where
  streamOpen : Bool := true
  awaitingReply : Bool := false
  generation : ℕ
  nextSequence : ℕ := 0
  serverNextSequence : ℕ := 0
  pendingAcks : ℕ := 0
  frameQueue : List (PcmFrame config) := []
  inFlight : List (ℕ × PcmFrame config) := []

namespace NoraServerSttClient

variable {config : AudioStreamConfig} (number : NumberText)

def maxInFlight : ℕ := 6

def maxQueuedFrames : ℕ := 150

def maxSocketBufferedBytes : ℕ := 128 * 1024

def resetStreamState (client : NoraServerSttClient config) : NoraServerSttClient config :=
  { streamOpen := false, awaitingReply := client.awaitingReply, generation := 0 }

/-- The loop of `flushFrames` over what is queued. -/
def flushQueue (transmitted : ℕ) : List (PcmFrame config) → NoraServerSttClient config →
    List ClientMessage → NoraServerSttClient config × List ClientMessage
  | [], client, wire => ({ client with frameQueue := [] }, wire)
  | frame :: queue, client, wire =>
    if client.pendingAcks < maxInFlight ∧
        bufferedAmount number wire transmitted < maxSocketBufferedBytes then
      let inFlight := mapSet client.nextSequence frame client.inFlight
      flushQueue transmitted queue
        { client with
          nextSequence := client.nextSequence + 1
          inFlight := inFlight
          pendingAcks := inFlight.length }
        (wire ++ [.chunk client.nextSequence client.generation frame.pcmToBase64])
    else ({ client with frameQueue := frame :: queue }, wire)

def flushFrames (transmitted : ℕ) (client : NoraServerSttClient config)
    (wire : List ClientMessage) : NoraServerSttClient config × List ClientMessage :=
  if client.streamOpen then flushQueue number transmitted client.frameQueue client wire
  else (client, wire)

def reconcileAfterReconnect (authoritativeNextSequence : ℕ)
    (client : NoraServerSttClient config) : NoraServerSttClient config :=
  let replay := ((client.inFlight.filter fun entry =>
    authoritativeNextSequence ≤ entry.1).mergeSort fun left right => left.1 ≤ right.1).map
      Prod.snd
  { client with
    inFlight := []
    pendingAcks := 0
    frameQueue := replay ++ client.frameQueue
    serverNextSequence := authoritativeNextSequence
    nextSequence := authoritativeNextSequence }

/-- One frame of `handleSamples`. -/
def capture (frame : PcmFrame config) (client : NoraServerSttClient config) :
    NoraServerSttClient config :=
  let queue := client.frameQueue ++ [frame]
  if maxQueuedFrames < queue.length then client.resetStreamState
  else { client with frameQueue := queue }

/-- The client commits; what it does from here on is left out. -/
def commit (client : NoraServerSttClient config) : NoraServerSttClient config :=
  { client with streamOpen := false, frameQueue := [] }

/-- The message that `reconnectStream` sends. -/
def reconnectMessage (identity : StreamIdentity) (client : NoraServerSttClient config) :
    ClientMessage :=
  .reconnect identity.streamId identity.reconnectToken.text client.generation
    client.serverNextSequence

end NoraServerSttClient

/-- One WebSocket: what is under way on it in each direction, and the handler at its server
end (`active_stream_id is not None`, and whether the handler still runs). -/
structure AudioSocket where
  toServer : List ClientMessage := []
  toClient : List ServerMessage := []
  attached : Bool
  live : Bool := true

/-- How the provider takes a chunk: with a recommendation of its voice activity, or with an
error that the handler reports or does not know. -/
inductive PushOutcome where
  | pushed (autoCommitRecommended : Bool)
  | raised (reported : Bool)

/-- A chunk message as the handler validates it. -/
def chunkMessage? (sequence generation : ℕ) (audioBase64 : List Char) :
    Option AudioChunkMessage :=
  if h : 4 ≤ (String.ofList audioBase64).length then
    some ⟨sequence, generation, String.ofList audioBase64, h⟩
  else none

namespace AudioSocket

/-- The handler reports an error and closes the socket. -/
def refuse (socket : AudioSocket) : AudioSocket :=
  { socket with toClient := socket.toClient ++ [.error], live := false }

def reply (socket : AudioSocket) (message : ServerMessage) : AudioSocket :=
  { socket with toClient := socket.toClient ++ [message] }

/-- `push_chunk` and the acknowledgement; the time that the provider takes is part of the time
that the acknowledgement is under way. -/
def handleChunk (streamId : String) (outcome : PushOutcome) (chunk : AudioChunkMessage)
    (socket : AudioSocket) (record : StreamRecord) :
    AudioSocket × StreamRecord × List (ℕ × List UInt8) :=
  match record.acceptChunk streamId chunk with
  | (.error (.raised _), record) => ({ socket with live := false }, record, [])
  | (.error _, record) => (socket.refuse, record, [])
  | (.ok (result, none), record) =>
    (socket.reply (.chunkAck result.nextSequence false), record, [])
  | (.ok (result, some audio), record) =>
    match outcome with
    | .pushed autoCommit =>
      (socket.reply (.chunkAck result.nextSequence autoCommit), record, [(chunk.sequence, audio)])
    | .raised true => (socket.refuse, record, [(chunk.sequence, audio)])
    | .raised false => ({ socket with live := false }, record, [(chunk.sequence, audio)])

/-- `audio_socket` takes its next message; last, the audio that the manager hands out. -/
def handle (identity : StreamIdentity) (outcome : PushOutcome) (socket : AudioSocket)
    (record : StreamRecord) : AudioSocket × StreamRecord × List (ℕ × List UInt8) :=
  match socket.live, socket.toServer with
  | true, .reconnect streamId reconnectToken generation nextSequence :: rest =>
    let socket := { socket with toServer := rest }
    if socket.attached then (socket.reply .error, record, [])
    else
      match record.reconnect streamId identity.sessionId reconnectToken generation
          nextSequence with
      | (.ok state, record) =>
        ({ socket with attached := true }.reply (.streamReconnected state.nextSequence),
          record, [])
      | (.error (.raised _), record) => ({ socket with live := false }, record, [])
      | (.error _, record) => (socket.refuse, record, [])
  | true, .chunk sequence generation audioBase64 :: rest =>
    let socket := { socket with toServer := rest }
    if socket.attached then
      match chunkMessage? sequence generation audioBase64 with
      | none => (socket.refuse, record, [])
      | some chunk => handleChunk identity.streamId outcome chunk socket record
    else (socket.refuse, record, [])
  | _, _ => (socket, record, [])

end AudioSocket

/-- One stream: its client, the socket that the client holds, the sockets that it lost and on
which messages may still arrive, and the server's record. `captured` and `accepted` are what
the microphone gave and what the manager handed out. -/
structure SttWorld (config : AudioStreamConfig) where
  client : NoraServerSttClient config
  socket : Option AudioSocket
  lingering : List AudioSocket := []
  record : StreamRecord
  captured : List (PcmFrame config) := []
  accepted : List (ℕ × List UInt8) := []

inductive SttAction (config : AudioStreamConfig) where
  | capture (frame : PcmFrame config)
  | flush (transmitted : ℕ)
  /-- the client gets the next message of the server -/
  | receive (transmitted : ℕ)
  /-- the server gets the next message of the client -/
  | serve (outcome : PushOutcome)
  | serveLingering (index : ℕ) (outcome : PushOutcome)
  /-- what is under way to the client is lost, and all but `kept` messages to the server -/
  | disconnect (kept : ℕ)
  | reconnect
  | acknowledgeProcessed (byteCount : ℕ)
  /-- the reconnect grace period is over -/
  | expire
  /-- the client fails, cancels or commits -/
  | finish

namespace SttWorld

variable {config : AudioStreamConfig} (number : NumberText) (identity : StreamIdentity)

/-- After `stream_opened`. -/
def opened (generation : ℕ) : SttWorld config where
  client := { generation := generation }
  socket := some { attached := true }
  record :=
    { state :=
        { streamId := identity.streamId, sessionId := identity.sessionId, config := config,
          generation := generation }
      reconnectToken := identity.reconnectToken }

def loseSocket (world : SttWorld config) (socket : AudioSocket) (kept : ℕ) : SttWorld config :=
  { world with
    socket := none
    lingering := world.lingering ++ [{ socket with toServer := socket.toServer.take kept }] }

def flush (transmitted : ℕ) (world : SttWorld config) (socket : AudioSocket) : SttWorld config :=
  let flushed := world.client.flushFrames number transmitted socket.toServer
  { world with client := flushed.1, socket := some { socket with toServer := flushed.2 } }

/-- `handleMessage`. After `stream_reconnected` the recovery that waits for it goes on at once,
before any other event, and flushes. -/
def handleMessage (transmitted : ℕ) (world : SttWorld config) (socket : AudioSocket) :
    ServerMessage → SttWorld config
  | .chunkAck nextSequence autoCommitRecommended =>
    let inFlight := world.client.inFlight.filter fun entry => ¬entry.1 < nextSequence
    let client := { world.client with
      serverNextSequence := nextSequence, inFlight := inFlight, pendingAcks := inFlight.length }
    if autoCommitRecommended then
      { world with client := client.commit, socket := some socket }
    else flush number transmitted { world with client := client } socket
  | .streamReconnected nextSequence =>
    let client := world.client.reconcileAfterReconnect nextSequence
    if client.awaitingReply then
      flush number transmitted { world with client := { client with awaitingReply := false } }
        socket
    else { world with client := client, socket := some socket }
  | .error =>
    if world.client.awaitingReply then
      loseSocket { world with client := { world.client with awaitingReply := false } } socket
        socket.toServer.length
    else { world with client := world.client.resetStreamState, socket := some socket }

/-- An action that is not possible leaves the world as it is. -/
def act (world : SttWorld config) : SttAction config → SttWorld config
  | .capture frame =>
    if world.client.streamOpen then
      { world with
        client := world.client.capture frame, captured := world.captured ++ [frame] }
    else world
  | .flush transmitted =>
    match world.socket with
    | some socket => flush number transmitted world socket
    | none => world
  | .receive transmitted =>
    match world.socket with
    | some socket =>
      match world.client.streamOpen, socket.toClient with
      | true, message :: rest =>
        handleMessage number transmitted world { socket with toClient := rest } message
      | _, _ => world
    | none => world
  | .serve outcome =>
    match world.socket with
    | some socket =>
      let handled := socket.handle identity outcome world.record
      { world with
        socket := some handled.1, record := handled.2.1
        accepted := world.accepted ++ handled.2.2 }
    | none => world
  | .serveLingering index outcome =>
    match world.lingering[index]? with
    | some socket =>
      let handled := socket.handle identity outcome world.record
      { world with
        lingering := world.lingering.set index handled.1, record := handled.2.1
        accepted := world.accepted ++ handled.2.2 }
    | none => world
  | .disconnect kept =>
    match world.socket with
    | some socket => loseSocket world socket kept
    | none => world
  | .reconnect =>
    match world.socket, world.client.streamOpen with
    | none, true =>
      { world with
        client := { world.client with awaitingReply := true }
        socket := some
          { toServer := [world.client.reconnectMessage identity], attached := false } }
    | _, _ => world
  | .acknowledgeProcessed byteCount =>
    { world with record := (world.record.acknowledgeProcessed byteCount).2 }
  | .expire => { world with record := world.record.close.2 }
  | .finish => { world with client := world.client.resetStreamState }

/-- Any interleaving of actions, from `stream_opened` on. -/
def run (generation : ℕ) (actions : List (SttAction config)) : SttWorld config :=
  actions.foldl (act number identity) (opened identity generation)

end SttWorld

end NoraInterviewer
