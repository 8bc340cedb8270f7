import NoraInterviewer.Values
import NoraInterviewer.Errors
import NoraInterviewer.Base64

namespace NoraInterviewer

inductive AudioEncoding where
  | pcm16
  | opus
  deriving DecidableEq

structure AudioStreamConfig where
  encoding : AudioEncoding := .pcm16
  sampleRateHz : ℕ := 16000
  channels : ℕ := 1
  maxChunkBytes : ℕ := 32768
  maxBufferedBytes : ℕ := 524288
  sampleRate_range : 8000 ≤ sampleRateHz ∧ sampleRateHz ≤ 96000 := by decide
  channels_range : 1 ≤ channels ∧ channels ≤ 2 := by decide
  maxChunk_range : 1024 ≤ maxChunkBytes ∧ maxChunkBytes ≤ 262144 := by decide
  maxBuffered_range : 32768 ≤ maxBufferedBytes ∧ maxBufferedBytes ≤ 8388608 := by decide
  chunk_le_buffered : maxChunkBytes ≤ maxBufferedBytes := by decide

structure AudioChunkMessage where
  sequence : ℕ
  generation : ℕ
  audioBase64 : String
  minLength : 4 ≤ audioBase64.length

/-- What a call of the manager may raise: an `AudioStreamError`, or an error that is none. -/
inductive AudioError where
  | streamClosed (message : String)
  | chunkTooLarge (message : String)
  | invalidSequence (message : String)
  | staleGeneration (message : String)
  | backpressure (message : String)
  | invalidReconnect (message : String)
  | raised (exception : Raised)
  deriving DecidableEq

/-- `AudioStreamError.code`. -/
def AudioError.code : AudioError → Option String
  | streamClosed _ => some "stream_closed"
  | chunkTooLarge _ => some "chunk_too_large"
  | invalidSequence _ => some "invalid_sequence"
  | staleGeneration _ => some "stale_generation"
  | backpressure _ => some "backpressure"
  | invalidReconnect _ => some "invalid_reconnect"
  | raised _ => none

def AudioChunkMessage.decode (chunk : AudioChunkMessage) : Except AudioError (List UInt8) :=
  match Base64.decode chunk.audioBase64.toList with
  | some audio => .ok audio
  | none => .error (.raised (.valueError "audio_base64 is not valid base64"))

structure AudioStreamState where
  streamId : String
  sessionId : String
  config : AudioStreamConfig
  generation : ℕ := 0
  nextSequence : ℕ := 0
  bufferedBytes : ℕ := 0
  acceptedChunks : ℕ := 0
  acceptedBytes : ℕ := 0
  duplicateChunks : ℕ := 0
  reconnectCount : ℕ := 0
  closed : Bool := false

/-- The result of a chunk; its voice activity is filled in by the bridge. -/
structure AudioChunkResult where
  accepted : Bool
  duplicate : Bool
  sequence : ℕ
  nextSequence : ℕ
  generation : ℕ
  bufferedBytes : ℕ
  deriving DecidableEq

/-- `secrets.token_urlsafe(32)`: 43 letters of the URL-safe alphabet. -/
structure ReconnectToken where
  text : String
  ascii : ∀ c ∈ text.toList, c.toNat < 128
  size : text.length = 43

structure AudioStreamOpenResult where
  state : AudioStreamState
  reconnectToken : ReconnectToken

structure StreamRecord where
  state : AudioStreamState
  reconnectToken : ReconnectToken

namespace StreamRecord

/-- The outcome of a call and the record as the call leaves it, also when it raises. -/
def acceptChunk (streamId : String) (chunk : AudioChunkMessage) (record : StreamRecord) :
    Except AudioError (AudioChunkResult × Option (List UInt8)) × StreamRecord :=
  let state := record.state
  if state.closed then
    (.error (.streamClosed s!"audio stream {streamId} is closed"), record)
  else if chunk.generation ≠ state.generation then
    (.error (.staleGeneration
      s!"expected generation {state.generation}, got {chunk.generation}"), record)
  else if chunk.sequence < state.nextSequence then
    (.ok ({ accepted := true, duplicate := true, sequence := chunk.sequence,
            nextSequence := state.nextSequence, generation := state.generation,
            bufferedBytes := state.bufferedBytes }, none),
      { record with state := { state with duplicateChunks := state.duplicateChunks + 1 } })
  else if chunk.sequence > state.nextSequence then
    (.error (.invalidSequence
      s!"expected sequence {state.nextSequence}, got {chunk.sequence}"), record)
  else
    match chunk.decode with
    | .error e => (.error e, record)
    | .ok audio =>
      let size := audio.length
      let projected := state.bufferedBytes + size
      if size = 0 then
        (.error (.chunkTooLarge "empty audio chunks are not accepted"), record)
      else if size > state.config.maxChunkBytes then
        (.error (.chunkTooLarge
          s!"audio chunk is {size} bytes; limit is {state.config.maxChunkBytes}"), record)
      else if projected > state.config.maxBufferedBytes then
        (.error (.backpressure
          (s!"audio buffer would reach {projected} bytes; limit is " ++
            s!"{state.config.maxBufferedBytes}")), record)
      else
        (.ok ({ accepted := true, duplicate := false, sequence := chunk.sequence,
                nextSequence := state.nextSequence + 1, generation := state.generation,
                bufferedBytes := projected }, some audio),
          { record with state := { state with
              bufferedBytes := projected
              acceptedChunks := state.acceptedChunks + 1
              acceptedBytes := state.acceptedBytes + size
              nextSequence := state.nextSequence + 1 } })

def acknowledgeProcessed (byteCount : ℤ) (record : StreamRecord) :
    Except AudioError AudioStreamState × StreamRecord :=
  let state := record.state
  if byteCount < 0 then
    (.error (.raised (.valueError "byte_count must be >= 0")), record)
  else if byteCount > state.bufferedBytes then
    (.error (.raised (.valueError "cannot acknowledge more bytes than are buffered")), record)
  else
    let acknowledged := { state with bufferedBytes := state.bufferedBytes - byteCount.toNat }
    (.ok acknowledged, { record with state := acknowledged })

def rotateGeneration (streamId : String) (generation : ℤ) (record : StreamRecord) :
    Except AudioError AudioStreamState × StreamRecord :=
  let state := record.state
  if state.closed then
    (.error (.streamClosed s!"audio stream {streamId} is closed"), record)
  else if generation ≤ state.generation then
    (.error (.staleGeneration
      s!"new generation must be greater than {state.generation}"), record)
  else
    let rotated := { state with
      generation := generation.toNat, nextSequence := 0, bufferedBytes := 0 }
    (.ok rotated, { record with state := rotated })

def reconnect (streamId sessionId reconnectToken : String) (generation nextSequence : ℤ)
    (record : StreamRecord) : Except AudioError AudioStreamState × StreamRecord :=
  let state := record.state
  if state.closed then
    (.error (.streamClosed s!"audio stream {streamId} is closed"), record)
  else if sessionId ≠ state.sessionId then
    (.error (.invalidReconnect "audio stream does not belong to this session"), record)
  else if reconnectToken.toList.any fun c => 128 ≤ c.toNat then
    -- `hmac.compare_digest` compares texts of ASCII characters alone
    (.error (.raised (.typeError
      "comparing strings with non-ASCII characters is not supported")), record)
  else if reconnectToken ≠ record.reconnectToken.text then
    (.error (.invalidReconnect "audio reconnect token is invalid"), record)
  else if generation ≠ state.generation then
    (.error (.staleGeneration s!"expected generation {state.generation}, got {generation}"), record)
  else if nextSequence > state.nextSequence then
    (.error (.invalidSequence (s!"client next_sequence {nextSequence} is ahead of " ++
      s!"server next_sequence {state.nextSequence}")), record)
  else
    let counted := { state with reconnectCount := state.reconnectCount + 1 }
    (.ok counted, { record with state := counted })

def close (record : StreamRecord) : Except AudioError AudioStreamState × StreamRecord :=
  let closed := { record.state with closed := true, bufferedBytes := 0 }
  (.ok closed, { record with state := closed })

/-- What `accept_chunk` can do to a record, whichever stream it is called for. -/
inductive Accepts (chunk : AudioChunkMessage) (record : StreamRecord) :
    Except AudioError (AudioChunkResult × Option (List UInt8)) → StreamRecord → Prop
  | refused (e : AudioError) : Accepts chunk record (.error e) record
  | duplicate (result : AudioChunkResult) (hopen : record.state.closed = false)
      (hgen : chunk.generation = record.state.generation)
      (hseq : chunk.sequence < record.state.nextSequence)
      (hdup : result.duplicate = true) (hnext : result.nextSequence = record.state.nextSequence) :
      Accepts chunk record (.ok (result, none))
        { record with state :=
          { record.state with duplicateChunks := record.state.duplicateChunks + 1 } }
  | accepted (result : AudioChunkResult) (audio : List UInt8)
      (hopen : record.state.closed = false)
      (hgen : chunk.generation = record.state.generation)
      (hseq : chunk.sequence = record.state.nextSequence)
      (hdecode : chunk.decode = .ok audio) (hpos : 0 < audio.length)
      (hfits : record.state.bufferedBytes + audio.length ≤ record.state.config.maxBufferedBytes)
      (hdup : result.duplicate = false)
      (hnext : result.nextSequence = record.state.nextSequence + 1) :
      Accepts chunk record (.ok (result, some audio))
        { record with state := { record.state with
            bufferedBytes := record.state.bufferedBytes + audio.length
            acceptedChunks := record.state.acceptedChunks + 1
            acceptedBytes := record.state.acceptedBytes + audio.length
            nextSequence := record.state.nextSequence + 1 } }

theorem acceptChunk_accepts (streamId : String) (chunk : AudioChunkMessage)
    (record : StreamRecord) :
    Accepts chunk record (record.acceptChunk streamId chunk).1
      (record.acceptChunk streamId chunk).2 := by
  unfold acceptChunk
  simp only
  by_cases hclosed : record.state.closed = true
  · rw [if_pos hclosed]
    exact .refused _
  rw [if_neg hclosed]
  have hopen : record.state.closed = false := by simpa using hclosed
  by_cases hgen : chunk.generation = record.state.generation
  swap
  · rw [if_pos hgen]
    exact .refused _
  rw [if_neg (not_not.mpr hgen)]
  by_cases hlt : chunk.sequence < record.state.nextSequence
  · rw [if_pos hlt]
    exact .duplicate _ hopen hgen hlt rfl rfl
  rw [if_neg hlt]
  by_cases hgt : chunk.sequence > record.state.nextSequence
  · rw [if_pos hgt]
    exact .refused _
  rw [if_neg hgt]
  cases hdecode : chunk.decode with
  | error e => exact .refused e
  | ok audio =>
    simp only
    by_cases hzero : audio.length = 0
    · rw [if_pos hzero]
      exact .refused _
    rw [if_neg hzero]
    by_cases hlarge : audio.length > record.state.config.maxChunkBytes
    · rw [if_pos hlarge]
      exact .refused _
    rw [if_neg hlarge]
    by_cases hfull : record.state.bufferedBytes + audio.length >
        record.state.config.maxBufferedBytes
    · rw [if_pos hfull]
      exact .refused _
    rw [if_neg hfull]
    exact .accepted _ audio hopen hgen (by omega) hdecode (by omega) (by omega) rfl rfl

theorem reconnect_keeps (streamId sessionId reconnectToken : String)
    (generation nextSequence : ℤ) (record : StreamRecord) :
    (record.reconnect streamId sessionId reconnectToken generation nextSequence).2.state.nextSequence
        = record.state.nextSequence ∧
    ∀ state, (record.reconnect streamId sessionId reconnectToken generation nextSequence).1 =
      .ok state → state.nextSequence =
      (record.reconnect streamId sessionId reconnectToken generation
        nextSequence).2.state.nextSequence := by
  have hrefused : ∀ e, record.state.nextSequence = record.state.nextSequence ∧
      ∀ state, (Except.error e : Except AudioError AudioStreamState) = .ok state →
        state.nextSequence = record.state.nextSequence := fun _ => ⟨rfl, by simp⟩
  unfold reconnect
  simp only
  split
  next => exact hrefused (.streamClosed _)
  split
  next => exact hrefused (.invalidReconnect _)
  split
  next => exact hrefused (.raised _)
  split
  next => exact hrefused (.invalidReconnect _)
  split
  next => exact hrefused (.staleGeneration _)
  split
  next => exact hrefused (.invalidSequence _)
  next => exact ⟨rfl, by simp⟩

end StreamRecord

structure AudioStreamManager where
  streams : Dict StreamRecord := []

namespace AudioStreamManager

/-- `_record(stream_id)`, then what the call does with the record. -/
def onRecord {α : Type} (manager : AudioStreamManager) (streamId : String)
    (work : StreamRecord → Except AudioError α × StreamRecord) :
    Except AudioError α × AudioStreamManager :=
  match manager.streams.lookup streamId with
  | none => (.error (.invalidReconnect s!"unknown audio stream: {streamId}"), manager)
  | some record =>
    let worked := work record
    (worked.1, ⟨manager.streams.set streamId worked.2⟩)

/-- `streamId` and `token` are what `uuid4` and `new_reconnect_token` return. -/
def openStream (manager : AudioStreamManager) (sessionId : String) (generation : ℤ)
    (config : AudioStreamConfig) (streamId : String) (token : ReconnectToken) :
    Except AudioError AudioStreamOpenResult × AudioStreamManager :=
  if generation < 0 then
    (.error (.raised (.validationError "generation: Input should be greater than or equal to 0")), manager)
  else
    let state : AudioStreamState :=
      { streamId := streamId, sessionId := sessionId, config := config,
        generation := generation.toNat }
    (.ok ⟨state, token⟩, ⟨manager.streams.set streamId ⟨state, token⟩⟩)

def activeStreamCount (manager : AudioStreamManager) : ℕ :=
  manager.streams.countP fun entry => !entry.2.state.closed

def trackedStreamCount (manager : AudioStreamManager) : ℕ := manager.streams.length

def state (manager : AudioStreamManager) (streamId : String) :
    Except AudioError AudioStreamState :=
  match manager.streams.lookup streamId with
  | none => .error (.invalidReconnect s!"unknown audio stream: {streamId}")
  | some record => .ok record.state

def acceptChunk (manager : AudioStreamManager) (streamId : String) (chunk : AudioChunkMessage) :
    Except AudioError (AudioChunkResult × Option (List UInt8)) × AudioStreamManager :=
  manager.onRecord streamId (StreamRecord.acceptChunk streamId chunk)

def acknowledgeProcessed (manager : AudioStreamManager) (streamId : String) (byteCount : ℤ) :
    Except AudioError AudioStreamState × AudioStreamManager :=
  manager.onRecord streamId (StreamRecord.acknowledgeProcessed byteCount)

def rotateGeneration (manager : AudioStreamManager) (streamId : String) (generation : ℤ) :
    Except AudioError AudioStreamState × AudioStreamManager :=
  manager.onRecord streamId (StreamRecord.rotateGeneration streamId generation)

def reconnect (manager : AudioStreamManager) (streamId sessionId reconnectToken : String)
    (generation nextSequence : ℤ) : Except AudioError AudioStreamState × AudioStreamManager :=
  manager.onRecord streamId
    (StreamRecord.reconnect streamId sessionId reconnectToken generation nextSequence)

def close (manager : AudioStreamManager) (streamId : String) :
    Except AudioError AudioStreamState × AudioStreamManager :=
  manager.onRecord streamId StreamRecord.close

end AudioStreamManager

/-- A token as `new_reconnect_token` draws them. -/
def drawnToken : ReconnectToken :=
  ⟨"uY0xqk3Zt7m-Jd2VwB9_RcLhPqf4GsNa1TbEo6KiM8X", by simp, by decide⟩

def plainConfig : AudioStreamConfig := {}

/-- The first chunk of a generation: five bytes. -/
def spokenChunk (generation : ℕ) : AudioChunkMessage := ⟨0, generation, "YXVkaW8=", by decide⟩

end NoraInterviewer
