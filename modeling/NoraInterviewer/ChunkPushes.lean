import NoraInterviewer.VadBoundaries
import NoraInterviewer.VoiceStreamBridge

/-! `push_chunk` of `VoiceStreamBridge`, each call from its beginning to its end: what the manager
admits, the push that the provider is awaited for, and the voice activity detector after it. -/

namespace NoraInterviewer

theorem frameMs_nonneg (audio : List UInt8) {sampleRateHz channels : ℤ} (hrate : 0 ≤ sampleRateHz)
    (hchannels : 0 ≤ channels) : 0 ≤ frameMs audio sampleRateHz channels := by
  have hframes : (0 : ℤ) ≤ ((audio.length / 2 : ℕ) : ℤ) / channels :=
    Int.ediv_nonneg (Int.natCast_nonneg _) hchannels
  have hframes' : (0 : ℚ) ≤ (((audio.length / 2 : ℕ) : ℤ) / channels : ℤ) := by
    exact_mod_cast hframes
  have hrate' : (0 : ℚ) ≤ sampleRateHz := by exact_mod_cast hrate
  unfold frameMs
  exact mul_nonneg (div_nonneg hframes' hrate') (by norm_num)

namespace Pcm16EnergyVad

/-- No accumulator is below zero. -/
structure Sound (vad : Pcm16EnergyVad) : Prop where
  candidate : 0 ≤ vad.candidateSpeechMs
  utterance : 0 ≤ vad.utteranceMs
  silence : 0 ≤ vad.silenceMs

theorem sound_start (config : VadConfig) : Sound { config } := ⟨le_rfl, le_rfl, le_rfl⟩

variable {vad : Pcm16EnergyVad}

theorem Sound.advance (h : vad.Sound) (loud quiet : Bool) {frameMs : ℚ} (hframe : 0 ≤ frameMs) :
    (vad.advance loud quiet frameMs).1.Sound := by
  have hcandidate : 0 ≤ vad.candidateSpeechMs + frameMs := add_nonneg h.candidate hframe
  have hutterance : 0 ≤ vad.utteranceMs + frameMs := add_nonneg h.utterance hframe
  have hsilence : 0 ≤ if quiet then vad.silenceMs + frameMs else 0 := by
    split
    · exact add_nonneg h.silence hframe
    · exact le_rfl
  unfold Pcm16EnergyVad.advance
  simp only
  split
  next =>
    split
    next =>
      split
      · exact ⟨hcandidate, hcandidate, le_rfl⟩
      · exact ⟨hcandidate, h.utterance, h.silence⟩
    next => exact ⟨le_rfl, h.utterance, h.silence⟩
  next =>
    generalize (if quiet then vad.silenceMs + frameMs else 0) = silence at hsilence ⊢
    split
    next => exact ⟨h.candidate, hutterance, hsilence⟩
    next => split <;> exact ⟨h.candidate, hutterance, hsilence⟩

theorem Sound.observe (h : vad.Sound) (audio : List UInt8) (sampleRateHz channels : ℤ) :
    (vad.observe audio sampleRateHz channels).2.Sound := by
  unfold Pcm16EnergyVad.observe
  split
  next => exact h
  next hrate =>
    split
    next => exact h
    next hchannels =>
      split
      next => exact h
      next =>
        split
        next => exact h
        next =>
          split
          next => exact h
          next =>
            simp only
            split
            next => exact h
            next => exact h.advance _ _ (frameMs_nonneg audio (by omega) (by omega))

/-- Of the audio of a stream, only what does not come in whole frames is refused. -/
theorem Sound.observe_ok_iff (h : vad.Sound) (stream : AudioStreamConfig) {audio : List UInt8}
    (hne : audio ≠ []) :
    (∃ observation, (vad.observe audio stream.sampleRateHz stream.channels).1 = .ok observation) ↔
      audio.length % (2 * stream.channels) = 0 := by
  constructor
  · rintro ⟨observation, hobserve⟩
    by_contra haligned
    have haligned' : (audio.length : ℤ) % (2 * stream.channels) ≠ 0 := by exact_mod_cast haligned
    unfold Pcm16EnergyVad.observe at hobserve
    rw [if_neg hne, if_pos haligned'] at hobserve
    split at hobserve
    next => cases hobserve
    next => split at hobserve <;> cases hobserve
  · intro haligned
    let chunks : ℕ → Pcm16Chunk stream.channels := fun _ => ⟨audio, hne, haligned⟩
    have hobserve := @observe_chunk stream chunks vad 0
    have hsound := h.observe audio stream.sampleRateHz stream.channels
    split at hobserve
    next =>
      obtain ⟨observation, _, hvalid⟩ :=
        reading_validate chunks 0 .speechEnded false true h.utterance h.silence
      exact ⟨observation, by rw [hobserve]; exact hvalid⟩
    next =>
      simp only at hobserve
      rw [hobserve] at hsound
      obtain ⟨observation, _, hvalid⟩ := reading_validate chunks 0 _ _ _ hsound.utterance hsound.silence
      exact ⟨observation, by rw [hobserve]; exact hvalid⟩

end Pcm16EnergyVad

namespace StreamRecord

variable {record : StreamRecord} {chunk : AudioChunkMessage} {audio : List UInt8}

/-- The manager takes the chunk, and this audio from it. -/
structure Admits (record : StreamRecord) (chunk : AudioChunkMessage) (audio : List UInt8) :
    Prop where
  still_open : record.state.closed = false
  generation : chunk.generation = record.state.generation
  sequence : chunk.sequence = record.state.nextSequence
  decoded : chunk.decode = .ok audio
  ne_nil : audio ≠ []
  within : audio.length ≤ record.state.config.maxChunkBytes
  fits : record.state.bufferedBytes + audio.length ≤ record.state.config.maxBufferedBytes

/-- The record with so many bytes buffered, and the audio counted. -/
def taking (record : StreamRecord) (audio : List UInt8) (bufferedBytes : ℕ) : StreamRecord :=
  { record with state := { record.state with
      bufferedBytes
      acceptedChunks := record.state.acceptedChunks + 1
      acceptedBytes := record.state.acceptedBytes + audio.length
      nextSequence := record.state.nextSequence + 1 } }

/-- The record with the audio reserved. -/
def reserving (record : StreamRecord) (audio : List UInt8) : StreamRecord :=
  record.taking audio (record.state.bufferedBytes + audio.length)

/-- The record with the audio reserved and released again. -/
def releasing (record : StreamRecord) (audio : List UInt8) : StreamRecord :=
  record.taking audio record.state.bufferedBytes

theorem Admits.acceptChunk (h : record.Admits chunk audio) (streamId : String) :
    record.acceptChunk streamId chunk =
      (.ok ({ accepted := true, duplicate := false, sequence := chunk.sequence,
              nextSequence := record.state.nextSequence + 1,
              generation := record.state.generation,
              bufferedBytes := record.state.bufferedBytes + audio.length }, some audio),
        record.reserving audio) := by
  have hzero : ¬audio.length = 0 := by
    rw [List.length_eq_zero_iff]
    exact h.ne_nil
  have hsequence := h.sequence
  unfold StreamRecord.acceptChunk
  simp only
  rw [if_neg (by rw [h.still_open]; exact Bool.false_ne_true), if_neg (not_not.mpr h.generation),
    if_neg (by omega), if_neg (by omega), h.decoded]
  simp only
  rw [if_neg hzero, if_neg (not_lt.mpr h.within), if_neg (not_lt.mpr h.fits)]
  rfl

theorem admits_of_acceptChunk {streamId : String} {result : AudioChunkResult}
    (h : (record.acceptChunk streamId chunk).1 = .ok (result, some audio)) :
    record.Admits chunk audio := by
  unfold StreamRecord.acceptChunk at h
  simp only at h
  split at h
  next => cases h
  next hclosed =>
    split at h
    next => cases h
    next hgen =>
      split at h
      next => cases h
      next hlt =>
        split at h
        next => cases h
        next hgt =>
          cases hdecode : chunk.decode with
          | error e =>
            rw [hdecode] at h
            cases h
          | ok decoded =>
            rw [hdecode] at h
            simp only at h
            split at h
            next => cases h
            next hzero =>
              split at h
              next => cases h
              next hwithin =>
                split at h
                next => cases h
                next hfits =>
                  cases h
                  exact ⟨by simpa using hclosed, not_not.mp hgen, by omega, hdecode,
                    fun hnil => hzero (by rw [hnil]; rfl), not_lt.mp hwithin, not_lt.mp hfits⟩

theorem acknowledge_reserving (record : StreamRecord) (audio : List UInt8) :
    (record.reserving audio).acknowledgeProcessed audio.length =
      (.ok (record.releasing audio).state, record.releasing audio) := by
  have hle : ¬((audio.length : ℤ) > ((record.reserving audio).state.bufferedBytes : ℕ)) := by
    simp only [reserving, taking]
    omega
  have hfreed : record.state.bufferedBytes + audio.length - (audio.length : ℤ).toNat =
      record.state.bufferedBytes := by omega
  unfold StreamRecord.acknowledgeProcessed
  rw [if_neg (by omega)]
  refine (if_neg hle).trans ?_
  simp only [reserving, releasing, taking, hfreed]

end StreamRecord

/-- What `push_chunk` raises: an error of the manager, the missing provider session, what the
provider raised, or what the detector did. -/
inductive PushError where
  | audio (error : AudioError)
  | runtimeError (message : String)
  | provider (exception : Raised)
  | vad (exception : Raised)

/-- `AudioChunkResult`, with its voice activity. -/
structure PushResult where
  chunk : AudioChunkResult
  vad : Option Pcm16EnergyVad.Observation := none

/-- What the provider's `push_audio` comes to; one that raises may have taken the audio before. -/
inductive PushReturn where
  | returned
  | raised (exception : Raised) (heard : Bool)

def PushReturn.heard : PushReturn → Bool
  | returned => true
  | raised _ heard => heard

/-- The await of `push_audio`, and whether the stream is closed while it lasts. -/
structure PushAwait where
  outcome : PushReturn := .returned
  closes : Bool := false

/-- `_ProviderStream`; the fields that `push_chunk` reads. -/
structure SttStream where
  committed : Bool := false
  vad : Option { vad : Pcm16EnergyVad // vad.Sound } := none

/-- `VoiceStreamBridge`, and the audio that its provider sessions have heard, by stream. -/
structure ChunkBridge where
  manager : AudioStreamManager := {}
  providerStreams : Dict SttStream := []
  heard : List (String × List UInt8) := []

namespace ChunkBridge

/-- `close`; what it awaits of the provider session leaves the stream alone. -/
def close (streamId : String) (bridge : ChunkBridge) : ChunkBridge :=
  { bridge with
    manager := (bridge.manager.close streamId).2
    providerStreams := bridge.providerStreams.filter (·.1 ≠ streamId) }

/-- `session.push_audio(audio)`, awaited. -/
def pushAudio (streamId : String) (audio : List UInt8) (await : PushAwait) (bridge : ChunkBridge) :
    ChunkBridge :=
  let bridge :=
    if await.outcome.heard then { bridge with heard := bridge.heard ++ [(streamId, audio)] }
    else bridge
  if await.closes then bridge.close streamId else bridge

/-- `manager.acknowledge_processed(stream_id, len(audio))`. -/
def acknowledge (streamId : String) (audio : List UInt8) (bridge : ChunkBridge) :
    Except PushError AudioStreamState × ChunkBridge :=
  let acknowledged := bridge.manager.acknowledgeProcessed streamId audio.length
  (acknowledged.1.mapError .audio, { bridge with manager := acknowledged.2 })

/-- The observation that goes into the result, and the detector after it. -/
def observe (streamId : String) (audio : List UInt8) (provider : SttStream)
    (config : AudioStreamConfig) (bridge : ChunkBridge) :
    Except PushError (Option Pcm16EnergyVad.Observation) × ChunkBridge :=
  match provider.vad with
  | none => (.ok none, bridge)
  | some vad =>
    let observed := vad.1.observe audio config.sampleRateHz config.channels
    let sound := vad.2.observe audio config.sampleRateHz config.channels
    ((observed.1.map some).mapError .vad,
      { bridge with providerStreams :=
        bridge.providerStreams.set streamId { provider with vad := some ⟨observed.2, sound⟩ } })

def noProvider (streamId : String) : PushError :=
  .runtimeError s!"no STT provider session for audio stream {streamId}"

/-- What `push_chunk` does after the push. Its `finally` acknowledges first, and what that raises is
raised instead. -/
def pushed (streamId : String) (audio : List UInt8) (outcome : PushReturn) (provider : SttStream)
    (result : AudioChunkResult) (bridge : ChunkBridge) : Except PushError PushResult × ChunkBridge :=
  let acknowledged := bridge.acknowledge streamId audio
  match acknowledged.1, outcome with
  | .error e, _ => (.error e, acknowledged.2)
  | .ok _, .raised exception _ => (.error (.provider exception), acknowledged.2)
  | .ok state, .returned =>
    let observed := acknowledged.2.observe streamId audio provider state.config
    (observed.1.map fun vad =>
      { chunk := { result with bufferedBytes := state.bufferedBytes }, vad }, observed.2)

def pushChunk (streamId : String) (chunk : AudioChunkMessage) (await : PushAwait)
    (bridge : ChunkBridge) : Except PushError PushResult × ChunkBridge :=
  let accepted := bridge.manager.acceptChunk streamId chunk
  let bridge := { bridge with manager := accepted.2 }
  match accepted.1, bridge.providerStreams.lookup streamId with
  | .error e, _ => (.error (.audio e), bridge)
  | .ok _, none => (.error (noProvider streamId), bridge)
  | .ok (result, none), some _ => (.ok { chunk := result }, bridge)
  | .ok (result, some audio), some provider =>
    if provider.committed then
      let acknowledged := bridge.acknowledge streamId audio
      (acknowledged.1.map fun state =>
        { chunk := { result with bufferedBytes := state.bufferedBytes } }, acknowledged.2)
    else
      (bridge.pushAudio streamId audio await).pushed streamId audio await.outcome provider result

/-- The stream as the manager has it. -/
def state (bridge : ChunkBridge) (streamId : String) : Option AudioStreamState :=
  (bridge.manager.streams.lookup streamId).map StreamRecord.state

def Committed (bridge : ChunkBridge) (streamId : String) : Prop :=
  ∃ provider, bridge.providerStreams.lookup streamId = some provider ∧ provider.committed = true

/-- What may refuse a chunk: the manager, the missing session, the provider or the detector. -/
inductive Refuses (bridge : ChunkBridge) (streamId : String) (chunk : AudioChunkMessage)
    (await : PushAwait) : PushError → Prop
  | manager {e : AudioError} (h : (bridge.manager.acceptChunk streamId chunk).1 = .error e) :
    Refuses bridge streamId chunk await (.audio e)
  | noProvider : Refuses bridge streamId chunk await (noProvider streamId)
  | provider {exception : Raised} {heard : Bool} (h : await.outcome = .raised exception heard) :
    Refuses bridge streamId chunk await (.provider exception)
  | vad (exception : Raised) : Refuses bridge streamId chunk await (.vad exception)

/-- The chunk is pushed whole, or nothing is left of it. -/
structure AllOrNothing (bridge : ChunkBridge) (streamId : String) (chunk : AudioChunkMessage)
    (await : PushAwait) : Prop where
  nothing : ∀ e, (bridge.pushChunk streamId chunk await).1 = .error e →
    ((bridge.pushChunk streamId chunk await).2.state streamId).map AudioStreamState.nextSequence =
      (bridge.state streamId).map AudioStreamState.nextSequence ∧
    (bridge.pushChunk streamId chunk await).2.heard = bridge.heard
  all : ∀ result, (bridge.pushChunk streamId chunk await).1 = .ok result →
    result.chunk.duplicate = false → ∃ audio, chunk.decode = .ok audio ∧
      ((bridge.pushChunk streamId chunk await).2.heard = bridge.heard ++ [(streamId, audio)] ∨
        bridge.Committed streamId ∧ (bridge.pushChunk streamId chunk await).2.heard = bridge.heard)
  /-- The bytes are released by the call, or by the close. -/
  released : ∀ state, bridge.state streamId = some state → ∃ after,
    (bridge.pushChunk streamId chunk await).2.state streamId = some after ∧
      (after.bufferedBytes = state.bufferedBytes ∨
        await.closes = true ∧ after.closed = true ∧ after.bufferedBytes = 0)
  original : ∀ e, (bridge.pushChunk streamId chunk await).1 = .error e →
    bridge.Refuses streamId chunk await e

/-- Once the manager takes audio there is a provider session for it, which is committed already or
which takes it while the stream stays open; and a detector gets whole frames. -/
def Carries (bridge : ChunkBridge) (streamId : String) (chunk : AudioChunkMessage)
    (await : PushAwait) : Prop :=
  ∀ record audio, bridge.manager.streams.lookup streamId = some record → record.Admits chunk audio →
    ∃ provider, bridge.providerStreams.lookup streamId = some provider ∧
      (provider.committed = true ∨
        await.outcome = .returned ∧ await.closes = false ∧
          (provider.vad.isSome = true → audio.length % (2 * record.state.config.channels) = 0))

/-- The bridge with another record of the stream. -/
def holding (bridge : ChunkBridge) (streamId : String) (record : StreamRecord) : ChunkBridge :=
  { bridge with manager := ⟨bridge.manager.streams.set streamId record⟩ }

section Pushes

variable {bridge : ChunkBridge} {streamId : String} {chunk : AudioChunkMessage} {await : PushAwait}
  {record : StreamRecord} {audio : List UInt8} {provider : SttStream}

@[simp] theorem holding_lookup : (bridge.holding streamId record).manager.streams.lookup streamId =
    some record :=
  Dict.lookup_set_self _ _ _

theorem onRecord_of_lookup {α : Type} (h : bridge.manager.streams.lookup streamId = some record)
    (work : StreamRecord → Except AudioError α × StreamRecord) :
    bridge.manager.onRecord streamId work =
      ((work record).1, (bridge.holding streamId (work record).2).manager) := by
  unfold AudioStreamManager.onRecord
  rw [h]
  rfl

theorem acknowledge_reserving
    (h : bridge.manager.streams.lookup streamId = some (record.reserving audio)) :
    bridge.acknowledge streamId audio =
      (.ok (record.releasing audio).state, bridge.holding streamId (record.releasing audio)) := by
  unfold acknowledge AudioStreamManager.acknowledgeProcessed
  rw [onRecord_of_lookup h, StreamRecord.acknowledge_reserving]
  rfl

/-- A closed stream has no bytes to release. -/
theorem acknowledge_empty (h : bridge.manager.streams.lookup streamId = some record)
    (hempty : record.state.bufferedBytes = 0) (hne : audio ≠ []) :
    bridge.acknowledge streamId audio =
      (.error (.audio (.raised (.valueError "cannot acknowledge more bytes than are buffered"))),
        bridge.holding streamId record) := by
  have hpos := List.length_pos_iff.mpr hne
  have hmore : (audio.length : ℤ) > (record.state.bufferedBytes : ℕ) := by omega
  have hrefused : record.acknowledgeProcessed audio.length =
      (.error (.raised (.valueError "cannot acknowledge more bytes than are buffered")), record) := by
    unfold StreamRecord.acknowledgeProcessed
    rw [if_neg (by omega)]
    exact if_pos hmore
  unfold acknowledge AudioStreamManager.acknowledgeProcessed
  rw [onRecord_of_lookup h, hrefused]
  rfl

theorem close_lookup (h : bridge.manager.streams.lookup streamId = some record) :
    (bridge.close streamId).manager.streams.lookup streamId = some record.close.2 := by
  unfold close AudioStreamManager.close
  rw [onRecord_of_lookup h]
  exact holding_lookup

theorem pushAudio_lookup (audio : List UInt8) (await : PushAwait)
    (h : bridge.manager.streams.lookup streamId = some record) :
    (bridge.pushAudio streamId audio await).manager.streams.lookup streamId =
      some (if await.closes then record.close.2 else record) := by
  unfold pushAudio
  simp only
  split
  next =>
    refine close_lookup ?_
    split <;> exact h
  next => split <;> exact h

theorem observe_state (config : AudioStreamConfig) :
    (bridge.observe streamId audio provider config).2.state = bridge.state := by
  unfold observe
  split <;> rfl

theorem observe_heard (config : AudioStreamConfig) :
    (bridge.observe streamId audio provider config).2.heard = bridge.heard := by
  unfold observe
  split <;> rfl

/-- What is left of a chunk that the manager took and `push_chunk` raised on: its place. -/
structure Lost (bridge : ChunkBridge) (streamId : String) (record : StreamRecord)
    (pushed : Except PushError PushResult × ChunkBridge) : Prop where
  raised : ∃ e, pushed.1 = .error e
  advanced : ∃ after, pushed.2.state streamId = some after ∧
    after.nextSequence = record.state.nextSequence + 1

theorem Lost.not_allOrNothing (hrecord : bridge.manager.streams.lookup streamId = some record)
    (h : bridge.Lost streamId record (bridge.pushChunk streamId chunk await)) :
    ¬bridge.AllOrNothing streamId chunk await := by
  intro hall
  obtain ⟨e, he⟩ := h.raised
  obtain ⟨after, hafter, hnext⟩ := h.advanced
  have hkept := (hall.nothing e he).1
  rw [hafter, state, hrecord, Option.map_some, Option.map_some, Option.map_some, hnext] at hkept
  have hsame := Option.some.inj hkept
  omega

/-- A call that raises, or repeats what was sent, without a trace in the cursor and the buffer. -/
structure Untouched (bridge : ChunkBridge) (streamId : String)
    (pushed : Except PushError PushResult × ChunkBridge) : Prop where
  heard : pushed.2.heard = bridge.heard
  next : (pushed.2.state streamId).map AudioStreamState.nextSequence =
    (bridge.state streamId).map AudioStreamState.nextSequence
  buffered : (pushed.2.state streamId).map AudioStreamState.bufferedBytes =
    (bridge.state streamId).map AudioStreamState.bufferedBytes
  fresh : ∀ result, pushed.1 = .ok result → result.chunk.duplicate = true

theorem Untouched.allOrNothing
    (h : bridge.Untouched streamId (bridge.pushChunk streamId chunk await))
    (hrefuses : ∀ e, (bridge.pushChunk streamId chunk await).1 = .error e →
      bridge.Refuses streamId chunk await e) : bridge.AllOrNothing streamId chunk await := by
  refine ⟨fun e _ => ⟨h.next, h.heard⟩, ?_, ?_, hrefuses⟩
  · intro result hresult hfresh
    rw [h.fresh result hresult] at hfresh
    cases hfresh
  · intro state hstate
    have hbuffered := h.buffered
    rw [hstate, Option.map_some] at hbuffered
    obtain ⟨after, hafter, heq⟩ := Option.map_eq_some_iff.mp hbuffered
    exact ⟨after, hafter, .inl heq⟩

theorem pushChunk_refused (await : PushAwait) {e : AudioError} {manager : AudioStreamManager}
    (h : bridge.manager.acceptChunk streamId chunk = (.error e, manager)) :
    bridge.pushChunk streamId chunk await = (.error (.audio e), { bridge with manager }) := by
  unfold pushChunk
  rw [h]

theorem pushChunk_repeated (await : PushAwait) {result : AudioChunkResult}
    {manager : AudioStreamManager}
    (h : bridge.manager.acceptChunk streamId chunk = (.ok (result, none), manager)) :
    bridge.pushChunk streamId chunk await = (.error (noProvider streamId), { bridge with manager }) ∨
    bridge.pushChunk streamId chunk await = (.ok { chunk := result }, { bridge with manager }) := by
  unfold pushChunk
  rw [h]
  simp only
  cases bridge.providerStreams.lookup streamId with
  | none => exact .inl rfl
  | some provider => exact .inr rfl

theorem allOrNothing_refused {e : AudioError} {manager : AudioStreamManager}
    (h : bridge.manager.acceptChunk streamId chunk = (.error e, manager))
    (hsame : { bridge with manager }.state streamId = bridge.state streamId) :
    bridge.AllOrNothing streamId chunk await := by
  have hpushed := pushChunk_refused await h
  refine Untouched.allOrNothing ?_ ?_
  · rw [hpushed]
    exact ⟨rfl, by rw [hsame], by rw [hsame], fun _ h => (by cases h)⟩
  · rw [hpushed]
    rintro e ⟨⟩
    exact .manager (by rw [h])

theorem allOrNothing_repeated {result : AudioChunkResult} {manager : AudioStreamManager}
    (h : bridge.manager.acceptChunk streamId chunk = (.ok (result, none), manager))
    (hdup : result.duplicate = true)
    (hnext : ({ bridge with manager }.state streamId).map AudioStreamState.nextSequence =
      (bridge.state streamId).map AudioStreamState.nextSequence)
    (hbuffered : ({ bridge with manager }.state streamId).map AudioStreamState.bufferedBytes =
      (bridge.state streamId).map AudioStreamState.bufferedBytes) :
    bridge.AllOrNothing streamId chunk await := by
  refine Untouched.allOrNothing ?_ ?_
  · rcases pushChunk_repeated await h with hpushed | hpushed
    · rw [hpushed]
      exact ⟨rfl, hnext, hbuffered, fun _ h => (by cases h)⟩
    · rw [hpushed]
      refine ⟨rfl, hnext, hbuffered, ?_⟩
      rintro _ ⟨⟩
      exact hdup
  · rcases pushChunk_repeated await h with hpushed | hpushed
    · rw [hpushed]
      rintro e ⟨⟩
      exact .noProvider
    · rw [hpushed]
      exact fun _ h => (by cases h)

/-- What the manager refuses, or has had before. -/
theorem allOrNothing_unadmitted (hnone : ∀ record audio,
    bridge.manager.streams.lookup streamId = some record → ¬record.Admits chunk audio) :
    bridge.AllOrNothing streamId chunk await := by
  cases hrecord : bridge.manager.streams.lookup streamId with
  | none =>
    have hrefused : bridge.manager.acceptChunk streamId chunk =
        (.error (.invalidReconnect s!"unknown audio stream: {streamId}"), bridge.manager) := by
      unfold AudioStreamManager.acceptChunk AudioStreamManager.onRecord
      rw [hrecord]
    exact allOrNothing_refused hrefused rfl
  | some record =>
    have hstate : bridge.state streamId = some record.state := by rw [state, hrecord]; rfl
    have haccept : bridge.manager.acceptChunk streamId chunk =
        ((record.acceptChunk streamId chunk).1,
          (bridge.holding streamId (record.acceptChunk streamId chunk).2).manager) :=
      onRecord_of_lookup hrecord _
    have hholding : ∀ next, (bridge.holding streamId next).state streamId = some next.state :=
      fun next => by rw [state, holding_lookup]; rfl
    have haccepts := record.acceptChunk_accepts streamId chunk
    have hadmits := fun audio (result : AudioChunkResult)
        (h : (record.acceptChunk streamId chunk).1 = .ok (result, some audio)) =>
      hnone record audio hrecord (StreamRecord.admits_of_acceptChunk h)
    revert haccept haccepts hadmits
    generalize record.acceptChunk streamId chunk = accepted
    intro haccept haccepts hadmits
    obtain ⟨outcome, next⟩ := accepted
    cases haccepts with
    | refused e => exact allOrNothing_refused haccept ((hholding _).trans hstate.symm)
    | duplicate result hopen hgen hseq hdup hnext =>
      refine allOrNothing_repeated haccept hdup ?_ ?_
      · exact (congrArg _ (hholding _)).trans (by rw [hstate]; rfl)
      · exact (congrArg _ (hholding _)).trans (by rw [hstate]; rfl)
    | accepted result audio => exact absurd rfl (hadmits audio result)

theorem acceptChunk_admitted (hrecord : bridge.manager.streams.lookup streamId = some record)
    (hadmits : record.Admits chunk audio) : ∃ result : AudioChunkResult, result.duplicate = false ∧
      bridge.manager.acceptChunk streamId chunk =
        (.ok (result, some audio), (bridge.holding streamId (record.reserving audio)).manager) := by
  have haccept := onRecord_of_lookup hrecord (StreamRecord.acceptChunk streamId chunk)
  rw [hadmits.acceptChunk streamId] at haccept
  exact ⟨_, rfl, haccept⟩

/-- The bridge once the awaited push has come back. -/
def awaited (bridge : ChunkBridge) (streamId : String) (record : StreamRecord) (audio : List UInt8)
    (await : PushAwait) : ChunkBridge :=
  (bridge.holding streamId (record.reserving audio)).pushAudio streamId audio await

/-- `push_chunk` for audio that the manager takes, of a stream that is not committed. -/
theorem pushChunk_awaited (await : PushAwait)
    (hrecord : bridge.manager.streams.lookup streamId = some record)
    (hadmits : record.Admits chunk audio)
    (hprovider : bridge.providerStreams.lookup streamId = some provider)
    (hopen : provider.committed = false) : ∃ result : AudioChunkResult,
      bridge.pushChunk streamId chunk await =
        (bridge.awaited streamId record audio await).pushed streamId audio await.outcome provider
          result := by
  obtain ⟨result, _, haccept⟩ := acceptChunk_admitted hrecord hadmits
  refine ⟨result, ?_⟩
  unfold pushChunk
  rw [haccept]
  simp only
  rw [hprovider]
  simp only
  rw [hopen, if_neg Bool.false_ne_true]
  rfl

/-- A stream without a provider session keeps the place of what it could not hand on. -/
theorem lost_without_provider (await : PushAwait)
    (hrecord : bridge.manager.streams.lookup streamId = some record)
    (hadmits : record.Admits chunk audio)
    (hprovider : bridge.providerStreams.lookup streamId = none) :
    bridge.Lost streamId record (bridge.pushChunk streamId chunk await) := by
  obtain ⟨result, _, haccept⟩ := acceptChunk_admitted hrecord hadmits
  have hpushed : bridge.pushChunk streamId chunk await =
      (.error (noProvider streamId), bridge.holding streamId (record.reserving audio)) := by
    unfold pushChunk
    rw [haccept]
    simp only
    rw [hprovider]
    rfl
  rw [hpushed]
  exact ⟨⟨_, rfl⟩, _, by rw [state, holding_lookup]; rfl, rfl⟩

/-- So does one that is closed while the provider is awaited. -/
theorem lost_when_closed (hadmits : record.Admits chunk audio) (hcloses : await.closes = true)
    (result : AudioChunkResult) :
    bridge.Lost streamId record ((bridge.awaited streamId record audio await).pushed streamId audio
      await.outcome provider result) := by
  have hlookup : (bridge.awaited streamId record audio await).manager.streams.lookup streamId =
      some (record.reserving audio).close.2 := by
    have hawaited := pushAudio_lookup audio await
      (@holding_lookup bridge streamId (record.reserving audio))
    rwa [hcloses, if_pos rfl] at hawaited
  unfold pushed
  rw [acknowledge_empty hlookup rfl hadmits.ne_nil]
  exact ⟨⟨_, rfl⟩, _, by rw [state, holding_lookup]; rfl, rfl⟩

theorem acknowledge_awaited (hcloses : await.closes = false) :
    (bridge.awaited streamId record audio await).acknowledge streamId audio =
      (.ok (record.releasing audio).state,
        (bridge.awaited streamId record audio await).holding streamId (record.releasing audio)) := by
  refine acknowledge_reserving ?_
  have hawaited := pushAudio_lookup audio await
    (@holding_lookup bridge streamId (record.reserving audio))
  rwa [hcloses, if_neg Bool.false_ne_true] at hawaited

/-- A provider that raises has cost the chunk its place. -/
theorem lost_when_raised (hcloses : await.closes = false) {exception : Raised} {heard : Bool}
    (houtcome : await.outcome = .raised exception heard) (result : AudioChunkResult) :
    bridge.Lost streamId record ((bridge.awaited streamId record audio await).pushed streamId audio
      await.outcome provider result) := by
  unfold pushed
  rw [acknowledge_awaited hcloses, houtcome]
  exact ⟨⟨_, rfl⟩, _, by rw [state, holding_lookup]; rfl, rfl⟩

/-- What the detector makes of the audio, once it is acknowledged. -/
def observing (bridge : ChunkBridge) (streamId : String) (record : StreamRecord) (audio : List UInt8)
    (await : PushAwait) (provider : SttStream) :
    Except PushError (Option Pcm16EnergyVad.Observation) × ChunkBridge :=
  ((bridge.awaited streamId record audio await).holding streamId (record.releasing audio)).observe
    streamId audio provider record.state.config

theorem pushed_returned (hcloses : await.closes = false) (houtcome : await.outcome = .returned)
    (result : AudioChunkResult) :
    (bridge.awaited streamId record audio await).pushed streamId audio await.outcome provider result =
      ((bridge.observing streamId record audio await provider).1.map fun vad =>
        { chunk := { result with bufferedBytes := record.state.bufferedBytes }, vad },
        (bridge.observing streamId record audio await provider).2) := by
  unfold pushed
  rw [acknowledge_awaited hcloses, houtcome]
  rfl

theorem observing_state : (bridge.observing streamId record audio await provider).2.state streamId =
    some (record.releasing audio).state := by
  unfold observing
  rw [observe_state, state, holding_lookup]
  rfl

theorem observing_heard (hcloses : await.closes = false) (houtcome : await.outcome = .returned) :
    (bridge.observing streamId record audio await provider).2.heard =
      bridge.heard ++ [(streamId, audio)] := by
  unfold observing
  rw [observe_heard]
  unfold holding awaited pushAudio
  rw [hcloses, houtcome]
  rfl

/-- The detector refuses what does not come in whole frames, and nothing else. -/
theorem observing_ok_iff (bridge : ChunkBridge) (streamId : String) (await : PushAwait)
    (hne : audio ≠ []) :
    (∃ observed, (bridge.observing streamId record audio await provider).1 = .ok observed) ↔
      (provider.vad.isSome = true → audio.length % (2 * record.state.config.channels) = 0) := by
  unfold observing observe
  cases provider.vad with
  | none => exact ⟨fun _ h => absurd h (by decide), fun _ => ⟨none, rfl⟩⟩
  | some vad =>
    have hok := vad.2.observe_ok_iff record.state.config hne
    simp only [Option.isSome_some, forall_const]
    rw [← hok]
    cases vad.1.observe audio record.state.config.sampleRateHz record.state.config.channels with
    | mk outcome next =>
      cases outcome with
      | error e => exact ⟨fun ⟨_, h⟩ => (by cases h), fun ⟨_, h⟩ => (by cases h)⟩
      | ok observation => exact ⟨fun _ => ⟨observation, rfl⟩, fun _ => ⟨some observation, rfl⟩⟩

/-- Audio that no detector takes has been heard, and has cost the chunk its place. -/
theorem lost_when_unframed (hcloses : await.closes = false) (houtcome : await.outcome = .returned)
    (hne : audio ≠ [])
    (hframes : ¬(provider.vad.isSome = true →
      audio.length % (2 * record.state.config.channels) = 0)) (result : AudioChunkResult) :
    bridge.Lost streamId record ((bridge.awaited streamId record audio await).pushed streamId audio
      await.outcome provider result) := by
  rw [pushed_returned hcloses houtcome]
  refine ⟨?_, _, observing_state, rfl⟩
  rw [← observing_ok_iff bridge streamId await hne] at hframes
  cases hobserved : (bridge.observing streamId record audio await provider).1 with
  | ok observed => exact absurd ⟨observed, hobserved⟩ hframes
  | error e => exact ⟨e, rfl⟩

theorem allOrNothing_committed (hrecord : bridge.manager.streams.lookup streamId = some record)
    (hadmits : record.Admits chunk audio)
    (hprovider : bridge.providerStreams.lookup streamId = some provider)
    (hcommitted : provider.committed = true) : bridge.AllOrNothing streamId chunk await := by
  obtain ⟨result, hfresh, haccept⟩ := acceptChunk_admitted hrecord hadmits
  have hpushed : bridge.pushChunk streamId chunk await =
      (.ok { chunk := { result with bufferedBytes := record.state.bufferedBytes } },
        (bridge.holding streamId (record.reserving audio)).holding streamId
          (record.releasing audio)) := by
    have hacknowledge := acknowledge_reserving
      (@holding_lookup bridge streamId (record.reserving audio))
    unfold pushChunk
    rw [haccept]
    simp only
    rw [hprovider]
    simp only
    rw [hcommitted, if_pos rfl]
    refine (congrArg (fun acknowledged : Except PushError AudioStreamState × ChunkBridge =>
      (acknowledged.1.map fun state =>
        ({ chunk := { result with bufferedBytes := state.bufferedBytes } } : PushResult),
        acknowledged.2)) hacknowledge).trans rfl
  refine ⟨?_, ?_, ?_, ?_⟩
  · rw [hpushed]
    exact fun e h => (by cases h)
  · rw [hpushed]
    exact fun _ _ _ => ⟨audio, hadmits.decoded, .inr ⟨⟨provider, hprovider, hcommitted⟩, rfl⟩⟩
  · intro state' hstate
    rw [state, hrecord] at hstate
    obtain rfl := Option.some.inj hstate
    rw [hpushed]
    exact ⟨(record.releasing audio).state, by rw [state, holding_lookup]; rfl, .inl rfl⟩
  · rw [hpushed]
    exact fun e h => (by cases h)

theorem allOrNothing_returned (hrecord : bridge.manager.streams.lookup streamId = some record)
    (hadmits : record.Admits chunk audio)
    (hprovider : bridge.providerStreams.lookup streamId = some provider)
    (hopen : provider.committed = false) (hcloses : await.closes = false)
    (houtcome : await.outcome = .returned)
    (hframes : provider.vad.isSome = true → audio.length % (2 * record.state.config.channels) = 0) :
    bridge.AllOrNothing streamId chunk await := by
  obtain ⟨result, hpushed⟩ := pushChunk_awaited await hrecord hadmits hprovider hopen
  obtain ⟨observed, hobserved⟩ := (observing_ok_iff bridge streamId await hadmits.ne_nil).mpr
    hframes
  rw [pushed_returned hcloses houtcome, hobserved] at hpushed
  refine ⟨?_, ?_, ?_, ?_⟩
  · rw [hpushed]
    exact fun e h => (by cases h)
  · rw [hpushed]
    exact fun _ _ _ => ⟨audio, hadmits.decoded, .inl (observing_heard hcloses houtcome)⟩
  · intro state' hstate
    rw [state, hrecord] at hstate
    obtain rfl := Option.some.inj hstate
    rw [hpushed]
    exact ⟨_, observing_state, .inl rfl⟩
  · rw [hpushed]
    exact fun e h => (by cases h)

/-- A stream that is not committed loses what its provider session does not carry. -/
theorem lost_unless_carried (hrecord : bridge.manager.streams.lookup streamId = some record)
    (hadmits : record.Admits chunk audio)
    (hprovider : bridge.providerStreams.lookup streamId = some provider)
    (hopen : provider.committed = false)
    (hnot : ¬(await.outcome = .returned ∧ await.closes = false ∧
      (provider.vad.isSome = true → audio.length % (2 * record.state.config.channels) = 0))) :
    bridge.Lost streamId record (bridge.pushChunk streamId chunk await) := by
  obtain ⟨result, hpushed⟩ := pushChunk_awaited await hrecord hadmits hprovider hopen
  rw [hpushed]
  cases hcloses : await.closes with
  | true => exact lost_when_closed hadmits hcloses result
  | false =>
    cases houtcome : await.outcome with
    | raised exception heard =>
      rw [← houtcome]
      exact lost_when_raised hcloses houtcome result
    | returned =>
      rw [← houtcome]
      exact lost_when_unframed hcloses houtcome hadmits.ne_nil
        (fun hframes => hnot ⟨houtcome, hcloses, hframes⟩) result

/-- `push_chunk` is all or nothing just where the provider session carries what the manager took. -/
theorem push_chunk_iff (bridge : ChunkBridge) (streamId : String) (chunk : AudioChunkMessage)
    (await : PushAwait) :
    bridge.AllOrNothing streamId chunk await ↔ bridge.Carries streamId chunk await := by
  constructor
  · intro hall record audio hrecord hadmits
    cases hprovider : bridge.providerStreams.lookup streamId with
    | none =>
      have hlost := lost_without_provider await hrecord hadmits hprovider
      exact absurd hall (hlost.not_allOrNothing hrecord)
    | some provider =>
      refine ⟨provider, rfl, ?_⟩
      cases hopen : provider.committed with
      | true => exact .inl rfl
      | false =>
        refine .inr ?_
        by_contra hnot
        have hlost := lost_unless_carried hrecord hadmits hprovider hopen hnot
        exact hlost.not_allOrNothing hrecord hall
  · intro hcarries
    by_cases hadmitted : ∃ record audio, bridge.manager.streams.lookup streamId = some record ∧
        record.Admits chunk audio
    · obtain ⟨record, audio, hrecord, hadmits⟩ := hadmitted
      obtain ⟨provider, hprovider, hprovided⟩ := hcarries record audio hrecord hadmits
      cases hopen : provider.committed with
      | true => exact allOrNothing_committed hrecord hadmits hprovider hopen
      | false =>
        rcases hprovided with hcommitted | ⟨houtcome, hcloses, hframes⟩
        · rw [hopen] at hcommitted
          cases hcommitted
        · exact allOrNothing_returned hrecord hadmits hprovider hopen hcloses houtcome hframes
    · exact allOrNothing_unadmitted fun record audio hrecord hadmits =>
        hadmitted ⟨record, audio, hrecord, hadmits⟩

end Pushes

open BridgeStream (quietStream)

/-- One stream that has heard nothing yet. -/
def quietBridge (vad : Option { vad : Pcm16EnergyVad // vad.Sound }) : ChunkBridge where
  manager := ⟨[("stream", quietStream)]⟩
  providerStreams := [("stream", { vad })]

theorem spokenChunk_admitted :
    quietStream.Admits (spokenChunk 0) [97, 117, 100, 105, 111] :=
  ⟨rfl, rfl, rfl, by decide, by decide, by decide, by decide⟩

/-- The provider raises; it takes the audio while the stream is closed; or it takes the audio, which
is half a frame short of what the detector reads. -/
theorem push_chunk_loses :
    ¬(quietBridge none).AllOrNothing "stream" (spokenChunk 0)
        { outcome := .raised (.other "ConnectionError" "reset") false } ∧
    ¬(quietBridge none).AllOrNothing "stream" (spokenChunk 0) { closes := true } ∧
    ¬(quietBridge (some ⟨{}, Pcm16EnergyVad.sound_start _⟩)).AllOrNothing "stream"
        (spokenChunk 0) {} := by
  refine ⟨?_, ?_, ?_⟩
  · refine (lost_unless_carried rfl spokenChunk_admitted rfl rfl ?_).not_allOrNothing rfl
    exact fun h => (by cases h.1)
  · refine (lost_unless_carried rfl spokenChunk_admitted rfl rfl ?_).not_allOrNothing rfl
    exact fun h => (by cases h.2.1)
  · refine (lost_unless_carried rfl spokenChunk_admitted rfl rfl ?_).not_allOrNothing rfl
    exact fun h => absurd (h.2.2 rfl) (by decide)

end ChunkBridge

end NoraInterviewer
