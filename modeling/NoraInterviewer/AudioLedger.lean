import NoraInterviewer.AudioStreams
import Mathlib.Data.List.DropRight
import Mathlib.Data.List.Range
import Mathlib.Algebra.BigOperators.Group.List.Basic
import Mathlib.Algebra.GroupWithZero.Nat

namespace NoraInterviewer

inductive AudioCall where
  | openStream (sessionId : String) (generation : ℤ) (config : AudioStreamConfig)
    (streamId : String) (token : ReconnectToken)
  | acceptChunk (streamId : String) (chunk : AudioChunkMessage)
  | acknowledgeProcessed (streamId : String) (byteCount : ℤ)
  | rotateGeneration (streamId : String) (generation : ℤ)
  | reconnect (streamId sessionId reconnectToken : String) (generation nextSequence : ℤ)
  | close (streamId : String)

inductive AudioReply where
  | opened (result : AudioStreamOpenResult)
  | chunk (result : AudioChunkResult) (audio : Option (List UInt8))
  | state (state : AudioStreamState)

def AudioCall.streamId : AudioCall → String
  | openStream _ _ _ streamId _ | acceptChunk streamId _ | acknowledgeProcessed streamId _
  | rotateGeneration streamId _ | reconnect streamId _ _ _ _ | close streamId => streamId

/-- The stream id that the call takes from `uuid4`. -/
def AudioCall.mints : AudioCall → Option String
  | openStream _ _ _ streamId _ => some streamId
  | _ => none

def AudioStreamManager.perform (manager : AudioStreamManager) :
    AudioCall → Except AudioError AudioReply × AudioStreamManager
  | .openStream sessionId generation config streamId token =>
    let opened := manager.openStream sessionId generation config streamId token
    (opened.1.map .opened, opened.2)
  | .acceptChunk streamId chunk =>
    let accepted := manager.acceptChunk streamId chunk
    (accepted.1.map fun reply => .chunk reply.1 reply.2, accepted.2)
  | .acknowledgeProcessed streamId byteCount =>
    let acknowledged := manager.acknowledgeProcessed streamId byteCount
    (acknowledged.1.map .state, acknowledged.2)
  | .rotateGeneration streamId generation =>
    let rotated := manager.rotateGeneration streamId generation
    (rotated.1.map .state, rotated.2)
  | .reconnect streamId sessionId reconnectToken generation nextSequence =>
    let reconnected :=
      manager.reconnect streamId sessionId reconnectToken generation nextSequence
    (reconnected.1.map .state, reconnected.2)
  | .close streamId =>
    let closed := manager.close streamId
    (closed.1.map .state, closed.2)

/-- The calls that a manager served, each with its outcome. -/
abbrev AudioTrace := List (AudioCall × Except AudioError AudioReply)

def AudioStreamManager.serveOne (served : AudioStreamManager × AudioTrace) (call : AudioCall) :
    AudioStreamManager × AudioTrace :=
  let performed := served.1.perform call
  (performed.2, served.2 ++ [(call, performed.1)])

/-- A new manager that serves the calls one after the other. -/
def AudioStreamManager.serve (calls : List AudioCall) : AudioStreamManager × AudioTrace :=
  calls.foldl serveOne ({}, [])

/-- What a call that returned did on one stream. -/
inductive StreamEvent where
  | began (generation : ℕ)
  | heard (generation sequence : ℕ) (audio : List UInt8)
  | acknowledged (bytes : ℕ)
  | rotated (generation : ℕ)
  | closed

namespace StreamEvent

/-- Read off the call's arguments and its reply alone. -/
def ofEntry (streamId : String) : AudioCall × Except AudioError AudioReply → Option StreamEvent
  | (.openStream _ generation _ id _, .ok _) =>
    if id = streamId then some (.began generation.toNat) else none
  | (.acceptChunk id chunk, .ok (.chunk _ (some audio))) =>
    if id = streamId then some (.heard chunk.generation chunk.sequence audio) else none
  | (.acknowledgeProcessed id byteCount, .ok _) =>
    if id = streamId then some (.acknowledged byteCount.toNat) else none
  | (.rotateGeneration id generation, .ok _) =>
    if id = streamId then some (.rotated generation.toNat) else none
  | (.close id, .ok _) => if id = streamId then some .closed else none
  | _ => none

/-- The audio that the manager handed out, with its generation and sequence number. -/
def audio : StreamEvent → Option (ℕ × ℕ × List UInt8)
  | heard generation sequence audio => some (generation, sequence, audio)
  | _ => none

def bytes : StreamEvent → ℕ
  | acknowledged bytes => bytes
  | _ => 0

/-- The generation that the stream was opened with or rotated to. -/
def newGeneration : StreamEvent → Option ℕ
  | began generation | rotated generation => some generation
  | _ => none

def handedOut (events : List StreamEvent) : List (ℕ × ℕ × List UInt8) := events.filterMap audio

def bytesAccepted (events : List StreamEvent) : ℕ :=
  ((handedOut events).map fun chunk => chunk.2.2.length).sum

def bytesAcknowledged (events : List StreamEvent) : ℕ := (events.map bytes).sum

def generations (events : List StreamEvent) : List ℕ := events.filterMap newGeneration

def sinceRotation (events : List StreamEvent) : List StreamEvent :=
  events.rtakeWhile fun event => event.newGeneration.isNone

theorem handedOut_concat (events : List StreamEvent) (event : StreamEvent) :
    handedOut (events ++ [event]) = handedOut events ++ event.audio.toList := by
  rw [handedOut, List.filterMap_append, List.filterMap_cons, List.filterMap_nil]
  cases event.audio <;> rfl

theorem bytesAccepted_concat (events : List StreamEvent) (event : StreamEvent) :
    bytesAccepted (events ++ [event]) =
      bytesAccepted events + (event.audio.toList.map fun chunk => chunk.2.2.length).sum := by
  simp only [bytesAccepted, handedOut_concat, List.map_append, List.sum_append]

theorem bytesAcknowledged_concat (events : List StreamEvent) (event : StreamEvent) :
    bytesAcknowledged (events ++ [event]) = bytesAcknowledged events + event.bytes := by
  simp [bytesAcknowledged]

theorem generations_concat (events : List StreamEvent) (event : StreamEvent) :
    generations (events ++ [event]) = generations events ++ event.newGeneration.toList := by
  rw [generations, List.filterMap_append, List.filterMap_cons, List.filterMap_nil]
  cases event.newGeneration <;> rfl

theorem sinceRotation_concat (events : List StreamEvent) (event : StreamEvent) :
    sinceRotation (events ++ [event]) =
      if event.newGeneration.isNone then sinceRotation events ++ [event] else [] := by
  rw [sinceRotation, List.rtakeWhile_concat]
  rfl

end StreamEvent

/-- The events of one stream. -/
def AudioTrace.events (streamId : String) (trace : AudioTrace) : List StreamEvent :=
  trace.filterMap (StreamEvent.ofEntry streamId)

open StreamEvent

/-- The counters of a stream agree with what the manager's callers saw of it. -/
structure StreamRecord.Accounts (events : List StreamEvent) (record : StreamRecord) : Prop where
  within : record.state.bufferedBytes ≤ record.state.config.maxBufferedBytes
  buffered : record.state.bufferedBytes = if record.state.closed then 0
    else bytesAccepted (sinceRotation events) - bytesAcknowledged (sinceRotation events)
  covered : record.state.closed = false →
    bytesAcknowledged (sinceRotation events) ≤ bytesAccepted (sinceRotation events)
  sequences : ((handedOut events).filter fun chunk => chunk.1 = record.state.generation).map
    (fun chunk => chunk.2.1) = List.range record.state.nextSequence
  acceptedChunks : record.state.acceptedChunks = (handedOut events).length
  acceptedBytes : record.state.acceptedBytes = bytesAccepted events
  begun : ∀ chunk ∈ handedOut events, chunk.1 ∈ StreamEvent.generations events
  increasing : (handedOut events).Pairwise fun earlier later =>
    earlier.1 < later.1 ∨ earlier.1 = later.1 ∧ earlier.2.1 < later.2.1
  generations : (generations events).Pairwise (· < ·)
  current : (StreamEvent.generations events).getLast? = some record.state.generation
  closed : record.state.closed = true ↔ .closed ∈ events
  silent : ∀ before after, events = before ++ .closed :: after → handedOut after = []

/-- What any call can do to the record of its stream, and the event that it leaves. -/
inductive StreamRecord.Effect (record : StreamRecord) : Option StreamEvent → StreamRecord → Prop
  | kept : Effect record none record
  | counted (duplicates reconnects : ℕ) :
      Effect record none { record with state := { record.state with
        duplicateChunks := duplicates, reconnectCount := reconnects } }
  | heard (audio : List UInt8) (hopen : record.state.closed = false)
      (hfits : record.state.bufferedBytes + audio.length ≤ record.state.config.maxBufferedBytes) :
      Effect record
        (some (.heard record.state.generation record.state.nextSequence audio))
        { record with state := { record.state with
            bufferedBytes := record.state.bufferedBytes + audio.length
            acceptedChunks := record.state.acceptedChunks + 1
            acceptedBytes := record.state.acceptedBytes + audio.length
            nextSequence := record.state.nextSequence + 1 } }
  | acknowledged (bytes : ℕ) (hle : bytes ≤ record.state.bufferedBytes) :
      Effect record (some (.acknowledged bytes))
        { record with state := { record.state with
            bufferedBytes := record.state.bufferedBytes - bytes } }
  | rotated (generation : ℕ) (hopen : record.state.closed = false)
      (hlt : record.state.generation < generation) :
      Effect record (some (.rotated generation))
        { record with state := { record.state with
            generation := generation, nextSequence := 0, bufferedBytes := 0 } }
  | closed :
      Effect record (some .closed)
        { record with state := { record.state with closed := true, bufferedBytes := 0 } }

namespace StreamRecord.Accounts

variable {events : List StreamEvent} {record : StreamRecord}

theorem generation_le (h : record.Accounts events) {generation : ℕ}
    (hmem : generation ∈ StreamEvent.generations events) :
    generation ≤ record.state.generation := by
  obtain ⟨earlier, hlast⟩ := List.getLast?_eq_some_iff.mp h.current
  have hsorted := h.generations
  rw [hlast] at hmem hsorted
  rcases List.mem_append.mp hmem with hmem | hmem
  · exact Nat.le_of_lt (List.pairwise_append.mp hsorted |>.2.2 _ hmem _ (by simp))
  · simp at hmem
    omega

theorem chunk_le (h : record.Accounts events) {chunk : ℕ × ℕ × List UInt8}
    (hmem : chunk ∈ handedOut events) : chunk.1 ≤ record.state.generation :=
  h.generation_le (h.begun chunk hmem)

/-- What was handed out in the current generation came before the next sequence number. -/
theorem sequence_lt (h : record.Accounts events) {chunk : ℕ × ℕ × List UInt8}
    (hmem : chunk ∈ handedOut events) (hgen : chunk.1 = record.state.generation) :
    chunk.2.1 < record.state.nextSequence := by
  have hkept : chunk.2.1 ∈ ((handedOut events).filter
      fun chunk => chunk.1 = record.state.generation).map fun chunk => chunk.2.1 :=
    List.mem_map.mpr ⟨chunk, List.mem_filter.mpr ⟨hmem, by simpa using hgen⟩, rfl⟩
  rw [h.sequences] at hkept
  exact List.mem_range.mp hkept

theorem began (state : AudioStreamState) (token : ReconnectToken)
    (hnew : state.nextSequence = 0 ∧ state.bufferedBytes = 0 ∧ state.acceptedChunks = 0 ∧
      state.acceptedBytes = 0 ∧ state.closed = false) :
    StreamRecord.Accounts [.began state.generation] ⟨state, token⟩ := by
  obtain ⟨hnext, hbuffered, hchunks, hbytes, hopen⟩ := hnew
  have hsince : sinceRotation [.began state.generation] = [] := rfl
  have hnone : handedOut [.began state.generation] = [] := rfl
  constructor
  case within => simp [hbuffered]
  case buffered => simp [hbuffered, hopen, hsince, bytesAccepted, handedOut]
  case covered => simp [hsince, bytesAcknowledged]
  case sequences => simp [hnext, hnone]
  case acceptedChunks => simp [hchunks, hnone]
  case acceptedBytes => simp [hbytes, bytesAccepted, hnone]
  case begun => simp [hnone]
  case increasing => simp [hnone]
  case generations => simp [StreamEvent.generations, newGeneration]
  case current => simp [StreamEvent.generations, newGeneration]
  case closed => simp [hopen]
  case silent =>
    intro before after h
    cases before with
    | nil => simp at h
    | cons _ rest => simp at h

/-- An open stream has no close among its events, so nothing follows one. -/
theorem open_silent (h : record.Accounts events) (hopen : record.state.closed = false)
    {event : StreamEvent} (hevent : event ≠ .closed) {before after : List StreamEvent}
    (hsplit : events ++ [event] = before ++ .closed :: after) : handedOut after = [] := by
  have hmem : StreamEvent.closed ∈ events ++ [event] := by
    rw [hsplit]
    simp
  rcases List.mem_append.mp hmem with hmem | hmem
  · simp [h.closed.mpr hmem] at hopen
  · simp at hmem
    exact absurd hmem.symm hevent

/-- Nor does audio follow a close through an event that hands none out. -/
theorem quiet_silent (h : record.Accounts events) {event : StreamEvent}
    (hquiet : event.audio = none) {before after : List StreamEvent}
    (hsplit : events ++ [event] = before ++ .closed :: after) : handedOut after = [] := by
  rcases List.eq_nil_or_concat after with rfl | ⟨rest, last, rfl⟩
  · rfl
  · rw [List.concat_eq_append, ← List.cons_append, ← List.append_assoc] at hsplit
    obtain ⟨hevents, hlast⟩ := List.append_inj' hsplit rfl
    obtain rfl : event = last := by simpa using hlast
    rw [List.concat_eq_append, handedOut_concat, h.silent before rest hevents, hquiet]
    rfl

theorem heard (h : record.Accounts events) (audio : List UInt8)
    (hopen : record.state.closed = false)
    (hfits : record.state.bufferedBytes + audio.length ≤ record.state.config.maxBufferedBytes) :
    StreamRecord.Accounts
      (events ++ [.heard record.state.generation record.state.nextSequence audio])
      { record with state := { record.state with
          bufferedBytes := record.state.bufferedBytes + audio.length
          acceptedChunks := record.state.acceptedChunks + 1
          acceptedBytes := record.state.acceptedBytes + audio.length
          nextSequence := record.state.nextSequence + 1 } } := by
  have hcovered := h.covered hopen
  have hbuffered := h.buffered
  simp only [hopen, Bool.false_eq_true, if_false] at hbuffered
  have hsince := sinceRotation_concat events
    (.heard record.state.generation record.state.nextSequence audio)
  simp only [newGeneration, Option.isNone_none, if_true] at hsince
  constructor
  case within => exact hfits
  case buffered =>
    simp only [hopen, hsince, bytesAccepted_concat, bytesAcknowledged_concat]
    simp [StreamEvent.audio, bytes]
    omega
  case covered =>
    intro _
    simp only [hsince, bytesAccepted_concat, bytesAcknowledged_concat]
    simp [bytes]
    omega
  case sequences =>
    simp only [handedOut_concat, List.filter_append, List.map_append, h.sequences]
    simp [StreamEvent.audio, List.range_succ]
  case acceptedChunks => simp [handedOut_concat, h.acceptedChunks, StreamEvent.audio]
  case acceptedBytes => simp [bytesAccepted_concat, h.acceptedBytes, StreamEvent.audio]
  case begun =>
    intro chunk hmem
    rw [generations_concat]
    refine List.mem_append_left _ ?_
    rw [handedOut_concat] at hmem
    rcases List.mem_append.mp hmem with hmem | hmem
    · exact h.begun chunk hmem
    · simp [StreamEvent.audio] at hmem
      subst hmem
      exact List.mem_of_getLast? h.current
  case increasing =>
    rw [handedOut_concat]
    refine List.pairwise_append.mpr ⟨h.increasing, by simp [StreamEvent.audio], ?_⟩
    intro earlier hmem later hlater
    simp [StreamEvent.audio] at hlater
    subst hlater
    by_cases hgen : earlier.1 = record.state.generation
    · exact .inr ⟨hgen, h.sequence_lt hmem hgen⟩
    · have hle := h.chunk_le hmem
      exact .inl (by simp only; omega)
  case generations => simpa [generations_concat, newGeneration] using h.generations
  case current => simpa [generations_concat, newGeneration] using h.current
  case closed => simp [h.closed]
  case silent => exact fun before after => h.open_silent hopen (by simp)

theorem acknowledged (h : record.Accounts events) {bytes : ℕ}
    (hle : bytes ≤ record.state.bufferedBytes) :
    StreamRecord.Accounts (events ++ [.acknowledged bytes])
      { record with state := { record.state with
          bufferedBytes := record.state.bufferedBytes - bytes } } := by
  have hwithin := h.within
  have hbuffered := h.buffered
  have hsince := sinceRotation_concat events (.acknowledged bytes)
  simp only [newGeneration, Option.isNone_none, if_true] at hsince
  constructor
  case within => exact le_trans (Nat.sub_le _ _) hwithin
  case buffered =>
    simp only [hsince, bytesAccepted_concat, bytesAcknowledged_concat]
    simp only [audio, StreamEvent.bytes, Option.toList_none, List.map_nil, List.sum_nil]
    split at hbuffered
    next hclosed =>
      rw [if_pos hclosed]
      omega
    next hopen =>
      rw [if_neg hopen]
      omega
  case covered =>
    intro hopen
    have hcovered := h.covered hopen
    rw [if_neg (by simpa using hopen)] at hbuffered
    simp only [hsince, bytesAccepted_concat, bytesAcknowledged_concat]
    simp only [audio, StreamEvent.bytes, Option.toList_none, List.map_nil, List.sum_nil]
    omega
  case sequences => simpa [handedOut_concat, audio] using h.sequences
  case acceptedChunks => simpa [handedOut_concat, audio] using h.acceptedChunks
  case acceptedBytes => simpa [bytesAccepted_concat, audio] using h.acceptedBytes
  case begun => simpa [handedOut_concat, generations_concat, audio, newGeneration] using h.begun
  case increasing => simpa [handedOut_concat, audio] using h.increasing
  case generations => simpa [generations_concat, newGeneration] using h.generations
  case current => simpa [generations_concat, newGeneration] using h.current
  case closed => simp [h.closed]
  case silent => exact fun before after => h.quiet_silent rfl

theorem rotated (h : record.Accounts events) {generation : ℕ}
    (hopen : record.state.closed = false) (hlt : record.state.generation < generation) :
    StreamRecord.Accounts (events ++ [.rotated generation])
      { record with state := { record.state with
          generation := generation, nextSequence := 0, bufferedBytes := 0 } } := by
  have hsince : sinceRotation (events ++ [.rotated generation]) = [] :=
    sinceRotation_concat events (.rotated generation)
  constructor
  case within => exact Nat.zero_le _
  case buffered => simp [hsince, bytesAccepted, handedOut]
  case covered => simp [hsince, bytesAcknowledged]
  case sequences =>
    -- the audio handed out so far belongs to older generations
    have hold : (handedOut events).filter (fun chunk => chunk.1 = generation) = [] := by
      refine List.filter_eq_nil_iff.mpr fun chunk hmem => ?_
      have hle := h.chunk_le hmem
      simp
      omega
    simp [handedOut_concat, audio, hold]
  case acceptedChunks => simpa [handedOut_concat, audio] using h.acceptedChunks
  case acceptedBytes => simpa [bytesAccepted_concat, audio] using h.acceptedBytes
  case begun =>
    intro chunk hmem
    rw [generations_concat]
    refine List.mem_append_left _ (h.begun chunk ?_)
    simpa [handedOut_concat, audio] using hmem
  case increasing => simpa [handedOut_concat, audio] using h.increasing
  case generations =>
    rw [generations_concat]
    refine List.pairwise_append.mpr ⟨h.generations, by simp [newGeneration], ?_⟩
    intro earlier hmem later hlater
    simp [newGeneration] at hlater
    have hle := h.generation_le hmem
    omega
  case current => simp [generations_concat, newGeneration]
  case closed => simp [h.closed]
  case silent => exact fun before after => h.open_silent hopen (by simp)

theorem closing (h : record.Accounts events) :
    StreamRecord.Accounts (events ++ [.closed])
      { record with state := { record.state with closed := true, bufferedBytes := 0 } } := by
  constructor
  case within => exact Nat.zero_le _
  case buffered => simp
  case covered => simp
  case sequences => simpa [handedOut_concat, audio] using h.sequences
  case acceptedChunks => simpa [handedOut_concat, audio] using h.acceptedChunks
  case acceptedBytes => simpa [bytesAccepted_concat, audio] using h.acceptedBytes
  case begun => simpa [handedOut_concat, generations_concat, audio, newGeneration] using h.begun
  case increasing => simpa [handedOut_concat, audio] using h.increasing
  case generations => simpa [generations_concat, newGeneration] using h.generations
  case current => simpa [generations_concat, newGeneration] using h.current
  case closed => simp
  case silent => exact fun before after => h.quiet_silent rfl

/-- Every call keeps the accounts of the record it works on. -/
theorem effect (h : record.Accounts events) {event : Option StreamEvent} {after : StreamRecord}
    (heffect : record.Effect event after) : after.Accounts (events ++ event.toList) := by
  cases heffect with
  | kept => simpa using h
  | counted duplicates reconnects =>
    rw [Option.toList_none, List.append_nil]
    exact { h with }
  | heard audio hopen hfits => exact h.heard audio hopen hfits
  | acknowledged bytes hle => exact h.acknowledged hle
  | rotated generation hopen hlt => exact h.rotated hopen hlt
  | closed => exact h.closing

end StreamRecord.Accounts

namespace StreamRecord

theorem acceptChunk_error {streamId : String} {chunk : AudioChunkMessage} {record : StreamRecord}
    {e : AudioError} (h : (record.acceptChunk streamId chunk).1 = .error e) :
    (record.acceptChunk streamId chunk).2 = record := by
  have haccepts := record.acceptChunk_accepts streamId chunk
  revert h haccepts
  generalize record.acceptChunk streamId chunk = worked
  intro h haccepts
  obtain ⟨outcome, after⟩ := worked
  cases haccepts with
  | refused e => rfl
  | duplicate => simp at h
  | accepted => simp at h

theorem acceptChunk_effect (streamId : String) (chunk : AudioChunkMessage)
    (record : StreamRecord) :
    record.Effect
      (StreamEvent.ofEntry streamId (.acceptChunk streamId chunk,
        (record.acceptChunk streamId chunk).1.map fun reply => .chunk reply.1 reply.2))
      (record.acceptChunk streamId chunk).2 := by
  have haccepts := record.acceptChunk_accepts streamId chunk
  revert haccepts
  generalize record.acceptChunk streamId chunk = worked
  intro haccepts
  obtain ⟨outcome, after⟩ := worked
  cases haccepts with
  | refused e => exact .kept
  | duplicate result hopen hgen hseq hdup hnext => exact .counted _ _
  | accepted result audio hopen hgen hseq hdecode hpos hfits hdup hnext =>
    simp only [Except.map, StreamEvent.ofEntry, if_true, hgen, hseq]
    exact .heard audio hopen hfits

theorem acknowledgeProcessed_effect (streamId : String) (byteCount : ℤ) (record : StreamRecord) :
    (∀ e, (record.acknowledgeProcessed byteCount).1 = .error e →
      (record.acknowledgeProcessed byteCount).2 = record) ∧
    record.Effect
      (StreamEvent.ofEntry streamId (.acknowledgeProcessed streamId byteCount,
        (record.acknowledgeProcessed byteCount).1.map .state))
      (record.acknowledgeProcessed byteCount).2 := by
  unfold acknowledgeProcessed
  simp only
  by_cases hneg : byteCount < 0
  · rw [if_pos hneg]
    exact ⟨fun _ _ => rfl, .kept⟩
  rw [if_neg hneg]
  by_cases hmore : byteCount > record.state.bufferedBytes
  · rw [if_pos hmore]
    exact ⟨fun _ _ => rfl, .kept⟩
  rw [if_neg hmore]
  refine ⟨fun _ h => by simp at h, ?_⟩
  simp only [Except.map, StreamEvent.ofEntry, if_true]
  exact .acknowledged byteCount.toNat (by omega)

theorem rotateGeneration_effect (streamId : String) (generation : ℤ) (record : StreamRecord) :
    (∀ e, (record.rotateGeneration streamId generation).1 = .error e →
      (record.rotateGeneration streamId generation).2 = record) ∧
    record.Effect
      (StreamEvent.ofEntry streamId (.rotateGeneration streamId generation,
        (record.rotateGeneration streamId generation).1.map .state))
      (record.rotateGeneration streamId generation).2 := by
  unfold rotateGeneration
  simp only
  by_cases hclosed : record.state.closed = true
  · rw [if_pos hclosed]
    exact ⟨fun _ _ => rfl, .kept⟩
  rw [if_neg hclosed]
  by_cases hstale : generation ≤ record.state.generation
  · rw [if_pos hstale]
    exact ⟨fun _ _ => rfl, .kept⟩
  rw [if_neg hstale]
  refine ⟨fun _ h => by simp at h, ?_⟩
  simp only [Except.map, StreamEvent.ofEntry, if_true]
  exact .rotated generation.toNat (by simpa using hclosed) (by omega)

theorem reconnect_effect (streamId sessionId reconnectToken : String)
    (generation nextSequence : ℤ) (record : StreamRecord) :
    (∀ e, (record.reconnect streamId sessionId reconnectToken generation nextSequence).1 =
        .error e →
      (record.reconnect streamId sessionId reconnectToken generation nextSequence).2 = record) ∧
    record.Effect none
      (record.reconnect streamId sessionId reconnectToken generation nextSequence).2 := by
  have hrefused : ∀ e, (∀ e', (Except.error e : Except AudioError AudioStreamState) = .error e' →
      record = record) ∧ record.Effect none record := fun _ => ⟨fun _ _ => rfl, .kept⟩
  unfold reconnect
  simp only
  split
  next => exact hrefused (.streamClosed _)
  split
  next => exact hrefused (.invalidReconnect _)
  split
  next => exact hrefused (.raised _)
  split
  next => exact hrefused (.invalidReconnect _)
  split
  next => exact hrefused (.staleGeneration _)
  split
  next => exact hrefused (.invalidSequence _)
  next => exact ⟨fun _ h => by simp at h, .counted _ _⟩

end StreamRecord

namespace AudioStreamManager

section Record

variable {α : Type} {manager : AudioStreamManager} {streamId : String}
  {work : StreamRecord → Except AudioError α × StreamRecord}

theorem onRecord_unknown (h : manager.streams.lookup streamId = none) :
    manager.onRecord streamId work =
      (.error (.invalidReconnect s!"unknown audio stream: {streamId}"), manager) := by
  simp only [onRecord, h]

theorem onRecord_found {record : StreamRecord}
    (h : manager.streams.lookup streamId = some record) :
    manager.onRecord streamId work =
      ((work record).1, ⟨manager.streams.set streamId (work record).2⟩) := by
  simp only [onRecord, h]

theorem onRecord_error
    (hwork : ∀ record e, (work record).1 = .error e → (work record).2 = record) {e : AudioError}
    (h : (manager.onRecord streamId work).1 = .error e) :
    (manager.onRecord streamId work).2 = manager := by
  cases hfound : manager.streams.lookup streamId with
  | none => rw [onRecord_unknown hfound]
  | some record =>
    rw [onRecord_found hfound] at h ⊢
    rw [hwork record e h]
    simp only [Dict.set_lookup hfound]

theorem onRecord_ne {other : String} (h : other ≠ streamId) :
    (manager.onRecord streamId work).2.streams.lookup other = manager.streams.lookup other := by
  cases hfound : manager.streams.lookup streamId with
  | none => rw [onRecord_unknown hfound]
  | some record =>
    rw [onRecord_found hfound]
    exact Dict.lookup_set_ne h _ _

end Record

/-- A call that raises leaves every stream as it was. -/
theorem perform_error {manager : AudioStreamManager} {call : AudioCall} {e : AudioError}
    (h : (manager.perform call).1 = .error e) : (manager.perform call).2 = manager := by
  have hmapped : ∀ {α : Type} {outcome : Except AudioError α} {f : α → AudioReply},
      outcome.map f = .error e → outcome = .error e := by
    intro α outcome f hmap
    cases outcome with
    | error e' => simpa [Except.map] using hmap
    | ok a => simp [Except.map] at hmap
  cases call with
  | openStream sessionId generation config streamId token =>
    have hraised := hmapped h
    simp only [perform]
    unfold openStream at hraised ⊢
    split
    next => rfl
    next hok =>
      rw [if_neg hok] at hraised
      simp at hraised
  | acceptChunk streamId chunk =>
    exact onRecord_error (fun _ _ => StreamRecord.acceptChunk_error) (hmapped h)
  | acknowledgeProcessed streamId byteCount =>
    exact onRecord_error
      (fun record => (record.acknowledgeProcessed_effect streamId byteCount).1) (hmapped h)
  | rotateGeneration streamId generation =>
    exact onRecord_error
      (fun record => (record.rotateGeneration_effect streamId generation).1) (hmapped h)
  | reconnect streamId sessionId reconnectToken generation nextSequence =>
    exact onRecord_error (fun record =>
      (record.reconnect_effect streamId sessionId reconnectToken generation nextSequence).1)
      (hmapped h)
  | close streamId =>
    exact onRecord_error (fun _ _ hclosed => by simp [StreamRecord.close] at hclosed) (hmapped h)

/-- A call leaves the streams that it does not name as they were. -/
theorem perform_ne {manager : AudioStreamManager} {call : AudioCall} {other : String}
    (h : other ≠ call.streamId) :
    (manager.perform call).2.streams.lookup other = manager.streams.lookup other := by
  cases call with
  | openStream sessionId generation config streamId token =>
    simp only [perform]
    unfold openStream
    split
    next => rfl
    next => exact Dict.lookup_set_ne h _ _
  | acceptChunk | acknowledgeProcessed | rotateGeneration | reconnect | close =>
    exact onRecord_ne h

theorem perform_effect {manager : AudioStreamManager} {call : AudioCall} {record : StreamRecord}
    (hfound : manager.streams.lookup call.streamId = some record) (hmints : call.mints = none) :
    ∃ after, (manager.perform call).2.streams.lookup call.streamId = some after ∧
      record.Effect (StreamEvent.ofEntry call.streamId (call, (manager.perform call).1)) after := by
  cases call with
  | openStream => simp [AudioCall.mints] at hmints
  | acceptChunk streamId chunk =>
    simp only [perform, acceptChunk, AudioCall.streamId] at hfound ⊢
    rw [onRecord_found hfound]
    exact ⟨_, Dict.lookup_set_self _ _ _, record.acceptChunk_effect streamId chunk⟩
  | acknowledgeProcessed streamId byteCount =>
    simp only [perform, acknowledgeProcessed, AudioCall.streamId] at hfound ⊢
    rw [onRecord_found hfound]
    exact ⟨_, Dict.lookup_set_self _ _ _,
      (record.acknowledgeProcessed_effect streamId byteCount).2⟩
  | rotateGeneration streamId generation =>
    simp only [perform, rotateGeneration, AudioCall.streamId] at hfound ⊢
    rw [onRecord_found hfound]
    exact ⟨_, Dict.lookup_set_self _ _ _, (record.rotateGeneration_effect streamId generation).2⟩
  | reconnect streamId sessionId reconnectToken generation nextSequence =>
    simp only [perform, reconnect, AudioCall.streamId] at hfound ⊢
    rw [onRecord_found hfound]
    exact ⟨_, Dict.lookup_set_self _ _ _,
      (record.reconnect_effect streamId sessionId reconnectToken generation nextSequence).2⟩
  | close streamId =>
    simp only [perform, close, AudioCall.streamId] at hfound ⊢
    rw [onRecord_found hfound]
    refine ⟨_, Dict.lookup_set_self _ _ _, ?_⟩
    simp only [StreamRecord.close, Except.map, StreamEvent.ofEntry, if_true]
    exact .closed

/-- A stream that is not there can only be opened. -/
theorem perform_unknown {manager : AudioStreamManager} {call : AudioCall}
    (hfound : manager.streams.lookup call.streamId = none) (hmints : call.mints = none) :
    StreamEvent.ofEntry call.streamId (call, (manager.perform call).1) = none ∧
      (manager.perform call).2 = manager := by
  cases call with
  | openStream => simp [AudioCall.mints] at hmints
  | acceptChunk | acknowledgeProcessed | rotateGeneration | reconnect | close =>
    simp only [perform, acceptChunk, acknowledgeProcessed, rotateGeneration, reconnect, close,
      AudioCall.streamId] at hfound ⊢
    rw [onRecord_unknown hfound]
    exact ⟨rfl, rfl⟩

theorem perform_mints {manager : AudioStreamManager} {call : AudioCall} {streamId : String}
    (hmints : call.mints = some streamId) :
    (∃ e, (manager.perform call).1 = .error e) ∨
      ∃ (state : AudioStreamState) (token : ReconnectToken),
        (manager.perform call).2.streams.lookup streamId = some ⟨state, token⟩ ∧
        StreamEvent.ofEntry streamId (call, (manager.perform call).1) =
          some (.began state.generation) ∧
        state.nextSequence = 0 ∧ state.bufferedBytes = 0 ∧ state.acceptedChunks = 0 ∧
        state.acceptedBytes = 0 ∧ state.closed = false := by
  cases call with
  | openStream sessionId generation config id token =>
    obtain rfl : id = streamId := by simpa [AudioCall.mints] using hmints
    simp only [perform]
    unfold openStream
    split
    next => exact .inl ⟨_, rfl⟩
    next =>
      refine .inr ⟨_, token, Dict.lookup_set_self _ _ _, ?_, rfl, rfl, rfl, rfl, rfl⟩
      simp only [Except.map, StreamEvent.ofEntry, if_true]
  | acceptChunk | acknowledgeProcessed | rotateGeneration | reconnect | close =>
    simp [AudioCall.mints] at hmints

theorem ofEntry_error (call : AudioCall) (e : AudioError) (streamId : String) :
    StreamEvent.ofEntry streamId (call, .error e) = none := by
  cases call <;> rfl

theorem ofEntry_ne {call : AudioCall} {outcome : Except AudioError AudioReply} {other : String}
    (h : other ≠ call.streamId) : StreamEvent.ofEntry other (call, outcome) = none := by
  have hne : ¬call.streamId = other := fun heq => h heq.symm
  cases outcome with
  | error e => exact ofEntry_error call e other
  | ok reply =>
    cases call with
    | openStream | acknowledgeProcessed | rotateGeneration | close => exact if_neg hne
    | reconnect => rfl
    | acceptChunk streamId chunk =>
      cases reply with
      | opened | state => rfl
      | chunk result audio =>
        cases audio with
        | none => rfl
        | some audio => exact if_neg hne

/-- What holds of one stream id once the calls are served; `minted` are the ids drawn so far. -/
def Kept (minted : List String) (served : AudioStreamManager × AudioTrace) (streamId : String) :
    Prop :=
  (∃ record, served.1.streams.lookup streamId = some record ∧
    record.Accounts (served.2.events streamId) ∧ streamId ∈ minted) ∨
  served.1.streams.lookup streamId = none ∧ served.2.events streamId = []

theorem events_concat (streamId : String) (trace : AudioTrace)
    (entry : AudioCall × Except AudioError AudioReply) :
    AudioTrace.events streamId (trace ++ [entry]) =
      trace.events streamId ++ (StreamEvent.ofEntry streamId entry).toList := by
  rw [AudioTrace.events, List.filterMap_append, List.filterMap_cons, List.filterMap_nil]
  cases StreamEvent.ofEntry streamId entry <;> rfl

/-- A call that leaves the stream as it was, and no event of it. -/
theorem Kept.untouched {minted : List String} {served : AudioStreamManager × AudioTrace}
    {streamId : String} (h : Kept minted served streamId) {call : AudioCall}
    (hlookup : (served.1.perform call).2.streams.lookup streamId =
      served.1.streams.lookup streamId)
    (hevent : StreamEvent.ofEntry streamId (call, (served.1.perform call).1) = none) :
    Kept (minted ++ call.mints.toList) (serveOne served call) streamId := by
  unfold Kept
  simp only [serveOne, events_concat, hlookup, hevent, Option.toList_none, List.append_nil]
  rcases h with ⟨record, hfound, haccounts, hmem⟩ | hnone
  · exact .inl ⟨record, hfound, haccounts, List.mem_append_left _ hmem⟩
  · exact .inr hnone

theorem Kept.serveOne {minted : List String} {served : AudioStreamManager × AudioTrace}
    (h : ∀ streamId, Kept minted served streamId) (call : AudioCall)
    (hfresh : ∀ streamId, call.mints = some streamId → streamId ∉ minted) (streamId : String) :
    Kept (minted ++ call.mints.toList) (serveOne served call) streamId := by
  by_cases hid : streamId = call.streamId
  swap
  · exact (h streamId).untouched (perform_ne hid) (ofEntry_ne hid)
  subst hid
  cases hmints : call.mints with
  | none =>
    rcases h call.streamId with ⟨record, hfound, haccounts, hmem⟩ | ⟨hnone, -⟩
    · obtain ⟨after, hafter, heffect⟩ := perform_effect hfound hmints
      refine .inl ⟨after, hafter, ?_, List.mem_append_left _ hmem⟩
      rw [AudioStreamManager.serveOne, events_concat]
      exact haccounts.effect heffect
    · obtain ⟨hevent, hmanager⟩ := perform_unknown hnone hmints
      have hkept := (h call.streamId).untouched (by rw [hmanager]) hevent
      rwa [hmints] at hkept
  | some drawn =>
    obtain rfl : drawn = call.streamId := by
      cases call <;> simp_all [AudioCall.mints, AudioCall.streamId]
    rcases perform_mints hmints with ⟨e, herror⟩ | ⟨state, token, hfound, hevent, hnew⟩
    · have hkept := (h call.streamId).untouched (by rw [perform_error herror])
        (by rw [herror, ofEntry_error])
      rwa [hmints] at hkept
    · rcases h call.streamId with ⟨record, -, -, hmem⟩ | ⟨-, hempty⟩
      · exact absurd hmem (hfresh _ hmints)
      · refine .inl ⟨_, hfound, ?_, by simp⟩
        rw [AudioStreamManager.serveOne, events_concat, hempty, hevent]
        exact StreamRecord.Accounts.began state token hnew

/-- The counters of every stream agree with what the callers saw of it, whatever they called;
a call that raises changes nothing, and no call changes another stream. -/
theorem streams_accounted (calls : List AudioCall)
    (hfresh : (calls.filterMap AudioCall.mints).Nodup) :
    (∀ streamId record, (serve calls).1.streams.lookup streamId = some record →
      record.Accounts ((serve calls).2.events streamId)) ∧
    (∀ call e, ((serve calls).1.perform call).1 = .error e →
      ((serve calls).1.perform call).2 = (serve calls).1) ∧
    ∀ call other, other ≠ call.streamId →
      ((serve calls).1.perform call).2.streams.lookup other =
        (serve calls).1.streams.lookup other := by
  refine ⟨?_, fun call e => perform_error, fun call other => perform_ne⟩
  suffices hkept : ∀ streamId, Kept (calls.filterMap AudioCall.mints) (serve calls) streamId by
    intro streamId record hfound
    rcases hkept streamId with ⟨record', hfound', haccounts, -⟩ | ⟨hnone, -⟩
    · exact Option.some.inj (hfound'.symm.trans hfound) ▸ haccounts
    · exact absurd (hnone.symm.trans hfound) (by simp)
  induction calls using List.reverseRecOn with
  | nil => exact fun _ => .inr ⟨rfl, rfl⟩
  | append_singleton calls call ih =>
    rw [List.filterMap_append] at hfresh
    obtain ⟨hbefore, -, hdisjoint⟩ := List.nodup_append.mp hfresh
    have hserve : serve (calls ++ [call]) = serveOne (serve calls) call := by
      rw [serve, List.foldl_append]
      rfl
    have hminted : (calls ++ [call]).filterMap AudioCall.mints =
        calls.filterMap AudioCall.mints ++ call.mints.toList := by
      rw [List.filterMap_append, List.filterMap_cons, List.filterMap_nil]
      cases call.mints <;> rfl
    rw [hserve, hminted]
    refine Kept.serveOne (ih hbefore) call fun streamId hmints hmem => ?_
    exact hdisjoint streamId hmem streamId (by simp [hmints]) rfl

/-- Two streams; the first one hears a chunk, hears it again and moves on. -/
def twoStreams : List AudioCall := [
  .openStream "session" 3 plainConfig "first" drawnToken,
  .acceptChunk "first" (spokenChunk 3),
  .openStream "session" 3 plainConfig "second" drawnToken,
  .acceptChunk "first" (spokenChunk 3),
  .rotateGeneration "first" 4]

theorem streams_accounted_two :
    (twoStreams.filterMap AudioCall.mints).Nodup ∧
    (∃ record, (serve twoStreams).1.streams.lookup "first" = some record ∧
      record.state.acceptedBytes = 5 ∧ record.state.nextSequence = 0) ∧
    ∀ streamId record, (serve twoStreams).1.streams.lookup streamId = some record →
      record.Accounts ((serve twoStreams).2.events streamId) := by
  refine ⟨by decide, ⟨_, rfl, rfl, rfl⟩, (streams_accounted twoStreams (by decide)).1⟩

end AudioStreamManager

end NoraInterviewer
