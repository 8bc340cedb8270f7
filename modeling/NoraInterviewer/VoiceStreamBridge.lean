import NoraInterviewer.AudioStreams
import Mathlib.Logic.Function.Basic

/-! `push_chunk` and `commit` of one audio stream, called from several sockets; a call is
suspended at every provider await. -/

namespace NoraInterviewer

/-- What the provider session sees of one stream. -/
inductive ProviderEvent where
  | audio (bytes : List UInt8)
  | commitSent
  | commitSucceeded
  | commitFailed
  deriving DecidableEq

/-- Where a call is suspended: in the provider session, or in `voice.provider_failed`. -/
inductive BridgeCall where
  | pushing (result : AudioChunkResult) (audio : List UInt8)
  | reportingPush (audio : List UInt8)
  | committing
  | reportingCommit

inductive BridgeReply where
  | chunk (result : AudioChunkResult)
  | committed
  | refused (error : AudioError)
  | providerRaised

/-- The record of the manager and of `_ProviderStream`; each socket has one call at a time. -/
structure BridgeStream where
  record : StreamRecord
  committed : Bool := false
  provider : List ProviderEvent := []
  calls : ℕ → Option BridgeCall := fun _ => none
  replies : List (ℕ × BridgeReply) := []

inductive BridgeAction where
  | pushChunk (socket : ℕ) (chunk : AudioChunkMessage)
  | commit (socket : ℕ)
  /-- the suspended call of the socket goes on; `returned` is false when the provider raised -/
  | resume (socket : ℕ) (returned : Bool)

namespace BridgeStream

variable (streamId : String)

def reply (stream : BridgeStream) (socket : ℕ) (reply : BridgeReply) : BridgeStream :=
  { stream with
    calls := Function.update stream.calls socket none
    replies := stream.replies ++ [(socket, reply)] }

def suspend (stream : BridgeStream) (socket : ℕ) (call : BridgeCall) : BridgeStream :=
  { stream with calls := Function.update stream.calls socket (some call) }

/-- The provider session gets a call, or its call ends. -/
def tell (stream : BridgeStream) (event : ProviderEvent) : BridgeStream :=
  { stream with provider := stream.provider ++ [event] }

/-- `manager.acknowledge_processed(stream_id, len(audio))`. -/
def acknowledge (stream : BridgeStream) (audio : List UInt8) : BridgeStream :=
  { stream with record := (stream.record.acknowledgeProcessed audio.length).2 }

/-- `push_chunk` up to its first await. -/
def pushChunk (stream : BridgeStream) (socket : ℕ) (chunk : AudioChunkMessage) : BridgeStream :=
  match stream.record.acceptChunk streamId chunk with
  | (.error e, record) => { stream with record := record }.reply socket (.refused e)
  | (.ok (result, none), record) => { stream with record := record }.reply socket (.chunk result)
  | (.ok (result, some audio), record) =>
    if stream.committed then
      let acknowledged := { stream with record := record }.acknowledge audio
      acknowledged.reply socket
        (.chunk { result with bufferedBytes := acknowledged.record.state.bufferedBytes })
    else
      ({ stream with record := record }.tell (.audio audio)).suspend socket
        (.pushing result audio)

/-- `commit` up to its first await. -/
def commit (stream : BridgeStream) (socket : ℕ) : BridgeStream :=
  if stream.committed then stream.reply socket .committed
  else (stream.tell .commitSent).suspend socket .committing

def resume (stream : BridgeStream) (socket : ℕ) (returned : Bool) : BridgeStream :=
  match stream.calls socket with
  | none => stream
  | some (.pushing result audio) =>
    if returned then
      let acknowledged := stream.acknowledge audio
      acknowledged.reply socket
        (.chunk { result with bufferedBytes := acknowledged.record.state.bufferedBytes })
    else stream.suspend socket (.reportingPush audio)
  | some (.reportingPush audio) => (stream.acknowledge audio).reply socket .providerRaised
  | some .committing =>
    if returned then
      ({ stream with committed := true }.tell .commitSucceeded).reply socket .committed
    else (stream.tell .commitFailed).suspend socket .reportingCommit
  | some .reportingCommit => stream.reply socket .providerRaised

/-- A socket whose call is suspended begins no other. -/
def act (stream : BridgeStream) : BridgeAction → BridgeStream
  | .pushChunk socket chunk =>
    if (stream.calls socket).isSome then stream else stream.pushChunk streamId socket chunk
  | .commit socket => if (stream.calls socket).isSome then stream else stream.commit socket
  | .resume socket returned => stream.resume socket returned

/-- The provider session gets at most one successful commit, and no audio after a commit. -/
def CommitsOnce (stream : BridgeStream) : Prop :=
  stream.provider.count .commitSucceeded ≤ 1 ∧
    stream.provider.Pairwise fun earlier later =>
      earlier = .commitSent → ∀ bytes, later ≠ .audio bytes

/-- A commit begins while no other is at the provider, and fresh audio comes before the first
commit or after the one that succeeded. -/
def Apart (stream : BridgeStream) : BridgeAction → Prop
  | .pushChunk _ chunk =>
    stream.committed = true ∨ .commitSent ∉ stream.provider ∨
      chunk.sequence < stream.record.state.nextSequence
  | .commit _ => stream.committed = true ∨ ∀ socket, stream.calls socket ≠ some .committing
  | .resume _ _ => True

/-- Every step of the run is `Apart` in the state that it starts from. -/
def AllApart (stream : BridgeStream) : List BridgeAction → Prop
  | [] => True
  | action :: actions => stream.Apart action ∧ (stream.act streamId action).AllApart actions

/-- What holds while every step is `Apart`. -/
structure Steady (stream : BridgeStream) : Prop where
  succeeded : stream.provider.count .commitSucceeded = if stream.committed then 1 else 0
  single : ∀ socket other, stream.calls socket = some .committing →
    stream.calls other = some .committing → socket = other
  done : stream.committed = true → ∀ socket, stream.calls socket ≠ some .committing
  quiet : stream.provider.Pairwise fun earlier later =>
    earlier = .commitSent → ∀ bytes, later ≠ .audio bytes

variable {streamId} {stream : BridgeStream}

theorem tell_count {event : ProviderEvent} (h : event ≠ .commitSucceeded) :
    (stream.tell event).provider.count .commitSucceeded =
      stream.provider.count .commitSucceeded := by
  have hother : [event].count .commitSucceeded = 0 :=
    List.count_eq_zero.mpr (by simpa using h.symm)
  rw [tell, List.count_append, hother, Nat.add_zero]

/-- A step that leaves the provider and the commits under way alone. -/
theorem Steady.same (h : stream.Steady) {after : BridgeStream}
    (hcommitted : after.committed = stream.committed) (hprovider : after.provider = stream.provider)
    (hcalls : ∀ socket, after.calls socket = some .committing →
      stream.calls socket = some .committing) : after.Steady := by
  refine ⟨by rw [hprovider, hcommitted]; exact h.succeeded, ?_, ?_, by rw [hprovider]; exact h.quiet⟩
  · exact fun socket other hsocket hother =>
      h.single socket other (hcalls socket hsocket) (hcalls other hother)
  · exact fun hdone socket hsocket =>
      h.done (hcommitted ▸ hdone) socket (hcalls socket hsocket)

theorem update_committing {calls : ℕ → Option BridgeCall} {socket other : ℕ}
    {call : Option BridgeCall} (hcall : call ≠ some .committing)
    (h : Function.update calls socket call other = some .committing) :
    other ≠ socket ∧ calls other = some .committing := by
  by_cases hsame : other = socket
  · subst hsame
    rw [Function.update_self] at h
    exact absurd h hcall
  · rw [Function.update_of_ne hsame] at h
    exact ⟨hsame, h⟩

theorem Steady.pushChunk (h : stream.Steady) {socket : ℕ} {chunk : AudioChunkMessage}
    (hapart : stream.Apart (.pushChunk socket chunk)) :
    (stream.pushChunk streamId socket chunk).Steady := by
  have haccepts := stream.record.acceptChunk_accepts streamId chunk
  unfold BridgeStream.pushChunk
  revert haccepts
  generalize stream.record.acceptChunk streamId chunk = worked
  intro haccepts
  obtain ⟨outcome, record⟩ := worked
  cases haccepts with
  | refused e => exact h.same rfl rfl fun other hother => (update_committing (by simp) hother).2
  | duplicate result hopen hgen hseq hdup hnext =>
    exact h.same rfl rfl fun other hother => (update_committing (by simp) hother).2
  | accepted result audio hopen hgen hseq hdecode hpos hfits hdup hnext =>
    simp only
    split
    next => exact h.same rfl rfl fun other hother => (update_committing (by simp) hother).2
    next hnot =>
      -- the audio goes to the provider, which has got no commit
      have hnone : ProviderEvent.commitSent ∉ stream.provider := by
        rcases hapart with hdone | hnone | hold
        · exact absurd hdone hnot
        · exact hnone
        · omega
      refine ⟨?_, ?_, ?_, ?_⟩
      · exact (tell_count (by simp)).trans h.succeeded
      · exact fun i j hi hj => h.single i j (update_committing (by simp) hi).2
          (update_committing (by simp) hj).2
      · exact fun hdone => absurd hdone hnot
      · refine List.pairwise_append.mpr ⟨h.quiet, List.pairwise_singleton _ _, ?_⟩
        intro earlier hmem later _ hearlier
        exact absurd (hearlier ▸ hmem) hnone

theorem Steady.commit (h : stream.Steady) {socket : ℕ}
    (hapart : stream.Apart (.commit socket)) : (stream.commit socket).Steady := by
  unfold BridgeStream.commit
  split
  next => exact h.same rfl rfl fun other hother => (update_committing (by simp) hother).2
  next hnot =>
    have hnone : ∀ other, stream.calls other ≠ some .committing := by
      rcases hapart with hdone | hnone
      · exact absurd hdone hnot
      · exact hnone
    have honly : ∀ other, ((stream.tell .commitSent).suspend socket .committing).calls other =
        some .committing →
        other = socket := by
      intro other hother
      by_contra hne
      simp only [suspend, tell, Function.update_of_ne hne] at hother
      exact hnone other hother
    refine ⟨?_, fun i j hi hj => (honly i hi).trans (honly j hj).symm, fun hdone =>
      absurd hdone hnot, ?_⟩
    · exact (tell_count (by simp)).trans h.succeeded
    · refine List.pairwise_append.mpr ⟨h.quiet, List.pairwise_singleton _ _, ?_⟩
      intro earlier _ later hmem _ bytes
      rw [List.mem_singleton.mp hmem]
      simp

theorem Steady.resume (h : stream.Steady) (socket : ℕ) (returned : Bool) :
    (stream.resume socket returned).Steady := by
  have hended : ∀ call : Option BridgeCall, call ≠ some .committing → ∀ other,
      Function.update stream.calls socket call other = some .committing →
      stream.calls other = some .committing := fun call hcall other hother =>
    (update_committing hcall hother).2
  unfold BridgeStream.resume
  split
  next => exact h
  next result audio _ =>
    split
    · exact h.same rfl rfl (hended _ (by simp))
    · exact h.same rfl rfl (hended _ (by simp))
  next audio _ => exact h.same rfl rfl (hended _ (by simp))
  next hcommitting =>
    -- the one commit under way
    have hopen : stream.committed = false := by
      by_contra hdone
      exact h.done (by simpa using hdone) socket hcommitting
    have hsucceeded := h.succeeded
    rw [hopen] at hsucceeded
    split
    · refine ⟨?_, ?_, ?_, ?_⟩
      · simp only [BridgeStream.reply, tell, List.count_append]
        simpa using hsucceeded
      · exact fun i j hi hj => h.single i j (hended none (by simp) i hi) (hended none (by simp) j hj)
      · intro _ other hother
        obtain ⟨hne, hother⟩ := update_committing (by simp) hother
        exact hne (h.single other socket hother hcommitting)
      · refine List.pairwise_append.mpr ⟨h.quiet, List.pairwise_singleton _ _, ?_⟩
        intro earlier _ later hmem _ bytes
        rw [List.mem_singleton.mp hmem]
        simp
    · refine ⟨?_, ?_, ?_, ?_⟩
      · exact (tell_count (by simp)).trans h.succeeded
      · exact fun i j hi hj => h.single i j (hended _ (by simp) i hi) (hended _ (by simp) j hj)
      · exact fun hdone => absurd (hopen.symm.trans hdone) (by simp)
      · refine List.pairwise_append.mpr ⟨h.quiet, List.pairwise_singleton _ _, ?_⟩
        intro earlier _ later hmem _ bytes
        rw [List.mem_singleton.mp hmem]
        simp
  next => exact h.same rfl rfl (hended _ (by simp))

theorem Steady.act (h : stream.Steady) {action : BridgeAction} (hapart : stream.Apart action) :
    (stream.act streamId action).Steady := by
  cases action with
  | pushChunk socket chunk =>
    simp only [BridgeStream.act]
    split
    next => exact h
    next => exact h.pushChunk hapart
  | commit socket =>
    simp only [BridgeStream.act]
    split
    next => exact h
    next => exact h.commit hapart
  | resume socket returned => exact h.resume socket returned

/-- In a run whose steps are all `Apart`, the provider session is committed at most once and
gets no audio after a commit. -/
theorem commits_once (streamId : String) (record : StreamRecord) (actions : List BridgeAction)
    (hapart : AllApart streamId { record := record } actions) :
    (actions.foldl (act streamId) { record := record }).CommitsOnce := by
  suffices hsteady : (actions.foldl (act streamId) { record := record }).Steady by
    refine ⟨?_, hsteady.quiet⟩
    rw [hsteady.succeeded]
    split <;> omega
  have hstart : Steady { record := record } := ⟨by simp, by simp, by simp, by simp⟩
  generalize ({ record := record } : BridgeStream) = stream at hapart hstart
  induction actions generalizing stream with
  | nil => exact hstart
  | cons action actions ih => exact ih _ hapart.2 (hstart.act hapart.1)

/-- A stream that has heard nothing yet. -/
def quietStream : StreamRecord where
  state := { streamId := "stream", sessionId := "session", config := plainConfig }
  reconnectToken := drawnToken

/-- A commit, its retry from another socket, and a late chunk. -/
def retriedCommit : List BridgeAction :=
  [.commit 0, .resume 0 true, .commit 1, .pushChunk 1 (spokenChunk 0)]

theorem commits_once_retried :
    AllApart "stream" { record := quietStream } retriedCommit ∧
    (retriedCommit.foldl (act "stream") { record := quietStream }).CommitsOnce := by
  have hapart : AllApart "stream" { record := quietStream } retriedCommit :=
    ⟨.inr fun socket h => by simp at h, trivial, .inl rfl, .inl rfl, trivial⟩
  exact ⟨hapart, commits_once "stream" quietStream _ hapart⟩

/-- While the commit of the old socket is at the provider, the new socket commits once more, or
sends audio. -/
theorem reconnected_commit_repeats :
    ¬CommitsOnce ([.commit 0, .commit 1, .resume 0 true, .resume 1 true].foldl (act "stream")
      { record := quietStream }) ∧
    ¬CommitsOnce ([.commit 0, .pushChunk 1 (spokenChunk 0)].foldl (act "stream")
      { record := quietStream }) := by
  constructor
  · intro h
    have htwice := h.1
    revert htwice
    decide
  · intro h
    have hprovider : ([.commit 0, .pushChunk 1 (spokenChunk 0)].foldl
        (act "stream") { record := quietStream }).provider =
        [.commitSent, .audio [97, 117, 100, 105, 111]] := by decide
    have hquiet := h.2
    rw [hprovider] at hquiet
    exact (List.pairwise_cons.mp hquiet).1 _ (List.mem_singleton.mpr rfl) rfl _ rfl

end BridgeStream

end NoraInterviewer
