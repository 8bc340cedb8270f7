import NoraInterviewer.AudioSockets
import NoraInterviewer.OutputTables

/-! Which audio streams are held by a handler, and which wait for their expiry. -/

namespace NoraInterviewer

/-- The handler has the stream for its own, or is about to. -/
def AudioPoint.Holds : AudioPoint → String → Prop
  | .socket handler point, id => handler.activeStreamId = some id ∨ point.opens = some id
  | .reportingError handler, id => handler.activeStreamId = some id
  | _, _ => False

/-- The handler is closing its stream. -/
def SocketPoint.closes : SocketPoint → Bool
  | .closingProvider | .closingPump | .confirmingClose => true
  | _ => false

/-- The handler is inside an `open`. -/
def SocketPoint.isOpening : SocketPoint → Bool
  | .openingProvider _ | .openingSpeech _ | .abandoning _ | .openingTransport _ | .openingTts _ =>
    true
  | _ => false

def ExpiryPoint.waits : ExpiryPoint → Bool
  | .created | .sleeping => true
  | _ => false

namespace AudioSockets

open Cooperative

abbrev AudioState := State AudioServer AudioPoint

def Unclosed (server : AudioServer) (id : String) : Prop :=
  ∃ record, server.manager.streams.lookup id = some record ∧ record.state.closed = false

def Takes (point : Option AudioPoint) (id : String) : Prop :=
  ∃ at_, point = some at_ ∧ at_.Holds id

/-- A running handler is attached to the stream. -/
def Held (state : AudioState) (id : String) : Prop := ∃ n, Takes (state.tasks n) id

/-- An expiry task of the stream has not woken and is not cancelled. -/
def Pending (server : AudioServer) (id : String) : Prop :=
  ∃ k expiry, server.expiries k = some expiry ∧ expiry.streamId = id ∧
    expiry.cancelled = false ∧ expiry.point.waits = true

/-- No stream is orphaned. -/
def Kept (state : AudioState) : Prop :=
  ∀ id, Unclosed state.world id → Held state id ∨ Pending state.world id

variable (streamId : ℕ → String) (token : ℕ → ReconnectToken)

/-- A step of an expiry task closes no stream to which a running handler is attached. -/
def Spares (state : AudioState) (action : Action AudioEntry SocketReply) : Prop :=
  ∀ n reply k, action = .resume n reply → state.tasks n = some (.expiring k) →
    ∀ id, Held state id → Unclosed state.world id →
      Unclosed ((program streamId token).act state action).world id

def Others (state : AudioState) (n : ℕ) (id : String) : Prop :=
  ∃ m, m ≠ n ∧ Takes (state.tasks m) id

/-- No other handler is attached to the stream, and no expiry task of it that had begun was cancelled
and has not run since. -/
def Alone (state : AudioState) (n : ℕ) (id : String) : Prop :=
  ¬Others state n id ∧ ∀ k expiry, state.world.expiries k = some expiry → expiry.streamId = id →
    expiry.cancelled = true → expiry.point ≠ .sleeping

/-- A handler may end by the failure: it leaves the stream to its expiry, and is alone in that, or
another handler or an expiry task has it already. -/
def MayEnd (state : AudioState) (n : ℕ) (socket : SocketHandler) (failure : SocketFailure)
    (id : String) : Prop :=
  (socket.activeStreamId = some id ∧ failure = .disconnected ∧ Alone state n id) ∨
    (socket.activeStreamId = some id ∧ failure.listed = true) ∨
    (¬(socket.activeStreamId = some id ∧ failure = .disconnected) ∧
      (Others state n id ∨ Pending state.world id))

/-- Handlers end, and schedule an expiry, only where they may: of the streams that are not closed. -/
def Careful (state : AudioState) : Action AudioEntry SocketReply → Prop
  | .enter _ => True
  | .resume n reply =>
    (∀ socket point failure server, state.tasks n = some (.socket socket point) →
      body streamId token socket point reply state.world = (.error failure, server) →
      ∀ id, (AudioPoint.socket socket point).Holds id → Unclosed state.world id →
        MayEnd state n socket failure id) ∧
    ∀ socket, state.tasks n = some (.reportingError socket) →
      ∀ id, socket.activeStreamId = some id → Unclosed state.world id → Alone state n id

def Named (server : AudioServer) (id : String) : Prop :=
  ∃ i, i < server.opened ∧ id = streamId i

/-- The task is a handler that is closing the stream. -/
def Closes (point : Option AudioPoint) (id : String) : Prop :=
  ∃ socket at_, point = some (.socket socket at_) ∧ at_.closes = true ∧
    socket.activeStreamId = some id

/-- What there is to know of a task from the point at which it is suspended. -/
structure Sound (server : AudioServer) (point : Option AudioPoint) : Prop where
  named : ∀ id, Takes point id → Named streamId server id
  closing : ∀ id, Closes point id → ¬Unclosed server id
  opening : ∀ handler at_, point = some (.socket handler at_) → at_.isOpening = true →
    handler.activeStreamId = none

/-- The expiry tasks and their table. -/
structure Tabled (server : AudioServer) : Prop where
  created : ∀ k expiry, server.expiries k = some expiry →
    k < server.created ∧ Named streamId server expiry.streamId
  woken : ∀ k expiry, server.expiries k = some expiry → expiry.point.waits = false →
    ¬Unclosed server expiry.streamId
  own : ∀ id k, server.expiryTasks id = some k → k < server.created ∧
    ∀ expiry, server.expiries k = some expiry → expiry.streamId = id

/-- What holds in every run. -/
structure Books (state : AudioState) : Prop where
  numbered : Program.Numbered state
  streams : ∀ id, state.world.manager.streams.lookup id ≠ none → Named streamId state.world id
  tabled : Tabled streamId state.world
  sound : ∀ n, Sound streamId state.world (state.tasks n)

/-- The stream is held, or waits for its one expiry task, which the table knows. -/
structure Fine (state : AudioState) (id : String) : Prop where
  kept : Held state id ∨ Pending state.world id
  listed : ∀ k expiry, state.world.expiries k = some expiry → expiry.streamId = id →
    expiry.cancelled = false → expiry.point.waits = true →
      state.world.expiryTasks id = some k ∧ ¬Held state id
  ran : ∀ k expiry, state.world.expiries k = some expiry → expiry.streamId = id →
    expiry.cancelled = true → expiry.point = .sleeping → ¬Pending state.world id

/-- What holds while handlers end only where they may. -/
structure Cared (state : AudioState) : Prop where
  books : Books streamId state
  fine : ∀ id, Unclosed state.world id → Fine state id

/-- A call of the manager that opens and closes nothing, and changes to the provider streams. -/
structure Same (server after : AudioServer) : Prop where
  known : ∀ id, after.manager.streams.lookup id ≠ none → server.manager.streams.lookup id ≠ none
  unclosed : ∀ id, Unclosed after id ↔ Unclosed server id
  opened : after.opened = server.opened
  expiryTasks : after.expiryTasks = server.expiryTasks
  expiries : after.expiries = server.expiries
  created : after.created = server.created

theorem Same.refl (server : AudioServer) : Same server server :=
  ⟨fun _ => id, fun _ => Iff.rfl, rfl, rfl, rfl, rfl⟩

theorem Same.trans {server mid after : AudioServer} (h : Same server mid) (h' : Same mid after) :
    Same server after :=
  ⟨fun id hid => h.known id (h'.known id hid), fun id => (h'.unclosed id).trans (h.unclosed id),
    h'.opened.trans h.opened, h'.expiryTasks.trans h.expiryTasks, h'.expiries.trans h.expiries,
    h'.created.trans h.created⟩

theorem Same.provider (server : AudioServer) (providerStreams : String → Option ProviderStream) :
    Same server { server with providerStreams } :=
  ⟨fun _ => id, fun _ => Iff.rfl, rfl, rfl, rfl, rfl⟩

theorem effect_unclosed {record after : StreamRecord} {event : Option StreamEvent}
    (h : record.Effect event after) (hevent : event ≠ some .closed) :
    after.state.closed = record.state.closed := by
  cases h with
  | closed => exact absurd rfl hevent
  | _ => rfl

theorem ofEntry_closed {id : String} {call : AudioCall} {outcome : Except AudioError AudioReply}
    (hclose : ∀ id, call ≠ .close id) :
    StreamEvent.ofEntry id (call, outcome) ≠ some .closed := by
  cases call with
  | close other => exact absurd rfl (hclose other)
  | acceptChunk other chunk =>
    cases outcome with
    | error => simp [StreamEvent.ofEntry]
    | ok reply =>
      cases reply with
      | chunk result audio =>
        cases audio with
        | none => simp [StreamEvent.ofEntry]
        | some audio => simp [StreamEvent.ofEntry]
      | _ => simp [StreamEvent.ofEntry]
  | _ =>
    cases outcome with
    | error => simp [StreamEvent.ofEntry]
    | ok => simp [StreamEvent.ofEntry]

/-- A call of the manager that opens and closes nothing. -/
theorem perform_same (server : AudioServer) (call : AudioCall) (hmints : call.mints = none)
    (hclose : ∀ id, call ≠ .close id) :
    Same server { server with manager := (server.manager.perform call).2 } := by
  have hlookup : ∀ id, (server.manager.perform call).2.streams.lookup id =
      server.manager.streams.lookup id ∨ ∃ record after,
        server.manager.streams.lookup id = some record ∧
        (server.manager.perform call).2.streams.lookup id = some after ∧
        after.state.closed = record.state.closed := by
    intro id
    by_cases hid : id = call.streamId
    · subst hid
      cases hfound : server.manager.streams.lookup call.streamId with
      | none =>
        rw [(AudioStreamManager.perform_unknown hfound hmints).2, hfound]
        exact .inl rfl
      | some record =>
        obtain ⟨after, hafter, heffect⟩ := AudioStreamManager.perform_effect hfound hmints
        exact .inr ⟨record, after, rfl, hafter, effect_unclosed heffect (ofEntry_closed hclose)⟩
    · exact .inl (AudioStreamManager.perform_ne hid)
  refine ⟨fun id hid => ?_, fun id => ?_, rfl, rfl, rfl, rfl⟩
  · rcases hlookup id with heq | ⟨record, after, hrecord, _, _⟩
    · simp only [heq] at hid
      exact hid
    · simp [hrecord]
  · unfold Unclosed
    rcases hlookup id with heq | ⟨record, after, hrecord, hafter, hclosed⟩
    · simp only [heq]
    · simp only [hrecord, hafter]
      constructor
      · rintro ⟨_, heq, hopen⟩
        cases heq
        exact ⟨record, rfl, hclosed ▸ hopen⟩
      · rintro ⟨_, heq, hopen⟩
        cases heq
        exact ⟨after, rfl, hclosed ▸ hopen⟩

/-- The stream is closed, and no other. -/
structure Shuts (id : String) (server after : AudioServer) : Prop where
  known : ∀ other, after.manager.streams.lookup other ≠ none →
    server.manager.streams.lookup other ≠ none
  unclosed : ∀ other, Unclosed after other ↔ Unclosed server other ∧ other ≠ id
  opened : after.opened = server.opened
  expiryTasks : after.expiryTasks = server.expiryTasks
  expiries : after.expiries = server.expiries
  created : after.created = server.created

theorem closeStream_shuts (id : String) (server : AudioServer) :
    (∃ awaits, (closeStream id server).1 = .ok awaits) ∧ Shuts id server (closeStream id server).2 ∨
      (∃ e, (closeStream id server).1 = .error e) ∧ (closeStream id server).2 = server ∧
        ¬Unclosed server id := by
  unfold closeStream
  cases hfound : server.manager.streams.lookup id with
  | none =>
    refine .inr ⟨?_, ?_, ?_⟩
    · simp [AudioStreamManager.close, AudioStreamManager.onRecord_unknown hfound]
    · simp only [AudioStreamManager.close, AudioStreamManager.onRecord_unknown hfound]
    · rintro ⟨record, hrecord, _⟩
      rw [hfound] at hrecord
      cases hrecord
  | some record =>
    have hclose : server.manager.close id = (record.close.1,
        ⟨server.manager.streams.set id record.close.2⟩) :=
      AudioStreamManager.onRecord_found hfound
    refine .inl ⟨?_, ?_⟩
    · simp [hclose, StreamRecord.close]
    · simp only [hclose, StreamRecord.close]
      refine ⟨fun other hother => ?_, fun other => ?_, rfl, rfl, rfl, rfl⟩
      · by_cases hid : other = id
        · simp [hid, hfound]
        · rw [Dict.lookup_set_ne hid] at hother
          exact hother
      · unfold Unclosed
        by_cases hid : other = id
        · simp [hid, Dict.lookup_set_self]
        · simp only [Dict.lookup_set_ne hid]
          exact (and_iff_left hid).symm

/-- What the `try` block of a handler does from one await to the next. -/
inductive Does (handler : SocketHandler) (point : SocketPoint) (server : AudioServer) :
    Body → Prop where
  | waits {next : SocketPoint} {after : AudioServer} (hsame : Same server after)
    (hopens : next.opens = point.opens) (hcloses : next.closes = true → point.closes = true)
    (hopening : next.isOpening = true →
      point.isOpening = true ∨ handler.activeStreamId = none) :
    Does handler point server (.ok (handler, next), after)
  | attached {id : String} (h : point.opens = some id) :
    Does handler point server (.ok ({ handler with activeStreamId := some id }, .sending), server)
  | detached (h : point.closes = true) (hopens : point.opens = none) :
    Does handler point server (.ok ({ handler with activeStreamId := none }, .receiving), server)
  | raised {failure : SocketFailure} {after : AudioServer} (hsame : Same server after) :
    Does handler point server (.error failure, after)
  | reconnected {id : String} {after : AudioServer} (hsame : Same server after)
    (hid : Unclosed server id) (hnone : handler.activeStreamId = none)
    (hopens : point.opens = none) :
    Does handler point server
      (.ok ({ handler with activeStreamId := some id }, .sending), cancelAudioExpiry id after)
  | opened {after : AudioServer} (hopening : point.isOpening = true) (hopens : point.opens = none)
    (hknown : ∀ id, after.manager.streams.lookup id ≠ none →
      server.manager.streams.lookup id ≠ none ∨ id = streamId server.opened)
    (hunclosed : ∀ id, Unclosed after id → Unclosed server id ∨ id = streamId server.opened)
    (hopened : after.opened = server.opened + 1) (htasks : after.expiryTasks = server.expiryTasks)
    (hexpiries : after.expiries = server.expiries) (hcreated : after.created = server.created) :
    Does handler point server
      (.ok (handler, .openingTransport (streamId server.opened)), after)
  | closed {active : String} {next : SocketPoint} {after : AudioServer}
    (hactive : handler.activeStreamId = some active) (hopens : point.opens = none)
    (hnext : next = .closingProvider ∨ next = .confirmingClose)
    (hshuts : Shuts active (cancelAudioExpiry active server) after) :
    Does handler point server (.ok (handler, next), after)
  | unknown {active : String} {failure : SocketFailure}
    (hactive : handler.activeStreamId = some active) (hunknown : ¬Unclosed server active)
    (hfailure : failure ≠ .disconnected) :
    Does handler point server (.error failure, cancelAudioExpiry active server)

/-- Only a stream that is not closed can be taken up again. -/
theorem reconnect_unclosed {server : AudioServer} {id sessionId reconnectToken : String}
    {generation nextSequence : ℤ} {state : AudioStreamState}
    (h : (server.manager.reconnect id sessionId reconnectToken generation nextSequence).1 =
      .ok state) : Unclosed server id := by
  cases hfound : server.manager.streams.lookup id with
  | none =>
    simp [AudioStreamManager.reconnect, AudioStreamManager.onRecord_unknown hfound] at h
  | some record =>
    refine ⟨record, hfound, ?_⟩
    simp only [AudioStreamManager.reconnect, AudioStreamManager.onRecord_found hfound] at h
    by_contra hclosed
    have hclosed : record.state.closed = true := by simpa using hclosed
    simp [StreamRecord.reconnect, hclosed] at h

section

variable {handler : SocketHandler} {point : SocketPoint} {server : AudioServer}

theorem does_stays : Does streamId handler point server (waits handler point server) :=
  .waits (.refl server) rfl id .inl

/-- A point of the loop at which the handler opens and closes nothing. -/
theorem does_idles {next : SocketPoint} {after : AudioServer} (hsame : Same server after)
    (hopens : point.opens = none) (hnext : next.opens = none) (hcloses : next.closes = false)
    (hopening : next.isOpening = false) :
    Does streamId handler point server (waits handler next after) :=
  .waits hsame (hnext.trans hopens.symm) (fun h => (by rw [hcloses] at h; cases h))
    fun h => (by rw [hopening] at h; cases h)

theorem acknowledges_does {active : String} {bytes : ℕ} {after : AudioServer}
    {next : AudioServer → Body} (hsame : Same server after)
    (hnext : ∀ later, Same server later → Does streamId handler point server (next later)) :
    Does streamId handler point server (acknowledges active bytes after next) := by
  have hdone := hsame.trans
    (perform_same after (.acknowledgeProcessed active bytes) rfl fun _ heq => (by cases heq))
  unfold acknowledges
  simp only
  split
  next => exact .raised hdone
  next => exact hnext _ hdone

theorem pushChunk_does {active : String} {chunk : AudioChunkMessage} (hopens : point.opens = none) :
    Does streamId handler point server (pushChunk handler active chunk server) := by
  have hsame := perform_same server (.acceptChunk active chunk) rfl fun _ heq => (by cases heq)
  unfold pushChunk
  simp only
  split
  next => exact .raised hsame
  next =>
    split
    next => exact .raised hsame
    next provider hprovider =>
      split
      next => exact does_idles streamId hsame hopens rfl rfl rfl
      next =>
        split
        next =>
          exact acknowledges_does streamId hsame fun later hlater =>
            does_idles streamId hlater hopens rfl rfl rfl
        next => exact does_idles streamId hsame hopens rfl rfl rfl

theorem commit_does {active : String} (hopens : point.opens = none) :
    Does streamId handler point server (commit handler active server) := by
  unfold commit
  split
  next => exact .raised (.refl server)
  next =>
    split
    next => exact does_idles streamId (.refl server) hopens rfl rfl rfl
    next => exact does_idles streamId (.refl server) hopens rfl rfl rfl

theorem closes_does {active : String} (hactive : handler.activeStreamId = some active)
    (hopens : point.opens = none) (hcancel : ∀ id, Unclosed (cancelAudioExpiry active server) id ↔
      Unclosed server id) :
    Does streamId handler point server (receives.closes handler server) := by
  have hshuts := closeStream_shuts active (cancelAudioExpiry active server)
  unfold receives.closes
  simp only [hactive]
  generalize closeStream active (cancelAudioExpiry active server) = result at hshuts
  obtain ⟨outcome, after⟩ := result
  rcases hshuts with ⟨⟨awaits, rfl⟩, hshuts⟩ | ⟨⟨e, rfl⟩, rfl, hunknown⟩
  · cases awaits with
    | true => exact .closed hactive hopens (.inl rfl) hshuts
    | false => exact .closed hactive hopens (.inr rfl) hshuts
  · exact .unknown hactive (fun h => hunknown ((hcancel active).mpr h)) fun heq => (by cases heq)

theorem cancelAudioExpiry_unclosed (id other : String) :
    Unclosed (cancelAudioExpiry id server) other ↔ Unclosed server other := by
  unfold cancelAudioExpiry
  split
  next => exact Iff.rfl
  next => exact Iff.rfl

theorem receives_does (message : SocketMessage) :
    Does streamId handler .receiving server (receives handler message server) := by
  have hsending : Does streamId handler .receiving server (waits handler .sending server) :=
    does_idles streamId (.refl server) rfl rfl rfl rfl
  have hraises : ∀ failure, Does streamId handler .receiving server (raises failure server) :=
    fun _ => .raised (.refl server)
  unfold receives
  cases message with
  | notAnObject => exact hraises _
  | ping => exact hsending
  | unknown => exact hsending
  | open_ data =>
    simp only
    split
    next => exact hsending
    next hactive =>
      have hnone : handler.activeStreamId = none := by simpa using hactive
      split
      next => exact hraises _
      next => exact .waits (.refl server) rfl (fun h => (by cases h)) fun _ => .inr hnone
  | reconnect data =>
    simp only
    split
    next => exact hsending
    next hactive =>
      have hnone : handler.activeStreamId = none := by simpa using hactive
      split
      next => exact hraises _
      next request =>
        have hsame := perform_same server (.reconnect request.streamId handler.sessionId
          request.reconnectToken request.generation request.nextSequence) rfl
          fun _ heq => (by cases heq)
        split
        next => exact .raised hsame
        next state hok =>
          split
          next => exact .raised hsame
          next => exact .reconnected hsame (reconnect_unclosed hok) hnone rfl
  | chunk data =>
    simp only
    split
    next => exact hraises _
    next =>
      split
      next => exact hraises _
      next => exact pushChunk_does streamId rfl
  | commit =>
    simp only
    split
    next => exact hraises _
    next => exact commit_does streamId rfl
  | closeDefault =>
    simp only
    cases hactive : handler.activeStreamId with
    | none =>
      unfold receives.closes
      simp only [hactive]
      exact hsending
    | some active =>
      exact closes_does streamId hactive rfl fun id => cancelAudioExpiry_unclosed active id
  | close data =>
    simp only
    split
    next => exact hsending
    next active hactive =>
      split
      next => exact hraises _
      next =>
        split
        next => exact hraises _
        next => exact closes_does streamId hactive rfl fun id => cancelAudioExpiry_unclosed active id

theorem goesOn_does {active : String} {reply : SocketReply} (hopens : point.opens = none) :
    Does streamId handler point server (goesOn handler active point reply server) := by
  have hsame := Same.refl server
  unfold goesOn
  split
  next =>
    refine acknowledges_does streamId hsame fun later hlater => ?_
    split
    next => exact .raised hlater
    next => exact does_idles streamId hlater rfl rfl rfl rfl
  next => exact acknowledges_does streamId hsame fun later hlater => .raised hlater
  next => exact does_idles streamId hsame rfl rfl rfl rfl
  next => exact acknowledges_does streamId hsame fun later hlater => .raised hlater
  next => exact acknowledges_does streamId hsame fun later hlater => .raised hlater
  next => exact acknowledges_does streamId hsame fun later hlater => .raised hlater
  next => exact commit_does streamId rfl
  next => exact does_idles streamId (.provider server _) rfl rfl rfl rfl
  next => exact .raised hsame
  next => exact does_idles streamId hsame rfl rfl rfl rfl
  next => exact .raised hsame
  next => exact does_stays streamId

theorem opensStream_does {request request' : AudioStreamOpenRequest} {state : VoiceSessionState} :
    Does streamId handler (.openingSpeech request) server
      (opensStream streamId token handler request' state server) := by
  have hopened : server.manager.openStream handler.sessionId state.generation request'.config
      (streamId server.opened) (token server.opened) =
      (.ok ⟨{ streamId := streamId server.opened, sessionId := handler.sessionId
              config := request'.config, generation := (state.generation : ℤ).toNat },
          token server.opened⟩,
        ⟨server.manager.streams.set (streamId server.opened)
          ⟨{ streamId := streamId server.opened, sessionId := handler.sessionId
             config := request'.config, generation := (state.generation : ℤ).toNat },
            token server.opened⟩⟩) := by
    unfold AudioStreamManager.openStream
    rw [if_neg (by omega)]
  unfold opensStream
  simp only [hopened]
  refine .opened rfl rfl (fun id hid => ?_) (fun id hid => ?_) rfl rfl rfl rfl
  · by_cases heq : id = streamId server.opened
    · exact .inr heq
    · simp only [Dict.lookup_set_ne heq] at hid
      exact .inl hid
  · by_cases heq : id = streamId server.opened
    · exact .inr heq
    · unfold Unclosed at hid
      simp only [Dict.lookup_set_ne heq] at hid
      exact .inl hid

theorem body_does (reply : SocketReply) :
    Does streamId handler point server (body streamId token handler point reply server) := by
  have hsame := Same.refl server
  unfold body
  split
  next => exact receives_does streamId _
  next => exact does_idles streamId hsame rfl rfl rfl rfl
  next => exact .waits hsame rfl (fun h => (by cases h)) fun _ => .inl rfl
  next => exact opensStream_does streamId token
  next => exact .raised hsame
  next => exact .waits hsame rfl (fun h => (by cases h)) fun _ => .inl rfl
  next => exact .raised hsame
  next => exact .waits (.provider server _) rfl (fun h => (by cases h)) fun _ => .inl rfl
  next => exact .attached rfl
  next autoCommit =>
    cases autoCommit with
    | true => exact does_idles streamId hsame rfl rfl rfl rfl
    | false => exact does_idles streamId hsame rfl rfl rfl rfl
  next => exact .waits hsame rfl (fun _ => rfl) fun h => (by cases h)
  next => exact .waits hsame rfl (fun _ => rfl) fun h => (by cases h)
  next => exact .waits hsame rfl (fun _ => rfl) fun h => (by cases h)
  next => exact .detached rfl rfl
  next =>
    split
    next => exact does_stays streamId
    next => exact goesOn_does streamId rfl
  next =>
    split
    next => exact does_stays streamId
    next => exact goesOn_does streamId rfl
  next =>
    split
    next => exact does_stays streamId
    next => exact goesOn_does streamId rfl
  next =>
    split
    next => exact does_stays streamId
    next => exact goesOn_does streamId rfl
  next =>
    split
    next => exact does_stays streamId
    next => exact goesOn_does streamId rfl
  next => exact .raised hsame
  next => exact does_stays streamId

end

/-- What the expiry of a stream rests on is left as it is. -/
structure Apart (id : String) (server after : AudioServer) : Prop where
  expiryTasks : after.expiryTasks id = server.expiryTasks id
  expiries : ∀ k expiry, expiry.streamId = id →
    (after.expiries k = some expiry ↔ server.expiries k = some expiry)

theorem Apart.refl (id : String) (server : AudioServer) : Apart id server server :=
  ⟨rfl, fun _ _ _ => Iff.rfl⟩

theorem Apart.trans {id : String} {server mid after : AudioServer} (h : Apart id server mid)
    (h' : Apart id mid after) : Apart id server after :=
  ⟨h'.expiryTasks.trans h.expiryTasks,
    fun k expiry hid => (h'.expiries k expiry hid).trans (h.expiries k expiry hid)⟩

theorem Apart.of_eq {id : String} {server after : AudioServer}
    (htasks : after.expiryTasks = server.expiryTasks) (hexpiries : after.expiries = server.expiries) :
    Apart id server after :=
  ⟨by rw [htasks], fun k expiry _ => by rw [hexpiries]⟩

theorem Apart.pending {id : String} {server after : AudioServer} (h : Apart id server after) :
    Pending after id ↔ Pending server id := by
  constructor
  · rintro ⟨k, expiry, hk, hid, hrest⟩
    exact ⟨k, expiry, (h.expiries k expiry hid).mp hk, hid, hrest⟩
  · rintro ⟨k, expiry, hk, hid, hrest⟩
    exact ⟨k, expiry, (h.expiries k expiry hid).mpr hk, hid, hrest⟩

variable {streamId token}

section

variable {server after : AudioServer}

/-- Calls that create no expiry task, and wake none. -/
theorem Tabled.of_eq (h : Tabled streamId server) (htasks : after.expiryTasks = server.expiryTasks)
    (hexpiries : after.expiries = server.expiries) (hcreated : after.created = server.created)
    (hopened : server.opened ≤ after.opened)
    (hunclosed : ∀ id, Named streamId server id → Unclosed after id → Unclosed server id) :
    Tabled streamId after := by
  refine ⟨fun k expiry hk => ?_, fun k expiry hk hpoint hafter => ?_, fun id k hk => ?_⟩
  · rw [hexpiries] at hk
    rw [hcreated]
    obtain ⟨hlt, i, hi, heq⟩ := h.created k expiry hk
    exact ⟨hlt, i, hi.trans_le hopened, heq⟩
  · rw [hexpiries] at hk
    exact h.woken k expiry hk hpoint (hunclosed _ (h.created k expiry hk).2 hafter)
  · rw [htasks] at hk
    rw [hcreated, hexpiries]
    exact h.own id k hk

theorem cancelAudioExpiry_expiries (id : String) (k : ℕ) :
    (cancelAudioExpiry id server).expiries k = server.expiries k ∨
      server.expiryTasks id = some k ∧ (cancelAudioExpiry id server).expiries k =
        (server.expiries k).map fun expiry => { expiry with cancelled := true } := by
  unfold cancelAudioExpiry
  split
  next => exact .inl rfl
  next other hother =>
    by_cases hk : k = other
    · subst hk
      simp only [Function.update_self]
      exact .inr ⟨hother, trivial⟩
    · simp only [Function.update_of_ne hk]
      exact .inl trivial

theorem cancelAudioExpiry_expiryTasks (id other : String) :
    (cancelAudioExpiry id server).expiryTasks other =
      if other = id then none else server.expiryTasks other := by
  unfold cancelAudioExpiry
  split
  next hnone =>
    split
    next hid => rw [hid, hnone]
    next => rfl
  next =>
    split
    next hid => simp only [hid, Function.update_self]
    next hid => simp only [Function.update_of_ne hid]

theorem cancelAudioExpiry_created (id : String) :
    (cancelAudioExpiry id server).created = server.created := by
  unfold cancelAudioExpiry
  split
  next => rfl
  next => rfl

theorem cancelAudioExpiry_manager (id : String) :
    (cancelAudioExpiry id server).manager = server.manager := by
  unfold cancelAudioExpiry
  split
  next => rfl
  next => rfl

theorem cancelAudioExpiry_opened (id : String) :
    (cancelAudioExpiry id server).opened = server.opened := by
  unfold cancelAudioExpiry
  split
  next => rfl
  next => rfl

theorem named_congr {id : String} (hopened : after.opened = server.opened) :
    Named streamId after id ↔ Named streamId server id := by
  unfold Named
  rw [hopened]

theorem unclosed_congr {id : String} (hmanager : after.manager = server.manager) :
    Unclosed after id ↔ Unclosed server id := by
  unfold Unclosed
  rw [hmanager]

/-- A cancelled task keeps its stream and its point. -/
theorem cancelAudioExpiry_expiry {id : String} {k : ℕ} {expiry : AudioExpiry}
    (h : (cancelAudioExpiry id server).expiries k = some expiry) :
    ∃ before, server.expiries k = some before ∧ before.streamId = expiry.streamId ∧
      before.point = expiry.point := by
  rcases cancelAudioExpiry_expiries id k with heq | ⟨_, heq⟩
  · rw [heq] at h
    exact ⟨expiry, h, rfl, rfl⟩
  · rw [heq, Option.map_eq_some_iff] at h
    obtain ⟨before, hbefore, rfl⟩ := h
    exact ⟨before, hbefore, rfl, rfl⟩

theorem Tabled.cancel (h : Tabled streamId server) (id : String) :
    Tabled streamId (cancelAudioExpiry id server) := by
  refine ⟨fun k expiry hk => ?_, fun k expiry hk hpoint => ?_, fun other k hk => ?_⟩
  · obtain ⟨before, hbefore, hstream, _⟩ := cancelAudioExpiry_expiry hk
    rw [cancelAudioExpiry_created, named_congr (cancelAudioExpiry_opened id), ← hstream]
    exact h.created k before hbefore
  · obtain ⟨before, hbefore, hstream, hat⟩ := cancelAudioExpiry_expiry hk
    rw [unclosed_congr (cancelAudioExpiry_manager id), ← hstream]
    exact h.woken k before hbefore (hat ▸ hpoint)
  · rw [cancelAudioExpiry_expiryTasks] at hk
    split at hk
    next => cases hk
    next =>
      rw [cancelAudioExpiry_created]
      refine ⟨(h.own other k hk).1, fun expiry hexpiry => ?_⟩
      obtain ⟨before, hbefore, hstream, _⟩ := cancelAudioExpiry_expiry hexpiry
      exact hstream ▸ (h.own other k hk).2 before hbefore

/-- The streams that are not cancelled. -/
theorem cancelAudioExpiry_apart (h : Tabled streamId server) {id other : String}
    (hne : other ≠ id) : Apart other server (cancelAudioExpiry id server) := by
  refine ⟨by rw [cancelAudioExpiry_expiryTasks, if_neg hne], fun k expiry hid => ?_⟩
  rcases cancelAudioExpiry_expiries id k with heq | ⟨hk, heq⟩
  · rw [heq]
  · rw [heq]
    constructor
    · rintro hmap
      obtain ⟨before, hbefore, rfl⟩ := Option.map_eq_some_iff.mp hmap
      exact absurd (hid.symm.trans ((h.own id k hk).2 before hbefore)) hne
    · intro hexpiry
      exact absurd (hid.symm.trans ((h.own id k hk).2 expiry hexpiry)) hne

/-- A stream whose one waiting task is cancelled waits for none. -/
theorem cancelAudioExpiry_pending {id : String} (hlisted : ∀ k expiry,
      server.expiries k = some expiry → expiry.streamId = id → expiry.cancelled = false →
        expiry.point.waits = true → server.expiryTasks id = some k) :
    ¬Pending (cancelAudioExpiry id server) id := by
  rintro ⟨k, expiry, hk, hid, hcancelled, hwaits⟩
  rcases @cancelAudioExpiry_expiries server id k with heq | ⟨_, heq⟩
  · rw [heq] at hk
    have hlisted := hlisted k expiry hk hid hcancelled hwaits
    unfold cancelAudioExpiry at heq
    simp only [hlisted, Function.update_self, hk, Option.map_some] at heq
    have hcancel : true = expiry.cancelled := congrArg AudioExpiry.cancelled (Option.some.inj heq)
    rw [hcancelled] at hcancel
    cases hcancel
  · rw [heq, Option.map_eq_some_iff] at hk
    obtain ⟨before, _, rfl⟩ := hk
    cases hcancelled

theorem scheduleAudioExpiry_opened (id : String) :
    (scheduleAudioExpiry id server).opened = server.opened :=
  cancelAudioExpiry_opened id

theorem scheduleAudioExpiry_manager (id : String) :
    (scheduleAudioExpiry id server).manager = server.manager :=
  cancelAudioExpiry_manager id

/-- The new task, or one that was there. -/
theorem scheduleAudioExpiry_expiries (id : String) (k : ℕ) :
    (scheduleAudioExpiry id server).expiries k =
      if k = server.created then some { streamId := id }
      else (cancelAudioExpiry id server).expiries k := by
  unfold scheduleAudioExpiry
  simp only [cancelAudioExpiry_created]
  split
  next hk => rw [hk, Function.update_self]
  next hk => rw [Function.update_of_ne hk]

theorem scheduleAudioExpiry_expiryTasks (id other : String) :
    (scheduleAudioExpiry id server).expiryTasks other =
      if other = id then some server.created else server.expiryTasks other := by
  unfold scheduleAudioExpiry
  simp only [cancelAudioExpiry_created]
  split
  next hid => rw [hid, Function.update_self]
  next hid => rw [Function.update_of_ne hid, cancelAudioExpiry_expiryTasks, if_neg hid]

theorem Tabled.schedule (h : Tabled streamId server) {id : String}
    (hnamed : Named streamId server id) : Tabled streamId (scheduleAudioExpiry id server) := by
  have hcancel := h.cancel id
  have hcreated : (scheduleAudioExpiry id server).created = server.created + 1 := by
    simp only [scheduleAudioExpiry, cancelAudioExpiry_created]
  refine ⟨fun k expiry hk => ?_, fun k expiry hk hpoint => ?_, fun other k hk => ?_⟩
  · rw [hcreated, named_congr (scheduleAudioExpiry_opened id)]
    rw [scheduleAudioExpiry_expiries] at hk
    split at hk
    next hnew =>
      cases hk
      exact ⟨by omega, hnamed⟩
    next =>
      have hold := hcancel.created k expiry hk
      rw [cancelAudioExpiry_created, named_congr (cancelAudioExpiry_opened id)] at hold
      exact ⟨by omega, hold.2⟩
  · rw [unclosed_congr (scheduleAudioExpiry_manager id)]
    rw [scheduleAudioExpiry_expiries] at hk
    split at hk
    next =>
      cases hk
      cases hpoint
    next =>
      have hold := hcancel.woken k expiry hk hpoint
      rwa [unclosed_congr (cancelAudioExpiry_manager id)] at hold
  · rw [hcreated]
    rw [scheduleAudioExpiry_expiryTasks] at hk
    split at hk
    next hother =>
      cases hk
      refine ⟨by omega, fun expiry hexpiry => ?_⟩
      rw [scheduleAudioExpiry_expiries, if_pos rfl] at hexpiry
      cases hexpiry
      exact hother.symm
    next hother =>
      have hold := hcancel.own other k (by rw [cancelAudioExpiry_expiryTasks, if_neg hother, hk])
      rw [cancelAudioExpiry_created] at hold
      refine ⟨by omega, fun expiry hexpiry => ?_⟩
      rw [scheduleAudioExpiry_expiries, if_neg (by omega)] at hexpiry
      exact hold.2 expiry hexpiry

theorem scheduleAudioExpiry_apart (h : Tabled streamId server) {id other : String}
    (hne : other ≠ id) : Apart other server (scheduleAudioExpiry id server) := by
  refine ⟨by rw [scheduleAudioExpiry_expiryTasks, if_neg hne], fun k expiry hid => ?_⟩
  rw [scheduleAudioExpiry_expiries]
  split
  next hk =>
    constructor
    · intro heq
      cases heq
      exact absurd hid.symm hne
    · intro hexpiry
      exact absurd (h.created k expiry hexpiry).1 (by omega)
  next => exact (cancelAudioExpiry_apart h hne).expiries k expiry hid

/-- Tasks end, and streams are taken out of the table. -/
theorem Tabled.subset (h : Tabled streamId server) (hmanager : after.manager = server.manager)
    (hopened : after.opened = server.opened) (hcreated : after.created = server.created)
    (hexpiries : ∀ k expiry, after.expiries k = some expiry → server.expiries k = some expiry)
    (htasks : ∀ id k, after.expiryTasks id = some k → server.expiryTasks id = some k) :
    Tabled streamId after := by
  refine ⟨fun k expiry hk => ?_, fun k expiry hk hpoint => ?_, fun id k hk => ?_⟩
  · rw [hcreated, named_congr hopened]
    exact h.created k expiry (hexpiries k expiry hk)
  · rw [unclosed_congr hmanager]
    exact h.woken k expiry (hexpiries k expiry hk) hpoint
  · rw [hcreated]
    have hold := h.own id k (htasks id k hk)
    exact ⟨hold.1, fun expiry hexpiry => hold.2 expiry (hexpiries k expiry hexpiry)⟩

theorem update_none_some {α : Type} {f : ℕ → Option α} {k j : ℕ} {x : α}
    (h : Function.update f k none j = some x) : j ≠ k ∧ f j = some x := by
  by_cases hj : j = k
  · rw [hj, Function.update_self] at h
    cases h
  · rw [Function.update_of_ne hj] at h
    exact ⟨hj, h⟩

theorem Tabled.ends (h : Tabled streamId server) (k : ℕ) (expiry : AudioExpiry) :
    Tabled streamId (expiryEnds k expiry server) := by
  refine h.subset rfl rfl rfl (fun j other hj => (update_none_some hj).2) fun id j hj => ?_
  by_cases hid : id = expiry.streamId
  · simp only [expiryEnds, hid, Function.update_self] at hj
    cases hj
  · simpa only [expiryEnds, Function.update_of_ne hid] using hj

/-- One task is set, before and after of the same stream. -/
theorem apart_update {k : ℕ} {expiry : AudioExpiry} (hk : server.expiries k = some expiry)
    {later : Option AudioExpiry} (hlater : ∀ e, later = some e → e.streamId = expiry.streamId)
    {other : String} (hne : other ≠ expiry.streamId)
    (htasks : after.expiryTasks other = server.expiryTasks other)
    (hexpiries : after.expiries = Function.update server.expiries k later) :
    Apart other server after := by
  refine ⟨htasks, fun j another hid => ?_⟩
  rw [hexpiries]
  by_cases hj : j = k
  · rw [hj, Function.update_self, hk]
    constructor
    · intro heq
      exact absurd (hid.symm.trans (hlater another heq)) hne
    · intro heq
      cases heq
      exact absurd hid.symm hne
  · rw [Function.update_of_ne hj]

theorem expiryEnds_apart {k : ℕ} {expiry : AudioExpiry} (hk : server.expiries k = some expiry)
    {other : String} (hne : other ≠ expiry.streamId) :
    Apart other server (expiryEnds k expiry server) :=
  apart_update hk (fun _ heq => (by cases heq)) hne (by simp only [expiryEnds, Function.update_of_ne hne]) rfl

theorem expiryWaits_some {k j : ℕ} {expiry other : AudioExpiry} {point : ExpiryPoint} :
    (expiryWaits k expiry point server).expiries j = some other ↔
      j = k ∧ other = { expiry with point } ∨ j ≠ k ∧ server.expiries j = some other := by
  by_cases hjk : j = k
  · simp [expiryWaits, hjk, eq_comm]
  · simp [expiryWaits, hjk]

/-- A task of a stream is suspended at its next await. -/
theorem Tabled.waits (h : Tabled streamId server) {k : ℕ} {expiry : AudioExpiry}
    (hk : server.expiries k = some expiry) {point : ExpiryPoint}
    (hpoint : point.waits = false → ¬Unclosed server expiry.streamId) :
    Tabled streamId (expiryWaits k expiry point server) := by
  refine ⟨fun j other hj => ?_, fun j other hj hat => ?_, fun id j hj => ?_⟩
  · rcases expiryWaits_some.mp hj with ⟨rfl, rfl⟩ | ⟨_, hold⟩
    · exact h.created j expiry hk
    · exact h.created j other hold
  · rcases expiryWaits_some.mp hj with ⟨rfl, rfl⟩ | ⟨_, hold⟩
    · exact hpoint hat
    · exact h.woken j other hold hat
  · refine ⟨(h.own id j hj).1, fun other hother => ?_⟩
    rcases expiryWaits_some.mp hother with ⟨rfl, rfl⟩ | ⟨_, hold⟩
    · exact (h.own id j hj).2 expiry hk
    · exact (h.own id j hj).2 other hold

theorem expiryWaits_apart {k : ℕ} {expiry : AudioExpiry} (hk : server.expiries k = some expiry)
    {point : ExpiryPoint} {other : String} (hne : other ≠ expiry.streamId) :
    Apart other server (expiryWaits k expiry point server) := by
  refine apart_update hk (fun e heq => ?_) hne rfl rfl
  cases heq
  rfl

end

section

variable {state state' : AudioState} {n : ℕ} {next : Option AudioPoint} {id : String}

theorem held_iff : Held state id ↔ Others state n id ∨ Takes (state.tasks n) id := by
  constructor
  · rintro ⟨m, hm⟩
    by_cases hmn : m = n
    · exact .inr (hmn ▸ hm)
    · exact .inl ⟨m, hmn, hm⟩
  · rintro (⟨m, _, hm⟩ | hn)
    · exact ⟨m, hm⟩
    · exact ⟨n, hn⟩

theorem held_update (htasks : state'.tasks = Function.update state.tasks n next) :
    Held state' id ↔ Others state n id ∨ Takes next id := by
  constructor
  · rintro ⟨m, hm⟩
    by_cases hmn : m = n
    · rw [hmn, htasks, Function.update_self] at hm
      exact .inr hm
    · rw [htasks, Function.update_of_ne hmn] at hm
      exact .inl ⟨m, hmn, hm⟩
  · rintro (⟨m, hmn, hm⟩ | hn)
    · refine ⟨m, ?_⟩
      rw [htasks, Function.update_of_ne hmn]
      exact hm
    · refine ⟨n, ?_⟩
      rw [htasks, Function.update_self]
      exact hn

/-- The task goes on holding what it held. -/
theorem held_same (htasks : state'.tasks = Function.update state.tasks n next)
    (htakes : Takes next id ↔ Takes (state.tasks n) id) : Held state' id ↔ Held state id := by
  rw [held_update htasks, held_iff (n := n), htakes]

theorem not_takes_none : ¬Takes none id := by
  rintro ⟨_, hnone, _⟩
  cases hnone

theorem not_takes_expiring {k : ℕ} : ¬Takes (some (.expiring k)) id := by
  rintro ⟨_, heq, hholds⟩
  cases heq
  exact hholds

theorem takes_socket {handler : SocketHandler} {at_ : SocketPoint} :
    Takes (some (.socket handler at_)) id ↔
      handler.activeStreamId = some id ∨ at_.opens = some id := by
  constructor
  · rintro ⟨_, heq, hholds⟩
    cases heq
    exact hholds
  · exact fun hholds => ⟨_, rfl, hholds⟩

theorem takes_reporting {handler : SocketHandler} :
    Takes (some (.reportingError handler)) id ↔ handler.activeStreamId = some id := by
  constructor
  · rintro ⟨_, heq, hholds⟩
    cases heq
    exact hholds
  · exact fun hholds => ⟨_, rfl, hholds⟩

/-- A held stream waits for no expiry. -/
theorem Fine.not_pending (h : Fine state id) (hheld : Held state id) :
    ¬Pending state.world id := by
  rintro ⟨k, expiry, hk, hid, hcancelled, hwaits⟩
  exact (h.listed k expiry hk hid hcancelled hwaits).2 hheld

theorem Fine.frame (h : Fine state id) (happart : Apart id state.world state'.world)
    (hheld : Held state' id ↔ Held state id) : Fine state' id := by
  refine ⟨?_, fun k expiry hk hid hcancelled hwaits => ?_, fun k expiry hk hid hcancelled hat => ?_⟩
  · rw [hheld, happart.pending]
    exact h.kept
  · rw [hheld, happart.expiryTasks]
    exact h.listed k expiry ((happart.expiries k expiry hid).mp hk) hid hcancelled hwaits
  · rw [happart.pending]
    exact h.ran k expiry ((happart.expiries k expiry hid).mp hk) hid hcancelled hat

theorem Fine.of_held (hheld : Held state id) (hpending : ¬Pending state.world id) : Fine state id :=
  ⟨.inl hheld,
    fun k expiry hk hid hcancelled hwaits =>
      absurd ⟨k, expiry, hk, hid, hcancelled, hwaits⟩ hpending,
    fun _ _ _ _ _ _ => hpending⟩

/-- The new expiry of a stream that no handler holds any more. -/
theorem Fine.scheduled {server : AudioServer} (h : Fine state id)
    (hexpiries : server.expiries = state.world.expiries)
    (hheld : Held state id) (halone : Alone state n id)
    (htasks : state'.tasks = Function.update state.tasks n next) (hnext : ¬Takes next id)
    (hworld : state'.world = scheduleAudioExpiry id server) : Fine state' id := by
  have hgone := h.not_pending hheld
  have hcancelled : ¬Pending (cancelAudioExpiry id server) id := by
    refine cancelAudioExpiry_pending fun k expiry hk hid hcancelled hwaits => ?_
    rw [hexpiries] at hk
    exact absurd ⟨k, expiry, hk, hid, hcancelled, hwaits⟩ hgone
  have hran : ∀ k expiry, (cancelAudioExpiry id server).expiries k = some expiry →
      expiry.streamId = id → expiry.point ≠ .sleeping := by
    intro k expiry hk hid hat
    obtain ⟨before, hbefore, hstream, hpoint⟩ := cancelAudioExpiry_expiry hk
    rw [hexpiries] at hbefore
    cases hcancel : before.cancelled with
    | true =>
      exact halone.2 k before hbefore (hstream.trans hid) hcancel (hpoint.trans hat)
    | false =>
      refine hgone ⟨k, before, hbefore, hstream.trans hid, hcancel, ?_⟩
      rw [hpoint, hat]
      rfl
  have hnot : ¬Held state' id := by
    rw [held_update htasks]
    exact not_or.mpr ⟨halone.1, hnext⟩
  have hnew : (scheduleAudioExpiry id server).expiries server.created = some { streamId := id } := by
    rw [scheduleAudioExpiry_expiries, if_pos rfl]
  refine ⟨.inr ?_, fun k expiry hk hid hcancel hwaits => ⟨?_, hnot⟩,
    fun k expiry hk hid hcancel hat => ?_⟩
  · rw [hworld]
    exact ⟨server.created, { streamId := id }, hnew, rfl, rfl, rfl⟩
  · rw [hworld, scheduleAudioExpiry_expiries] at hk
    rw [hworld, scheduleAudioExpiry_expiryTasks, if_pos rfl]
    split at hk
    next hat => rw [hat]
    next => exact absurd ⟨k, expiry, hk, hid, hcancel, hwaits⟩ hcancelled
  · rw [hworld, scheduleAudioExpiry_expiries] at hk
    split at hk
    next =>
      cases hk
      cases hcancel
    next => exact absurd hat (hran k expiry hk hid)

/-- A step of a task keeps the books: it reopens no stream, and names those that it takes. -/
theorem Books.moves (h : Books streamId state) (hnumbered : Program.Numbered state')
    (htasks : state'.tasks = Function.update state.tasks n next)
    (hopened : state.world.opened ≤ state'.world.opened)
    (hknown : ∀ id, state'.world.manager.streams.lookup id ≠ none →
      state.world.manager.streams.lookup id ≠ none ∨ Named streamId state'.world id)
    (hunclosed : ∀ id, Named streamId state.world id → Unclosed state'.world id →
      Unclosed state.world id)
    (htabled : Tabled streamId state'.world) (hnext : Sound streamId state'.world next) :
    Books streamId state' := by
  have hnamed : ∀ id, Named streamId state.world id → Named streamId state'.world id := by
    rintro id ⟨i, hi, heq⟩
    exact ⟨i, hi.trans_le hopened, heq⟩
  refine ⟨hnumbered, fun id hid => ?_, htabled, fun m => ?_⟩
  · rcases hknown id hid with hold | hnew
    · exact hnamed id (h.streams id hold)
    · exact hnew
  · rw [htasks]
    by_cases hmn : m = n
    · rw [hmn, Function.update_self]
      exact hnext
    · rw [Function.update_of_ne hmn]
      refine ⟨fun id hid => hnamed id ((h.sound m).named id hid), fun id hcloses hopen => ?_,
        (h.sound m).opening⟩
      obtain ⟨handler, at_, hpoint, _, hactive⟩ := hcloses
      have hnamed : Named streamId state.world id :=
        (h.sound m).named id (hpoint ▸ takes_socket.mpr (.inl hactive))
      exact (h.sound m).closing id ⟨handler, at_, hpoint, by assumption, hactive⟩
        (hunclosed id hnamed hopen)

/-- A call that opens and closes nothing, and a change to the expiry tasks. -/
theorem Books.tables (h : Books streamId state) (hnumbered : Program.Numbered state')
    (htasks : state'.tasks = Function.update state.tasks n next) {mid : AudioServer}
    (hsame : Same state.world mid) (hmanager : state'.world.manager = mid.manager)
    (hopened : state'.world.opened = mid.opened) (htabled : Tabled streamId state'.world)
    (hnext : Sound streamId state'.world next) : Books streamId state' := by
  refine h.moves hnumbered htasks (hopened.trans hsame.opened).ge (fun id hid => ?_)
    (fun id _ hopen => ?_) htabled hnext
  · rw [hmanager] at hid
    exact .inl (hsame.known id hid)
  · exact (hsame.unclosed id).mp ((unclosed_congr hmanager).mp hopen)

theorem Tabled.same {server after : AudioServer} (h : Tabled streamId server)
    (hsame : Same server after) : Tabled streamId after :=
  h.of_eq hsame.expiryTasks hsame.expiries hsame.created hsame.opened.ge
    fun id _ => (hsame.unclosed id).mp

theorem Same.apart {server after : AudioServer} (h : Same server after) : Apart id server after :=
  .of_eq h.expiryTasks h.expiries

/-- A task that is not in the loop of a handler. -/
theorem sound_of_ne {server : AudioServer}
    (hsocket : ∀ handler at_, next ≠ some (.socket handler at_))
    (hnamed : ∀ id, Takes next id → Named streamId server id) : Sound streamId server next :=
  ⟨hnamed, fun _ ⟨_, _, heq, _⟩ => absurd heq (hsocket _ _), fun _ _ heq => absurd heq (hsocket _ _)⟩

theorem sound_idle {server : AudioServer} (hsocket : ∀ handler at_, next ≠ some (.socket handler at_))
    (htakes : ∀ id, ¬Takes next id) : Sound streamId server next :=
  sound_of_ne hsocket fun id h => absurd h (htakes id)

/-- A handler that opens and closes nothing. -/
theorem sound_socket {server : AudioServer} {handler : SocketHandler} {at_ : SocketPoint}
    (hnamed : ∀ id, Takes (some (.socket handler at_)) id → Named streamId server id)
    (hcloses : at_.closes = false) (hopening : at_.isOpening = false) :
    Sound streamId server (some (.socket handler at_)) := by
  refine ⟨hnamed, ?_, ?_⟩
  · rintro id ⟨_, _, heq, hat, _⟩
    cases heq
    rw [hcloses] at hat
    cases hat
  · intro _ _ heq hat
    cases heq
    rw [hopening] at hat
    cases hat

theorem opens_isOpening {at_ : SocketPoint} (h : at_.opens = some id) : at_.isOpening = true := by
  cases at_ with
  | openingTransport => rfl
  | openingTts => rfl
  | _ => cases h

/-- A point of its `open` that the handler holds no other stream at. -/
theorem takes_opening {handler : SocketHandler} {at_ : SocketPoint}
    (hactive : handler.activeStreamId = none) :
    Takes (some (.socket handler at_)) id ↔ at_.opens = some id := by
  rw [takes_socket, hactive]
  simp

theorem takes_active {handler : SocketHandler} {at_ : SocketPoint} (hopens : at_.opens = none) :
    Takes (some (.socket handler at_)) id ↔ handler.activeStreamId = some id := by
  rw [takes_socket, hopens]
  simp

variable {handler handler' : SocketHandler} {at_ at' : SocketPoint} {after : AudioServer}

/-- A segment of the loop of a handler. -/
theorem Cared.goes_on (h : Cared streamId state) (hinjective : Function.Injective streamId)
    (hpoint : state.tasks n = some (.socket handler at_))
    (hdoes : Does streamId handler at_ state.world (.ok (handler', at'), after))
    (hnumbered : Program.Numbered state')
    (htasks : state'.tasks = Function.update state.tasks n (some (.socket handler' at')))
    (hworld : state'.world = after) : Cared streamId state' := by
  have hsound := h.books.sound n
  have htabled := h.books.tabled
  rw [hpoint] at hsound
  obtain ⟨world, begun, tasks⟩ := state'
  obtain rfl : world = after := hworld
  cases hdoes with
  | waits hsame hopens hcloses hopening =>
    have htakes : ∀ id, Takes (some (.socket handler at')) id ↔ Takes (state.tasks n) id := by
      intro id
      rw [hpoint, takes_socket, takes_socket, hopens]
    refine ⟨h.books.tables hnumbered htasks hsame rfl rfl (htabled.same hsame) ⟨fun id hid => ?_,
      ?_, ?_⟩, fun id hid => ?_⟩
    · rw [named_congr hsame.opened]
      exact (h.books.sound n).named id ((htakes id).mp hid)
    · rintro id ⟨_, _, heq, hat, hactive⟩ hopen
      cases heq
      exact hsound.closing id ⟨_, _, rfl, hcloses hat, hactive⟩ ((hsame.unclosed id).mp hopen)
    · intro _ _ heq hat
      cases heq
      rcases hopening hat with hbefore | hnone
      · exact hsound.opening _ _ rfl hbefore
      · exact hnone
    · exact (h.fine id ((hsame.unclosed id).mp hid)).frame hsame.apart
        (held_same htasks (htakes id))
  | @attached id hopens =>
    have hnone := hsound.opening _ _ rfl (opens_isOpening hopens)
    have htakes : ∀ other, Takes
        (some (.socket { handler with activeStreamId := some id } .sending)) other ↔
        Takes (state.tasks n) other := by
      intro other
      rw [hpoint, takes_active rfl, takes_opening hnone, hopens]
    refine ⟨h.books.tables hnumbered htasks (.refl _) rfl rfl htabled
      (sound_socket (fun id hid => ?_) rfl rfl), fun id hid => ?_⟩
    · exact (h.books.sound n).named id ((htakes id).mp hid)
    · exact (h.fine id hid).frame (.refl id _) (held_same htasks (htakes id))
  | detached hcloses hopens =>
    have htakes : ∀ other, ¬Takes (some (.socket { handler with activeStreamId := none } .receiving))
        other := by
      intro other
      rw [takes_active rfl]
      rintro ⟨⟩
    refine ⟨h.books.tables hnumbered htasks (.refl _) rfl rfl htabled
      (sound_socket (fun id hid => absurd hid (htakes id)) rfl rfl), fun id hid => ?_⟩
    refine (h.fine id hid).frame (.refl id _) (held_same htasks (iff_of_false (htakes id) ?_))
    rw [hpoint, takes_active hopens]
    intro hactive
    exact hsound.closing id ⟨_, _, rfl, hcloses, hactive⟩ hid
  | @reconnected id mid hsame hopen hnone hopens =>
    have hmid := htabled.same hsame
    have hfree : ∀ other, ¬Takes (state.tasks n) other := by
      intro other
      rw [hpoint, takes_active hopens, hnone]
      rintro ⟨⟩
    have htakes : ∀ other, Takes
        (some (.socket { handler with activeStreamId := some id } .sending)) other ↔ other = id := by
      intro other
      rw [takes_active rfl, Option.some_inj, eq_comm]
    refine ⟨h.books.tables hnumbered htasks hsame (cancelAudioExpiry_manager id)
      (cancelAudioExpiry_opened id) (hmid.cancel id) (sound_socket (fun other hid => ?_) rfl rfl),
      fun other hid => ?_⟩
    · obtain rfl := (htakes other).mp hid
      obtain ⟨record, hrecord, _⟩ := hopen
      rw [named_congr ((cancelAudioExpiry_opened other).trans hsame.opened)]
      exact h.books.streams other (by rw [hrecord]; exact Option.some_ne_none _)
    · by_cases hother : other = id
      · subst hother
        refine .of_held ((held_update htasks).mpr (.inr ((htakes other).mpr rfl))) ?_
        refine cancelAudioExpiry_pending fun k expiry hk hid hcancelled hwaits => ?_
        rw [hsame.expiries] at hk
        rw [hsame.expiryTasks]
        exact ((h.fine other hopen).listed k expiry hk hid hcancelled hwaits).1
      · have hbefore : Unclosed state.world other :=
          (hsame.unclosed other).mp ((cancelAudioExpiry_unclosed id other).mp hid)
        exact (h.fine other hbefore).frame (hsame.apart.trans (cancelAudioExpiry_apart hmid hother))
          (held_same htasks (iff_of_false (fun hid => hother ((htakes other).mp hid)) (hfree other)))
  | opened hopening hopens hknown hunclosed hopened hexpiryTasks hexpiries hcreated =>
    have hnone := hsound.opening _ _ rfl hopening
    have hnew : ¬Named streamId state.world (streamId state.world.opened) := by
      rintro ⟨i, hi, heq⟩
      have := hinjective heq
      omega
    have hfresh : Named streamId world (streamId state.world.opened) :=
      ⟨state.world.opened, by omega, rfl⟩
    have hback : ∀ id, Named streamId state.world id → Unclosed world id →
        Unclosed state.world id := by
      intro id hnamed hid
      rcases hunclosed id hid with hold | rfl
      · exact hold
      · exact absurd hnamed hnew
    have hfree : ∀ other, ¬Takes (state.tasks n) other := by
      intro other
      rw [hpoint, takes_active hopens, hnone]
      rintro ⟨⟩
    have htakes : ∀ other, Takes (some (.socket handler
        (.openingTransport (streamId state.world.opened)))) other ↔
        other = streamId state.world.opened := by
      intro other
      rw [takes_opening hnone, SocketPoint.opens, Option.some_inj, eq_comm]
    have hnext : Sound streamId world (some (.socket handler
        (.openingTransport (streamId state.world.opened)))) := by
      refine ⟨fun id hid => (htakes id).mp hid ▸ hfresh, ?_, ?_⟩
      · rintro id ⟨_, _, heq, hat, _⟩
        cases heq
        cases hat
      · intro _ _ heq _
        cases heq
        exact hnone
    have hle : state.world.opened ≤ world.opened := by omega
    refine ⟨h.books.moves hnumbered htasks hle
      (fun id hid => ?_) hback
      (htabled.of_eq hexpiryTasks hexpiries hcreated (by omega) hback) hnext, fun id hid => ?_⟩
    · rcases hknown id hid with hold | rfl
      · exact .inl hold
      · exact .inr hfresh
    · by_cases heq : id = streamId state.world.opened
      · subst heq
        refine .of_held ((held_update htasks).mpr (.inr ((htakes _).mpr rfl))) ?_
        rw [(Apart.of_eq hexpiryTasks hexpiries).pending]
        rintro ⟨k, expiry, hk, hstream, _⟩
        exact hnew (hstream ▸ (htabled.created k expiry hk).2)
      · have hbefore : Unclosed state.world id := (hunclosed id hid).resolve_right heq
        exact (h.fine id hbefore).frame (.of_eq hexpiryTasks hexpiries)
          (held_same htasks (iff_of_false (fun hid => heq ((htakes id).mp hid)) (hfree id)))
  | @closed active _ _ hactive hopens hnext hshuts =>
    have hmid := htabled.cancel active
    have hnextOpens : at'.opens = none := by
      rcases hnext with rfl | rfl
      · rfl
      · rfl
    have htakes : ∀ other, Takes (some (.socket handler at')) other ↔ Takes (state.tasks n) other := by
      intro other
      rw [hpoint, takes_active hnextOpens, takes_active hopens]
    have hopened : world.opened = state.world.opened :=
      hshuts.opened.trans (cancelAudioExpiry_opened active)
    have hback : ∀ id, Unclosed world id → Unclosed state.world id ∧ id ≠ active := by
      intro id hid
      have hid := (hshuts.unclosed id).mp hid
      exact ⟨(cancelAudioExpiry_unclosed active id).mp hid.1, hid.2⟩
    have hnext : Sound streamId world (some (.socket handler at')) := by
      refine ⟨fun id hid => ?_, ?_, ?_⟩
      · rw [named_congr hopened]
        exact (h.books.sound n).named id ((htakes id).mp hid)
      · rintro id ⟨_, _, heq, _, hid⟩ hopen
        cases heq
        rw [hactive] at hid
        cases hid
        exact (hback active hopen).2 rfl
      · intro _ _ heq hat
        cases heq
        rcases hnext with rfl | rfl
        · cases hat
        · cases hat
    refine ⟨h.books.moves hnumbered htasks hopened.ge (fun id hid => ?_)
      (fun id _ hid => (hback id hid).1) (hmid.of_eq hshuts.expiryTasks hshuts.expiries
        hshuts.created hshuts.opened.ge fun id _ hid => ((hshuts.unclosed id).mp hid).1) hnext,
      fun id hid => ?_⟩
    · have hknown := hshuts.known id hid
      rw [cancelAudioExpiry_manager] at hknown
      exact .inl hknown
    · exact (h.fine id (hback id hid).1).frame
        ((cancelAudioExpiry_apart htabled (hback id hid).2).trans
          (.of_eq hshuts.expiryTasks hshuts.expiries)) (held_same htasks (htakes id))

/-- A handler leaves its stream to a new expiry. -/
theorem Cared.schedules (h : Cared streamId state) {server : AudioServer} {active : String}
    (hsame : Same state.world server) (hactive : Takes (state.tasks n) active)
    (honly : ∀ id, Takes (state.tasks n) id → id = active)
    (halone : Unclosed state.world active → Alone state n active)
    (hnumbered : Program.Numbered state')
    (htasks : state'.tasks = Function.update state.tasks n next)
    (hnext : Sound streamId state'.world next) (hfree : ∀ id, ¬Takes next id)
    (hworld : state'.world = scheduleAudioExpiry active server) : Cared streamId state' := by
  have hserver := h.books.tabled.same hsame
  have hnamed : Named streamId server active :=
    (named_congr hsame.opened).mpr ((h.books.sound n).named active hactive)
  refine ⟨h.books.tables hnumbered htasks hsame (hworld ▸ scheduleAudioExpiry_manager active)
    (hworld ▸ scheduleAudioExpiry_opened active) (hworld ▸ hserver.schedule hnamed) hnext,
    fun id hid => ?_⟩
  rw [hworld, unclosed_congr (scheduleAudioExpiry_manager active), hsame.unclosed] at hid
  by_cases heq : id = active
  · subst heq
    exact (h.fine id hid).scheduled hsame.expiries (held_iff.mpr (.inr hactive)) (halone hid) htasks
      (hfree id) hworld
  · refine (h.fine id hid).frame ?_
      (held_same htasks (iff_of_false (hfree id) fun htakes => heq (honly id htakes)))
    rw [hworld]
    exact hsame.apart.trans (scheduleAudioExpiry_apart hserver heq)

/-- A handler ends, or reports an error: what it does not hold any longer another handler holds. -/
theorem Cared.drops (h : Cared streamId state) {mid : AudioServer} (hsame : Same state.world mid)
    (hmanager : state'.world.manager = mid.manager) (hopened : state'.world.opened = mid.opened)
    (htabled : Tabled streamId state'.world)
    (happart : ∀ id, Unclosed state.world id → Apart id state.world state'.world)
    (hnumbered : Program.Numbered state')
    (htasks : state'.tasks = Function.update state.tasks n next)
    (hnext : Sound streamId state'.world next)
    (hheld : ∀ id, Unclosed state.world id → (Takes next id → Takes (state.tasks n) id) ∧
      (Takes (state.tasks n) id → Takes next id ∨ Others state n id)) : Cared streamId state' := by
  refine ⟨h.books.tables hnumbered htasks hsame hmanager hopened htabled hnext, fun id hid => ?_⟩
  have hid : Unclosed state.world id :=
    (hsame.unclosed id).mp ((unclosed_congr hmanager).mp hid)
  refine (h.fine id hid).frame (happart id hid) ?_
  rw [held_update htasks, held_iff (n := n)]
  constructor
  · exact fun hor => hor.imp_right (hheld id hid).1
  · rintro (hothers | htakes)
    · exact .inl hothers
    · exact ((hheld id hid).2 htakes).symm

/-- A handler ends where it may, or goes on to report the error. -/
theorem Cared.leaves {failure : SocketFailure} (h : Cared streamId state)
    (hpoint : state.tasks n = some (.socket handler at_))
    (hdoes : Does streamId handler at_ state.world (.error failure, after))
    (hmay : ∀ id, (AudioPoint.socket handler at_).Holds id → Unclosed state.world id →
      MayEnd state n handler failure id)
    (hnumbered : Program.Numbered state')
    (htasks : state'.tasks = Function.update state.tasks n (leaves handler failure after).2)
    (hworld : state'.world = (leaves handler failure after).1) : Cared streamId state' := by
  have hsound := h.books.sound n
  rw [hpoint] at hsound
  have hopens : ∀ id active, at_.opens = some id → handler.activeStreamId ≠ some active := by
    intro id active hopens
    rw [hsound.opening _ _ rfl (opens_isOpening hopens)]
    exact nofun
  have hothers : ∀ id, Unclosed state.world id → Takes (state.tasks n) id →
      Others state n id ∨ Pending state.world id → Others state n id := by
    intro id hid htakes hor
    exact hor.resolve_right ((h.fine id hid).not_pending (held_iff.mpr (.inr htakes)))
  by_cases hfailure : failure = .disconnected
  · subst hfailure
    cases hdoes with
    | unknown _ _ hne => exact absurd rfl hne
    | raised hsame =>
      cases hactive : handler.activeStreamId with
      | none =>
        simp only [AudioSockets.leaves, hactive] at htasks hworld
        have hserver := h.books.tabled.same hsame
        subst hworld
        refine h.drops hsame rfl rfl hserver (fun id _ => hsame.apart) hnumbered htasks
          (sound_idle nofun fun _ => not_takes_none) fun id hid => ⟨fun h => absurd h not_takes_none,
            fun htakes => .inr ?_⟩
        rcases hmay id (takes_socket.mp (hpoint ▸ htakes)) hid with ⟨hsome, _⟩ | ⟨hsome, _⟩ | ⟨_, hor⟩
        · rw [hactive] at hsome
          cases hsome
        · rw [hactive] at hsome
          cases hsome
        · exact hothers id hid htakes hor
      | some active =>
        simp only [AudioSockets.leaves, hactive] at htasks hworld
        have htakes : Takes (state.tasks n) active := hpoint ▸ takes_socket.mpr (.inl hactive)
        refine h.schedules hsame htakes (fun id hid => ?_) (fun hid => ?_) hnumbered htasks
          (sound_idle nofun fun _ => not_takes_none) (fun _ => not_takes_none) hworld
        · rcases takes_socket.mp (hpoint ▸ hid) with hsome | hopening
          · exact Option.some.inj (hsome.symm.trans hactive)
          · exact absurd hactive (hopens id active hopening)
        · rcases hmay active (.inl hactive) hid with ⟨_, _, halone⟩ | ⟨_, hlisted⟩ | ⟨hnot, _⟩
          · exact halone
          · cases hlisted
          · exact absurd ⟨hactive, rfl⟩ hnot
  · have hleaves : AudioSockets.leaves handler failure after =
        if failure.listed then (after, some (.reportingError handler)) else (after, none) := by
      cases failure with
      | disconnected => exact absurd rfl hfailure
      | _ => rfl
    have hcase : ∃ mid, Same state.world mid ∧ after.manager = mid.manager ∧
        after.opened = mid.opened ∧ Tabled streamId after ∧
        ∀ id, Unclosed state.world id → Apart id state.world after := by
      cases hdoes with
      | raised hsame =>
        exact ⟨after, hsame, rfl, rfl, h.books.tabled.same hsame, fun _ _ => hsame.apart⟩
      | @unknown active _ _ hunknown =>
        refine ⟨state.world, .refl _, cancelAudioExpiry_manager active,
          cancelAudioExpiry_opened active, h.books.tabled.cancel active, fun id hid => ?_⟩
        refine cancelAudioExpiry_apart h.books.tabled fun heq => ?_
        exact hunknown (heq ▸ hid)
    obtain ⟨mid, hsame, hmanager, hopened, htabled, happart⟩ := hcase
    rw [hleaves] at htasks hworld
    cases hlisted : failure.listed with
    | true =>
      simp only [hlisted, if_true] at htasks hworld
      obtain rfl := hworld
      have htakes : ∀ id, Takes (some (.reportingError handler)) id → Takes (state.tasks n) id := by
        intro id hid
        rw [hpoint]
        exact takes_socket.mpr (.inl (takes_reporting.mp hid))
      refine h.drops hsame hmanager hopened htabled happart hnumbered htasks
        (sound_of_ne nofun fun id hid => ?_) fun id hid => ⟨htakes id, fun hold => ?_⟩
      · rw [named_congr (hopened.trans hsame.opened)]
        exact (h.books.sound n).named id (htakes id hid)
      · rcases hmay id (takes_socket.mp (hpoint ▸ hold)) hid with ⟨hsome, _⟩ | ⟨hsome, _⟩ | ⟨_, hor⟩
        · exact .inl (takes_reporting.mpr hsome)
        · exact .inl (takes_reporting.mpr hsome)
        · exact .inr (hothers id hid hold hor)
    | false =>
      simp only [hlisted, Bool.false_eq_true, if_false] at htasks hworld
      obtain rfl := hworld
      refine h.drops hsame hmanager hopened htabled happart hnumbered htasks
        (sound_idle nofun fun _ => not_takes_none) fun id hid =>
          ⟨fun h => absurd h not_takes_none, fun hold => .inr ?_⟩
      rcases hmay id (takes_socket.mp (hpoint ▸ hold)) hid with
        ⟨_, hdisconnected, _⟩ | ⟨_, htrue⟩ | ⟨_, hor⟩
      · exact absurd hdisconnected hfailure
      · rw [hlisted] at htrue
        cases htrue
      · exact hothers id hid hold hor

/-- A task that holds no stream goes on, and changes the expiry of one. -/
theorem Cared.expires (h : Cared streamId state) (hold : ∀ id, ¬Takes (state.tasks n) id)
    (hnew : ∀ id, ¬Takes next id) (hsocket : ∀ handler at_, next ≠ some (.socket handler at_))
    (hnumbered : Program.Numbered state')
    (htasks : state'.tasks = Function.update state.tasks n next)
    (hopened : state'.world.opened = state.world.opened)
    (hknown : ∀ id, state'.world.manager.streams.lookup id ≠ none →
      state.world.manager.streams.lookup id ≠ none)
    (hunclosed : ∀ id, Unclosed state'.world id → Unclosed state.world id)
    (htabled : Tabled streamId state'.world)
    (happart : ∀ other, other ≠ id → Apart other state.world state'.world)
    (hfine : Unclosed state'.world id → Fine state id → (Held state' id ↔ Held state id) →
      Fine state' id) : Cared streamId state' := by
  have hheld : ∀ other, Held state' other ↔ Held state other := fun other =>
    held_same htasks (iff_of_false (hnew other) (hold other))
  refine ⟨h.books.moves hnumbered htasks hopened.ge (fun other hother => .inl (hknown other hother))
    (fun other _ => hunclosed other) htabled (sound_idle hsocket hnew), fun other hother => ?_⟩
  by_cases heq : other = id
  · subst heq
    exact hfine hother (h.fine other (hunclosed other hother)) (hheld other)
  · exact (h.fine other (hunclosed other hother)).frame (happart other heq) (hheld other)

/-- A change of expiry tasks after which the same streams wait for one. -/
theorem Fine.repoints (h : Fine state id) (hheld : Held state' id ↔ Held state id)
    (htable : state'.world.expiryTasks = state.world.expiryTasks)
    (hpending : ∀ k expiry, state'.world.expiries k = some expiry → expiry.streamId = id →
      expiry.cancelled = false → expiry.point.waits = true → ∃ before,
        state.world.expiries k = some before ∧ before.streamId = id ∧ before.cancelled = false ∧
        before.point.waits = true)
    (hkept : Pending state.world id → Pending state'.world id)
    (hran : ∀ k expiry, state'.world.expiries k = some expiry → expiry.cancelled = true →
      state.world.expiries k = some expiry) : Fine state' id := by
  refine ⟨?_, fun k expiry hk hid hcancelled hwaits => ?_, fun k expiry hk hid hcancelled hat => ?_⟩
  · rw [hheld]
    exact h.kept.imp_right hkept
  · obtain ⟨before, hbefore, hstream, hlive, hpoint⟩ := hpending k expiry hk hid hcancelled hwaits
    rw [hheld, htable]
    exact h.listed k before hbefore hstream hlive hpoint
  · have hbefore := h.ran k expiry (hran k expiry hk hcancelled) hid hcancelled hat
    rintro ⟨j, other, hj, hstream, hlive, hwaits⟩
    obtain ⟨before, hrest⟩ := hpending j other hj hstream hlive hwaits
    exact hbefore ⟨j, before, hrest⟩

theorem Cared.unchanged (h : Cared streamId state) (hold : ∀ id, ¬Takes (state.tasks n) id)
    (hnew : ∀ id, ¬Takes next id) (hsocket : ∀ handler at_, next ≠ some (.socket handler at_))
    (hnumbered : Program.Numbered state')
    (htasks : state'.tasks = Function.update state.tasks n next)
    (hworld : state'.world = state.world) : Cared streamId state' := by
  obtain ⟨world, begun, tasks⟩ := state'
  obtain rfl : world = state.world := hworld
  refine ⟨h.books.tables hnumbered htasks (.refl _) rfl rfl h.books.tabled (sound_idle hsocket hnew),
    fun id hid => ?_⟩
  exact (h.fine id hid).frame (.refl id _) (held_same htasks (iff_of_false (hnew id) (hold id)))

theorem act_enter {entry : AudioEntry} {result : AudioServer × Option AudioPoint}
    (h : enter state.begun entry state.world = result) :
    (program streamId token).act state (.enter entry) =
      { world := result.1, begun := state.begun + 1
        tasks := Function.update state.tasks state.begun result.2 } := by
  subst h
  rfl

/-- A task begins. -/
theorem Cared.enters (h : Cared streamId state) (entry : AudioEntry) :
    Cared streamId ((program streamId token).act state (.enter entry)) := by
  have hnumbered := h.books.numbered.act (program streamId token) (.enter entry)
  have hnone : state.tasks state.begun = none := h.books.numbered _ le_rfl
  have hold : ∀ id, ¬Takes (state.tasks state.begun) id := by
    intro id
    rw [hnone]
    exact not_takes_none
  cases entry with
  | connect sessionId =>
    have htakes : ∀ id, ¬Takes (some (.socket { sessionId } .receiving)) id := by
      intro id
      rw [takes_active rfl]
      exact nofun
    refine ⟨h.books.tables hnumbered rfl (.refl _) rfl rfl h.books.tabled
      (sound_socket (fun id hid => absurd hid (htakes id)) rfl rfl), fun id hid => ?_⟩
    exact (h.fine id hid).frame (.refl id _) (held_same rfl (iff_of_false (htakes id) (hold id)))
  | expire k =>
    cases hk : state.world.expiries k with
    | none =>
      have henter : AudioSockets.enter state.begun (.expire k) state.world = (state.world, none) := by
        simp only [AudioSockets.enter, hk]
      rw [act_enter henter] at hnumbered ⊢
      exact h.unchanged hold (fun _ => not_takes_none) nofun hnumbered rfl rfl
    | some expiry =>
      obtain ⟨id, point, cancelled⟩ := expiry
      have hkeeps : ∀ {j : ℕ} {other : AudioExpiry},
          Function.update state.world.expiries k none j = some other →
          state.world.expiries j = some other := fun hj => (update_none_some hj).2
      cases point with
      | created =>
        cases cancelled with
        | true =>
          have henter : AudioSockets.enter state.begun (.expire k) state.world =
              ({ state.world with expiries := Function.update state.world.expiries k none },
                none) := by
            simp only [AudioSockets.enter, hk, if_true]
          rw [act_enter henter] at hnumbered ⊢
          refine h.expires hold (fun _ => not_takes_none) nofun hnumbered rfl rfl (fun _ hid => hid)
            (fun _ hid => hid)
            (h.books.tabled.subset rfl rfl rfl (fun _ _ => hkeeps) fun _ _ htable => htable)
            (fun other hne => apart_update hk (fun _ heq => (by cases heq)) hne rfl rfl)
            fun _ hfine hheld => hfine.repoints hheld rfl
              (fun j other hj hid hlive hwaits => ⟨other, hkeeps hj, hid, hlive, hwaits⟩) ?_
              fun j other hj _ => hkeeps hj
          rintro ⟨j, other, hj, hstream, hlive, hwaits⟩
          have hne : j ≠ k := by
            rintro rfl
            rw [hk] at hj
            cases hj
            cases hlive
          refine ⟨j, other, ?_, hstream, hlive, hwaits⟩
          simp only [Function.update_of_ne hne, hj]
        | false =>
          have henter : AudioSockets.enter state.begun (.expire k) state.world =
              (expiryWaits k ⟨id, .created, false⟩ .sleeping state.world, some (.expiring k)) := by
            simp only [AudioSockets.enter, hk, Bool.false_eq_true, if_false]
          rw [act_enter henter] at hnumbered ⊢
          refine h.expires hold (fun _ => not_takes_expiring) nofun hnumbered rfl rfl
            (fun _ hid => hid) (fun _ hid => hid) (h.books.tabled.waits hk nofun)
            (fun other hne => expiryWaits_apart hk hne) fun _ hfine hheld =>
              hfine.repoints hheld rfl ?_ ?_ ?_
          · intro j other hj hid hlive hwaits
            rcases expiryWaits_some.mp hj with ⟨rfl, rfl⟩ | ⟨_, hold⟩
            · exact ⟨_, hk, hid, rfl, rfl⟩
            · exact ⟨other, hold, hid, hlive, hwaits⟩
          · rintro ⟨j, other, hj, hrest⟩
            by_cases hjk : j = k
            · exact ⟨k, _, expiryWaits_some.mpr (.inl ⟨rfl, rfl⟩), rfl, rfl, rfl⟩
            · exact ⟨j, other, expiryWaits_some.mpr (.inr ⟨hjk, hj⟩), hrest⟩
          · intro j other hj hcancelled
            rcases expiryWaits_some.mp hj with ⟨rfl, rfl⟩ | ⟨_, hold⟩
            · cases hcancelled
            · exact hold
      | _ =>
        have henter : AudioSockets.enter state.begun (.expire k) state.world =
            (state.world, none) := by
          simp only [AudioSockets.enter, hk]
        rw [act_enter henter] at hnumbered ⊢
        exact h.unchanged hold (fun _ => not_takes_none) nofun hnumbered rfl rfl

/-- What an `expire` does from one await to the next. -/
inductive Expires (k : ℕ) (server : AudioServer) : AudioServer × Option AudioPoint → Prop where
  | idles {next : Option AudioPoint} (hnext : next = none ∨ next = some (.expiring k)) :
    Expires k server (server, next)
  | cancelled {expiry : AudioExpiry} (hk : server.expiries k = some expiry)
    (hat : expiry.point = .sleeping) (hcancelled : expiry.cancelled = true) :
    Expires k server (expiryEnds k expiry server, none)
  | closes {expiry : AudioExpiry} {mid : AudioServer} (hk : server.expiries k = some expiry)
    (hat : expiry.point = .sleeping) (hlive : expiry.cancelled = false)
    (hshuts : Shuts expiry.streamId server mid) :
    Expires k server (expiryWaits k expiry .closingProvider mid, some (.expiring k))
  | closed {expiry : AudioExpiry} {mid : AudioServer} (hk : server.expiries k = some expiry)
    (hat : expiry.point = .sleeping) (hlive : expiry.cancelled = false)
    (hshuts : Shuts expiry.streamId server mid) :
    Expires k server (expiryEnds k expiry mid, none)
  | goesOn {expiry : AudioExpiry} (hk : server.expiries k = some expiry)
    (hwoken : expiry.point.waits = false) :
    Expires k server (expiryWaits k expiry .closingPump server, some (.expiring k))
  | ends {expiry : AudioExpiry} (hk : server.expiries k = some expiry)
    (hgone : expiry.point.waits = false ∨ ¬Unclosed server expiry.streamId) :
    Expires k server (expiryEnds k expiry server, none)

theorem resumeExpiry_expires (k : ℕ) (reply : SocketReply) (server : AudioServer) :
    Expires k server (resumeExpiry k reply server) := by
  unfold resumeExpiry
  split
  next => exact .idles (.inl rfl)
  next expiry hk =>
    split
    next => exact .idles (.inl rfl)
    next hat =>
      split
      next hcancelled => exact .cancelled hk hat hcancelled
      next hlive =>
        have hlive : expiry.cancelled = false := by simpa using hlive
        split
        next =>
          have hshuts := closeStream_shuts expiry.streamId server
          generalize closeStream expiry.streamId server = result at hshuts
          obtain ⟨outcome, mid⟩ := result
          rcases hshuts with ⟨⟨awaits, rfl⟩, hshuts⟩ | ⟨⟨e, rfl⟩, rfl, hunknown⟩
          · cases awaits with
            | true => exact .closes hk hat hlive hshuts
            | false => exact .closed hk hat hlive hshuts
          · exact .ends hk (.inr hunknown)
        next => exact .idles (.inr rfl)
    next hat => exact .goesOn hk (by rw [hat]; rfl)
    next hat => exact .ends hk (.inl (by rw [hat]; rfl))
    next hat => exact .ends hk (.inl (by rw [hat]; rfl))
    next hat => exact .ends hk (.inl (by rw [hat]; rfl))
    next => exact .idles (.inr rfl)

theorem Tabled.shuts {server after : AudioServer} (h : Tabled streamId server)
    (hshuts : Shuts id server after) : Tabled streamId after :=
  h.of_eq hshuts.expiryTasks hshuts.expiries hshuts.created hshuts.opened.ge
    fun other _ hother => ((hshuts.unclosed other).mp hother).1

/-- A segment of an `expire`. -/
theorem Cared.resumes_expiry {k : ℕ} {result : AudioServer × Option AudioPoint}
    (h : Cared streamId state) (hpoint : state.tasks n = some (.expiring k))
    (hexpires : Expires k state.world result) (hnumbered : Program.Numbered state')
    (htasks : state'.tasks = Function.update state.tasks n result.2)
    (hworld : state'.world = result.1) : Cared streamId state' := by
  have hold : ∀ id, ¬Takes (state.tasks n) id := by
    intro id
    rw [hpoint]
    exact not_takes_expiring
  have hnone : ∀ handler at_, (none : Option AudioPoint) ≠ some (.socket handler at_) := nofun
  have hsome : ∀ handler at_, some (AudioPoint.expiring k) ≠ some (.socket handler at_) := nofun
  obtain ⟨world, begun, tasks⟩ := state'
  obtain rfl : world = result.1 := hworld
  have htabled := h.books.tabled
  cases hexpires with
  | idles hnext =>
    rcases hnext with rfl | rfl
    · exact h.unchanged hold (fun _ => not_takes_none) hnone hnumbered htasks rfl
    · exact h.unchanged hold (fun _ => not_takes_expiring) hsome hnumbered htasks rfl
  | cancelled hk hat hcancelled =>
    refine h.expires hold (fun _ => not_takes_none) hnone hnumbered htasks rfl (fun _ hid => hid)
      (fun _ hid => hid) (htabled.ends k _) (fun other hne => expiryEnds_apart hk hne)
      fun _ hfine hheld => ?_
    have hlost := hfine.ran k _ hk rfl hcancelled hat
    refine .of_held (hheld.mpr (hfine.kept.resolve_right hlost)) ?_
    rintro ⟨j, other, hj, hrest⟩
    exact hlost ⟨j, other, (update_none_some hj).2, hrest⟩
  | @closes expiry mid hk hat hlive hshuts =>
    have hmid : mid.expiries k = some expiry := hshuts.expiries ▸ hk
    refine h.expires hold (fun _ => not_takes_expiring) hsome hnumbered htasks hshuts.opened
      hshuts.known (fun id hid => ((hshuts.unclosed id).mp hid).1)
      ((htabled.shuts hshuts).waits hmid fun _ hopen => ?_)
      (fun other hne => (Apart.of_eq hshuts.expiryTasks hshuts.expiries).trans
        (expiryWaits_apart hmid hne)) fun hopen => ?_
    · exact ((hshuts.unclosed _).mp hopen).2 rfl
    · exact absurd rfl ((hshuts.unclosed _).mp hopen).2
  | @closed expiry mid hk hat hlive hshuts =>
    have hmid : mid.expiries k = some expiry := hshuts.expiries ▸ hk
    refine h.expires hold (fun _ => not_takes_none) hnone hnumbered htasks hshuts.opened
      hshuts.known (fun id hid => ((hshuts.unclosed id).mp hid).1)
      ((htabled.shuts hshuts).ends k expiry)
      (fun other hne => (Apart.of_eq hshuts.expiryTasks hshuts.expiries).trans
        (expiryEnds_apart hmid hne)) fun hopen => ?_
    exact absurd rfl ((hshuts.unclosed _).mp hopen).2
  | @goesOn expiry hk hwoken =>
    have hgone := htabled.woken k expiry hk hwoken
    exact h.expires hold (fun _ => not_takes_expiring) hsome hnumbered htasks rfl
      (fun _ hid => hid) (fun _ hid => hid) (htabled.waits hk fun _ => hgone)
      (fun other hne => expiryWaits_apart hk hne) fun hopen => absurd hopen hgone
  | @ends expiry hk hgone =>
    have hgone : ¬Unclosed state.world expiry.streamId := hgone.elim (htabled.woken k expiry hk) id
    exact h.expires hold (fun _ => not_takes_none) hnone hnumbered htasks rfl (fun _ hid => hid)
      (fun _ hid => hid) (htabled.ends k expiry) (fun other hne => expiryEnds_apart hk hne)
      fun hopen => absurd hopen hgone

theorem resume_ok {reply : SocketReply} {server : AudioServer}
    (h : body streamId token handler at_ reply server = (.ok (handler', at'), after)) :
    (program streamId token).resume n (.socket handler at_) reply server =
      (after, some (.socket handler' at')) := by
  simp only [program, resume, h]

theorem resume_error {reply : SocketReply} {server : AudioServer} {failure : SocketFailure}
    (h : body streamId token handler at_ reply server = (.error failure, after)) :
    (program streamId token).resume n (.socket handler at_) reply server =
      AudioSockets.leaves handler failure after := by
  simp only [program, resume, h]

variable (streamId token n handler) in
/-- The reply to the report of an error. -/
theorem resume_reporting (reply : SocketReply) (server : AudioServer) :
    (program streamId token).resume n (.reportingError handler) reply server =
        (server, some (.reportingError handler)) ∨
      (handler.activeStreamId = none ∧ (program streamId token).resume n (.reportingError handler) reply
        server = (server, some .hangingUp)) ∨
      ∃ active, handler.activeStreamId = some active ∧
        (program streamId token).resume n (.reportingError handler) reply server =
          (scheduleAudioExpiry active server, some .hangingUp) := by
  cases hactive : handler.activeStreamId with
  | none =>
    cases reply with
    | returned => exact .inr (.inl ⟨rfl, by simp only [program, resume, hactive]⟩)
    | raised => exact .inr (.inl ⟨rfl, by simp only [program, resume, hactive]⟩)
    | _ => exact .inl rfl
  | some active =>
    cases reply with
    | returned => exact .inr (.inr ⟨active, rfl, by simp only [program, resume, hactive]⟩)
    | raised => exact .inr (.inr ⟨active, rfl, by simp only [program, resume, hactive]⟩)
    | _ => exact .inl rfl

theorem not_takes_hangingUp : ¬Takes (some .hangingUp) id := by
  rintro ⟨_, heq, hholds⟩
  cases heq
  exact hholds

/-- Where handlers end only where they may, every step keeps the streams. -/
theorem Cared.act (h : Cared streamId state) (hinjective : Function.Injective streamId)
    (action : Action AudioEntry SocketReply) (hcareful : Careful streamId token state action) :
    Cared streamId ((program streamId token).act state action) := by
  cases action with
  | enter entry => exact h.enters entry
  | resume n reply =>
    have hnumbered := h.books.numbered.act (program streamId token) (.resume n reply)
    cases hpoint : state.tasks n with
    | none =>
      rw [Program.act_gone _ hpoint]
      exact h
    | some point =>
      rw [Program.act_suspended _ hpoint] at hnumbered ⊢
      cases point with
      | socket handler at_ =>
        have hdoes : Does streamId handler at_ state.world
          (body streamId token handler at_ reply state.world) := body_does streamId token reply
        rcases hbody : body streamId token handler at_ reply state.world with ⟨outcome, after⟩
        rw [hbody] at hdoes
        cases outcome with
        | error failure =>
          rw [resume_error hbody] at hnumbered ⊢
          exact h.leaves hpoint hdoes (hcareful.1 handler at_ failure after hpoint hbody) hnumbered
            rfl rfl
        | ok next =>
          rw [resume_ok hbody] at hnumbered ⊢
          exact h.goes_on hinjective hpoint hdoes hnumbered rfl rfl
      | reportingError handler =>
        have hheld : ∀ id, Takes (state.tasks n) id ↔ handler.activeStreamId = some id := by
          intro id
          rw [hpoint, takes_reporting]
        have hstays : state.tasks = Function.update state.tasks n (some (.reportingError handler)) := by
          rw [← hpoint, Function.update_eq_self]
        rcases resume_reporting streamId token n handler reply state.world with
          heq | ⟨hactive, heq⟩ | ⟨active, hactive, heq⟩
        · simp only [heq, ← hstays]
          exact h
        · rw [heq] at hnumbered ⊢
          refine h.unchanged (fun id hid => ?_) (fun _ => not_takes_hangingUp) nofun hnumbered rfl rfl
          rw [hheld, hactive] at hid
          cases hid
        · rw [heq] at hnumbered ⊢
          refine h.schedules (.refl _) ((hheld active).mpr hactive) (fun id hid => ?_) (fun hopen => ?_)
            hnumbered rfl (sound_idle nofun fun _ => not_takes_hangingUp)
            (fun _ => not_takes_hangingUp) rfl
          · exact Option.some.inj (((hheld id).mp hid).symm.trans hactive)
          · exact hcareful.2 handler hpoint active hactive hopen
      | hangingUp =>
        have hold : ∀ id, ¬Takes (state.tasks n) id := by
          intro id
          rw [hpoint]
          exact not_takes_hangingUp
        cases reply with
        | returned =>
          exact h.unchanged hold (fun _ => not_takes_none) nofun hnumbered rfl rfl
        | raised =>
          exact h.unchanged hold (fun _ => not_takes_none) nofun hnumbered rfl rfl
        | _ =>
          exact h.unchanged hold (fun _ => not_takes_hangingUp) nofun hnumbered rfl rfl
      | expiring k =>
        exact h.resumes_expiry hpoint (resumeExpiry_expires k reply state.world) hnumbered rfl rfl

/-- The expiry tasks spare what is held. -/
theorem Cared.spares (h : Cared streamId state) (action : Action AudioEntry SocketReply) :
    Spares streamId token state action := by
  rintro n reply k rfl hpoint id hheld hopen
  rw [Program.act_suspended _ hpoint]
  have hexpires := resumeExpiry_expires k reply state.world
  have hkeeps : ∀ {expiry : AudioExpiry} {mid : AudioServer},
      state.world.expiries k = some expiry → expiry.point = .sleeping →
      expiry.cancelled = false → Shuts expiry.streamId state.world mid → Unclosed mid id := by
    intro expiry mid hk hat hlive hshuts
    refine (hshuts.unclosed id).mpr ⟨hopen, ?_⟩
    rintro rfl
    exact (h.fine _ hopen).not_pending hheld ⟨k, expiry, hk, rfl, hlive, by rw [hat]; rfl⟩
  change Unclosed (resumeExpiry k reply state.world).1 id
  generalize resumeExpiry k reply state.world = result at hexpires
  cases hexpires with
  | idles => exact hopen
  | cancelled => exact hopen
  | @closes _ mid hk hat hlive hshuts =>
    have hmid : Unclosed mid id := hkeeps hk hat hlive hshuts
    exact hmid
  | @closed _ mid hk hat hlive hshuts =>
    have hmid : Unclosed mid id := hkeeps hk hat hlive hshuts
    exact hmid
  | goesOn => exact hopen
  | ends => exact hopen

theorem cared_empty : Cared streamId { world := {} } := by
  have htakes : ∀ id, ¬Takes none id := fun id => not_takes_none
  refine ⟨⟨fun _ _ => rfl, fun id hid => absurd rfl hid, ⟨nofun, nofun, nofun⟩,
    fun n => sound_idle nofun htakes⟩, fun id hid => ?_⟩
  obtain ⟨record, hrecord, _⟩ := hid
  cases hrecord

end

end AudioSockets

open Cooperative

/-- In a run in which handlers end, and schedule an expiry, only where they may, no stream is
orphaned and no attached stream expires. -/
theorem AudioSockets.no_stream_orphaned (streamId : ℕ → String) (token : ℕ → ReconnectToken)
    (hinjective : Function.Injective streamId) (actions : List (Action AudioEntry SocketReply))
    (hcareful : (program streamId token).Throughout (Careful streamId token) { world := {} }
      actions) :
    (program streamId token).Always Kept { world := {} } actions ∧
      (program streamId token).Throughout (Spares streamId token) { world := {} } actions := by
  have hstep : ∀ state action, Cared streamId state → Careful streamId token state action →
      Cared streamId ((program streamId token).act state action) :=
    fun _ action h hok => h.act hinjective action hok
  refine ⟨(Program.always_of_step _ hstep cared_empty actions hcareful).mono _ fun state h id hid =>
    (h.fine id hid).kept, ?_⟩
  exact Program.throughout_of_step _ hstep (fun _ action h _ => h.spares action) cared_empty actions
    hcareful

namespace AudioSockets

section Runs

open VoiceOutputBridge (spelledId spelledId_injective)

abbrev plainProgram := program spelledId fun _ => drawnToken

/-- A socket is accepted and opens a stream. -/
def opensOne (n : ℕ) : List (Action AudioEntry SocketReply) := [
  .enter (.connect "session"), .resume n (.message (.open_ (some { config := plainConfig }))),
  .resume n .returned,
  .resume n (.voiceState {}), .resume n .returned, .resume n .returned, .resume n .returned]

theorem careful_of_ok {state : AudioState} {n : ℕ} {reply : SocketReply}
    {handler : SocketHandler} {point : SocketPoint} {next : SocketHandler × SocketPoint}
    (hpoint : state.tasks n = some (.socket handler point))
    (hbody : (body spelledId (fun _ => drawnToken) handler point reply state.world).1 = .ok next) :
    Careful spelledId (fun _ => drawnToken) state (.resume n reply) := by
  refine ⟨fun socket at_ failure server hat herror => ?_, fun socket hat => ?_⟩
  · rw [hpoint] at hat
    cases hat
    rw [herror] at hbody
    cases hbody
  · rw [hpoint] at hat
    cases hat

theorem careful_expiring {state : AudioState} {n k : ℕ} {reply : SocketReply}
    (hpoint : state.tasks n = some (.expiring k)) :
    Careful spelledId (fun _ => drawnToken) state (.resume n reply) := by
  refine ⟨fun socket at_ failure server hat _ => ?_, fun socket hat => ?_⟩
  · rw [hpoint] at hat
    cases hat
  · rw [hpoint] at hat
    cases hat

/-- A socket opens a stream and disconnects, and the stream expires. -/
def leftToExpire : List (Action AudioEntry SocketReply) := opensOne 0 ++ [
  .resume 0 (.raised .disconnected), .enter (.expire 0), .resume 1 .returned, .resume 1 .returned]

theorem no_stream_orphaned_expired :
    plainProgram.Always Kept { world := {} } leftToExpire ∧
      plainProgram.Throughout (Spares spelledId fun _ => drawnToken) { world := {} }
        leftToExpire := by
  refine no_stream_orphaned spelledId _ spelledId_injective leftToExpire
    ⟨trivial, careful_of_ok rfl rfl, careful_of_ok rfl rfl, careful_of_ok rfl rfl,
      careful_of_ok rfl rfl, careful_of_ok rfl rfl, careful_of_ok rfl rfl,
      ⟨?_, fun _ hreporting => (by cases hreporting)⟩, trivial,
      careful_expiring rfl, careful_expiring rfl, trivial⟩
  intro handler point failure server hpoint hbody id hholds _
  cases hpoint
  cases hbody
  have hactive := hholds.resolve_right fun hopens => (by cases hopens)
  refine .inl ⟨hactive, rfl, ?_, fun _ _ hexpiry => (by cases hexpiry)⟩
  have hnumbered : Program.Numbered ((opensOne 0).foldl plainProgram.act { world := {} }) :=
    Program.Numbered.run plainProgram (fun _ _ => rfl) (opensOne 0)
  rintro ⟨m, hm, point, hother, _⟩
  have hlt : m < 1 := hnumbered.lt hother
  omega

/-- A handler of a socket with an open stream is sent what is not JSON. -/
def notJson : List (Action AudioEntry SocketReply) :=
  opensOne 0 ++ [.resume 0 (.raised (.other "JSONDecodeError"))]

/-- A second socket takes the stream over, and the first one disconnects. -/
def takesOver : List (Action AudioEntry SocketReply) := opensOne 0 ++ [
  .enter (.connect "session"),
  .resume 1 (.message (.reconnect (some ⟨spelledId 0, drawnToken.text, 0, 0⟩))), .resume 1 .returned,
  .resume 0 (.raised .disconnected), .enter (.expire 0)]

theorem stream_orphaned :
    ¬plainProgram.Always Kept { world := {} } notJson ∧
      ¬plainProgram.Throughout (Spares spelledId fun _ => drawnToken) { world := {} }
        (takesOver ++ [.resume 2 .returned]) := by
  constructor
  · intro h
    have hnumbered : Program.Numbered (notJson.foldl plainProgram.act { world := {} }) :=
      Program.Numbered.run plainProgram (fun _ _ => rfl) notJson
    rcases Program.Always.last _ h (spelledId 0) ⟨_, rfl, rfl⟩ with ⟨n, point, hpoint, _⟩ | hpending
    · have hlt : n < 1 := hnumbered.lt hpoint
      obtain rfl : n = 0 := by omega
      cases hpoint
    · obtain ⟨k, expiry, hk, _⟩ := hpending
      cases hk
  · intro h
    have hspares := Program.Throughout.last _ h 2 .returned 0 rfl rfl (spelledId 0)
      ⟨1, _, rfl, .inl rfl⟩ ⟨_, rfl, rfl⟩
    obtain ⟨record, hrecord, hopen⟩ := hspares
    cases hrecord
    cases hopen

end Runs

end AudioSockets

end NoraInterviewer
