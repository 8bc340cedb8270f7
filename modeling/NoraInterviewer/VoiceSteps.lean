import NoraInterviewer.VoiceCoordinator

namespace NoraInterviewer

namespace Voicing

variable {α β : Type}

@[simp] theorem pure_apply (a : α) (world : VoiceWorld) :
    (pure a : Voicing α) world = .ok a world := rfl

@[simp] theorem raise_apply (e : PyError) (world : VoiceWorld) :
    (raise e : Voicing α) world = .error e world := rfl

@[simp] theorem session_apply (world : VoiceWorld) : session world = .ok world.stored world := rfl

@[simp] theorem voice_apply (world : VoiceWorld) : voice world = .ok world.voice world := rfl

@[simp] theorem setVoice_apply (f : VoiceSessionState → VoiceSessionState) (world : VoiceWorld) :
    setVoice f world = .ok () { world with voice := f world.voice } := rfl

theorem bind_apply (m : Voicing α) (f : α → Voicing β) (world : VoiceWorld) :
    (m >>= f) world =
      match m world with
      | .ok a after => f a after
      | .error e after => .error e after := by
  show EStateM.bind m f world = _
  unfold EStateM.bind
  cases m world with
  | ok a after => rfl
  | error e after => rfl

theorem bind_ok {m : Voicing α} {f : α → Voicing β} {world after : VoiceWorld} {a : α}
    (h : m world = .ok a after) : (m >>= f) world = f a after := by
  rw [bind_apply, h]

theorem bind_error {m : Voicing α} {f : α → Voicing β} {world after : VoiceWorld} {e : PyError}
    (h : m world = .error e after) : (m >>= f) world = .error e after := by
  rw [bind_apply, h]

end Voicing

namespace RealtimeVoiceCoordinator

open Voicing

section

variable {α β : Type}

/-- The world that a call leaves. -/
def landed : EStateM.Result PyError VoiceWorld α → VoiceWorld
  | .ok _ world => world
  | .error _ world => world

/-- The call returned. -/
def accepted : EStateM.Result PyError VoiceWorld α → Bool
  | .ok _ _ => true
  | .error _ _ => false

@[simp] theorem landed_ok (a : α) (world : VoiceWorld) :
    landed (.ok a world : EStateM.Result PyError VoiceWorld α) = world := rfl

@[simp] theorem landed_error (e : PyError) (world : VoiceWorld) :
    landed (.error e world : EStateM.Result PyError VoiceWorld α) = world := rfl

@[simp] theorem accepted_ok (a : α) (world : VoiceWorld) :
    accepted (.ok a world : EStateM.Result PyError VoiceWorld α) = true := rfl

@[simp] theorem accepted_error (e : PyError) (world : VoiceWorld) :
    accepted (.error e world : EStateM.Result PyError VoiceWorld α) = false := rfl

/-- What is made of the reply changes neither the world nor whether there is one. -/
theorem reply_same (m : Voicing α) (f : α → β) (world : VoiceWorld) :
    landed ((m >>= fun a => pure (f a)) world) = landed (m world) ∧
      accepted ((m >>= fun a => pure (f a)) world) = accepted (m world) := by
  rw [bind_apply]
  cases m world with
  | ok a after => exact ⟨rfl, rfl⟩
  | error e after => exact ⟨rfl, rfl⟩

end

/-- The session takes no further answers. -/
def Ended (session : InterviewSession) : Prop :=
  session.status = .completed ∨ session.status = .cancelled

instance (session : InterviewSession) : Decidable (Ended session) :=
  inferInstanceAs (Decidable (_ ∨ _))

/-- The voice state once the candidate is heard. -/
def heard (voice : VoiceSessionState) (nowMs : Nat) : VoiceSessionState :=
  { (if voice.phase = .speaking then
      { voice with
        interruptionCount := voice.interruptionCount + 1
        generation := voice.generation + 1
        activeTtsTurnId := none }
    else voice) with
    phase := .listening
    speechStartedAtMs := some nowMs }

/-- The voice state once the audio of a turn plays. -/
def playing (voice : VoiceSessionState) (nowMs : Nat) (turnId : String) : VoiceSessionState :=
  { (match voice.responseReadyAtMs with
    | some ready => { voice with lastResponseToTtsMs := some (nowMs - ready) }
    | none => voice) with
    phase := .speaking
    activeTtsTurnId := some turnId }

/-- The voice state after audio that ended. -/
def played (voice : VoiceSessionState) (status : SessionStatus) : VoiceSessionState :=
  { voice with
    activeTtsTurnId := none
    responseReadyAtMs := none
    speechStartedAtMs := none
    phase := if status = .completed then .closed else .idle }

/-- The voice state after audio that was cancelled. -/
def silenced (voice : VoiceSessionState) : VoiceSessionState :=
  { voice with activeTtsTurnId := none, responseReadyAtMs := none, phase := .idle }

def hungUp (voice : VoiceSessionState) : VoiceSessionState :=
  { voice with
    generation := voice.generation + 1
    activeTtsTurnId := none
    responseReadyAtMs := none
    speechStartedAtMs := none
    phase := .closed }

/-- The world with its voice closed. -/
def shut (world : VoiceWorld) : VoiceWorld :=
  { world with voice := { world.voice with phase := .closed } }

section

variable [CanonicalDigest] {backend : Backend} {call : VoiceCall} {world : VoiceWorld} {α : Type}

/-- The call put `voice` in memory and wrote `entries` to the log, if the store took them. -/
def Wrote (backend : Backend) (persists : Bool) (world : VoiceWorld) (voice : VoiceSessionState)
    (entries : List LogEntry) (reply : α) (result : EStateM.Result PyError VoiceWorld α) : Prop :=
  ∃ events, Grows world.stored.events events entries ∧
    result = if persists
      then .ok reply ⟨voice, backend.stored { world.stored with events := events }⟩
      else .error voiceChangedConcurrently ⟨voice, world.stored⟩

def entry (call : VoiceCall) (type : EventType) (turn : Option Turn) (payload : Dict Json) :
    LogEntry :=
  ⟨type, turn.map Turn.id, withTrace call.correlationId payload⟩

/-- On a sealed log an event is written. -/
theorem log_sealed (call : VoiceCall) {session : InterviewSession} (hs : Sealed session.events)
    (type : EventType) (turn : Option Turn) (payload : Dict Json) :
    ∃ events, (∀ world, log call session type turn payload world =
        .ok { session with events := events } world) ∧
      Grows session.events events [entry call type turn payload] := by
  obtain ⟨session', hok⟩ := appendEvent_of_linked call.toAmbient hs.linked type turn payload
  obtain ⟨events, rfl, hgrows⟩ :=
    (appendEvent_meets call.toAmbient session type turn payload).of_ok hok
  refine ⟨events, fun world => ?_, hgrows⟩
  unfold log
  rw [hok]
  rfl

omit [CanonicalDigest] in
theorem persistVoice_apply (persists : Bool) (session : InterviewSession) (world : VoiceWorld) :
    persistVoice backend persists session world =
      if persists then .ok () { world with stored := backend.stored session }
      else .error voiceChangedConcurrently world := rfl

omit [CanonicalDigest] in
theorem ensureInputAllowed_ended {session : InterviewSession} (h : Ended session)
    (world : VoiceWorld) :
    ∃ e, ensureInputAllowed session world = .error e (shut world) := by
  unfold ensureInputAllowed
  by_cases hcompleted : session.status = .completed
  · rw [if_pos hcompleted]
    exact ⟨_, rfl⟩
  · rw [if_neg hcompleted, if_pos (h.resolve_left hcompleted)]
    exact ⟨_, rfl⟩

omit [CanonicalDigest] in
theorem ensureInputAllowed_active {session : InterviewSession} (h : ¬Ended session) :
    ensureInputAllowed session = pure () := by
  obtain ⟨hcompleted, hcancelled⟩ := not_or.mp h
  unfold ensureInputAllowed
  rw [if_neg hcompleted, if_neg hcancelled]

theorem speechStarted_ended (h : Ended world.stored) :
    ∃ e, speechStarted backend call world = .error e (shut world) := by
  obtain ⟨e, he⟩ := ensureInputAllowed_ended h world
  refine ⟨e, ?_⟩
  unfold speechStarted
  rw [bind_ok (session_apply world)]
  exact bind_error he

/-- What a barge-in writes. -/
def bargeInEntries (call : VoiceCall) (voice : VoiceSessionState) : List LogEntry := [
  entry call .voiceBargeIn none [
    ("generation", .nat (voice.generation + 1)),
    ("interrupted_turn_id", .ofOption voice.activeTtsTurnId),
    ("interruption_count", .nat (voice.interruptionCount + 1))],
  entry call .voiceTtsCancelled none [
    ("turn_id", .ofOption voice.activeTtsTurnId),
    ("reason", .str "barge_in"),
    ("generation", .nat (voice.generation + 1))]]

variable (call) in
theorem bargeIn_sealed (hs : Sealed world.stored.events) :
    ∃ events, bargeIn call world.stored world = .ok { world.stored with events := events }
        { world with voice := { world.voice with
          interruptionCount := world.voice.interruptionCount + 1
          generation := world.voice.generation + 1
          activeTtsTurnId := none } } ∧
      Grows world.stored.events events (bargeInEntries call world.voice) := by
  obtain ⟨first, hfirst, hbarged⟩ := log_sealed call hs .voiceBargeIn none [
    ("generation", .nat (world.voice.generation + 1)),
    ("interrupted_turn_id", .ofOption world.voice.activeTtsTurnId),
    ("interruption_count", .nat (world.voice.interruptionCount + 1))]
  have hfirstSealed : Sealed ({ world.stored with events := first } : InterviewSession).events :=
    hbarged.seals hs
  obtain ⟨second, hsecond, hcancelled⟩ := log_sealed call hfirstSealed .voiceTtsCancelled none [
    ("turn_id", .ofOption world.voice.activeTtsTurnId),
    ("reason", .str "barge_in"),
    ("generation", .nat (world.voice.generation + 1))]
  refine ⟨second, ?_, hbarged.trans hcancelled⟩
  unfold bargeIn
  simp only [bind_apply, voice_apply, setVoice_apply, pure_apply, bargeInPayload, hfirst, hsecond]

/-- What `speech_started` writes. -/
def speechEntries (call : VoiceCall) (voice : VoiceSessionState) : List LogEntry :=
  (if voice.phase = .speaking then bargeInEntries call voice else []) ++
    [entry call .voiceSpeechStarted none [
      ("generation", .nat (heard voice call.nowMs).generation),
      ("started_at_ms", .nat call.nowMs)]]

theorem speechStarted_active (hs : Sealed world.stored.events) (ha : ¬Ended world.stored) :
    Wrote backend call.persists world (heard world.voice call.nowMs)
      (speechEntries call world.voice) (heard world.voice call.nowMs)
      (speechStarted backend call world) := by
  unfold speechStarted speechEntries
  rw [bind_ok (session_apply world), ensureInputAllowed_active ha]
  by_cases hspeaking : world.voice.phase = .speaking
  · obtain ⟨events, hbarge, hbarged⟩ := bargeIn_sealed call hs
    have hbargedSealed : Sealed ({ world.stored with events := events } : InterviewSession).events :=
      hbarged.seals hs
    obtain ⟨final, hlog, hgrows⟩ := log_sealed call hbargedSealed .voiceSpeechStarted none [("generation", .nat (world.voice.generation + 1)),
        ("started_at_ms", .nat call.nowMs)]
    simp only [heard, hspeaking, if_true]
    refine ⟨final, hbarged.trans hgrows, ?_⟩
    simp only [bind_apply, voice_apply, setVoice_apply, pure_apply, hspeaking, if_true, hbarge,
      hlog, persistVoice_apply]
    cases call.persists with
    | true => rfl
    | false => rfl
  · obtain ⟨final, hlog, hgrows⟩ := log_sealed call hs .voiceSpeechStarted
      none [("generation", .nat world.voice.generation), ("started_at_ms", .nat call.nowMs)]
    simp only [heard, hspeaking, if_false, List.nil_append]
    refine ⟨final, hgrows, ?_⟩
    simp only [bind_apply, voice_apply, setVoice_apply, pure_apply, hspeaking, if_false,
      hlog, persistVoice_apply]
    cases call.persists with
    | true => rfl
    | false => rfl

theorem transcriptPartial_ended (event : TranscriptEvent) (h : Ended world.stored) :
    ∃ e, transcriptPartial backend call event world = .error e (shut world) := by
  obtain ⟨e, he⟩ := ensureInputAllowed_ended h world
  refine ⟨e, ?_⟩
  unfold transcriptPartial
  rw [bind_ok (session_apply world)]
  exact bind_error he

theorem transcriptPartial_refused (event : TranscriptEvent) (ha : ¬Ended world.stored)
    (hp : world.voice.phase ≠ .listening) :
    ∃ e, transcriptPartial backend call event world = .error e world := by
  unfold transcriptPartial
  rw [bind_ok (session_apply world), ensureInputAllowed_active ha]
  simp only [bind_apply, voice_apply, pure_apply, if_pos hp, raise_apply]
  exact ⟨_, rfl⟩

variable (backend call) in
theorem transcriptPartial_heard (event : TranscriptEvent) (hs : Sealed world.stored.events)
    (ha : ¬Ended world.stored) (hp : world.voice.phase = .listening) :
    ∃ payload, Wrote backend call.persists world world.voice
      [entry call .voiceTranscriptPartial none payload] world.voice
      (transcriptPartial backend call event world) := by
  obtain ⟨final, hlog, hgrows⟩ := log_sealed call hs .voiceTranscriptPartial none [
    ("text", .str event.text),
    ("confidence", confidenceJson event),
    ("generation", .nat world.voice.generation)]
  refine ⟨_, final, hgrows, ?_⟩
  unfold transcriptPartial
  rw [bind_ok (session_apply world), ensureInputAllowed_active ha]
  simp only [bind_apply, voice_apply, pure_apply, ne_eq, hp, not_true_eq_false, if_false,
    hlog, persistVoice_apply]
  cases call.persists with
  | true => rfl
  | false => rfl

theorem ttsStarted_cancelled (turnId : String) (h : world.stored.status = .cancelled) :
    ttsStarted backend call turnId world = .error isCancelled (shut world) := by
  unfold ttsStarted
  rw [bind_ok (session_apply world), if_pos h]
  rfl

/-- The turn is not one of the session's, or the audio of another one is active. -/
theorem ttsStarted_refused {turnId : String} (h : world.stored.status ≠ .cancelled)
    (hr : turnOf world.stored turnId = none ∨
      world.voice.activeTtsTurnId ≠ none ∧ world.voice.activeTtsTurnId ≠ some turnId) :
    ∃ e, ttsStarted backend call turnId world = .error e world := by
  unfold ttsStarted
  rw [bind_ok (session_apply world), if_neg h]
  cases hturn : turnOf world.stored turnId with
  | none => exact ⟨_, rfl⟩
  | some turn =>
    rw [hturn] at hr
    have hstale := hr.resolve_left (by simp)
    simp only [bind_apply, voice_apply, if_pos hstale, raise_apply]
    exact ⟨_, rfl⟩

variable (backend call) in
theorem ttsStarted_plays {turnId : String} {turn : Turn} (hs : Sealed world.stored.events)
    (h : world.stored.status ≠ .cancelled) (hturn : turnOf world.stored turnId = some turn)
    (ha : world.voice.activeTtsTurnId = none ∨ world.voice.activeTtsTurnId = some turnId) :
    ∃ payload, Wrote backend call.persists world (playing world.voice call.nowMs turnId)
      [entry call .voiceTtsStarted (some turn) payload] (playing world.voice call.nowMs turnId)
      (ttsStarted backend call turnId world) := by
  have hactive : ¬(world.voice.activeTtsTurnId ≠ none ∧
      world.voice.activeTtsTurnId ≠ some turnId) := fun hstale => ha.elim hstale.1 hstale.2
  obtain ⟨final, hlog, hgrows⟩ := log_sealed call hs .voiceTtsStarted (some turn) [
    ("generation", .nat (playing world.voice call.nowMs turnId).generation),
    ("response_to_tts_ms", optionalNat (playing world.voice call.nowMs turnId).lastResponseToTtsMs)]
  refine ⟨_, final, hgrows, ?_⟩
  unfold ttsStarted
  rw [bind_ok (session_apply world), if_neg h, hturn]
  unfold playing at hlog ⊢
  cases hready : world.voice.responseReadyAtMs with
  | none =>
    simp only [hready] at hlog ⊢
    simp only [bind_apply, voice_apply, setVoice_apply, if_neg hactive, hready, hlog,
      persistVoice_apply]
    cases call.persists with
    | true => rfl
    | false => rfl
  | some ready =>
    simp only [hready] at hlog ⊢
    simp only [bind_apply, voice_apply, setVoice_apply, if_neg hactive, hready, hlog,
      persistVoice_apply]
    cases call.persists with
    | true => rfl
    | false => rfl

theorem ttsCompleted_refused {turnId : String}
    (h : world.voice.activeTtsTurnId ≠ some turnId) :
    ∃ e, ttsCompleted backend call turnId world = .error e world := by
  unfold ttsCompleted
  simp only [bind_apply, session_apply, voice_apply, if_pos h, raise_apply]
  exact ⟨_, rfl⟩

variable (backend call) in
theorem ttsCompleted_ends {turnId : String} (hs : Sealed world.stored.events)
    (h : world.voice.activeTtsTurnId = some turnId) :
    ∃ payload, Wrote backend call.persists world (played world.voice world.stored.status)
      [entry call .voiceTtsCompleted (turnOf world.stored turnId) payload]
      (played world.voice world.stored.status) (ttsCompleted backend call turnId world) := by
  obtain ⟨final, hlog, hgrows⟩ := log_sealed call hs .voiceTtsCompleted
    (turnOf world.stored turnId) [("generation", .nat world.voice.generation)]
  refine ⟨_, final, hgrows, ?_⟩
  unfold ttsCompleted
  simp only [bind_apply, session_apply, voice_apply, setVoice_apply, ne_eq, h,
    not_true_eq_false, if_false, hlog, persistVoice_apply]
  cases call.persists with
  | true => rfl
  | false => rfl

theorem ttsCancelled_refused {turnId reason : String}
    (h : world.voice.activeTtsTurnId ≠ some turnId) :
    ∃ e, ttsCancelled backend call turnId reason world = .error e world := by
  unfold ttsCancelled
  simp only [bind_apply, session_apply, voice_apply, if_pos h, raise_apply]
  exact ⟨_, rfl⟩

variable (backend call) in
theorem ttsCancelled_ends {turnId : String} (reason : String) (hs : Sealed world.stored.events)
    (h : world.voice.activeTtsTurnId = some turnId) :
    ∃ payload, Wrote backend call.persists world (silenced world.voice)
      [entry call .voiceTtsCancelled (turnOf world.stored turnId) payload]
      (silenced world.voice) (ttsCancelled backend call turnId reason world) := by
  obtain ⟨final, hlog, hgrows⟩ := log_sealed call hs .voiceTtsCancelled
    (turnOf world.stored turnId) [
      ("generation", .nat world.voice.generation), ("reason", .str reason)]
  refine ⟨_, final, hgrows, ?_⟩
  unfold ttsCancelled
  simp only [bind_apply, session_apply, voice_apply, setVoice_apply, ne_eq, h,
    not_true_eq_false, if_false, hlog, persistVoice_apply]
  cases call.persists with
  | true => rfl
  | false => rfl

theorem logOnly_wrote (hs : Sealed world.stored.events) (type : EventType)
    (payload : VoiceSessionState → Dict Json) :
    Wrote backend call.persists world world.voice [entry call type none (payload world.voice)] ()
      (logOnly backend call type payload world) := by
  obtain ⟨final, hlog, hgrows⟩ := log_sealed call hs type none (payload world.voice)
  refine ⟨final, hgrows, ?_⟩
  unfold logOnly
  simp only [bind_apply, session_apply, voice_apply, hlog, persistVoice_apply]

theorem closeSession_silent {reason : String} (h : world.voice.activeTtsTurnId = none) :
    closeSession backend call reason world =
      .ok (hungUp world.voice) { world with voice := hungUp world.voice } := by
  unfold closeSession
  simp only [bind_apply, session_apply, voice_apply, setVoice_apply, h, hungUp]

variable (backend call) in
/-- Closing a session whose audio still plays cancels the audio first. -/
theorem closeSession_plays {turnId : String} (reason : String) (hs : Sealed world.stored.events)
    (h : world.voice.activeTtsTurnId = some turnId) :
    ∃ events payload, Grows world.stored.events events
        [entry call .voiceTtsCancelled (turnOf world.stored turnId) payload] ∧
      closeSession backend call reason world =
        if call.persists
        then .ok (hungUp world.voice)
          ⟨hungUp world.voice, backend.stored { world.stored with events := events }⟩
        else .error voiceChangedConcurrently
          { world with voice := { world.voice with generation := world.voice.generation + 1 } } := by
  obtain ⟨final, hlog, hgrows⟩ := log_sealed call hs .voiceTtsCancelled
    (turnOf world.stored turnId) [
      ("generation", .nat (world.voice.generation + 1)), ("reason", .str reason)]
  refine ⟨final, _, hgrows, ?_⟩
  unfold closeSession
  simp only [bind_apply, session_apply, voice_apply, setVoice_apply, h, hlog, persistVoice_apply,
    hungUp]
  cases call.persists with
  | true => rfl
  | false => rfl

/-- What `InterviewService.answer` raises or returns, and the session that it leaves stored. -/
inductive Answered (backend : Backend) (call : VoiceCall) (text : String)
    (turnMetadata : Dict Json) (stored : InterviewSession) :
    Except PyError SessionStep → InterviewSession → Prop where
  | refused (e : PyError) : Answered backend call text turnMetadata stored (.error e) stored
  | started {begun : InterviewSession} (e : PyError)
    (hbegun : mutate call.startCall .start stored = .ok (some begun)) :
    Answered backend call text turnMetadata stored (.error e) (backend.stored begun)
  | answered {loaded session' : InterviewSession} {job : JobSpec} {step : SessionStep}
    (hloaded : loaded = stored ∨ ∃ begun,
      mutate call.startCall .start stored = .ok (some begun) ∧ loaded = backend.stored begun)
    (hjob : call.call.job = some job)
    (ha : answer call.call loaded job text turnMetadata = .ok (.commit session' step)) :
    Answered backend call text turnMetadata stored (.ok step) (backend.stored session')

/-- The result of a call that touches no voice state. -/
def interviewed (voice : VoiceSessionState) (result : Except PyError α)
    (stored : InterviewSession) : EStateM.Result PyError VoiceWorld α :=
  match result with
  | .ok a => .ok a ⟨voice, stored⟩
  | .error e => .error e ⟨voice, stored⟩

theorem answer_commits_always {call : Call} {session : InterviewSession} {job : JobSpec}
    {text : String} {turnMetadata : Dict Json} {outcome : Outcome SessionStep}
    (h : answer call session job text turnMetadata = .ok outcome) :
    ∃ session' step turn, outcome = .commit session' step ∧ step.interviewerTurn = some turn := by
  obtain ⟨shown, _, h⟩ := ExceptRules.bind_ok h
  obtain ⟨⟨decided, decision, latencyMs⟩, _, h⟩ := ExceptRules.bind_ok h
  obtain ⟨⟨asked, turn⟩, _, h⟩ := ExceptRules.bind_ok h
  obtain ⟨⟨tooled, tool⟩, _, h⟩ := ExceptRules.bind_ok h
  obtain ⟨completed, _, h⟩ := ExceptRules.bind_ok h
  cases h
  exact ⟨_, _, turn, rfl, rfl⟩

omit [CanonicalDigest] in
theorem commitOutcome_commit (persists : Bool) (session : InterviewSession) (result : α)
    (world : VoiceWorld) :
    commitOutcome backend persists (.ok (.commit session result)) world =
      if persists then .ok result { world with stored := backend.stored session }
      else .error changedConcurrently world := by
  cases persists with
  | true => rfl
  | false => rfl

variable (backend call world) in
theorem startInterview_result :
    (∃ e, startInterview backend call world = .error e world) ∨
    (∃ step, startInterview backend call world = .ok step world) ∨
    ∃ begun step, mutate call.startCall .start world.stored = .ok (some begun) ∧
      startInterview backend call world =
        .ok step { world with stored := backend.stored begun } := by
  unfold startInterview
  rw [bind_ok (session_apply world)]
  cases hjob : call.startCall.job with
  | none => exact .inl ⟨_, rfl⟩
  | some job =>
    simp only
    cases hstart : start call.startCall world.stored job with
    | error e => exact .inl ⟨e, rfl⟩
    | ok outcome =>
      cases outcome with
      | keep step => exact .inr (.inl ⟨step, rfl⟩)
      | commit begun step =>
        rw [commitOutcome_commit]
        cases call.startPersists with
        | false => exact .inl ⟨changedConcurrently, rfl⟩
        | true =>
          refine .inr (.inr ⟨begun, step, ?_, rfl⟩)
          unfold mutate
          rw [hjob]
          show (start call.startCall world.stored job).map Outcome.written = _
          rw [hstart]
          rfl

/-- The second half of `answerInterview`, on the session that is stored by then. -/
theorem answerLoaded_answered {stored : InterviewSession} (text : String)
    (turnMetadata : Dict Json) (world : VoiceWorld)
    (hloaded : world.stored = stored ∨ ∃ begun,
      mutate call.startCall .start stored = .ok (some begun) ∧
        world.stored = backend.stored begun) :
    ∃ result stored', Answered backend call text turnMetadata stored result stored' ∧
      (match call.call.job with
        | none => raise missingJob
        | some job => commitOutcome backend call.answerPersists
            (answer call.call world.stored job text turnMetadata) : Voicing SessionStep) world =
        interviewed world.voice result stored' := by
  have hrefused : ∀ e, Answered backend call text turnMetadata stored (.error e) world.stored := by
    intro e
    rcases hloaded with hsame | ⟨begun, hbegun, hstored⟩
    · rw [hsame]
      exact .refused e
    · rw [hstored]
      exact .started e hbegun
  cases hjob : call.call.job with
  | none => exact ⟨_, _, hrefused missingJob, rfl⟩
  | some job =>
    simp only
    cases hanswer : answer call.call world.stored job text turnMetadata with
    | error e => exact ⟨_, _, hrefused e, rfl⟩
    | ok outcome =>
      obtain ⟨session', step, _, rfl, _⟩ := answer_commits_always hanswer
      rw [commitOutcome_commit]
      cases call.answerPersists with
      | false => exact ⟨_, _, hrefused changedConcurrently, rfl⟩
      | true => exact ⟨_, _, .answered hloaded hjob hanswer, rfl⟩

variable (backend call) in
theorem answerInterview_answered (text : String) (turnMetadata : Dict Json) (world : VoiceWorld) :
    ∃ result stored', Answered backend call text turnMetadata world.stored result stored' ∧
      answerInterview backend call text turnMetadata world =
        interviewed world.voice result stored' := by
  unfold answerInterview
  rw [bind_ok (session_apply world)]
  by_cases hcreated : world.stored.status = .created
  · rw [if_pos hcreated]
    rcases startInterview_result backend call world with
      ⟨e, he⟩ | ⟨step, hstep⟩ | ⟨begun, step, hbegun, hstep⟩
    · exact ⟨.error e, world.stored, .refused e, bind_error he⟩
    · obtain ⟨result, stored', hanswered, heq⟩ :=
        answerLoaded_answered text turnMetadata world (.inl rfl)
      refine ⟨result, stored', hanswered, ?_⟩
      rw [bind_ok hstep]
      exact heq
    · obtain ⟨result, stored', hanswered, heq⟩ := answerLoaded_answered text turnMetadata
        { world with stored := backend.stored begun } (.inr ⟨begun, hbegun, rfl⟩)
      refine ⟨result, stored', hanswered, ?_⟩
      rw [bind_ok hstep]
      exact heq
  · rw [if_neg hcreated]
    obtain ⟨result, stored', hanswered, heq⟩ :=
      answerLoaded_answered text turnMetadata world (.inl rfl)
    exact ⟨result, stored', hanswered, heq⟩

/-- The voice state once the interview has answered with `step`. -/
def responding (call : VoiceCall) (voice : VoiceSessionState) (step : SessionStep) :
    VoiceSessionState :=
  { voice with
    lastFinalToResponseMs := some (call.responseReadyMs - call.responseStartedMs)
    responseReadyAtMs := some call.responseReadyMs
    activeTtsTurnId := step.interviewerTurn.map Turn.id }

variable (backend call) in
theorem respond_turn {step : SessionStep} {turn : Turn} (hs : Sealed world.stored.events)
    (ht : step.interviewerTurn = some turn) :
    ∃ events payload, Grows world.stored.events events
        [entry call .voiceResponseReady (some turn) payload] ∧
      respond backend call step world = if call.responsePersists
        then .ok ⟨responding call world.voice step, step.interviewerTurn, step.toolInvocation,
            step.status = .completed⟩
          ⟨responding call world.voice step, backend.stored { world.stored with events := events }⟩
        else .error voiceChangedConcurrently { world with voice := responding call world.voice step } := by
  obtain ⟨final, hlog, hgrows⟩ := log_sealed call hs .voiceResponseReady (some turn) [
    ("generation", .nat world.voice.generation),
    ("final_to_response_ms", optionalNat (some (call.responseReadyMs - call.responseStartedMs))),
    ("interviewer_turn_id", .ofOption (some turn.id))]
  refine ⟨final, _, hgrows, ?_⟩
  have hopen : ¬(step.status = .completed ∧ (some turn : Option Turn) = none) := by simp
  unfold respond
  simp only [bind_apply, session_apply, voice_apply, setVoice_apply, ht, Option.map_some, hlog,
    persistVoice_apply, if_neg hopen, responding]
  cases call.responsePersists with
  | true => rfl
  | false => rfl

theorem stored_seals {session : InterviewSession} (hs : Sealed session.events) :
    Sealed (backend.stored session).events := by
  cases backend with
  | memory => exact hs
  | json => exact hs

theorem Answered.seals {text : String} {metadata : Dict Json} {stored stored' : InterviewSession}
    {result : Except PyError SessionStep}
    (h : Answered backend call text metadata stored result stored') (hs : Sealed stored.events) :
    Sealed stored'.events := by
  have hcommits : ∀ {call : Call} {operation : Operation} {session session' : InterviewSession},
      mutate call operation session = .ok (some session') → Sealed session.events →
      Sealed (backend.stored session').events := by
    intro call operation session session' hm hsealed
    obtain ⟨job, _, heffects⟩ := mutate_ok hm
    exact stored_seals (heffects.seals hsealed)
  cases h with
  | refused => exact hs
  | started _ hbegun => exact hcommits hbegun hs
  | @answered loaded session' job step hloaded hjob ha =>
    have hsealed : Sealed loaded.events := by
      rcases hloaded with rfl | ⟨begun, hbegun, rfl⟩
      · exact hs
      · exact hcommits hbegun hs
    have hanswered : mutate call.call (.answer text metadata) loaded = .ok (some session') := by
      unfold mutate
      rw [hjob]
      show (answer call.call loaded job text metadata).map Outcome.written = _
      rw [ha]
      rfl
    exact hcommits hanswered hsealed

theorem Answered.turn {text : String} {metadata : Dict Json} {stored stored' : InterviewSession}
    {step : SessionStep} (h : Answered backend call text metadata stored (.ok step) stored') :
    ∃ turn, step.interviewerTurn = some turn := by
  cases h with
  | answered hloaded hjob ha =>
    obtain ⟨_, _, turn, heq, ht⟩ := answer_commits_always ha
    cases heq
    exact ⟨turn, ht⟩

/-- How `transcript_final` gets to the answer of the interview, or does not. -/
inductive Takes (backend : Backend) (call : VoiceCall) (event : TranscriptEvent)
    (world : VoiceWorld) : EStateM.Result PyError VoiceWorld SessionStep → Prop where
  | ended (e : PyError) (h : Ended world.stored) : Takes backend call event world (.error e (shut world))
  | refused (e : PyError) (ha : ¬Ended world.stored) (hp : world.voice.phase ≠ .listening) :
    Takes backend call event world (.error e world)
  | unreadable {raised : Raised} (e : PyError) (ha : ¬Ended world.stored)
    (he : call.languageMetadata event (if given event.locale then event.locale.getD ""
      else world.stored.locale) = .error raised) :
    Takes backend call event world
      (.error e { world with voice := timed world.voice call.nowMs })
  | unwritten (ha : ¬Ended world.stored) (hp : call.persists = false) :
    Takes backend call event world
      (.error voiceChangedConcurrently { world with voice := timed world.voice call.nowMs })
  | answered {metadata payload : Dict Json} {events : List InterviewEvent}
    {result : Except PyError SessionStep} {stored : InterviewSession}
    (ha : ¬Ended world.stored) (hphase : world.voice.phase = .listening)
    (hp : call.persists = true) (hpayload : payload.lookup "text" = some (.str event.text))
    (hgrows : Grows world.stored.events events [entry call .voiceTranscriptFinal none payload])
    (hanswered : Answered backend call event.text metadata
      (backend.stored { world.stored with events := events }) result stored) :
    Takes backend call event world
      (interviewed { timed world.voice call.nowMs with phase := .processing } result stored)

variable (backend call) in
theorem takeFinal_takes (event : TranscriptEvent) (hs : Sealed world.stored.events) :
    Takes backend call event world (takeFinal backend call event world) := by
  unfold takeFinal
  rw [bind_ok (session_apply world)]
  by_cases hended : Ended world.stored
  · obtain ⟨e, he⟩ := ensureInputAllowed_ended hended world
    rw [bind_error he]
    exact .ended e hended
  rw [ensureInputAllowed_active hended, bind_ok (pure_apply _ _), bind_ok (voice_apply world)]
  by_cases hp : world.voice.phase = .listening
  swap
  · rw [if_pos hp]
    exact .refused _ hended hp
  rw [if_neg (not_not.mpr hp), bind_ok (setVoice_apply _ _)]
  cases hmetadata : call.languageMetadata event
      (if given event.locale then event.locale.getD "" else world.stored.locale) with
  | error raised => exact .unreadable _ hended hmetadata
  | ok metadata =>
    obtain ⟨events, hlog, hgrows⟩ := log_sealed call hs .voiceTranscriptFinal none [
      ("text", .str event.text),
      ("confidence", confidenceJson event),
      ("generation", .nat (timed world.voice call.nowMs).generation),
      ("speech_to_final_ms", optionalNat (timed world.voice call.nowMs).lastSpeechToFinalMs),
      ("language_metadata", .obj metadata)]
    rw [bind_ok (show lift (unprocessable (.ok metadata)) _ = .ok metadata _ from rfl),
      bind_ok (voice_apply _), bind_ok (voice_apply _), bind_ok (hlog _)]
    cases hpersists : call.persists with
    | false => exact .unwritten hended hpersists
    | true =>
      rw [bind_ok (show persistVoice backend true _ _ = .ok () _ from rfl),
        bind_ok (setVoice_apply _ _)]
      obtain ⟨result, stored', hanswered, heq⟩ := answerInterview_answered backend call
        event.text metadata
        ⟨{ timed world.voice call.nowMs with phase := .processing },
          backend.stored { world.stored with events := events }⟩
      rw [heq]
      exact .answered hended hp hpersists rfl hgrows hanswered

/-- How `transcript_final` ends. -/
inductive Finals (backend : Backend) (call : VoiceCall) (event : TranscriptEvent)
    (world : VoiceWorld) : EStateM.Result PyError VoiceWorld VoiceTurnResult → Prop where
  | failed {e : PyError} {after : VoiceWorld}
    (h : takeFinal backend call event world = .error e after) :
    Finals backend call event world (.error e after)
  | answered {step : SessionStep} {turn : Turn} {mid : VoiceWorld} {events : List InterviewEvent}
    {payload : Dict Json} {result : VoiceTurnResult}
    (h : takeFinal backend call event world = .ok step mid)
    (ht : step.interviewerTurn = some turn)
    (hready : Grows mid.stored.events events [entry call .voiceResponseReady (some turn) payload])
    (hr : result.state = responding call mid.voice step) :
    Finals backend call event world
      (if call.responsePersists
        then .ok result ⟨result.state, backend.stored { mid.stored with events := events }⟩
        else .error voiceChangedConcurrently ⟨result.state, mid.stored⟩)

theorem Takes.seals {event : TranscriptEvent}
    {result : EStateM.Result PyError VoiceWorld SessionStep}
    (h : Takes backend call event world result) (hs : Sealed world.stored.events) :
    Sealed (landed result).stored.events := by
  cases h with
  | ended => exact hs
  | refused => exact hs
  | unreadable => exact hs
  | unwritten => exact hs
  | @answered metadata payload events result stored ha hphase hp hpayload hgrows hanswered =>
    have hsealed := hanswered.seals (stored_seals (hgrows.seals hs))
    cases result with
    | ok step => exact hsealed
    | error e => exact hsealed

theorem Takes.answeredBy {event : TranscriptEvent} {step : SessionStep} {mid : VoiceWorld}
    {result : EStateM.Result PyError VoiceWorld SessionStep}
    (h : Takes backend call event world result) (hresult : result = .ok step mid) :
    ¬Ended world.stored ∧ world.voice.phase = .listening ∧ call.persists = true ∧
    mid.voice = { timed world.voice call.nowMs with phase := .processing } ∧
    ∃ metadata payload events, payload.lookup "text" = some (.str event.text) ∧
      Grows world.stored.events events [entry call .voiceTranscriptFinal none payload] ∧
      Answered backend call event.text metadata
        (backend.stored { world.stored with events := events }) (.ok step) mid.stored := by
  cases h with
  | ended => cases hresult
  | refused => cases hresult
  | unreadable => cases hresult
  | unwritten => cases hresult
  | @answered metadata payload events answer stored ha hphase hp hpayload hgrows hanswered =>
    cases answer with
    | error e => cases hresult
    | ok given =>
      cases hresult
      exact ⟨ha, hphase, hp, rfl, metadata, payload, events, hpayload, hgrows, hanswered⟩

theorem transcriptFinal_ended (event : TranscriptEvent) (h : Ended world.stored) :
    ∃ e, transcriptFinal backend call event world = .error e (shut world) := by
  obtain ⟨e, he⟩ := ensureInputAllowed_ended h world
  refine ⟨e, ?_⟩
  unfold transcriptFinal takeFinal
  refine bind_error ?_
  rw [bind_ok (session_apply world)]
  exact bind_error he

variable (backend call) in
theorem transcriptFinal_finals (event : TranscriptEvent) (hs : Sealed world.stored.events) :
    Finals backend call event world (transcriptFinal backend call event world) := by
  unfold transcriptFinal
  cases htakes : takeFinal backend call event world with
  | error e after =>
    rw [bind_error htakes]
    exact .failed htakes
  | ok step mid =>
    obtain ⟨_, _, _, _, metadata, payload, events, _, hgrows, hanswered⟩ :=
      (takeFinal_takes _ _ event hs).answeredBy htakes
    obtain ⟨turn, hturn⟩ := hanswered.turn
    obtain ⟨final, ready, hready, hrespond⟩ := respond_turn backend call
      (hanswered.seals (stored_seals (hgrows.seals hs))) hturn
    rw [bind_ok htakes, hrespond]
    exact .answered htakes hturn hready rfl

end

end RealtimeVoiceCoordinator

end NoraInterviewer
