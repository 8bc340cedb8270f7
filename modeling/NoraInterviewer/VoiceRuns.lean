import NoraInterviewer.VoiceSteps

namespace NoraInterviewer

namespace RealtimeVoiceCoordinator

open Voicing

/-- A call of the coordinator, or one of the interview beside it. -/
inductive VoiceStep where
  | voice (call : VoiceCall) (operation : VoiceOperation)
  | service (call : Call) (operation : Operation)

section

variable [CanonicalDigest]

def VoiceStep.result (backend : Backend) (world : VoiceWorld) :
    VoiceStep → EStateM.Result PyError VoiceWorld Unit
  | .voice call operation => (perform backend call operation >>= fun _ => pure ()) world
  | .service call operation =>
    if operation.ready world.stored then
      match mutate call operation world.stored with
      | .ok (some session') => .ok () { world with stored := backend.stored session' }
      | .ok none => .ok () world
      | .error e => .error e world
    else .ok () world

def VoiceStep.after (backend : Backend) (world : VoiceWorld) (step : VoiceStep) : VoiceWorld :=
  landed (step.result backend world)

def VoiceStep.taken (backend : Backend) (world : VoiceWorld) (step : VoiceStep) : Bool :=
  accepted (step.result backend world)

/-- The worlds of a session's voice: none has spoken at first. -/
inductive Voiced (backend : Backend) : VoiceWorld → Prop where
  | created {call : Call} {request : CreateSession} {organizationId : Option String}
    {session : InterviewSession} (h : createSession call request organizationId = .ok session) :
    Voiced backend { stored := backend.stored session }
  | stepped {world : VoiceWorld} (h : Voiced backend world) (step : VoiceStep) :
    Voiced backend (step.after backend world)

variable {backend : Backend} {world : VoiceWorld} {call : VoiceCall}

variable (backend world call) in
theorem VoiceStep.voice_after (operation : VoiceOperation) :
    (VoiceStep.voice call operation).after backend world =
        landed (perform backend call operation world) ∧
      (VoiceStep.voice call operation).taken backend world =
        accepted (perform backend call operation world) :=
  reply_same _ _ _

/-- What a call that writes leaves. -/
theorem Wrote.leaves {α : Type} {persists : Bool} {voice : VoiceSessionState}
    {entries : List LogEntry} {reply : α} {result : EStateM.Result PyError VoiceWorld α}
    (h : Wrote backend persists world voice entries reply result) :
    (landed result).voice = voice ∧ accepted result = persists ∧
      ∃ events, Grows world.stored.events events entries ∧ (landed result).stored =
        if persists then backend.stored { world.stored with events := events } else world.stored := by
  obtain ⟨events, hgrows, rfl⟩ := h
  cases persists with
  | true => exact ⟨rfl, rfl, events, hgrows, rfl⟩
  | false => exact ⟨rfl, rfl, events, hgrows, rfl⟩

theorem Wrote.seals {α : Type} {persists : Bool} {voice : VoiceSessionState}
    {entries : List LogEntry} {reply : α} {result : EStateM.Result PyError VoiceWorld α}
    (h : Wrote backend persists world voice entries reply result)
    (hs : Sealed world.stored.events) : Sealed (landed result).stored.events := by
  obtain ⟨_, _, events, hgrows, hstored⟩ := h.leaves
  rw [hstored]
  split
  next => exact stored_seals (hgrows.seals hs)
  next => exact hs

/-- The guards at which an operation changes nothing. -/
inductive Refuses (world : VoiceWorld) : VoiceOperation → Prop where
  | heard {event : TranscriptEvent} (ha : ¬Ended world.stored)
    (hp : world.voice.phase ≠ .listening) : Refuses world (.transcriptPartial event)
  | unknown {turnId : String} (h : world.stored.status ≠ .cancelled)
    (hr : turnOf world.stored turnId = none ∨
      world.voice.activeTtsTurnId ≠ none ∧ world.voice.activeTtsTurnId ≠ some turnId) :
    Refuses world (.ttsStarted turnId)
  | completed {turnId : String} (h : world.voice.activeTtsTurnId ≠ some turnId) :
    Refuses world (.ttsCompleted turnId)
  | cancelled {turnId reason : String} (h : world.voice.activeTtsTurnId ≠ some turnId) :
    Refuses world (.ttsCancelled turnId reason)

/-- The voice state and the log entries of an operation that writes once. -/
inductive Writes (call : VoiceCall) (world : VoiceWorld) :
    VoiceOperation → VoiceSessionState → List LogEntry → Prop where
  | speech (ha : ¬Ended world.stored) :
    Writes call world .speechStarted (heard world.voice call.nowMs) (speechEntries call world.voice)
  | heard {event : TranscriptEvent} (payload : Dict Json) (ha : ¬Ended world.stored)
    (hp : world.voice.phase = .listening) :
    Writes call world (.transcriptPartial event) world.voice
      [entry call .voiceTranscriptPartial none payload]
  | plays {turnId : String} {turn : Turn} (payload : Dict Json)
    (h : world.stored.status ≠ .cancelled) (hturn : turnOf world.stored turnId = some turn)
    (ha : world.voice.activeTtsTurnId = none ∨ world.voice.activeTtsTurnId = some turnId) :
    Writes call world (.ttsStarted turnId) (playing world.voice call.nowMs turnId)
      [entry call .voiceTtsStarted (some turn) payload]
  | ends {turnId : String} (payload : Dict Json)
    (h : world.voice.activeTtsTurnId = some turnId) :
    Writes call world (.ttsCompleted turnId) (played world.voice world.stored.status)
      [entry call .voiceTtsCompleted (turnOf world.stored turnId) payload]
  | silences {turnId reason : String} (payload : Dict Json)
    (h : world.voice.activeTtsTurnId = some turnId) :
    Writes call world (.ttsCancelled turnId reason) (silenced world.voice)
      [entry call .voiceTtsCancelled (turnOf world.stored turnId) payload]
  | logs {operation : VoiceOperation} {type : EventType} (payload : Dict Json)
    (h : operation.logs = some type) :
    Writes call world operation world.voice [entry call type none payload]

/-- Everything that a call of the coordinator can do to a session whose log is sealed: whether it
returns, and the world that it leaves. -/
inductive Does (backend : Backend) (call : VoiceCall) (world : VoiceWorld) :
    VoiceOperation → Bool → VoiceWorld → Prop where
  | refused {operation : VoiceOperation} (h : Refuses world operation) :
    Does backend call world operation false world
  | ended {operation : VoiceOperation} (hi : operation.isInput = true) (h : Ended world.stored) :
    Does backend call world operation false (shut world)
  | stopped {turnId : String} (h : world.stored.status = .cancelled) :
    Does backend call world (.ttsStarted turnId) false (shut world)
  | wrote {operation : VoiceOperation} {voice : VoiceSessionState} {entries : List LogEntry}
    {events : List InterviewEvent} (hw : Writes call world operation voice entries)
    (hgrows : Grows world.stored.events events entries) :
    Does backend call world operation call.persists ⟨voice, if call.persists
      then backend.stored { world.stored with events := events } else world.stored⟩
  | final {event : TranscriptEvent} {result : EStateM.Result PyError VoiceWorld VoiceTurnResult}
    (ha : ¬Ended world.stored) (h : Finals backend call event world result) :
    Does backend call world (.transcriptFinal event) (accepted result) (landed result)
  | closed {reason : String} (h : world.voice.activeTtsTurnId = none) :
    Does backend call world (.closeSession reason) true { world with voice := hungUp world.voice }
  | cut {reason turnId : String} {events : List InterviewEvent} (payload : Dict Json)
    (h : world.voice.activeTtsTurnId = some turnId)
    (hgrows : Grows world.stored.events events
      [entry call .voiceTtsCancelled (turnOf world.stored turnId) payload])
    (hp : call.persists = true) :
    Does backend call world (.closeSession reason) true
      ⟨hungUp world.voice, backend.stored { world.stored with events := events }⟩
  | uncut {reason turnId : String} (h : world.voice.activeTtsTurnId = some turnId)
    (hp : call.persists = false) :
    Does backend call world (.closeSession reason) false
      { world with voice := { world.voice with generation := world.voice.generation + 1 } }

theorem Wrote.does {α : Type} {operation : VoiceOperation} {voice : VoiceSessionState}
    {entries : List LogEntry} {reply : α} {result : EStateM.Result PyError VoiceWorld α}
    (h : Wrote backend call.persists world voice entries reply result)
    (hw : Writes call world operation voice entries) :
    Does backend call world operation (accepted result) (landed result) := by
  obtain ⟨events, hgrows, rfl⟩ := h
  have hdoes : Does backend call world operation call.persists _ := .wrote hw hgrows
  cases hp : call.persists with
  | true =>
    rw [hp] at hdoes
    exact hdoes
  | false =>
    rw [hp] at hdoes
    exact hdoes

variable (backend call) in
theorem perform_does (operation : VoiceOperation) (hs : Sealed world.stored.events) :
    Does backend call world operation (accepted (perform backend call operation world))
      (landed (perform backend call operation world)) := by
  have hreply : ∀ {α β : Type} {m : Voicing α} {f : α → β},
      Does backend call world operation (accepted (m world)) (landed (m world)) →
      Does backend call world operation (accepted ((m >>= fun a => pure (f a)) world))
        (landed ((m >>= fun a => pure (f a)) world)) := by
    intro α β m f h
    obtain ⟨hland, haccept⟩ := reply_same m f world
    rw [hland, haccept]
    exact h
  have herror : ∀ {α : Type} {result : EStateM.Result PyError VoiceWorld α} {after : VoiceWorld},
      (∃ e, result = .error e after) → Does backend call world operation false after →
      Does backend call world operation (accepted result) (landed result) := by
    rintro α result after ⟨e, rfl⟩ h
    exact h
  cases operation with
  | speechStarted =>
    refine hreply ?_
    by_cases hended : Ended world.stored
    · exact herror (speechStarted_ended hended) (.ended rfl hended)
    · exact (speechStarted_active hs hended).does (.speech hended)
  | transcriptPartial event =>
    refine hreply ?_
    by_cases hended : Ended world.stored
    · exact herror (transcriptPartial_ended event hended) (.ended rfl hended)
    · by_cases hp : world.voice.phase = .listening
      · obtain ⟨payload, hwrote⟩ := transcriptPartial_heard backend call
          event hs hended hp
        exact hwrote.does (.heard payload hended hp)
      · exact herror (transcriptPartial_refused event hended hp) (.refused (.heard hended hp))
  | transcriptFinal event =>
    refine hreply ?_
    have hfinals := transcriptFinal_finals backend call event hs
    by_cases hended : Ended world.stored
    · exact herror (transcriptFinal_ended event hended) (.ended rfl hended)
    · exact .final hended hfinals
  | ttsStarted turnId =>
    refine hreply ?_
    by_cases hcancelled : world.stored.status = .cancelled
    · exact herror ⟨_, ttsStarted_cancelled turnId hcancelled⟩ (.stopped hcancelled)
    · by_cases hr : turnOf world.stored turnId = none ∨
          world.voice.activeTtsTurnId ≠ none ∧ world.voice.activeTtsTurnId ≠ some turnId
      · exact herror (ttsStarted_refused hcancelled hr) (.refused (.unknown hcancelled hr))
      · obtain ⟨hknown, hactive⟩ := not_or.mp hr
        obtain ⟨turn, hturn⟩ := Option.ne_none_iff_exists'.mp hknown
        have ha : world.voice.activeTtsTurnId = none ∨
            world.voice.activeTtsTurnId = some turnId := by
          by_contra hneither
          exact hactive (not_or.mp hneither)
        obtain ⟨payload, hwrote⟩ := ttsStarted_plays backend call hs
          hcancelled hturn ha
        exact hwrote.does (.plays payload hcancelled hturn ha)
  | ttsCompleted turnId =>
    refine hreply ?_
    by_cases h : world.voice.activeTtsTurnId = some turnId
    · obtain ⟨payload, hwrote⟩ := ttsCompleted_ends backend call hs h
      exact hwrote.does (.ends payload h)
    · exact herror (ttsCompleted_refused h) (.refused (.completed h))
  | ttsCancelled turnId reason =>
    refine hreply ?_
    by_cases h : world.voice.activeTtsTurnId = some turnId
    · obtain ⟨payload, hwrote⟩ := ttsCancelled_ends backend call reason hs h
      exact hwrote.does (.silences payload h)
    · exact herror (ttsCancelled_refused h) (.refused (.cancelled h))
  | providerFailed =>
    refine hreply ?_
    exact (logOnly_wrote hs _ _).does (.logs _ rfl)
  | transportSelected =>
    refine hreply ?_
    exact (logOnly_wrote hs _ _).does (.logs _ rfl)
  | transportFallback =>
    refine hreply ?_
    exact (logOnly_wrote hs _ _).does (.logs _ rfl)
  | vadEndpoint =>
    refine hreply ?_
    exact (logOnly_wrote hs _ _).does (.logs _ rfl)
  | closeSession reason =>
    refine hreply ?_
    cases h : world.voice.activeTtsTurnId with
    | none =>
      rw [closeSession_silent h]
      exact .closed h
    | some turnId =>
      obtain ⟨events, payload, hgrows, heq⟩ := closeSession_plays backend call reason hs h
      rw [heq]
      cases hp : call.persists with
      | true => exact .cut payload h hgrows hp
      | false => exact .uncut h hp

theorem Does.seals {operation : VoiceOperation} {taken : Bool} {after : VoiceWorld}
    (h : Does backend call world operation taken after) (hs : Sealed world.stored.events) :
    Sealed after.stored.events := by
  cases h with
  | refused => exact hs
  | ended => exact hs
  | stopped => exact hs
  | wrote hw hgrows =>
    show Sealed (if call.persists then _ else world.stored).events
    split
    next => exact stored_seals (hgrows.seals hs)
    next => exact hs
  | @final event result ha h =>
    cases h with
    | @failed e after h =>
      have htakes := takeFinal_takes backend call event hs
      rw [h] at htakes
      exact htakes.seals hs
    | @answered step turn mid events payload result h ht hready hr =>
      have htakes := takeFinal_takes backend call event hs
      rw [h] at htakes
      have hmid : Sealed mid.stored.events := htakes.seals hs
      split
      next => exact stored_seals (hready.seals hmid)
      next => exact hmid
  | closed => exact hs
  | cut _ _ hgrows => exact stored_seals (hgrows.seals hs)
  | uncut => exact hs

theorem VoiceStep.seals (step : VoiceStep) (hs : Sealed world.stored.events) :
    Sealed (step.after backend world).stored.events := by
  cases step with
  | voice call operation =>
    rw [(VoiceStep.voice_after _ _ _ operation).1]
    exact (perform_does _ _ operation hs).seals hs
  | service call operation =>
    unfold VoiceStep.after VoiceStep.result
    simp only
    split
    next =>
      split
      next session' hm =>
        obtain ⟨job, _, heffects⟩ := mutate_ok hm
        exact stored_seals (heffects.seals hs)
      next => exact hs
      next => exact hs
    next => exact hs

variable (backend) in
theorem VoiceStep.service_voice (call : Call) (operation : Operation) (world : VoiceWorld) :
    ((VoiceStep.service call operation).after backend world).voice = world.voice := by
  unfold VoiceStep.after VoiceStep.result
  simp only
  split
  next =>
    split
    next => rfl
    next => rfl
    next => rfl
  next => rfl

theorem Voiced.sealed (h : Voiced backend world) : Sealed world.stored.events := by
  induction h with
  | created h => exact stored_seals ((createSession_meets _ _ _).of_ok h).sealed
  | stepped h step ih => exact step.seals ih

end

section Runs

attribute [local instance] checksumDigest

/-- A fresh session on `job`, and the world after the steps. -/
def voicedRun (job : JobSpec) (steps : List VoiceStep) : Option VoiceWorld :=
  match createSession (jobCall job (steadyBrain askDecision)) plainConsent none with
  | .ok session => some (steps.foldl (VoiceStep.after .memory)
      { stored := Backend.stored .memory session })
  | .error _ => none

/-- A check of the world after a run holds of some reachable world. -/
theorem voicedRun_last {job : JobSpec} {steps : List VoiceStep} {check : VoiceWorld → Bool}
    (h : (voicedRun job steps).any check = true) :
    ∃ world, Voiced .memory world ∧ check world = true := by
  unfold voicedRun at h
  split at h
  next session hcreated =>
    refine ⟨_, ?_, h⟩
    clear h
    have hstart : Voiced .memory { stored := Backend.stored .memory session } :=
      .created hcreated
    generalize ({ stored := Backend.stored .memory session } : VoiceWorld) = world at hstart
    induction steps generalizing world with
    | nil => exact hstart
    | cons step rest ih => exact ih _ (.stepped hstart step)
  next => cases h

/-- A call of the coordinator on an interview that goes on asking. -/
def plainVoice : VoiceCall where
  toAmbient := plainAmbient
  languageMetadata _ _ := .ok []
  startCall := plainCall askDecision
  call := plainCall askDecision

/-- The first question is asked, and its audio plays. -/
def askedAloud : List VoiceStep :=
  [.service (plainCall askDecision) .start, .voice plainVoice (.ttsStarted "turn-0")]

end Runs

end RealtimeVoiceCoordinator

end NoraInterviewer
