import NoraInterviewer.VoiceSteps

namespace NoraInterviewer

namespace Voicing

open RealtimeVoiceCoordinator

/-- The voice does not go back to an earlier generation. -/
def Climbs {α : Type} (m : Voicing α) : Prop :=
  ∀ world, world.voice.generation ≤ (landed (m world)).voice.generation

namespace Climbs

variable {α β : Type} {m : Voicing α}

theorem bind {f : α → Voicing β} (hm : Climbs m) (hf : ∀ a, Climbs (f a)) :
    Climbs (m >>= f) := by
  intro world
  have hfirst := hm world
  rw [bind_apply]
  cases hresult : m world with
  | ok a after =>
    rw [hresult] at hfirst
    exact hfirst.trans (hf a after)
  | error e after =>
    rw [hresult] at hfirst
    exact hfirst

theorem pure (a : α) : Climbs (Pure.pure a) := fun _ => le_refl _

theorem raise (e : PyError) : Climbs (Voicing.raise e : Voicing α) := fun _ => le_refl _

theorem session : Climbs Voicing.session := fun _ => le_refl _

theorem voice : Climbs Voicing.voice := fun _ => le_refl _

theorem setVoice {f : VoiceSessionState → VoiceSessionState}
    (hf : ∀ voice, voice.generation ≤ (f voice).generation) : Climbs (Voicing.setVoice f) :=
  fun world => hf world.voice

theorem lift (result : Except PyError α) : Climbs (Voicing.lift result) := by
  cases result with
  | ok a => exact fun _ => le_refl _
  | error e => exact fun _ => le_refl _

theorem put (backend : Backend) (e : PyError) (persists : Bool) (session : InterviewSession) :
    Climbs (Voicing.put backend e persists session) := by
  intro world
  cases persists with
  | true => exact le_refl _
  | false => exact le_refl _

/-- What a call had reached when it went on is not lost. -/
theorem after {f : α → Voicing β} {world : VoiceWorld} {generation : Nat}
    (hm : generation ≤ (landed (m world)).voice.generation) (hf : ∀ a, Climbs (f a)) :
    generation ≤ (landed ((m >>= f) world)).voice.generation := by
  rw [bind_apply]
  cases hresult : m world with
  | ok a after =>
    rw [hresult] at hm
    exact hm.trans (hf a after)
  | error e after =>
    rw [hresult] at hm
    exact hm

theorem ite {c : Prop} [Decidable c] {other : Voicing α} (hm : Climbs m) (ho : Climbs other) :
    Climbs (if c then m else other) := by
  split
  next => exact hm
  next => exact ho

end Climbs

end Voicing

namespace RealtimeVoiceCoordinator

open Voicing

section

variable [CanonicalDigest] (backend : Backend) (call : VoiceCall)

omit [CanonicalDigest] in
theorem ensureInputAllowed_climbs (session : InterviewSession) :
    Climbs (ensureInputAllowed session) :=
  .ite (.bind (.setVoice fun _ => le_refl _) fun _ => .raise _)
    (.ite (.bind (.setVoice fun _ => le_refl _) fun _ => .raise _) (.pure _))

theorem log_climbs (session : InterviewSession) (type : EventType) (turn : Option Turn)
    (payload : Dict Json) : Climbs (log call session type turn payload) :=
  .lift _

theorem bargeIn_climbs (session : InterviewSession) : Climbs (bargeIn call session) :=
  .bind .voice fun _ => .bind (.setVoice fun _ => Nat.le_succ _) fun _ => .bind .voice fun _ =>
    .bind (log_climbs _ _ _ _ _) fun _ => .bind .voice fun _ => .bind (log_climbs _ _ _ _ _) fun _ =>
      .bind (.setVoice fun _ => le_refl _) fun _ => .pure _

/-- A barge-in opens the next generation, also when it raises afterwards. -/
theorem bargeIn_raises (session : InterviewSession) (world : VoiceWorld) :
    world.voice.generation + 1 ≤ (landed (bargeIn call session world)).voice.generation := by
  have hrest : Climbs (do
      let session ← log call session .voiceBargeIn none
        (bargeInPayload (← voice) world.voice.activeTtsTurnId)
      let session ← log call session .voiceTtsCancelled none [
        ("turn_id", .ofOption world.voice.activeTtsTurnId),
        ("reason", .str "barge_in"),
        ("generation", .nat (← voice).generation)]
      setVoice fun voice => { voice with activeTtsTurnId := none }
      pure session) :=
    .bind .voice fun _ => .bind (log_climbs _ _ _ _ _) fun _ => .bind .voice fun _ =>
      .bind (log_climbs _ _ _ _ _) fun _ => .bind (.setVoice fun _ => le_refl _) fun _ => .pure _
  exact hrest { world with voice := { world.voice with
    interruptionCount := world.voice.interruptionCount + 1
    generation := world.voice.generation + 1 } }

theorem speechStarted_raises (world : VoiceWorld) (ha : ¬Ended world.stored)
    (hspeaking : world.voice.phase = .speaking) :
    world.voice.generation + 1 ≤
      (landed (speechStarted backend call world)).voice.generation := by
  have hrest : ∀ session, Climbs (do
      setVoice fun voice => { voice with phase := .listening, speechStartedAtMs := some call.nowMs }
      let session ← log call session .voiceSpeechStarted none [
        ("generation", .nat (← voice).generation),
        ("started_at_ms", .nat call.nowMs)]
      persistVoice backend call.persists session
      voice) := fun _ =>
    .bind (.setVoice fun _ => le_refl _) fun _ => .bind .voice fun _ =>
      .bind (log_climbs _ _ _ _ _) fun _ => .bind (.put _ _ _ _) fun _ => .voice
  unfold speechStarted
  rw [bind_ok (session_apply world), ensureInputAllowed_active ha]
  simp only [pure_bind]
  rw [bind_ok (voice_apply world), if_pos hspeaking]
  exact Climbs.after (bargeIn_raises call world.stored world) hrest

theorem speechStarted_climbs : Climbs (speechStarted backend call) := by
  unfold speechStarted
  refine .bind .session fun _ => .bind (ensureInputAllowed_climbs _) fun _ => .bind .voice fun _ => ?_
  split
  next =>
    refine .bind (bargeIn_climbs _ _) fun _ => .bind (.setVoice fun _ => le_refl _) fun _ => ?_
    exact .bind .voice fun _ => .bind (log_climbs _ _ _ _ _) fun _ => .bind (.put _ _ _ _) fun _ =>
      .voice
  next =>
    refine .bind (.pure _) fun _ => .bind (.setVoice fun _ => le_refl _) fun _ => ?_
    exact .bind .voice fun _ => .bind (log_climbs _ _ _ _ _) fun _ => .bind (.put _ _ _ _) fun _ =>
      .voice

theorem transcriptPartial_climbs (event : TranscriptEvent) :
    Climbs (transcriptPartial backend call event) := by
  unfold transcriptPartial
  refine .bind .session fun _ => .bind (ensureInputAllowed_climbs _) fun _ => .bind .voice fun _ => ?_
  refine .ite (.bind .voice fun _ => .raise _) (.bind .voice fun _ => ?_)
  exact .bind (log_climbs _ _ _ _ _) fun _ => .bind (.put _ _ _ _) fun _ => .voice

omit [CanonicalDigest] in
theorem commitOutcome_climbs {α : Type} (persists : Bool) (outcome : Except PyError (Outcome α)) :
    Climbs (commitOutcome backend persists outcome) := by
  unfold commitOutcome
  split
  next => exact .raise _
  next => exact .pure _
  next => exact .bind (.put _ _ _ _) fun _ => .pure _

/-- `answer` on the session that it loads last. -/
def answerLoaded (text : String) (metadata : Dict Json) (session : InterviewSession) :
    Voicing SessionStep :=
  match call.call.job with
  | none => raise missingJob
  | some job =>
    commitOutcome backend call.answerPersists (answer call.call session job text metadata)

theorem answerInterview_climbs (text : String) (metadata : Dict Json) :
    Climbs (answerInterview backend call text metadata) := by
  have hstart : Climbs (startInterview backend call) := by
    refine .bind .session fun _ => ?_
    split
    next => exact .raise _
    next => exact commitOutcome_climbs _ _ _
  have hanswer : ∀ session, Climbs (answerLoaded backend call text metadata session) := by
    intro session
    unfold answerLoaded
    split
    next => exact .raise _
    next => exact commitOutcome_climbs _ _ _
  exact .bind .session fun _ => .ite (.bind hstart fun _ => .bind .session hanswer)
    (.bind .session hanswer)

omit [CanonicalDigest] in
theorem timed_climbs (nowMs : Nat) (voice : VoiceSessionState) :
    voice.generation ≤ (timed voice nowMs).generation := by
  unfold timed
  split
  next => exact le_refl _
  next => exact le_refl _

theorem transcriptFinal_climbs (event : TranscriptEvent) :
    Climbs (transcriptFinal backend call event) := by
  unfold transcriptFinal takeFinal
  refine .bind (.bind .session fun _ => .bind (ensureInputAllowed_climbs _) fun _ =>
    .bind .voice fun _ => .ite (.bind .voice fun _ => .raise _) ?_) fun step => ?_
  · refine .bind (.setVoice (timed_climbs call.nowMs)) fun _ => .bind (.lift _) fun _ => ?_
    refine .bind .voice fun _ => .bind .voice fun _ => .bind (log_climbs _ _ _ _ _) fun _ => ?_
    exact .bind (.put _ _ _ _) fun _ => .bind (.setVoice fun _ => le_refl _) fun _ =>
      answerInterview_climbs _ _ _ _
  · refine .bind (.setVoice fun _ => le_refl _) fun _ => .bind .session fun _ => ?_
    refine .bind .voice fun _ => .bind .voice fun _ => .bind (log_climbs _ _ _ _ _) fun _ => ?_
    refine .bind (.put _ _ _ _) fun _ => ?_
    exact .ite (.bind (.setVoice fun _ => le_refl _) fun _ => .bind .voice fun _ => .pure _)
      (.bind .voice fun _ => .pure _)

theorem ttsStarted_climbs (turnId : String) : Climbs (ttsStarted backend call turnId) := by
  unfold ttsStarted
  refine .bind .session fun _ => .ite (.bind (.setVoice fun _ => le_refl _) fun _ => .raise _) ?_
  split
  next => exact .raise _
  next =>
    refine .bind .voice fun _ => .bind .voice fun _ => .ite (.raise _) ?_
    refine .bind (.setVoice fun voice => ?_) fun _ => .bind (.setVoice fun _ => le_refl _) fun _ => ?_
    · split
      next => exact le_refl _
      next => exact le_refl _
    · exact .bind .voice fun _ => .bind .voice fun _ => .bind (log_climbs _ _ _ _ _) fun _ =>
        .bind (.put _ _ _ _) fun _ => .voice

theorem ttsCompleted_climbs (turnId : String) : Climbs (ttsCompleted backend call turnId) := by
  unfold ttsCompleted
  refine .bind .session fun _ => .bind .voice fun _ => .ite (.raise _) ?_
  exact .bind .voice fun _ => .bind (log_climbs _ _ _ _ _) fun _ =>
    .bind (.setVoice fun _ => le_refl _) fun _ => .bind (.put _ _ _ _) fun _ => .voice

theorem ttsCancelled_climbs (turnId reason : String) :
    Climbs (ttsCancelled backend call turnId reason) := by
  unfold ttsCancelled
  refine .bind .session fun _ => .bind .voice fun _ => .ite (.raise _) ?_
  exact .bind .voice fun _ => .bind (log_climbs _ _ _ _ _) fun _ =>
    .bind (.setVoice fun _ => le_refl _) fun _ => .bind (.put _ _ _ _) fun _ => .voice

theorem logOnly_climbs (type : EventType) (payload : VoiceSessionState → Dict Json) :
    Climbs (logOnly backend call type payload) :=
  .bind .session fun _ => .bind .voice fun _ => .bind (log_climbs _ _ _ _ _) fun _ => .put _ _ _ _

theorem closeSession_climbs (reason : String) : Climbs (closeSession backend call reason) := by
  unfold closeSession
  have hrest : Climbs (do
      setVoice fun voice => { voice with
        activeTtsTurnId := none
        responseReadyAtMs := none
        speechStartedAtMs := none
        phase := .closed }
      voice) := .bind (.setVoice fun _ => le_refl _) fun _ => .voice
  refine .bind .session fun _ => .bind (.setVoice fun _ => Nat.le_succ _) fun _ => ?_
  refine .bind .voice fun _ => ?_
  split
  next => exact hrest
  next =>
    refine .bind .voice fun _ => .bind (log_climbs _ _ _ _ _) fun _ => ?_
    exact .bind (.put _ _ _ _) fun _ => hrest

/-- No operation of the coordinator takes the voice back to an earlier generation. -/
theorem perform_climbs (operation : VoiceOperation) : Climbs (perform backend call operation) := by
  cases operation with
  | speechStarted => exact .bind (speechStarted_climbs _ _) fun _ => .pure _
  | transcriptPartial event => exact .bind (transcriptPartial_climbs _ _ _) fun _ => .pure _
  | transcriptFinal event => exact .bind (transcriptFinal_climbs _ _ _) fun _ => .pure _
  | ttsStarted turnId => exact .bind (ttsStarted_climbs _ _ _) fun _ => .pure _
  | ttsCompleted turnId => exact .bind (ttsCompleted_climbs _ _ _) fun _ => .pure _
  | ttsCancelled turnId reason => exact .bind (ttsCancelled_climbs _ _ _ _) fun _ => .pure _
  | providerFailed => exact .bind (logOnly_climbs _ _ _ _) fun _ => .pure _
  | transportSelected => exact .bind (logOnly_climbs _ _ _ _) fun _ => .pure _
  | transportFallback => exact .bind (logOnly_climbs _ _ _ _) fun _ => .pure _
  | vadEndpoint => exact .bind (logOnly_climbs _ _ _ _) fun _ => .pure _
  | closeSession reason => exact .bind (closeSession_climbs _ _ _) fun _ => .pure _

end

end RealtimeVoiceCoordinator

end NoraInterviewer
