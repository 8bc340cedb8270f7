import NoraInterviewer.VoiceAccounts
import NoraInterviewer.VoiceGenerations

namespace NoraInterviewer

namespace RealtimeVoiceCoordinator

open Voicing

section

variable [CanonicalDigest]

/-- A call that raises leaves the voice as it was, the generation does not go down, and after the
step the log has what the voice counts and answers to all final transcripts. -/
structure Agrees (backend : Backend) (world : VoiceWorld) (step : VoiceStep) : Prop where
  raises : step.taken backend world = false → (step.after backend world).voice = world.voice
  generation : world.voice.generation ≤ (step.after backend world).voice.generation
  accounts : Accounts (step.after backend world).voice (step.after backend world).stored

/-- The clock reads what the voice has recorded of this transcript before. -/
def Timed (voice : VoiceSessionState) (nowMs : Nat) : Prop :=
  ∀ started, voice.speechStartedAtMs = some started →
    voice.lastSpeechToFinalMs = some (nowMs - started)

/-- The world in which the interview is given the words of a final transcript. -/
def finalWritten (backend : Backend) (call : VoiceCall) (event : TranscriptEvent)
    (metadata : Dict Json) (world : VoiceWorld) : VoiceWorld :=
  match appendEvent call.toAmbient world.stored .voiceTranscriptFinal none [
      ("text", .str event.text),
      ("confidence", confidenceJson event),
      ("generation", .nat world.voice.generation),
      ("speech_to_final_ms", optionalNat (timed world.voice call.nowMs).lastSpeechToFinalMs),
      ("language_metadata", .obj metadata)] with
  | .ok session => ⟨{ timed world.voice call.nowMs with phase := .processing }, backend.stored session⟩
  | .error _ => world

/-- While the candidate is listened to: the interview takes the words and both writes go through,
or the words do not reach it and the clock stands still. -/
def HandsOn (backend : Backend) (call : VoiceCall) (event : TranscriptEvent)
    (world : VoiceWorld) : Prop :=
  match call.languageMetadata event
    (if given event.locale then event.locale.getD "" else world.stored.locale) with
  | .error _ => Timed world.voice call.nowMs
  | .ok metadata =>
    if call.persists = true then
      accepted (answerInterview backend call event.text metadata
        (finalWritten backend call event metadata world)) = true ∧ call.responsePersists = true
    else Timed world.voice call.nowMs

/-- No write fails that comes after a change in memory, no answer is refused, and no turn event
reaches an ended session whose voice is open; a repeated event may fail that brings nothing new. -/
def VoiceStep.Undisturbed (backend : Backend) (world : VoiceWorld) : VoiceStep → Prop
  | .voice call .speechStarted =>
    if Ended world.stored then world.voice.phase = .closed
    else call.persists = true ∨
      world.voice.phase = .listening ∧ world.voice.speechStartedAtMs = some call.nowMs
  | .voice _ (.transcriptPartial _) => Ended world.stored → world.voice.phase = .closed
  | .voice call (.transcriptFinal event) =>
    if Ended world.stored then world.voice.phase = .closed
    else world.voice.phase = .listening → HandsOn backend call event world
  | .voice call (.ttsStarted turnId) =>
    if world.stored.status = .cancelled then world.voice.phase = .closed
    else turnOf world.stored turnId ≠ none →
      world.voice.activeTtsTurnId = none ∨ world.voice.activeTtsTurnId = some turnId →
      call.persists = true ∨ world.voice.phase = .speaking ∧
        world.voice.activeTtsTurnId = some turnId ∧
        ∀ ready, world.voice.responseReadyAtMs = some ready →
          world.voice.lastResponseToTtsMs = some (call.nowMs - ready)
  | .voice call (.ttsCompleted turnId) =>
    world.voice.activeTtsTurnId = some turnId → call.persists = true
  | .voice call (.ttsCancelled turnId _) =>
    world.voice.activeTtsTurnId = some turnId → call.persists = true
  | .voice call (.closeSession _) => world.voice.activeTtsTurnId ≠ none → call.persists = true
  | _ => True

/-- The interview beside the voice corrects no turn. -/
def VoiceStep.Uncorrecting (world : VoiceWorld) : VoiceStep → Prop
  | .service _ operation => operation.target world.stored = none
  | _ => True

def AllAgree (backend : Backend) : VoiceWorld → List VoiceStep → Prop
  | _, [] => True
  | world, step :: rest =>
    Agrees backend world step ∧ AllAgree backend (step.after backend world) rest

def AllUndisturbed (backend : Backend) : VoiceWorld → List VoiceStep → Prop
  | _, [] => True
  | world, step :: rest =>
    step.Undisturbed backend world ∧ AllUndisturbed backend (step.after backend world) rest

def AllUncorrecting (backend : Backend) : VoiceWorld → List VoiceStep → Prop
  | _, [] => True
  | world, step :: rest =>
    step.Uncorrecting world ∧ AllUncorrecting backend (step.after backend world) rest

variable {backend : Backend} {world : VoiceWorld} {call : VoiceCall}

omit [CanonicalDigest] in
theorem timed_eq_iff (voice : VoiceSessionState) (nowMs : Nat) :
    timed voice nowMs = voice ↔ Timed voice nowMs := by
  unfold timed Timed
  split
  next started hstarted =>
    constructor
    · intro h other hother
      rw [hstarted] at hother
      cases hother
      rw [← h]
    · intro h
      rw [← h started hstarted]
  next hnone => exact iff_of_true rfl fun started hstarted => (by rw [hnone] at hstarted; cases hstarted)

omit [CanonicalDigest] in
theorem heard_eq_iff (voice : VoiceSessionState) (nowMs : Nat) :
    heard voice nowMs = voice ↔
      voice.phase = .listening ∧ voice.speechStartedAtMs = some nowMs := by
  unfold heard
  constructor
  · intro h
    exact ⟨(congrArg VoiceSessionState.phase h).symm,
      (congrArg VoiceSessionState.speechStartedAtMs h).symm⟩
  · rintro ⟨hphase, hstarted⟩
    rw [if_neg (by rw [hphase]; decide), ← hphase, ← hstarted]

omit [CanonicalDigest] in
theorem playing_eq_iff (voice : VoiceSessionState) (nowMs : Nat) (turnId : String) :
    playing voice nowMs turnId = voice ↔
      voice.phase = .speaking ∧ voice.activeTtsTurnId = some turnId ∧
        ∀ ready, voice.responseReadyAtMs = some ready →
          voice.lastResponseToTtsMs = some (nowMs - ready) := by
  unfold playing
  constructor
  · intro h
    refine ⟨(congrArg VoiceSessionState.phase h).symm,
      (congrArg VoiceSessionState.activeTtsTurnId h).symm, fun ready hready => ?_⟩
    have hlast := congrArg VoiceSessionState.lastResponseToTtsMs h
    rw [hready] at hlast
    exact hlast.symm
  · rintro ⟨hphase, hactive, hlast⟩
    split
    next ready hready => rw [← hlast ready hready, ← hactive, ← hphase]
    next => rw [← hactive, ← hphase]

variable (backend call) in
theorem takeFinal_refused (event : TranscriptEvent) (ha : ¬Ended world.stored)
    (hp : world.voice.phase ≠ .listening) :
    ∃ e, takeFinal backend call event world = .error e world := by
  unfold takeFinal
  rw [bind_ok (session_apply world), ensureInputAllowed_active ha]
  simp only [bind_apply, voice_apply, pure_apply, if_pos hp, raise_apply]
  exact ⟨_, rfl⟩

variable (backend) in
theorem takeFinal_unreadable (event : TranscriptEvent) {raised : Raised}
    (ha : ¬Ended world.stored) (hp : world.voice.phase = .listening)
    (hm : call.languageMetadata event
      (if given event.locale then event.locale.getD "" else world.stored.locale) = .error raised) :
    ∃ e, takeFinal backend call event world =
      .error e { world with voice := timed world.voice call.nowMs } := by
  unfold takeFinal
  rw [bind_ok (session_apply world), ensureInputAllowed_active ha, bind_ok (pure_apply _ _),
    bind_ok (voice_apply world), if_neg (not_not.mpr hp), bind_ok (setVoice_apply _ _), hm]
  exact ⟨_, rfl⟩

variable (backend) in
/-- A final transcript that is readable, up to its own write. -/
theorem takeFinal_answers (event : TranscriptEvent) {metadata : Dict Json}
    (hs : Sealed world.stored.events) (ha : ¬Ended world.stored)
    (hp : world.voice.phase = .listening)
    (hm : call.languageMetadata event
      (if given event.locale then event.locale.getD "" else world.stored.locale) = .ok metadata) :
    takeFinal backend call event world = if call.persists
      then answerInterview backend call event.text metadata
        (finalWritten backend call event metadata world)
      else .error voiceChangedConcurrently
        { world with voice := timed world.voice call.nowMs } := by
  have hgeneration : (timed world.voice call.nowMs).generation = world.voice.generation := by
    unfold timed
    split
    next => rfl
    next => rfl
  unfold takeFinal finalWritten
  rw [bind_ok (session_apply world), ensureInputAllowed_active ha, bind_ok (pure_apply _ _),
    bind_ok (voice_apply world), if_neg (not_not.mpr hp), bind_ok (setVoice_apply _ _), hm,
    bind_ok (show lift (unprocessable (.ok metadata)) _ = .ok metadata _ from rfl),
    bind_ok (voice_apply _), bind_ok (voice_apply _), hgeneration]
  obtain ⟨session', hok⟩ := appendEvent_of_linked call.toAmbient hs.linked .voiceTranscriptFinal
    none [
      ("text", .str event.text),
      ("confidence", confidenceJson event),
      ("generation", .nat world.voice.generation),
      ("speech_to_final_ms", optionalNat (timed world.voice call.nowMs).lastSpeechToFinalMs),
      ("language_metadata", .obj metadata)]
  unfold log
  rw [hok]
  cases call.persists with
  | true => rfl
  | false => rfl

variable (backend call) in
theorem finalWritten_voice (event : TranscriptEvent) (metadata : Dict Json)
    (hs : Sealed world.stored.events) :
    (finalWritten backend call event metadata world).voice.phase = .processing := by
  unfold finalWritten
  split
  next => rfl
  next e he =>
    obtain ⟨session', hok⟩ := appendEvent_of_linked call.toAmbient hs.linked .voiceTranscriptFinal
      none [
        ("text", .str event.text),
        ("confidence", confidenceJson event),
        ("generation", .nat world.voice.generation),
        ("speech_to_final_ms", optionalNat (timed world.voice call.nowMs).lastSpeechToFinalMs),
        ("language_metadata", .obj metadata)]
    rw [hok] at he
    cases he

/-- While the candidate is listened to, a final transcript that raises leaves the voice as it was
exactly when it is handed on. -/
theorem Finals.raises_iff {event : TranscriptEvent}
    {result : EStateM.Result PyError VoiceWorld VoiceTurnResult}
    (h : Finals backend call event world result) (hs : Sealed world.stored.events)
    (ha : ¬Ended world.stored) :
    (accepted result = false → (landed result).voice = world.voice) ↔
      (world.voice.phase = .listening → HandsOn backend call event world) := by
  by_cases hp : world.voice.phase = .listening
  swap
  · obtain ⟨e, he⟩ := takeFinal_refused backend call event ha hp
    cases h with
    | failed h =>
      rw [he] at h
      cases h
      exact iff_of_true (fun _ => rfl) fun hphase => absurd hphase hp
    | answered h =>
      rw [he] at h
      cases h
  have hunread : ∀ {e : PyError}, takeFinal backend call event world =
      .error e { world with voice := timed world.voice call.nowMs } →
      ((accepted result = false → (landed result).voice = world.voice) ↔
        Timed world.voice call.nowMs) := by
    intro e he
    cases h with
    | failed h =>
      rw [he] at h
      cases h
      exact Iff.trans ⟨fun hsame => hsame rfl, fun hsame _ => hsame⟩ (timed_eq_iff _ _)
    | answered h =>
      rw [he] at h
      cases h
  rw [forall_prop_of_true hp]
  unfold HandsOn
  split
  next raised hm =>
    obtain ⟨e, he⟩ := takeFinal_unreadable backend event ha hp hm
    exact hunread he
  next metadata hm =>
    have htakes := takeFinal_answers backend event hs ha hp hm
    by_cases hpersists : call.persists = true
    swap
    · rw [if_neg hpersists] at htakes ⊢
      exact hunread htakes
    rw [if_pos hpersists] at htakes ⊢
    obtain ⟨reply, stored, _, heq⟩ := answerInterview_answered backend call
      event.text metadata (finalWritten backend call event metadata world)
    have hphase := finalWritten_voice backend call event metadata hs
    rw [heq] at htakes ⊢
    cases h with
    | @failed e after h =>
      rw [htakes] at h
      cases reply with
      | ok step => cases h
      | error e =>
        cases h
        refine iff_of_false (fun hsame => ?_) fun htaken => (by cases htaken.1)
        have hsame := congrArg VoiceSessionState.phase (hsame rfl)
        rw [hp] at hsame
        exact absurd (hphase.symm.trans hsame) (by decide)
    | @answered step turn mid events payload answer h ht hready hr =>
      rw [htakes] at h
      cases reply with
      | error e => cases h
      | ok given =>
        cases h
        cases hresponse : call.responsePersists with
        | true => exact iff_of_true (fun hraised => (by cases hraised)) ⟨rfl, rfl⟩
        | false =>
          refine iff_of_false (fun hsame => ?_) fun htaken => (by cases htaken.2)
          have hsame := congrArg VoiceSessionState.phase ((hr.symm.trans (hsame rfl) : _ = _))
          rw [hp] at hsame
          exact absurd (hphase.symm.trans hsame) (by decide)

omit [CanonicalDigest] in
/-- Closing the voice changes it unless it was closed. -/
theorem shut_same_iff (world : VoiceWorld) :
    (shut world).voice = world.voice ↔ world.voice.phase = .closed := by
  constructor
  · intro h
    exact (congrArg VoiceSessionState.phase h).symm
  · intro h
    show { world.voice with phase := .closed } = world.voice
    rw [← h]

theorem Refuses.undisturbed {operation : VoiceOperation} (h : Refuses world operation) :
    (VoiceStep.voice call operation).Undisturbed backend world := by
  cases h with
  | heard ha hp => exact fun hended => absurd hended ha
  | @unknown turnId hc hr =>
    rw [VoiceStep.Undisturbed, if_neg hc]
    intro hknown hactive
    obtain ⟨hset, hother⟩ := hr.resolve_left hknown
    exact absurd hactive (not_or.mpr ⟨hset, hother⟩)
  | completed h => exact fun hactive => absurd hactive h
  | cancelled h => exact fun hactive => absurd hactive h

theorem Writes.raises_iff {operation : VoiceOperation} {voice : VoiceSessionState}
    {entries : List LogEntry} (hw : Writes call world operation voice entries) :
    (call.persists = false → voice = world.voice) ↔
      (VoiceStep.voice call operation).Undisturbed backend world := by
  have hfails : ∀ {p : Prop}, (call.persists = false → p) ↔ call.persists = true ∨ p := by
    intro p
    cases call.persists with
    | true => simp
    | false => simp
  rw [hfails]
  cases hw with
  | speech ha =>
    rw [VoiceStep.Undisturbed, if_neg ha, heard_eq_iff]
  | heard payload ha hp => exact iff_of_true (.inr rfl) fun hended => absurd hended ha
  | @plays turnId turn payload hc hturn hactive =>
    rw [VoiceStep.Undisturbed, if_neg hc, playing_eq_iff]
    have hknown : turnOf world.stored turnId ≠ none := by
      rw [hturn]
      simp
    exact ⟨fun h _ _ => h, fun h => h hknown hactive⟩
  | @ends turnId payload hactive =>
    have hchanged : played world.voice world.stored.status ≠ world.voice := by
      intro hsame
      have hnone := congrArg VoiceSessionState.activeTtsTurnId hsame
      rw [hactive] at hnone
      cases hnone
    exact ⟨fun h _ => h.resolve_right hchanged, fun h => .inl (h hactive)⟩
  | @silences turnId reason payload hactive =>
    have hchanged : silenced world.voice ≠ world.voice := by
      intro hsame
      have hnone := congrArg VoiceSessionState.activeTtsTurnId hsame
      rw [hactive] at hnone
      cases hnone
    exact ⟨fun h _ => h.resolve_right hchanged, fun h => .inl (h hactive)⟩
  | logs payload hlogs =>
    refine iff_of_true (.inr rfl) ?_
    cases operation with
    | providerFailed => trivial
    | transportSelected => trivial
    | transportFallback => trivial
    | vadEndpoint => trivial
    | _ => cases hlogs

/-- A call that raises leaves the voice as it was exactly when it is undisturbed. -/
theorem Does.raises_iff {operation : VoiceOperation} {taken : Bool} {after : VoiceWorld}
    (h : Does backend call world operation taken after) (hs : Sealed world.stored.events) :
    (taken = false → after.voice = world.voice) ↔
      (VoiceStep.voice call operation).Undisturbed backend world := by
  cases h with
  | refused h => exact iff_of_true (fun _ => rfl) h.undisturbed
  | ended hi hended =>
    rw [forall_prop_of_true rfl, shut_same_iff]
    cases operation with
    | speechStarted =>
      rw [VoiceStep.Undisturbed, if_pos hended]
    | transcriptPartial event => exact ⟨fun h _ => h, fun h => h hended⟩
    | transcriptFinal event =>
      rw [VoiceStep.Undisturbed, if_pos hended]
    | _ => cases hi
  | stopped hcancelled =>
    rw [forall_prop_of_true rfl, shut_same_iff]
    rw [VoiceStep.Undisturbed, if_pos hcancelled]
  | wrote hw => exact hw.raises_iff
  | final ha h =>
    rw [h.raises_iff hs ha]
    rw [VoiceStep.Undisturbed, if_neg ha]
  | closed hsilent =>
    exact iff_of_true (fun hraised => (by cases hraised)) fun hactive => absurd hsilent hactive
  | cut _ _ _ hpersists => exact iff_of_true (fun hraised => (by cases hraised)) fun _ => hpersists
  | @uncut reason turnId hactive hpersists =>
    refine iff_of_false (fun hsame => ?_) fun hwritten => ?_
    · have hsame := congrArg VoiceSessionState.generation (hsame rfl)
      exact absurd hsame (Nat.succ_ne_self _)
    · have hknown : world.voice.activeTtsTurnId ≠ none := by
        rw [hactive]
        simp
      rw [hwritten hknown] at hpersists
      cases hpersists

variable (backend) in
omit [CanonicalDigest] in
theorem continues_stored (session : InterviewSession) : Continues session (backend.stored session) := by
  cases backend with
  | memory => exact Continues.refl session
  | json => exact Continues.refl session

variable (backend) in
theorem log_stored {session : InterviewSession} {events : List InterviewEvent}
    {entries : List LogEntry} (hgrows : Grows session.events events entries) :
    (backend.stored { session with events := events }).log = session.log ++ entries ∧
      (backend.stored { session with events := events }).turns = session.turns := by
  cases backend with
  | memory => exact ⟨hgrows.log, rfl⟩
  | json => exact ⟨hgrows.log, rfl⟩

theorem continues_logged {session : InterviewSession} {events : List InterviewEvent}
    {entries : List LogEntry} (hgrows : Grows session.events events entries)
    (hplain : ∀ entry ∈ entries, entry.Plain) :
    Continues session (backend.stored { session with events := events }) := by
  obtain ⟨hlog, hturns⟩ := log_stored backend hgrows
  exact ⟨entries, [], hlog, hturns.trans (List.append_nil _).symm, hplain⟩

/-- An answer that is returned took a turn with the words that it was given. -/
theorem Answered.takes {text : String} {metadata : Dict Json} {stored stored' : InterviewSession}
    {step : SessionStep} (h : Answered backend call text metadata stored (.ok step) stored') :
    ∃ begun turn entry entries turns, Continues stored begun ∧
      TakesTurn text begun stored' turn entry entries turns := by
  cases h with
  | @answered loaded session' job step hloaded hjob ha =>
    obtain ⟨turn, entry, entries, turns, htakes⟩ := answer_takes ha
    obtain ⟨entries, turns, htakes⟩ := htakes.continues (continues_stored backend session')
    refine ⟨loaded, turn, entry, entries, turns, ?_, htakes⟩
    rcases hloaded with rfl | ⟨begun, hbegun, rfl⟩
    · exact Continues.refl loaded
    · exact (mutate_continues hbegun rfl).trans (continues_stored _ begun)

omit [CanonicalDigest] in
theorem timed_counts (voice : VoiceSessionState) (nowMs : Nat) :
    (timed voice nowMs).interruptionCount = voice.interruptionCount ∧
      (timed voice nowMs).generation = voice.generation := by
  unfold timed
  split
  next => exact ⟨rfl, rfl⟩
  next => exact ⟨rfl, rfl⟩

/-- No transcript touches the counts of the voice. -/
theorem Takes.counts {event : TranscriptEvent}
    {result : EStateM.Result PyError VoiceWorld SessionStep}
    (h : Takes backend call event world result) :
    (landed result).voice.interruptionCount = world.voice.interruptionCount ∧
      (landed result).voice.generation = world.voice.generation := by
  cases h with
  | ended => exact ⟨rfl, rfl⟩
  | refused => exact ⟨rfl, rfl⟩
  | unreadable => exact timed_counts _ _
  | unwritten => exact timed_counts _ _
  | @answered _ _ _ result _ _ _ _ _ _ _ =>
    cases result with
    | ok => exact timed_counts _ _
    | error => exact timed_counts _ _

theorem Finals.counts {event : TranscriptEvent}
    {result : EStateM.Result PyError VoiceWorld VoiceTurnResult}
    (h : Finals backend call event world result) (hs : Sealed world.stored.events) :
    (landed result).voice.interruptionCount = world.voice.interruptionCount ∧
      (landed result).voice.generation = world.voice.generation := by
  have htakes := takeFinal_takes backend call event hs
  cases h with
  | failed h =>
    rw [h] at htakes
    exact htakes.counts
  | @answered step turn mid events payload answer h ht hready hr =>
    rw [h] at htakes
    have hvoice : answer.state.interruptionCount = world.voice.interruptionCount ∧
        answer.state.generation = world.voice.generation := by
      rw [hr]
      exact htakes.counts
    cases call.responsePersists with
    | true => exact hvoice
    | false => exact hvoice

omit [CanonicalDigest] in
/-- A call that writes once logs no final transcript, and a barge-in exactly when it counts one. -/
theorem Writes.counts {operation : VoiceOperation} {voice : VoiceSessionState}
    {entries : List LogEntry} (hw : Writes call world operation voice entries) :
    (∀ entry ∈ entries, entry.type ≠ .voiceTranscriptFinal) ∧
      CountsBargeIns world.voice voice entries := by
  have hone : ∀ {type : EventType} {turn : Option Turn} {payload : Dict Json},
      type ≠ .voiceTranscriptFinal → type ≠ .voiceBargeIn →
      voice.interruptionCount = world.voice.interruptionCount →
      voice.generation = world.voice.generation → entries = [entry call type turn payload] →
      (∀ entry ∈ entries, entry.type ≠ .voiceTranscriptFinal) ∧
        CountsBargeIns world.voice voice entries := by
    rintro type turn payload hfinal hbarge hcount hgeneration rfl
    refine ⟨fun entry hin => ?_, .inl ⟨fun entry hin => ?_, hcount, hgeneration.ge⟩⟩
    · rw [List.mem_singleton.mp hin]
      exact hfinal
    · rw [List.mem_singleton.mp hin]
      exact hbarge
  cases hw with
  | speech ha =>
    unfold speechEntries
    by_cases hspeaking : world.voice.phase = .speaking
    · rw [if_pos hspeaking]
      refine ⟨by simp [bargeInEntries, entry], .inr ⟨_, rfl, ?_, ?_, ?_⟩⟩
      · refine (withTrace_lookup (by decide) _ _).trans ?_
        simp [RealtimeVoiceCoordinator.heard, hspeaking]
      · simp [RealtimeVoiceCoordinator.heard, hspeaking]
      · simp [RealtimeVoiceCoordinator.heard, hspeaking]
    · rw [if_neg hspeaking]
      refine ⟨by simp [entry], .inl ⟨by simp [entry], ?_, ?_⟩⟩
      · simp [RealtimeVoiceCoordinator.heard, hspeaking]
      · simp [RealtimeVoiceCoordinator.heard, hspeaking]
  | heard => exact hone (by decide) (by decide) rfl rfl rfl
  | @plays turnId =>
    have hsame : (playing world.voice call.nowMs turnId).interruptionCount =
        world.voice.interruptionCount ∧
        (playing world.voice call.nowMs turnId).generation = world.voice.generation := by
      unfold playing
      split
      next => exact ⟨rfl, rfl⟩
      next => exact ⟨rfl, rfl⟩
    exact hone (by decide) (by decide) hsame.1 hsame.2 rfl
  | ends => exact hone (by decide) (by decide) rfl rfl rfl
  | silences => exact hone (by decide) (by decide) rfl rfl rfl
  | logs payload hlogs =>
    cases operation with
    | providerFailed =>
      cases hlogs
      exact hone (by decide) (by decide) rfl rfl rfl
    | transportSelected =>
      cases hlogs
      exact hone (by decide) (by decide) rfl rfl rfl
    | transportFallback =>
      cases hlogs
      exact hone (by decide) (by decide) rfl rfl rfl
    | vadEndpoint =>
      cases hlogs
      exact hone (by decide) (by decide) rfl rfl rfl
    | _ => cases hlogs

theorem Writes.accounts {operation : VoiceOperation} {voice : VoiceSessionState}
    {entries : List LogEntry} {events : List InterviewEvent}
    (hw : Writes call world operation voice entries)
    (hgrows : Grows world.stored.events events entries) (h : Accounts world.voice world.stored) :
    Accounts voice (backend.stored { world.stored with events := events }) := by
  obtain ⟨hlog, hturns⟩ := log_stored backend hgrows
  obtain ⟨hfinal, hcounts⟩ := hw.counts
  exact ⟨h.bargeIns.extends hlog hcounts,
    h.finals.extends hlog (hturns.trans (List.append_nil _).symm) hfinal⟩

/-- A final transcript that raises without a change of the voice, or returns, leaves the accounts in
order. -/
theorem Finals.accounts {event : TranscriptEvent}
    {result : EStateM.Result PyError VoiceWorld VoiceTurnResult}
    (h : Finals backend call event world result) (hs : Sealed world.stored.events)
    (hsame : accepted result = false → (landed result).voice = world.voice)
    (ha : Accounts world.voice world.stored) :
    Accounts (landed result).voice (landed result).stored := by
  obtain ⟨hcount, hgeneration⟩ := h.counts hs
  have htakes := takeFinal_takes backend call event hs
  cases h with
  | @failed e after h =>
    rw [h] at htakes
    have hkept : after.voice = world.voice := hsame rfl
    have hstored : after.stored = world.stored ∨ after.voice.phase = .processing ∧
        world.voice.phase = .listening := by
      generalize hresult : (EStateM.Result.error e after : EStateM.Result PyError VoiceWorld
        SessionStep) = result at htakes
      cases htakes with
      | ended => cases hresult; exact .inl rfl
      | refused => cases hresult; exact .inl rfl
      | unreadable => cases hresult; exact .inl rfl
      | unwritten => cases hresult; exact .inl rfl
      | @answered _ _ _ answer _ _ hphase _ _ _ _ =>
        cases answer with
        | ok => cases hresult
        | error => cases hresult; exact .inr ⟨rfl, hphase⟩
    rcases hstored with hstored | ⟨hprocessing, hlistening⟩
    · show Accounts after.voice after.stored
      rw [hkept, hstored]
      exact ha
    · rw [hkept, hlistening] at hprocessing
      cases hprocessing
  | @answered step turn mid events payload answer h ht hready hr =>
    obtain ⟨_, _, _, _, metadata, payload, written, htext, hgrows, hanswered⟩ :=
      htakes.answeredBy h
    obtain ⟨hlog, hturns⟩ := log_stored backend hgrows
    obtain ⟨begun, taken, entry, entries, turns, hbegun, htook⟩ := hanswered.takes
    have hfinals : FinalsAnswered mid.stored := ha.finals.answers hlog hturns
      ((withTrace_lookup (by decide) _ _).trans htext) hbegun htook
    obtain ⟨before, asked, hbefore, _, hplain⟩ := hbegun
    have hmid : mid.stored.log = world.stored.log ++
        (RealtimeVoiceCoordinator.entry call .voiceTranscriptFinal none payload ::
          (before ++ entry :: entries)) := by
      rw [htook.log, hbefore, hlog]
      simp
    have hbarges : ∀ other ∈ RealtimeVoiceCoordinator.entry call .voiceTranscriptFinal none payload ::
        (before ++ entry :: entries), other.type ≠ .voiceBargeIn := by
      intro other hother
      rcases List.mem_cons.mp hother with rfl | hother
      · exact (by decide : EventType.voiceTranscriptFinal ≠ .voiceBargeIn)
      rcases List.mem_append.mp hother with hin | hin
      · exact (hplain other hin).1
      rcases List.mem_cons.mp hin with rfl | hin
      · rw [htook.logged.type]
        decide
      · exact (htook.plain other hin).1
    cases hpersists : call.responsePersists with
    | false =>
      rw [hpersists] at hcount hgeneration
      exact ⟨ha.bargeIns.extends hmid (.inl ⟨hbarges, hcount, hgeneration.ge⟩), hfinals⟩
    | true =>
      rw [hpersists] at hcount hgeneration
      have haccounts : Accounts answer.state mid.stored :=
        ⟨ha.bargeIns.extends hmid (.inl ⟨hbarges, hcount, hgeneration.ge⟩), hfinals⟩
      refine haccounts.continues (continues_logged hready fun other hother => ?_) rfl (Nat.le_refl _)
      rw [List.mem_singleton.mp hother]
      exact entry_plain (by decide) (by decide)

/-- An undisturbed call leaves the accounts in order. -/
theorem Does.accounts {operation : VoiceOperation} {taken : Bool} {after : VoiceWorld}
    (h : Does backend call world operation taken after) (hs : Sealed world.stored.events)
    (hu : (VoiceStep.voice call operation).Undisturbed backend world)
    (ha : Accounts world.voice world.stored) : Accounts after.voice after.stored := by
  have hsame := (h.raises_iff hs).mpr hu
  have hkept := Continues.refl world.stored
  cases h with
  | refused => exact ha
  | ended => exact ha.continues hkept rfl (Nat.le_refl _)
  | stopped => exact ha.continues hkept rfl (Nat.le_refl _)
  | wrote hw hgrows =>
    show Accounts _ (if call.persists = true then _ else world.stored)
    split
    next => exact hw.accounts hgrows ha
    next hpersists =>
      have hvoice := hsame (Bool.eq_false_iff.mpr hpersists)
      rw [if_neg hpersists] at hvoice
      rw [hvoice]
      exact ha
  | final _ h => exact h.accounts hs hsame ha
  | closed => exact ha.continues hkept rfl (Nat.le_succ _)
  | cut payload _ hgrows =>
    refine ha.continues (continues_logged hgrows fun other hother => ?_) rfl (Nat.le_succ _)
    rw [List.mem_singleton.mp hother]
    exact entry_plain (by decide) (by decide)
  | uncut => exact ha.continues hkept rfl (Nat.le_succ _)

/-- A step of the interview beside the voice continues the log and the transcript. -/
theorem service_continues {called : Call} {operation : Operation}
    (ht : operation.target world.stored = none) :
    Continues world.stored ((VoiceStep.service called operation).after backend world).stored := by
  unfold VoiceStep.after VoiceStep.result
  simp only
  split
  next =>
    split
    next session' hm => exact (mutate_continues hm ht).trans (continues_stored _ session')
    next => exact Continues.refl world.stored
    next => exact Continues.refl world.stored
  next => exact Continues.refl world.stored

variable (backend) in
/-- On accounts in order a step agrees exactly when it is undisturbed. -/
theorem agrees_iff (step : VoiceStep) (hs : Sealed world.stored.events)
    (ha : Accounts world.voice world.stored) (hc : step.Uncorrecting world) :
    Agrees backend world step ↔ step.Undisturbed backend world := by
  cases step with
  | service called operation =>
    have hvoice := VoiceStep.service_voice backend called operation world
    refine iff_of_true ⟨fun _ => hvoice, (congrArg VoiceSessionState.generation hvoice).ge, ?_⟩ trivial
    rw [hvoice]
    exact ha.continues (service_continues hc) rfl (Nat.le_refl _)
  | voice call operation =>
    obtain ⟨hafter, htaken⟩ :=
      VoiceStep.voice_after backend world call operation
    have hdoes := perform_does backend call operation hs
    rw [← hafter, ← htaken] at hdoes
    constructor
    · intro hagrees
      exact (hdoes.raises_iff hs).mp hagrees.raises
    · intro hu
      refine ⟨(hdoes.raises_iff hs).mpr hu, ?_, hdoes.accounts hs hu ha⟩
      rw [hafter]
      exact perform_climbs backend call operation world

theorem created_accounts {called : Call} {request : CreateSession} {organizationId : Option String}
    {session : InterviewSession} (h : createSession called request organizationId = .ok session) :
    Accounts {} (backend.stored session) := by
  obtain ⟨payload, hlog⟩ := ((createSession_meets _ _ _).of_ok h).log
  have hstored : (backend.stored session).log = [⟨.sessionCreated, none, payload⟩] := by
    rw [← hlog]
    cases backend with
    | memory => rfl
    | json => rfl
  have hnone : ∀ i, ¬FinalAt (backend.stored session) i := by
    rintro i ⟨entry, hentry, htype⟩
    rw [hstored] at hentry
    rw [List.mem_singleton.mp (List.mem_of_getElem? hentry)] at htype
    cases htype
  have hbarges : bargeIns (backend.stored session) = [] := by
    unfold bargeIns
    rw [hstored]
    rfl
  refine ⟨⟨?_, [], ?_, .nil, by simp⟩, id, fun i hi => absurd hi (hnone i),
    fun i _ hi => absurd hi (hnone i)⟩
  · rw [hbarges]
    rfl
  · rw [hbarges]
    rfl

/-- Beside an interview that corrects no turn, voice and log agree through a run exactly when all
its calls are undisturbed. -/
theorem voice_and_log_agree_iff {called : Call} {request : CreateSession}
    {organizationId : Option String} {session : InterviewSession}
    (h : createSession called request organizationId = .ok session) (steps : List VoiceStep)
    (hc : AllUncorrecting backend { stored := backend.stored session } steps) :
    AllAgree backend { stored := backend.stored session } steps ↔
      AllUndisturbed backend { stored := backend.stored session } steps := by
  have hvoiced : Voiced backend { stored := backend.stored session } := .created h
  have haccounts : Accounts {} (backend.stored session) := created_accounts h
  generalize hworld : ({ stored := backend.stored session } : VoiceWorld) = world at hc hvoiced ⊢
  have ha : Accounts world.voice world.stored := by
    rw [← hworld]
    exact haccounts
  clear hworld haccounts
  induction steps generalizing world with
  | nil => exact Iff.rfl
  | cons step rest ih =>
    obtain ⟨huncorrecting, hrest⟩ := hc
    have hstep := agrees_iff backend step hvoiced.sealed ha huncorrecting
    constructor
    · rintro ⟨hagrees, hall⟩
      exact ⟨hstep.mp hagrees, (ih _ hrest (hvoiced.stepped step) hagrees.accounts).mp hall⟩
    · rintro ⟨hu, hall⟩
      have hagrees := hstep.mpr hu
      exact ⟨hagrees, (ih _ hrest (hvoiced.stepped step) hagrees.accounts).mpr hall⟩

end

section Runs

attribute [local instance] checksumDigest

/-- A check of the session that is created on `plainJob` holds of a session. -/
theorem created_of {check : InterviewSession → Bool}
    (h : (createSession (jobCall plainJob (steadyBrain askDecision)) plainConsent
      none).toOption.any check = true) :
    ∃ session, createSession (jobCall plainJob (steadyBrain askDecision)) plainConsent none =
      .ok session ∧ check session = true := by
  cases hcreated : createSession (jobCall plainJob (steadyBrain askDecision)) plainConsent none with
  | error e =>
    rw [hcreated] at h
    cases h
  | ok session =>
    rw [hcreated] at h
    exact ⟨session, rfl, h⟩

def spoken : TranscriptEvent where
  text := "I kept the queue short."

/-- The candidate interrupts the first question, and answers it. -/
def interrupted : List VoiceStep :=
  askedAloud ++ [.voice plainVoice .speechStarted, .voice plainVoice (.transcriptFinal spoken)]

def interruptedWell (session : InterviewSession) : Bool :=
  let asked := (VoiceStep.service (plainCall askDecision) .start).after .memory
    { stored := Backend.stored .memory session }
  let playing := (VoiceStep.voice plainVoice (.ttsStarted "turn-0")).after .memory asked
  let listening := (VoiceStep.voice plainVoice .speechStarted).after .memory playing
  decide (asked.stored.status ≠ .cancelled) && !decide (Ended playing.stored) &&
    !decide (Ended listening.stored) && accepted (answerInterview .memory plainVoice spoken.text []
      (finalWritten .memory plainVoice spoken [] listening))

theorem voice_and_log_agree_interrupted :
    ∃ session, createSession (jobCall plainJob (steadyBrain askDecision)) plainConsent none =
      .ok session ∧ AllAgree .memory { stored := Backend.stored .memory session } interrupted := by
  have hrun : (createSession (jobCall plainJob (steadyBrain askDecision)) plainConsent
      none).toOption.any interruptedWell = true := by decide +kernel
  obtain ⟨session, hcreated, hcheck⟩ := created_of hrun
  obtain ⟨⟨⟨hasked, hplaying⟩, hlistening⟩, hanswered⟩ : ((_ ≠ _ ∧ ¬Ended _) ∧ ¬Ended _) ∧ _ := by
    simpa [interruptedWell] using hcheck
  refine ⟨session, hcreated, (voice_and_log_agree_iff hcreated interrupted
    ⟨rfl, trivial, trivial, trivial, trivial⟩).mpr ⟨trivial, ?_, ?_, ?_, trivial⟩⟩
  · rw [VoiceStep.Undisturbed, if_neg hasked]
    exact fun _ _ => .inl rfl
  · rw [VoiceStep.Undisturbed, if_neg hplaying]
    exact .inl rfl
  · rw [VoiceStep.Undisturbed, if_neg hlistening]
    exact fun _ => ⟨hanswered, rfl⟩

/-- The write of a barge-in fails. -/
def lostBargeIn : VoiceStep := .voice { plainVoice with persists := false } .speechStarted

def losesBargeIn (session : InterviewSession) : Bool :=
  let world := askedAloud.foldl (VoiceStep.after .memory)
    { stored := Backend.stored .memory session }
  !lostBargeIn.taken .memory world &&
    decide ((lostBargeIn.after .memory world).voice ≠ world.voice)

theorem lost_barge_in_counted :
    ∃ session, createSession (jobCall plainJob (steadyBrain askDecision)) plainConsent none =
      .ok session ∧ ¬AllAgree .memory { stored := Backend.stored .memory session }
        (askedAloud ++ [lostBargeIn]) := by
  have hrun : (createSession (jobCall plainJob (steadyBrain askDecision)) plainConsent
      none).toOption.any losesBargeIn = true := by decide +kernel
  obtain ⟨session, hcreated, hcheck⟩ := created_of hrun
  obtain ⟨hraised, hchanged⟩ : _ = false ∧ _ ≠ _ := by simpa [losesBargeIn] using hcheck
  refine ⟨session, hcreated, fun hagree => ?_⟩
  obtain ⟨_, _, hlost, _⟩ := hagree
  exact hchanged (hlost.raises hraised)

end Runs

end RealtimeVoiceCoordinator

end NoraInterviewer
