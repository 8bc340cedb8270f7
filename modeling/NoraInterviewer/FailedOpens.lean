import NoraInterviewer.StreamOpenings
import NoraInterviewer.OutputTables

/-! What a stream that fails to open leaves behind, in both directions. -/

namespace NoraInterviewer

open RealtimeVoiceCoordinator

/-- The phase and the active turn are as they were. -/
def SameFloor (before after : VoiceSessionState) : Prop :=
  after.phase = before.phase ∧ after.activeTtsTurnId = before.activeTtsTurnId

theorem SameFloor.rfl {voice : VoiceSessionState} : SameFloor voice voice := ⟨Eq.refl _, Eq.refl _⟩

section Abandoned

variable {World Result : Type}

theorem abandon_world (cancel : Except OpenFailure Unit) (failure : OpenFailure) (world : World) :
    (VoiceStreamBridge.abandon cancel failure world : Opened World Result).world = world := by
  unfold VoiceStreamBridge.abandon
  split <;> rfl

theorem abandon_fails (cancel : Except OpenFailure Unit) (failure : OpenFailure) (world : World) :
    ∃ other, (VoiceStreamBridge.abandon cancel failure world : Opened World Result).outcome =
      .error other := by
  unfold VoiceStreamBridge.abandon
  split <;> exact ⟨_, rfl⟩

/-- Only `except Exception` cancels the provider session. -/
theorem abandon_cancelled (cancel : Except OpenFailure Unit) (failure : OpenFailure)
    (world : World) :
    (VoiceStreamBridge.abandon cancel failure world : Opened World Result).cancelled = some true ↔
      failure ≠ .cancelled := by
  cases failure with
  | cancelled => exact ⟨fun h => (by cases h), fun h => absurd rfl h⟩
  | raised e =>
    refine ⟨fun _ h => (by cases h), fun _ => ?_⟩
    cases cancel <;> rfl
  | audio e =>
    refine ⟨fun _ h => (by cases h), fun _ => ?_⟩
    cases cancel <;> rfl

theorem abandon_some (cancel : Except OpenFailure Unit) (failure : OpenFailure) (world : World) :
    (VoiceStreamBridge.abandon cancel failure world : Opened World Result).cancelled ≠ none := by
  unfold VoiceStreamBridge.abandon
  split <;> exact Option.some_ne_none _

end Abandoned

section Opens

variable [CanonicalDigest]

namespace VoiceStreamBridge

/-- The provider session is cancelled, no stream is left in the manager or the bridge, and the voice
is as it was. -/
structure LeavesNothing (before : World) (opened : Opened World AudioStreamOpenResult) : Prop where
  cancelled : opened.cancelled = some true
  streams : opened.world.manager.streams = before.manager.streams
  providerStreams : opened.world.providerStreams = before.providerStreams
  floor : SameFloor before.voice opened.world.voice

/-- If `open` raises once there is a provider session, it leaves nothing. -/
def FailsClean (before : World) (opened : Opened World AudioStreamOpenResult) : Prop :=
  ∀ failure, opened.outcome = .error failure → opened.cancelled ≠ none → LeavesNothing before opened

/-- `speech_started` fails before it touches the voice, or takes it to the phase that it was in; and once
it has returned, nothing fails. -/
structure Spared (awaits : OpenAwaits) (voice : VoiceSessionState) : Prop where
  uncut : awaits.started.session ≠ .error .cancelled
  ended : ∀ session, awaits.started.session = .ok (some session) → Ended session →
    voice.phase = .closed
  unlogged : ∀ session, awaits.started.session = .ok (some session) → ¬Ended session →
    ¬Appendable session.events → voice.phase = .listening ∨ voice.phase = .speaking
  unwritten : ∀ session failure, awaits.started.session = .ok (some session) → ¬Ended session →
    Appendable session.events → awaits.started.write = .error failure →
    failure ≠ .cancelled ∧ voice.phase = .listening
  selected : ∀ session, awaits.started.session = .ok (some session) → ¬Ended session →
    Appendable session.events → awaits.started.write = .ok () → awaits.selected.Logs

variable {request : OpenRequest} {awaits : OpenAwaits} {world : World}

/-- `speech_started` fails. -/
theorem failsClean_abandoned {failure : OpenFailure} {voice : VoiceSessionState}
    (hprovider : awaits.provider = .ok ())
    (hstarted : coordinate .speechStarted awaits.started world.voice = (.error failure, voice)) :
    FailsClean world (open_ request awaits world) ↔
      failure ≠ .cancelled ∧ SameFloor world.voice voice := by
  have hopen : open_ request awaits world =
      abandon awaits.cancel failure { world with voice } := by
    unfold open_
    rw [hprovider]
    simp only
    rw [hstarted]
  rw [hopen]
  constructor
  · intro h
    obtain ⟨other, hother⟩ := @abandon_fails _ AudioStreamOpenResult awaits.cancel failure
      { world with voice }
    obtain ⟨hcancelled, _, _, hfloor⟩ := h other hother (abandon_some _ _ _)
    rw [abandon_world] at hfloor
    exact ⟨(abandon_cancelled _ _ _).mp hcancelled, hfloor⟩
  · rintro ⟨hcut, hfloor⟩ _ _ _
    refine ⟨(abandon_cancelled _ _ _).mpr hcut, ?_, ?_, ?_⟩
    · rw [abandon_world]
    · rw [abandon_world]
    · rw [abandon_world]
      exact hfloor

/-- `speech_started` returns: the stream is in the manager before `transport_selected` can fail. -/
theorem failsClean_started {voice : VoiceSessionState} (hprovider : awaits.provider = .ok ())
    (hstarted : coordinate .speechStarted awaits.started world.voice = (.ok (), voice)) :
    FailsClean world (open_ request awaits world) ↔ awaits.selected.Logs := by
  obtain ⟨outcome, hselected, hlogs, _⟩ := coordinate_selected .stt .server (some request.providerId)
    none awaits.selected voice
  rw [← hlogs]
  cases outcome with
  | error failure =>
    refine ⟨fun h => ?_, fun h => (by cases h)⟩
    have hopen : ∃ after, open_ request awaits world = ⟨.error failure, after, some false⟩ := by
      unfold open_
      rw [hprovider]
      simp only
      rw [hstarted]
      simp only [AudioStreamManager.openStream]
      rw [if_neg (by omega)]
      simp only
      rw [hselected]
      exact ⟨_, rfl⟩
    obtain ⟨after, hopen⟩ := hopen
    rw [hopen] at h
    have hcancelled := (h failure rfl (Option.some_ne_none _)).cancelled
    cases hcancelled
  | ok returned =>
    refine ⟨fun _ => rfl, fun _ => ?_⟩
    have hopen : ∃ opened after, open_ request awaits world = ⟨.ok opened, after, some false⟩ := by
      unfold open_
      rw [hprovider]
      simp only
      rw [hstarted]
      simp only [AudioStreamManager.openStream]
      rw [if_neg (by omega)]
      simp only
      rw [hselected]
      exact ⟨_, _, rfl⟩
    obtain ⟨opened, after, hopen⟩ := hopen
    rw [hopen]
    exact fun _ h => (by cases h)

theorem Spared.of_unloaded {voice : VoiceSessionState}
    (hcut : awaits.started.session ≠ .error .cancelled)
    (hnone : ∀ session, awaits.started.session ≠ .ok (some session)) : Spared awaits voice :=
  ⟨hcut, fun session h => absurd h (hnone session), fun session h => absurd h (hnone session),
    fun session _ h => absurd h (hnone session), fun session h => absurd h (hnone session)⟩

/-- What `Spared` says of a session that the store gives. -/
theorem spared_loaded {session : InterviewSession} {voice : VoiceSessionState}
    (hsession : awaits.started.session = .ok (some session)) :
    Spared awaits voice ↔
      (Ended session → voice.phase = .closed) ∧
      (¬Ended session → ¬Appendable session.events →
        voice.phase = .listening ∨ voice.phase = .speaking) ∧
      (¬Ended session → Appendable session.events →
        (∀ failure, awaits.started.write = .error failure →
          failure ≠ .cancelled ∧ voice.phase = .listening) ∧
        (awaits.started.write = .ok () → awaits.selected.Logs)) := by
  constructor
  · intro h
    exact ⟨h.ended session hsession, h.unlogged session hsession, fun ha happendable =>
      ⟨fun failure => h.unwritten session failure hsession ha happendable,
        h.selected session hsession ha happendable⟩⟩
  · rintro ⟨hended, hunlogged, hlogged⟩
    have hsame : ∀ found, awaits.started.session = .ok (some found) → found = session := by
      intro found hfound
      rw [hsession] at hfound
      exact (Option.some.inj (Except.ok.inj hfound)).symm
    refine ⟨by rw [hsession]; exact fun h => (by cases h), ?_, ?_, ?_, ?_⟩
    · rintro found hfound
      rw [hsame found hfound]
      exact hended
    · rintro found hfound
      rw [hsame found hfound]
      exact hunlogged
    · rintro found failure hfound
      rw [hsame found hfound]
      exact fun ha happendable => (hlogged ha happendable).1 failure
    · rintro found hfound
      rw [hsame found hfound]
      exact fun ha happendable => (hlogged ha happendable).2

omit [CanonicalDigest] in
/-- The audio of a turn is given up only by a voice that speaks. -/
theorem sameFloor_heard (voice : VoiceSessionState) (nowMs : ℕ) :
    SameFloor voice (heard voice nowMs) ↔ voice.phase = .listening := by
  unfold SameFloor heard
  by_cases hspeaking : voice.phase = .speaking
  · rw [if_pos hspeaking, hspeaking]
    exact ⟨fun h => (by cases h.1), fun h => (by cases h)⟩
  · rw [if_neg hspeaking]
    exact ⟨fun h => h.1.symm, fun h => ⟨h.symm, rfl⟩⟩

/-- `open` of an STT stream that fails leaves nothing just where it is spared. -/
theorem failsClean_iff (request : OpenRequest) (awaits : OpenAwaits) (world : World) :
    FailsClean world (open_ request awaits world) ↔
      (awaits.provider = .ok () → Spared awaits world.voice) := by
  cases hprovider : awaits.provider with
  | error failure =>
    have hopen : open_ request awaits world = ⟨.error failure, world, none⟩ := by
      unfold open_
      rw [hprovider]
    rw [hopen]
    exact ⟨fun _ h => (by cases h), fun _ _ _ h => absurd rfl h⟩
  | ok returned =>
    rw [forall_prop_of_true rfl]
    cases hsession : awaits.started.session with
    | error failure =>
      rw [failsClean_abandoned hprovider (coordinate_failed hsession)]
      constructor
      · rintro ⟨hcut, _⟩
        refine Spared.of_unloaded ?_ ?_
        · rw [hsession]
          exact fun h => hcut (Except.error.inj h)
        · rw [hsession]
          exact fun _ h => (by cases h)
      · intro h
        refine ⟨fun hcut => h.uncut ?_, .rfl⟩
        rw [hsession, hcut]
    | ok found =>
      cases found with
      | none =>
        rw [failsClean_abandoned hprovider (coordinate_missing hsession)]
        refine ⟨fun _ => Spared.of_unloaded ?_ ?_, fun _ => ⟨fun h => (by cases h), .rfl⟩⟩
        · rw [hsession]
          exact fun h => (by cases h)
        · rw [hsession]
          exact fun _ h => (by cases h)
      | some session =>
        rw [spared_loaded hsession]
        by_cases hended : Ended session
        · obtain ⟨e, he⟩ := coordinate_ended world.voice hsession hended
          rw [failsClean_abandoned hprovider he]
          constructor
          · rintro ⟨_, hphase, _⟩
            exact ⟨fun _ => hphase.symm, fun ha => absurd hended ha, fun ha => absurd hended ha⟩
          · rintro ⟨hclosed, _⟩
            exact ⟨fun h => (by cases h), (hclosed hended).symm, rfl⟩
        by_cases happendable : Appendable session.events
        · have hstarted := coordinate_heard world.voice hsession hended happendable
          cases hwrite : awaits.started.write with
          | error failure =>
            rw [hwrite] at hstarted
            rw [failsClean_abandoned hprovider hstarted, sameFloor_heard]
            constructor
            · rintro hspared
              refine ⟨fun h => absurd h hended, fun _ h => absurd happendable h, fun _ _ =>
                ⟨fun other hother => ?_, fun h => (by cases h)⟩⟩
              rw [← Except.error.inj hother]
              exact hspared
            · rintro ⟨_, _, hlogged⟩
              exact (hlogged hended happendable).1 failure rfl
          | ok written =>
            rw [hwrite] at hstarted
            rw [failsClean_started hprovider hstarted]
            constructor
            · intro hlogs
              exact ⟨fun h => absurd h hended, fun _ h => absurd happendable h, fun _ _ =>
                ⟨fun _ h => (by cases h), fun _ => hlogs⟩⟩
            · rintro ⟨_, _, hlogged⟩
              exact (hlogged hended happendable).2 rfl
        · obtain ⟨e, after, he, hphase, hactive⟩ :=
            coordinate_unheard world.voice hsession hended happendable
          rw [failsClean_abandoned hprovider he]
          constructor
          · rintro ⟨_, hsame, _⟩
            refine ⟨fun h => absurd h hended, fun _ _ => ?_, fun _ h => absurd h happendable⟩
            rw [hphase] at hsame
            split at hsame
            next hspeaking => exact .inr hspeaking
            next => exact .inl hsame.symm
          · rintro ⟨_, hunlogged, _⟩
            refine ⟨fun h => (by cases h), ?_, hactive⟩
            rw [hphase]
            rcases hunlogged hended happendable with hlistening | hspeaking
            · rw [hlistening]
              rfl
            · rw [hspeaking]
              rfl

end VoiceStreamBridge

namespace VoiceOutputBridge

/-- The provider session is cancelled, the tables of the bridge and the opening set are as they were,
and so is the voice of the session. -/
structure LeavesNothing (sessionId : String) (before : OutputWorld)
    (opened : Opened OutputWorld String) : Prop where
  cancelled : opened.cancelled = some true
  streams : opened.world.streams = before.streams
  activeBySession : opened.world.activeBySession = before.activeBySession
  openingSessions : opened.world.openingSessions = before.openingSessions
  floor : SameFloor (before.voice sessionId) (opened.world.voice sessionId)

/-- If `open` raises once there is a provider session, it leaves nothing. -/
def FailsClean (sessionId : String) (before : OutputWorld) (opened : Opened OutputWorld String) :
    Prop :=
  ∀ failure, opened.outcome = .error failure → opened.cancelled ≠ none →
    LeavesNothing sessionId before opened

/-- `tts_started` does not refuse the turn. -/
def Starts (session : InterviewSession) (voice : VoiceSessionState) (turnId : String) : Prop :=
  session.status ≠ .cancelled ∧ turnOf session turnId ≠ none ∧
    (voice.activeTtsTurnId = none ∨ voice.activeTtsTurnId = some turnId)

/-- No await is cancelled, `tts_started` finds no cancelled session unless the voice is closed, and once
it starts, either nothing fails or the voice was speaking that turn before. -/
structure Spared (awaits : OpenAwaits) (voice : VoiceSessionState) (turnId : String) : Prop where
  uncut : awaits.started.session ≠ .error .cancelled
  ended : ∀ session, awaits.started.session = .ok (some session) → session.status = .cancelled →
    voice.phase = .closed
  started : ∀ session, awaits.started.session = .ok (some session) → Starts session voice turnId →
    Appendable session.events ∧ awaits.started.write = .ok () ∧ awaits.selected.Logs ∨
    voice.phase = .speaking ∧ voice.activeTtsTurnId = some turnId ∧
      (Appendable session.events → awaits.started.write ≠ .error .cancelled ∧
        (awaits.started.write = .ok () → awaits.selected.Uncut))

theorem coordinate_cancelled {awaits : VoiceAwaits} (voice : VoiceSessionState) (turnId : String)
    {session : InterviewSession} (h : awaits.session = .ok (some session))
    (hs : session.status = .cancelled) :
    coordinate (.ttsStarted turnId) awaits voice =
      (.error (.raised isCancelled), { voice with phase := .closed }) := by
  have hstarted := @ttsStarted_cancelled _ .memory { awaits.call with persists := true }
    ⟨voice, session⟩ turnId hs
  have hperform : RealtimeVoiceCoordinator.perform .memory { awaits.call with persists := true }
      (.ttsStarted turnId) ⟨voice, session⟩ = .error isCancelled (shut ⟨voice, session⟩) :=
    Voicing.bind_error hstarted
  exact coordinate_error h hperform

theorem coordinate_refused {awaits : VoiceAwaits} (voice : VoiceSessionState) {turnId : String}
    {session : InterviewSession} (h : awaits.session = .ok (some session))
    (hs : session.status ≠ .cancelled) (hstarts : ¬Starts session voice turnId) :
    ∃ e, coordinate (.ttsStarted turnId) awaits voice = (.error (.raised e), voice) := by
  have hrefused : turnOf session turnId = none ∨
      voice.activeTtsTurnId ≠ none ∧ voice.activeTtsTurnId ≠ some turnId := by
    by_contra hnot
    obtain ⟨hturn, hactive⟩ := not_or.mp hnot
    exact hstarts ⟨hs, hturn, or_iff_not_and_not.mpr hactive⟩
  obtain ⟨e, he⟩ := @ttsStarted_refused _ .memory { awaits.call with persists := true }
    ⟨voice, session⟩ turnId hs hrefused
  have hperform : RealtimeVoiceCoordinator.perform .memory { awaits.call with persists := true }
      (.ttsStarted turnId) ⟨voice, session⟩ = .error e ⟨voice, session⟩ := Voicing.bind_error he
  exact ⟨e, coordinate_error h hperform⟩

theorem coordinate_playing {awaits : VoiceAwaits} {voice : VoiceSessionState} {turnId : String}
    {session : InterviewSession} (h : awaits.session = .ok (some session))
    (hstarts : Starts session voice turnId) :
    (Appendable session.events → coordinate (.ttsStarted turnId) awaits voice =
      (awaits.write, playing voice awaits.call.nowMs turnId)) ∧
    (¬Appendable session.events → ∃ e, coordinate (.ttsStarted turnId) awaits voice =
      (.error (.raised e), playing voice awaits.call.nowMs turnId)) := by
  obtain ⟨hs, hturn, hactive⟩ := hstarts
  obtain ⟨turn, hturn⟩ := Option.ne_none_iff_exists'.mp hturn
  obtain ⟨hok, herror⟩ := ttsStarted_goes awaits.call hs hturn hactive
  constructor
  · intro happendable
    obtain ⟨logged, hlogged⟩ := hok happendable
    have hperform : RealtimeVoiceCoordinator.perform .memory { awaits.call with persists := true }
        (.ttsStarted turnId) ⟨voice, session⟩ =
        .ok _ ⟨playing voice awaits.call.nowMs turnId, logged⟩ := Voicing.bind_ok hlogged
    exact coordinate_ok h hperform
  · intro happendable
    obtain ⟨e, he⟩ := herror happendable
    have hperform : RealtimeVoiceCoordinator.perform .memory { awaits.call with persists := true }
        (.ttsStarted turnId) ⟨voice, session⟩ =
        .error e ⟨playing voice awaits.call.nowMs turnId, session⟩ := Voicing.bind_error he
    exact ⟨e, coordinate_error h hperform⟩

omit [CanonicalDigest] in
theorem sameFloor_playing (voice : VoiceSessionState) (nowMs : ℕ) (turnId : String) :
    SameFloor voice (playing voice nowMs turnId) ↔
      voice.phase = .speaking ∧ voice.activeTtsTurnId = some turnId :=
  ⟨fun h => ⟨h.1.symm, h.2.symm⟩, fun h => ⟨h.1.symm, h.2.symm⟩⟩

variable {streamId : ℕ → String} {n : ℕ} {request : OpenRequest} {awaits : OpenAwaits}
  {world : OutputWorld} {session : Option InterviewSession} {found : Opening}

omit [CanonicalDigest] in
theorem opening_free (h : opening request session world = .ok found) :
    world.openingSessions request.sessionId = none := by
  unfold opening at h
  split at h
  next => cases h
  next =>
    split at h
    next => cases h
    next =>
      split at h
      next => cases h
      next =>
        split at h
        next => cases h
        next hfree => exact not_not.mp (not_or.mp hfree).2

/-- The world of a call that has failed, with the voice that it leaves. -/
def leaving (world : OutputWorld) (sessionId : String) (n : ℕ) (voice : VoiceSessionState) :
    OutputWorld :=
  discardOpening (setVoice { world with
    openingSessions := Function.update world.openingSessions sessionId (some n) } sessionId voice)
    sessionId

omit [CanonicalDigest] in
theorem leaving_openingSessions (hfree : world.openingSessions request.sessionId = none)
    (voice : VoiceSessionState) :
    (leaving world request.sessionId n voice).openingSessions = world.openingSessions := by
  unfold leaving discardOpening setVoice
  simp only
  rw [Function.update_idem, ← hfree, Function.update_eq_self]

omit [CanonicalDigest] in
theorem leaving_voice (voice : VoiceSessionState) :
    (leaving world request.sessionId n voice).voice request.sessionId = voice :=
  Function.update_self _ _ _

omit [CanonicalDigest] in
/-- What an abandoned call leaves. -/
theorem failsClean_leaving (hfree : world.openingSessions request.sessionId = none)
    (cancel : Except OpenFailure Unit) (failure : OpenFailure) (voice : VoiceSessionState) :
    FailsClean request.sessionId world
        (VoiceStreamBridge.abandon cancel failure (leaving world request.sessionId n voice)) ↔
      failure ≠ .cancelled ∧ SameFloor (world.voice request.sessionId) voice := by
  constructor
  · intro h
    obtain ⟨other, hother⟩ := @abandon_fails _ String cancel failure
      (leaving world request.sessionId n voice)
    obtain ⟨hcancelled, _, _, _, hfloor⟩ := h other hother (abandon_some _ _ _)
    rw [abandon_world, leaving_voice] at hfloor
    exact ⟨(abandon_cancelled _ _ _).mp hcancelled, hfloor⟩
  · rintro ⟨hcut, hfloor⟩ _ _ _
    refine ⟨(abandon_cancelled _ _ _).mpr hcut, ?_, ?_, ?_, ?_⟩
    · rw [abandon_world]
      rfl
    · rw [abandon_world]
      rfl
    · rw [abandon_world]
      exact leaving_openingSessions hfree voice
    · rw [abandon_world, leaving_voice]
      exact hfloor

/-- `tts_started` fails. -/
theorem failsClean_abandoned {failure : OpenFailure} {voice : VoiceSessionState}
    (hsession : awaits.session = .ok session) (hopening : opening request session world = .ok found)
    (hprovider : awaits.provider = .ok ())
    (hstarted : coordinate (.ttsStarted found.turn.id) awaits.started
      (world.voice request.sessionId) = (.error failure, voice)) :
    FailsClean request.sessionId world (open_ streamId n request awaits world) ↔
      failure ≠ .cancelled ∧ SameFloor (world.voice request.sessionId) voice := by
  have hopen : open_ streamId n request awaits world =
      VoiceStreamBridge.abandon awaits.cancel failure (leaving world request.sessionId n voice) := by
    unfold open_
    rw [hsession]
    simp only
    rw [hopening]
    simp only
    rw [hprovider]
    simp only
    rw [hstarted]
    rfl
  rw [hopen]
  exact failsClean_leaving (opening_free hopening) _ _ _

/-- `tts_started` returns; what it did to the voice stays when `transport_selected` fails. -/
theorem failsClean_started {voice : VoiceSessionState}
    (hsession : awaits.session = .ok session) (hopening : opening request session world = .ok found)
    (hprovider : awaits.provider = .ok ())
    (hstarted : coordinate (.ttsStarted found.turn.id) awaits.started
      (world.voice request.sessionId) = (.ok (), voice)) :
    FailsClean request.sessionId world (open_ streamId n request awaits world) ↔
      awaits.selected.Logs ∨
        awaits.selected.Uncut ∧ SameFloor (world.voice request.sessionId) voice := by
  obtain ⟨outcome, hselected, hlogs, huncut⟩ := coordinate_selected .tts .server
    (some request.providerId) none awaits.selected voice
  have hvoice : (setVoice { world with
      openingSessions := Function.update world.openingSessions request.sessionId (some n) }
      request.sessionId voice).voice request.sessionId = voice := Function.update_self _ _ _
  have hopen : ∃ after : Opened OutputWorld String, open_ streamId n request awaits world = after ∧
      ((∃ failure, outcome = .error failure ∧ after = VoiceStreamBridge.abandon awaits.cancel failure
        (leaving world request.sessionId n voice)) ∨
      outcome = .ok () ∧ ∃ id, after.outcome = .ok id) := by
    refine ⟨_, rfl, ?_⟩
    unfold open_
    rw [hsession]
    simp only
    rw [hopening]
    simp only
    rw [hprovider]
    simp only
    rw [hstarted]
    simp only
    rw [hvoice, hselected]
    cases outcome with
    | error failure =>
      refine .inl ⟨failure, rfl, ?_⟩
      unfold leaving setVoice
      simp only [Function.update_idem]
    | ok returned => exact .inr ⟨rfl, _, rfl⟩
  obtain ⟨after, hopen, hfails | hreturns⟩ := hopen
  · obtain ⟨failure, rfl, rfl⟩ := hfails
    rw [hopen, failsClean_leaving (opening_free hopening), ← huncut, ← hlogs]
    constructor
    · rintro ⟨hcut, hfloor⟩
      exact .inr ⟨fun h => hcut (Except.error.inj h), hfloor⟩
    · rintro (h | ⟨hcut, hfloor⟩)
      · cases h
      · exact ⟨fun h => hcut (by rw [h]), hfloor⟩
  · obtain ⟨hok, id, hid⟩ := hreturns
    rw [hopen]
    refine ⟨fun _ => .inl (hlogs.mp hok), fun _ failure h => ?_⟩
    rw [hid] at h
    cases h

theorem Spared.of_unloaded {voice : VoiceSessionState} {turnId : String}
    (hcut : awaits.started.session ≠ .error .cancelled)
    (hnone : ∀ session, awaits.started.session ≠ .ok (some session)) :
    Spared awaits voice turnId :=
  ⟨hcut, fun session h => absurd h (hnone session), fun session h => absurd h (hnone session)⟩

/-- What `Spared` says of a session that the store gives. -/
theorem spared_loaded {session : InterviewSession} {voice : VoiceSessionState} {turnId : String}
    (hsession : awaits.started.session = .ok (some session)) :
    Spared awaits voice turnId ↔
      (session.status = .cancelled → voice.phase = .closed) ∧
      (Starts session voice turnId →
        Appendable session.events ∧ awaits.started.write = .ok () ∧ awaits.selected.Logs ∨
        voice.phase = .speaking ∧ voice.activeTtsTurnId = some turnId ∧
          (Appendable session.events → awaits.started.write ≠ .error .cancelled ∧
            (awaits.started.write = .ok () → awaits.selected.Uncut))) := by
  refine ⟨fun h => ⟨h.ended session hsession, h.started session hsession⟩, ?_⟩
  rintro ⟨hended, hstarted⟩
  have hsame : ∀ other, awaits.started.session = .ok (some other) → other = session := by
    intro other hother
    rw [hsession] at hother
    exact (Option.some.inj (Except.ok.inj hother)).symm
  refine ⟨by rw [hsession]; exact fun h => (by cases h), ?_, ?_⟩
  · rintro other hother
    rw [hsame other hother]
    exact hended
  · rintro other hother
    rw [hsame other hother]
    exact hstarted

/-- Once there is a provider session, a call that fails leaves nothing just where it is spared. -/
theorem failsClean_spared (hsession : awaits.session = .ok session)
    (hopening : opening request session world = .ok found) (hprovider : awaits.provider = .ok ()) :
    FailsClean request.sessionId world (open_ streamId n request awaits world) ↔
      Spared awaits (world.voice request.sessionId) found.turn.id := by
  cases hstarted : awaits.started.session with
  | error failure =>
    rw [failsClean_abandoned hsession hopening hprovider (coordinate_failed hstarted)]
    constructor
    · rintro ⟨hcut, _⟩
      refine Spared.of_unloaded ?_ ?_
      · rw [hstarted]
        exact fun h => hcut (Except.error.inj h)
      · rw [hstarted]
        exact fun _ h => (by cases h)
    · intro h
      refine ⟨fun hcut => h.uncut ?_, .rfl⟩
      rw [hstarted, hcut]
  | ok loaded =>
    cases loaded with
    | none =>
      rw [failsClean_abandoned hsession hopening hprovider (coordinate_missing hstarted)]
      refine ⟨fun _ => Spared.of_unloaded ?_ ?_, fun _ => ⟨fun h => (by cases h), .rfl⟩⟩
      · rw [hstarted]
        exact fun h => (by cases h)
      · rw [hstarted]
        exact fun _ h => (by cases h)
    | some loaded =>
      rw [spared_loaded hstarted]
      by_cases hs : loaded.status = .cancelled
      · have hcancelled := coordinate_cancelled (world.voice request.sessionId) found.turn.id
          hstarted hs
        rw [failsClean_abandoned hsession hopening hprovider hcancelled]
        constructor
        · rintro ⟨_, hphase, _⟩
          exact ⟨fun _ => hphase.symm, fun hstarts => absurd hs hstarts.1⟩
        · rintro ⟨hclosed, _⟩
          exact ⟨fun h => (by cases h), (hclosed hs).symm, rfl⟩
      by_cases hstarts : Starts loaded (world.voice request.sessionId) found.turn.id
      swap
      · obtain ⟨e, hrefused⟩ := coordinate_refused _ hstarted hs hstarts
        rw [failsClean_abandoned hsession hopening hprovider hrefused]
        exact ⟨fun _ => ⟨fun h => absurd h hs, fun h => absurd h hstarts⟩,
          fun _ => ⟨fun h => (by cases h), .rfl⟩⟩
      obtain ⟨hok, herror⟩ := coordinate_playing hstarted hstarts
      by_cases happendable : Appendable loaded.events
      · have hplaying := hok happendable
        cases hwrite : awaits.started.write with
        | error failure =>
          rw [hwrite] at hplaying
          rw [failsClean_abandoned hsession hopening hprovider hplaying, sameFloor_playing]
          constructor
          · rintro ⟨hcut, hphase, hactive⟩
            refine ⟨fun h => absurd h hs, fun _ => .inr ⟨hphase, hactive, fun _ => ⟨?_, ?_⟩⟩⟩
            · exact fun h => hcut (Except.error.inj h)
            · exact fun h => (by cases h)
          · rintro ⟨_, hplays⟩
            rcases hplays hstarts with ⟨_, h, _⟩ | ⟨hphase, hactive, hcut⟩
            · cases h
            · exact ⟨fun h => (hcut happendable).1 (by rw [h]), hphase, hactive⟩
        | ok written =>
          rw [hwrite] at hplaying
          rw [failsClean_started hsession hopening hprovider hplaying, sameFloor_playing]
          constructor
          · intro h
            refine ⟨fun h => absurd h hs, fun _ => ?_⟩
            rcases h with hlogs | ⟨hcut, hphase, hactive⟩
            · exact .inl ⟨happendable, rfl, hlogs⟩
            · exact .inr ⟨hphase, hactive, fun _ => ⟨fun h => (by cases h), fun _ => hcut⟩⟩
          · rintro ⟨_, hplays⟩
            rcases hplays hstarts with ⟨_, _, hlogs⟩ | ⟨hphase, hactive, hcut⟩
            · exact .inl hlogs
            · exact .inr ⟨(hcut happendable).2 rfl, hphase, hactive⟩
      · obtain ⟨e, hplaying⟩ := herror happendable
        rw [failsClean_abandoned hsession hopening hprovider hplaying, sameFloor_playing]
        constructor
        · rintro ⟨_, hphase, hactive⟩
          exact ⟨fun h => absurd h hs, fun _ =>
            .inr ⟨hphase, hactive, fun h => absurd h happendable⟩⟩
        · rintro ⟨_, hplays⟩
          rcases hplays hstarts with ⟨h, _⟩ | ⟨hphase, hactive, _⟩
          · exact absurd h happendable
          · exact ⟨fun h => (by cases h), hphase, hactive⟩

theorem failsClean_iff (streamId : ℕ → String) (n : ℕ) (request : OpenRequest)
    (awaits : OpenAwaits) (world : OutputWorld) :
    FailsClean request.sessionId world (open_ streamId n request awaits world) ↔
      ∀ session found, awaits.session = .ok session → opening request session world = .ok found →
        awaits.provider = .ok () → Spared awaits (world.voice request.sessionId) found.turn.id := by
  cases hsession : awaits.session with
  | error failure =>
    have hopen : open_ streamId n request awaits world = ⟨.error failure, world, none⟩ := by
      unfold open_
      rw [hsession]
    rw [hopen]
    exact ⟨fun _ _ _ h => (by cases h), fun _ _ _ h => absurd rfl h⟩
  | ok session =>
    cases hopening : opening request session world with
    | error e =>
      have hopen : open_ streamId n request awaits world = ⟨.error (.raised e), world, none⟩ := by
        unfold open_
        rw [hsession]
        simp only
        rw [hopening]
      rw [hopen]
      refine ⟨fun _ other found hother hfound => ?_, fun _ _ _ h => absurd rfl h⟩
      rw [← Except.ok.inj hother, hopening] at hfound
      cases hfound
    | ok found =>
      cases hprovider : awaits.provider with
      | error failure =>
        have hopen : ∃ failure after, open_ streamId n request awaits world =
            ⟨.error failure, after, none⟩ := by
          unfold open_
          rw [hsession]
          simp only
          rw [hopening]
          simp only
          rw [hprovider]
          exact ⟨_, _, rfl⟩
        obtain ⟨failure, after, hopen⟩ := hopen
        rw [hopen]
        exact ⟨fun _ _ _ _ _ h => (by cases h), fun _ _ _ h => absurd rfl h⟩
      | ok returned =>
        rw [failsClean_spared hsession hopening hprovider]
        constructor
        · intro h other found' hother hfound _
          rw [← Except.ok.inj hother, hopening] at hfound
          rw [← Except.ok.inj hfound]
          exact h
        · exact fun h => h session found rfl hopening rfl

end VoiceOutputBridge

/-- A stream that fails to open leaves nothing behind, in either direction, just where it is spared. -/
theorem failed_open_iff :
    (∀ (request : VoiceStreamBridge.OpenRequest) (awaits : VoiceStreamBridge.OpenAwaits)
        (world : VoiceStreamBridge.World),
      VoiceStreamBridge.FailsClean world (VoiceStreamBridge.open_ request awaits world) ↔
        (awaits.provider = .ok () → VoiceStreamBridge.Spared awaits world.voice)) ∧
    ∀ (streamId : ℕ → String) (n : ℕ) (request : VoiceOutputBridge.OpenRequest)
        (awaits : VoiceOutputBridge.OpenAwaits) (world : OutputWorld),
      VoiceOutputBridge.FailsClean request.sessionId world
          (VoiceOutputBridge.open_ streamId n request awaits world) ↔
        ∀ session found, awaits.session = .ok session →
          VoiceOutputBridge.opening request session world = .ok found → awaits.provider = .ok () →
          VoiceOutputBridge.Spared awaits (world.voice request.sessionId) found.turn.id :=
  ⟨VoiceStreamBridge.failsClean_iff, VoiceOutputBridge.failsClean_iff⟩

end Opens

section Fixtures

attribute [local instance] checksumDigest

open VoiceOutputBridge (askedSession spelledId)

/-- The store has the session, and takes what is written. -/
def takenWrite : VoiceAwaits where
  session := .ok (some askedSession)
  call := plainVoice

/-- The store has the session, and another writer comes first. -/
def lostWrite : VoiceAwaits :=
  { takenWrite with write := .error (.raised voiceChangedConcurrently) }

theorem askedSession_appendable : Appendable askedSession.events := ⟨_, rfl⟩

/-- An STT stream whose `transport_selected` loses its write. -/
def lostSelection : VoiceStreamBridge.OpenAwaits where
  started := takenWrite
  selected := lostWrite

def sttRequest : VoiceStreamBridge.OpenRequest where
  sessionId := "session"
  config := plainConfig
  streamId := "stream"
  token := drawnToken
  providerId := "stt"

/-- A TTS stream whose `tts_started` loses its write. -/
def lostStart : VoiceOutputBridge.OpenAwaits where
  session := .ok (some askedSession)
  failed := takenWrite
  started := lostWrite
  selected := takenWrite

def ttsRequest : VoiceOutputBridge.OpenRequest where
  sessionId := "session"
  turnId := "turn-0"
  providerId := "tts"

/-- The STT stream stays open in the manager; the voice goes on speaking. -/
theorem failed_open_remains :
    ¬VoiceStreamBridge.FailsClean {} (VoiceStreamBridge.open_ sttRequest lostSelection {}) ∧
    ¬VoiceOutputBridge.FailsClean ttsRequest.sessionId {}
      (VoiceOutputBridge.open_ spelledId 0 ttsRequest lostStart {}) := by
  constructor
  · have hstarted : coordinate .speechStarted takenWrite {} = (.ok (), heard {} plainVoice.nowMs) :=
      coordinate_heard {} rfl (by decide) askedSession_appendable
    have hfails := @VoiceStreamBridge.failsClean_started _ sttRequest lostSelection {} _ rfl hstarted
    rw [hfails]
    rintro ⟨_, _, _, h⟩
    cases h
  · have hstarts : VoiceOutputBridge.Starts askedSession {} "turn-0" :=
      ⟨by decide, by decide, .inl rfl⟩
    have hstarted : coordinate (.ttsStarted "turn-0") lostWrite {} =
        (.error (.raised voiceChangedConcurrently), playing {} plainVoice.nowMs "turn-0") :=
      (VoiceOutputBridge.coordinate_playing rfl hstarts).1 askedSession_appendable
    have hfails := @VoiceOutputBridge.failsClean_abandoned _ spelledId 0 ttsRequest lostStart {} _ _ _
      _ rfl rfl rfl hstarted
    rw [hfails]
    rintro ⟨_, h, _⟩
    cases h

end Fixtures

end NoraInterviewer
