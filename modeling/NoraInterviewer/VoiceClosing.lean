import NoraInterviewer.VoiceRuns

namespace NoraInterviewer

namespace RealtimeVoiceCoordinator

open Voicing

/-- The event ends the audio of the turn. -/
def VoiceOperation.EndsAudio (operation : VoiceOperation) (turnId : String) : Prop :=
  operation = .ttsCompleted turnId ∨ ∃ reason, operation = .ttsCancelled turnId reason

/-- The event is a turn of the candidate or about interviewer audio. -/
def VoiceOperation.speaks (operation : VoiceOperation) : Bool :=
  operation.isInput || operation.ttsTurn.isSome

section

variable [CanonicalDigest]

/-- The step keeps a closed voice closed and takes no turn or TTS event on it, and it closes the
voice when it ends the active audio of a completed session. -/
structure StaysClosed (backend : Backend) (world : VoiceWorld) (step : VoiceStep) : Prop where
  closed : world.voice.phase = .closed → (step.after backend world).voice.phase = .closed
  refuses : world.voice.phase = .closed → ∀ call operation, step = .voice call operation →
    VoiceOperation.speaks operation = true → step.taken backend world = false
  ends : world.stored.status = .completed → ∀ call operation turnId,
    step = .voice call operation → VoiceOperation.EndsAudio operation turnId →
    world.voice.activeTtsTurnId = some turnId → (step.after backend world).voice.phase = .closed

/-- No speech starts on the closed voice of a session that goes on, no audio starts or ends on a
closed voice, and no audio is cancelled on a completed session. -/
def VoiceStep.RespectsClosing (world : VoiceWorld) : VoiceStep → Prop
  | .voice _ .speechStarted => world.voice.phase = .closed → Ended world.stored
  | .voice _ (.ttsStarted turnId) => world.voice.phase = .closed →
    world.stored.status = .cancelled ∨ turnOf world.stored turnId = none ∨
      world.voice.activeTtsTurnId ≠ none ∧ world.voice.activeTtsTurnId ≠ some turnId
  | .voice call (.ttsCompleted turnId) =>
    world.voice.activeTtsTurnId = some turnId → world.voice.phase = .closed →
      world.stored.status = .completed ∧ call.persists = false
  | .voice _ (.ttsCancelled turnId _) =>
    world.voice.activeTtsTurnId = some turnId →
      world.voice.phase ≠ .closed ∧ world.stored.status ≠ .completed
  | _ => True

def AllStayClosed (backend : Backend) : VoiceWorld → List VoiceStep → Prop
  | _, [] => True
  | world, step :: rest =>
    StaysClosed backend world step ∧ AllStayClosed backend (step.after backend world) rest

def AllRespectClosing (backend : Backend) : VoiceWorld → List VoiceStep → Prop
  | _, [] => True
  | world, step :: rest =>
    step.RespectsClosing world ∧ AllRespectClosing backend (step.after backend world) rest

variable {backend : Backend} {world : VoiceWorld} {call : VoiceCall}

/-- What the promise says of a call, in terms of what the call does. -/
theorem staysClosed_voice_iff (operation : VoiceOperation) :
    StaysClosed backend world (.voice call operation) ↔
      (world.voice.phase = .closed →
        (landed (perform backend call operation world)).voice.phase = .closed) ∧
      (world.voice.phase = .closed → VoiceOperation.speaks operation = true →
        accepted (perform backend call operation world) = false) ∧
      (world.stored.status = .completed → ∀ turnId, VoiceOperation.EndsAudio operation turnId →
        world.voice.activeTtsTurnId = some turnId →
        (landed (perform backend call operation world)).voice.phase = .closed) := by
  obtain ⟨hafter, htaken⟩ :=
    VoiceStep.voice_after backend world call operation
  constructor
  · rintro ⟨hclosed, hrefuses, hends⟩
    rw [hafter] at hclosed
    refine ⟨hclosed, fun hphase hspeaks => ?_, fun hs turnId he hactive => ?_⟩
    · rw [← htaken]
      exact hrefuses hphase call operation rfl hspeaks
    · rw [← hafter]
      exact hends hs call operation turnId rfl he hactive
  · rintro ⟨hclosed, hrefuses, hends⟩
    refine ⟨by rw [hafter]; exact hclosed, ?_, ?_⟩
    · intro hphase called other heq hspeaks
      cases heq
      rw [htaken]
      exact hrefuses hphase hspeaks
    · intro hs called other turnId heq he hactive
      cases heq
      rw [hafter]
      exact hends hs turnId he hactive

theorem Takes.closed {event : TranscriptEvent}
    {result : EStateM.Result PyError VoiceWorld SessionStep}
    (h : Takes backend call event world result) (hp : world.voice.phase = .closed) :
    accepted result = false ∧ (landed result).voice.phase = .closed := by
  have htimed : (timed world.voice call.nowMs).phase = world.voice.phase := by
    unfold timed
    split
    next => rfl
    next => rfl
  cases h with
  | ended => exact ⟨rfl, rfl⟩
  | refused => exact ⟨rfl, hp⟩
  | unreadable => exact ⟨rfl, htimed.trans hp⟩
  | unwritten => exact ⟨rfl, htimed.trans hp⟩
  | answered _ hphase =>
    rw [hp] at hphase
    cases hphase

theorem Finals.closed {event : TranscriptEvent}
    {result : EStateM.Result PyError VoiceWorld VoiceTurnResult}
    (h : Finals backend call event world result) (hs : Sealed world.stored.events)
    (hp : world.voice.phase = .closed) :
    accepted result = false ∧ (landed result).voice.phase = .closed := by
  have htakes := takeFinal_takes backend call event hs
  cases h with
  | failed h =>
    rw [h] at htakes
    exact htakes.closed hp
  | answered h =>
    rw [h] at htakes
    cases (htakes.closed hp).1

omit [CanonicalDigest] in
/-- What a call that writes once has to be for a closed voice to stay so. -/
theorem Writes.respects_iff {operation : VoiceOperation} {voice : VoiceSessionState}
    {entries : List LogEntry} (hw : Writes call world operation voice entries) :
    (world.voice.phase = .closed → voice.phase = .closed) ∧
      (world.voice.phase = .closed → VoiceOperation.speaks operation = true →
        call.persists = false) ∧
      (world.stored.status = .completed → ∀ turnId, VoiceOperation.EndsAudio operation turnId →
        world.voice.activeTtsTurnId = some turnId → voice.phase = .closed) ↔
      (VoiceStep.voice call operation).RespectsClosing world := by
  cases hw with
  | speech ha =>
    constructor
    · rintro ⟨hclosed, _⟩ hphase
      cases hclosed hphase
    · intro hended
      have hopen : world.voice.phase ≠ .closed := fun hphase => ha (hended hphase)
      refine ⟨fun hphase => absurd hphase hopen, fun hphase => absurd hphase hopen, ?_⟩
      rintro _ turnId (he | ⟨reason, he⟩)
      · cases he
      · cases he
  | heard payload ha hp =>
    refine iff_of_true ⟨id, fun hphase => ?_, ?_⟩ trivial
    · rw [hp] at hphase
      cases hphase
    · rintro _ turnId (he | ⟨reason, he⟩)
      · cases he
      · cases he
  | @plays started turn payload hc hturn ha =>
    constructor
    · rintro ⟨hclosed, _⟩ hphase
      cases hclosed hphase
    · intro hrespects
      have hopen : world.voice.phase ≠ .closed := by
        intro hphase
        rcases hrespects hphase with hcancelled | hnone | ⟨hsome, hstale⟩
        · exact hc hcancelled
        · rw [hturn] at hnone
          cases hnone
        · exact ha.elim hsome hstale
      refine ⟨fun hphase => absurd hphase hopen, fun hphase => absurd hphase hopen, ?_⟩
      rintro _ turnId (he | ⟨reason, he⟩)
      · cases he
      · cases he
  | @ends ended payload h =>
    constructor
    · rintro ⟨hclosed, hrefuses, _⟩ _ hphase
      refine ⟨?_, hrefuses hphase rfl⟩
      have hplayed := hclosed hphase
      unfold played at hplayed
      by_contra hgoes
      rw [if_neg hgoes] at hplayed
      cases hplayed
    · intro hrespects
      refine ⟨fun hphase => ?_, fun hphase _ => (hrespects h hphase).2, fun hcompleted _ _ _ => ?_⟩
      · exact if_pos (hrespects h hphase).1
      · exact if_pos hcompleted
  | @silences cancelled reason payload h =>
    constructor
    · rintro ⟨hclosed, _, hends⟩ _
      refine ⟨fun hphase => ?_, fun hcompleted => ?_⟩
      · cases hclosed hphase
      · cases hends hcompleted cancelled (.inr ⟨reason, rfl⟩) h
    · intro hrespects
      obtain ⟨hopen, hgoes⟩ := hrespects h
      exact ⟨fun hphase => absurd hphase hopen, fun hphase => absurd hphase hopen,
        fun hcompleted => absurd hcompleted hgoes⟩
  | logs payload hl =>
    have hspeaks : VoiceOperation.speaks operation = false := by
      cases operation with
      | providerFailed => rfl
      | transportSelected => rfl
      | transportFallback => rfl
      | vadEndpoint => rfl
      | _ => cases hl
    have hends : ∀ turnId, ¬VoiceOperation.EndsAudio operation turnId := by
      rintro turnId (rfl | ⟨reason, rfl⟩)
      · cases hl
      · cases hl
    have hrespects : (VoiceStep.voice call operation).RespectsClosing world := by
      cases operation with
      | providerFailed => trivial
      | transportSelected => trivial
      | transportFallback => trivial
      | vadEndpoint => trivial
      | _ => cases hl
    refine iff_of_true ⟨id, fun _ hs => ?_, fun _ turnId he => absurd he (hends turnId)⟩ hrespects
    rw [hspeaks] at hs
    cases hs

variable (call) in
omit [CanonicalDigest] in
/-- A refusal leaves the voice as it was. -/
theorem Refuses.respects {operation : VoiceOperation} (h : Refuses world operation) :
    (world.stored.status = .completed → ∀ turnId, VoiceOperation.EndsAudio operation turnId →
        world.voice.activeTtsTurnId = some turnId → world.voice.phase = .closed) ∧
      (VoiceStep.voice call operation).RespectsClosing world := by
  cases h with
  | heard ha hp =>
    refine ⟨?_, trivial⟩
    rintro _ turnId (he | ⟨reason, he⟩)
    · cases he
    · cases he
  | unknown hc hr =>
    refine ⟨?_, fun _ => .inr hr⟩
    rintro _ turnId (he | ⟨reason, he⟩)
    · cases he
    · cases he
  | completed h =>
    refine ⟨?_, fun hactive => absurd hactive h⟩
    rintro _ turnId (he | ⟨reason, he⟩) hactive
    · cases he
      exact absurd hactive h
    · cases he
  | cancelled h =>
    refine ⟨?_, fun hactive => absurd hactive h⟩
    rintro _ turnId (he | ⟨reason, he⟩) hactive
    · cases he
    · cases he
      exact absurd hactive h

theorem staysClosed_iff (step : VoiceStep) (hs : Sealed world.stored.events) :
    StaysClosed backend world step ↔ step.RespectsClosing world := by
  cases step with
  | service called operation =>
    refine iff_of_true ⟨?_, fun _ _ _ heq => (by cases heq), fun _ _ _ _ heq => (by cases heq)⟩
      trivial
    rw [VoiceStep.service_voice]
    exact id
  | voice call operation =>
    rw [staysClosed_voice_iff]
    have hdoes := perform_does backend call operation hs
    generalize accepted (perform backend call operation world) = taken at hdoes ⊢
    generalize landed (perform backend call operation world) = after at hdoes ⊢
    cases hdoes with
    | refused h =>
      obtain ⟨hends, hrespects⟩ := h.respects call
      exact iff_of_true ⟨id, fun _ _ => rfl, hends⟩ hrespects
    | ended hi h =>
      refine iff_of_true ⟨fun _ => rfl, fun _ _ => rfl, fun _ _ _ _ => rfl⟩ ?_
      cases operation with
      | speechStarted => exact fun _ => h
      | transcriptPartial => trivial
      | transcriptFinal => trivial
      | _ => cases hi
    | stopped h =>
      exact iff_of_true ⟨fun _ => rfl, fun _ _ => rfl, fun _ _ _ _ => rfl⟩ fun _ => .inl h
    | wrote hw => exact hw.respects_iff
    | final ha h =>
      refine iff_of_true ⟨fun hp => (h.closed hs hp).2, fun hp _ => (h.closed hs hp).1, ?_⟩ trivial
      rintro _ turnId (he | ⟨reason, he⟩)
      · cases he
      · cases he
    | closed =>
      exact iff_of_true ⟨fun _ => rfl, fun _ hspeaks => (by cases hspeaks), fun _ _ _ _ => rfl⟩
        trivial
    | cut =>
      exact iff_of_true ⟨fun _ => rfl, fun _ hspeaks => (by cases hspeaks), fun _ _ _ _ => rfl⟩
        trivial
    | uncut =>
      refine iff_of_true ⟨id, fun _ _ => rfl, ?_⟩ trivial
      rintro _ turnId (he | ⟨reason, he⟩)
      · cases he
      · cases he

/-- In a run of any voice events and interview operations a closed voice is final exactly when
every step respects that. -/
theorem closed_final_iff (h : Voiced backend world) (steps : List VoiceStep) :
    AllStayClosed backend world steps ↔ AllRespectClosing backend world steps := by
  induction steps generalizing world with
  | nil => exact Iff.rfl
  | cons step rest ih =>
    unfold AllStayClosed AllRespectClosing
    rw [staysClosed_iff step h.sealed, ih (h.stepped step)]

end

section Runs

attribute [local instance] checksumDigest

/-- The voice is closed while the first question plays, and two late transcripts are refused. -/
def closedAloud : List VoiceStep := [
  .voice plainVoice (.closeSession "session_cancelled"),
  .voice plainVoice (.transcriptPartial { text := "I built" }),
  .service (plainCall askDecision) (.cancelSession { reason := "candidate_left" }),
  .voice plainVoice (.transcriptFinal { text := "I built a queue." })]

theorem closed_final_late : ∃ world, Voiced .memory world ∧ world.voice.phase = .speaking ∧
    AllStayClosed .memory world closedAloud := by
  have hrun : (voicedRun plainJob askedAloud).any (fun world => world.voice.phase = .speaking) =
      true := by decide +kernel
  obtain ⟨world, hvoiced, hspeaking⟩ := voicedRun_last hrun
  exact ⟨world, hvoiced, of_decide_eq_true hspeaking,
    (closed_final_iff hvoiced closedAloud).mpr ⟨trivial, trivial, trivial, trivial, trivial⟩⟩

/-- The candidate answers the first question, and the closing turn `turn-2` is spoken. -/
def closingAloud : List VoiceStep := askedAloud ++ [
  .voice plainVoice .speechStarted,
  .voice { plainVoice with call := plainCall closeDecision }
    (.transcriptFinal { text := "I built a queue." }),
  .voice plainVoice (.ttsStarted "turn-2")]

/-- The audio of the closing turn plays. Cancelled, it does not close the voice; completed, it
does, but the voice speaks once more when the audio is started again. -/
def reopens (world : VoiceWorld) : Bool :=
  let closed := (VoiceStep.voice plainVoice (.ttsCompleted "turn-2")).after .memory world
  world.stored.status = .completed && world.voice.activeTtsTurnId = some "turn-2" &&
    ((VoiceStep.voice plainVoice (.ttsCancelled "turn-2" "provider_cancelled")).after .memory
      world).voice.phase = .idle && closed.voice.phase = .closed &&
    ((VoiceStep.voice plainVoice (.ttsStarted "turn-2")).after .memory closed).voice.phase =
      .speaking

theorem closed_reopened : ∃ world, Voiced .memory world ∧ world.stored.status = .completed ∧
    ¬AllStayClosed .memory world
      [.voice plainVoice (.ttsCancelled "turn-2" "provider_cancelled")] ∧
    ¬AllStayClosed .memory world
      [.voice plainVoice (.ttsCompleted "turn-2"), .voice plainVoice (.ttsStarted "turn-2")] := by
  have hrun : (voicedRun plainJob closingAloud).any reopens = true := by decide +kernel
  obtain ⟨world, hvoiced, hcheck⟩ := voicedRun_last hrun
  simp only [reopens, Bool.and_eq_true, decide_eq_true_eq] at hcheck
  obtain ⟨⟨⟨⟨hcompleted, hactive⟩, hcancelled⟩, hclosed⟩, hagain⟩ := hcheck
  refine ⟨world, hvoiced, hcompleted, ?_, ?_⟩
  · rintro ⟨hstays, _⟩
    have hended := hstays.ends hcompleted plainVoice _ "turn-2" rfl (.inr ⟨_, rfl⟩) hactive
    rw [hcancelled] at hended
    cases hended
  · rintro ⟨_, hstays, _⟩
    have hkept := hstays.closed hclosed
    rw [hagain] at hkept
    cases hkept

end Runs

end RealtimeVoiceCoordinator

end NoraInterviewer
