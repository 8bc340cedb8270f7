import NoraInterviewer.VoiceRuns

namespace NoraInterviewer

namespace RealtimeVoiceCoordinator

open Voicing

section

variable [CanonicalDigest]

/-- The step keeps the floor of a candidate who interrupted when the session had `turns`: no TTS
event for one of these is accepted or ends the listening, and no audio is active. -/
structure KeepsFloor (backend : Backend) (turns : List String) (world : VoiceWorld)
    (step : VoiceStep) : Prop where
  refuses : ∀ call operation turnId, step = .voice call operation →
    operation.ttsTurn = some turnId → turnId ∈ turns →
    step.taken backend world = false ∧
      (world.voice.phase = .listening → (step.after backend world).voice.phase = .listening)
  unset : (step.after backend world).voice.activeTtsTurnId = none

/-- `transcript_final` succeeds. -/
def VoiceStep.finishes (backend : Backend) (world : VoiceWorld) : VoiceStep → Prop
  | .voice call (.transcriptFinal event) =>
    (VoiceStep.voice call (.transcriptFinal event)).taken backend world = true
  | _ => False

/-- The floor is kept until the next `transcript_final` that succeeds. -/
def FloorKept (backend : Backend) (turns : List String) : VoiceWorld → List VoiceStep → Prop
  | _, [] => True
  | world, step :: rest =>
    step.finishes backend world ∨
      KeepsFloor backend turns world step ∧ FloorKept backend turns (step.after backend world) rest

/-- No `tts_started` names a turn that the session has (in a cancelled session, one of `turns`
while the candidate speaks), and the last write of a transcript that was answered goes through. -/
def VoiceStep.LeavesFloor (backend : Backend) (turns : List String) (world : VoiceWorld) :
    VoiceStep → Prop
  | .voice _ (.ttsStarted turnId) =>
    if world.stored.status = .cancelled then turnId ∈ turns → world.voice.phase ≠ .listening
    else turnOf world.stored turnId = none
  | .voice call (.transcriptFinal event) =>
    accepted (takeFinal backend call event world) = true → call.responsePersists = true
  | _ => True

def AllLeaveFloor (backend : Backend) (turns : List String) : VoiceWorld → List VoiceStep → Prop
  | _, [] => True
  | world, step :: rest =>
    step.finishes backend world ∨ step.LeavesFloor backend turns world ∧
      AllLeaveFloor backend turns (step.after backend world) rest

variable {backend : Backend} {turns : List String} {world : VoiceWorld} {call : VoiceCall}

/-- Only `tts_started` and `transcript_final` can make audio active. -/
theorem Does.unset {operation : VoiceOperation} {taken : Bool} {after : VoiceWorld}
    (h : Does backend call world operation taken after)
    (ha : world.voice.activeTtsTurnId = none) (hs : ∀ turnId, operation ≠ .ttsStarted turnId)
    (hf : ∀ event, operation ≠ .transcriptFinal event) :
    after.voice.activeTtsTurnId = none ∧ (operation.ttsTurn.isSome = true →
      taken = false ∧ after.voice.phase = world.voice.phase) := by
  cases h with
  | refused => exact ⟨ha, fun _ => ⟨rfl, rfl⟩⟩
  | ended hi =>
    refine ⟨ha, fun htts => ?_⟩
    cases operation with
    | speechStarted => cases htts
    | transcriptPartial => cases htts
    | transcriptFinal => cases htts
    | _ => cases hi
  | @stopped turnId => exact absurd rfl (hs turnId)
  | wrote hw =>
    cases hw with
    | speech =>
      refine ⟨?_, fun htts => (by cases htts)⟩
      unfold heard
      split
      next => rfl
      next => exact ha
    | heard => exact ⟨ha, fun htts => (by cases htts)⟩
    | @plays turnId => exact absurd rfl (hs turnId)
    | ends _ h =>
      rw [ha] at h
      cases h
    | silences _ h =>
      rw [ha] at h
      cases h
    | logs _ hl =>
      refine ⟨ha, fun htts => ?_⟩
      cases operation with
      | ttsStarted => cases hl
      | ttsCompleted => cases hl
      | ttsCancelled => cases hl
      | _ => cases htts
  | @final event => exact absurd rfl (hf event)
  | closed => exact ⟨rfl, fun htts => (by cases htts)⟩
  | cut _ h =>
    rw [ha] at h
    cases h
  | uncut h =>
    rw [ha] at h
    cases h

theorem ttsStarted_keepsFloor_iff (turnId : String) (hs : Sealed world.stored.events)
    (ha : world.voice.activeTtsTurnId = none) :
    KeepsFloor backend turns world (.voice call (.ttsStarted turnId)) ↔
      if world.stored.status = .cancelled then turnId ∈ turns → world.voice.phase ≠ .listening
      else turnOf world.stored turnId = none := by
  obtain ⟨hafter, htaken⟩ :=
    VoiceStep.voice_after backend world call (.ttsStarted turnId)
  have hdoes := perform_does backend call (.ttsStarted turnId) hs
  rw [← hafter, ← htaken] at hdoes
  generalize haf : (VoiceStep.voice call (.ttsStarted turnId)).after backend world = after at hdoes
  generalize htk : (VoiceStep.voice call (.ttsStarted turnId)).taken backend world = taken at hdoes
  cases hdoes with
  | refused h =>
    cases h with
    | unknown hc hr =>
      have hunknown : turnOf world.stored turnId = none := hr.resolve_right fun hstale => hstale.1 ha
      rw [if_neg hc]
      refine iff_of_true ⟨fun _ _ _ _ _ _ => ⟨htk, fun hp => ?_⟩, ?_⟩ hunknown
      · rw [haf]
        exact hp
      · rw [haf]
        exact ha
  | ended hi => cases hi
  | stopped hc =>
    rw [if_pos hc]
    constructor
    · rintro ⟨hrefuses, _⟩ hin hlistening
      obtain ⟨_, hkept⟩ := hrefuses call _ turnId rfl rfl hin
      have hphase := hkept hlistening
      rw [haf] at hphase
      cases hphase
    · intro hnot
      refine ⟨?_, by rw [haf]; exact ha⟩
      intro called operation other heq hother hin
      cases heq
      cases hother
      exact ⟨htk, fun hlistening => absurd hlistening (hnot hin)⟩
  | wrote hw =>
    cases hw with
    | plays payload hc hturn =>
      rw [if_neg hc]
      refine iff_of_false (fun hkeeps => ?_) (by rw [hturn]; simp)
      have hunset := hkeeps.unset
      rw [haf] at hunset
      cases hunset
    | logs _ h => cases h

omit [CanonicalDigest] in
theorem timed_active (voice : VoiceSessionState) (nowMs : Nat) :
    (timed voice nowMs).activeTtsTurnId = voice.activeTtsTurnId := by
  unfold timed
  split
  next => rfl
  next => rfl

/-- A transcript that got no answer makes no audio active. -/
theorem Takes.unset {event : TranscriptEvent}
    {result : EStateM.Result PyError VoiceWorld SessionStep}
    (h : Takes backend call event world result) (ha : world.voice.activeTtsTurnId = none) :
    (landed result).voice.activeTtsTurnId = none := by
  have htimed : (timed world.voice call.nowMs).activeTtsTurnId = none :=
    (timed_active _ _).trans ha
  cases h with
  | ended => exact ha
  | refused => exact ha
  | unreadable => exact htimed
  | unwritten => exact htimed
  | @answered _ _ _ result _ _ _ _ _ _ _ =>
    cases result with
    | ok => exact htimed
    | error => exact htimed

/-- A `transcript_final` that does not succeed leaves no audio active exactly when no answer was
taken whose last write failed. -/
theorem transcriptFinal_keepsFloor_iff (event : TranscriptEvent) (hs : Sealed world.stored.events)
    (ha : world.voice.activeTtsTurnId = none)
    (hnot : ¬(VoiceStep.voice call (.transcriptFinal event)).finishes backend world) :
    KeepsFloor backend turns world (.voice call (.transcriptFinal event)) ↔
      (accepted (takeFinal backend call event world) = true → call.responsePersists = true) := by
  obtain ⟨hafter, htaken⟩ := VoiceStep.voice_after backend world call
    (.transcriptFinal event)
  obtain ⟨hland, haccept⟩ :=
    reply_same (transcriptFinal backend call event) VoiceReply.turn world
  have hunset : KeepsFloor backend turns world (.voice call (.transcriptFinal event)) ↔
      (landed (transcriptFinal backend call event world)).voice.activeTtsTurnId = none := by
    constructor
    · rintro ⟨_, h⟩
      rw [hafter] at h
      rw [← hland]
      exact h
    · intro h
      refine ⟨fun _ _ _ heq htts => (by cases heq; cases htts), ?_⟩
      rw [hafter]
      rw [← hland] at h
      exact h
  have hfailed : accepted (transcriptFinal backend call event world) = false := by
    rw [← haccept]
    have hrefused : (VoiceStep.voice call (.transcriptFinal event)).taken backend world ≠ true :=
      hnot
    rw [htaken] at hrefused
    exact Bool.eq_false_iff.mpr hrefused
  rw [hunset]
  have hfinals := transcriptFinal_finals backend call event hs
  generalize transcriptFinal backend call event world = result at hfinals hfailed
  cases hfinals with
  | @failed e after h =>
    have htakes := takeFinal_takes backend call event hs
    rw [h] at htakes ⊢
    exact iff_of_true (htakes.unset ha) (by simp)
  | @answered step turn mid events payload result h ht hready hr =>
    rw [h]
    cases hp : call.responsePersists with
    | true =>
      rw [hp] at hfailed
      cases hfailed
    | false =>
      refine iff_of_false (fun hnone => ?_) (by simp)
      have hactive : result.state.activeTtsTurnId = some turn.id := by
        rw [hr]
        show step.interviewerTurn.map Turn.id = _
        rw [ht]
        rfl
      have hnone : result.state.activeTtsTurnId = none := hnone
      rw [hactive] at hnone
      cases hnone

variable (turns) in
theorem keepsFloor_iff (step : VoiceStep) (hs : Sealed world.stored.events)
    (ha : world.voice.activeTtsTurnId = none) (hnot : ¬step.finishes backend world) :
    KeepsFloor backend turns world step ↔ step.LeavesFloor backend turns world := by
  cases step with
  | service called operation =>
    refine iff_of_true ⟨fun _ _ _ heq => (by cases heq), ?_⟩ trivial
    rw [VoiceStep.service_voice]
    exact ha
  | voice call operation =>
    have hother : (∀ turnId, operation ≠ .ttsStarted turnId) →
        (∀ event, operation ≠ .transcriptFinal event) →
        KeepsFloor backend turns world (.voice call operation) := by
      intro hstarted hfinal
      obtain ⟨hafter, htaken⟩ :=
        VoiceStep.voice_after backend world call operation
      obtain ⟨hunset, hrefuses⟩ := (perform_does backend call operation
        hs).unset ha hstarted hfinal
      refine ⟨?_, by rw [hafter]; exact hunset⟩
      intro called other turnId heq htts _
      cases heq
      obtain ⟨hrefused, hphase⟩ := hrefuses (by rw [htts]; rfl)
      rw [htaken, hafter, hphase]
      exact ⟨hrefused, id⟩
    cases operation with
    | ttsStarted turnId => exact ttsStarted_keepsFloor_iff turnId hs ha
    | transcriptFinal event => exact transcriptFinal_keepsFloor_iff event hs ha hnot
    | _ => exact iff_of_true (hother (by simp) (by simp)) trivial

/-- After a barge-in the candidate keeps the floor exactly as long as no `tts_started` names a
turn that the session has. -/
theorem floor_kept_iff {before : VoiceWorld} (hvoiced : Voiced backend before)
    (hspeaking : before.voice.phase = .speaking) (ha : ¬Ended before.stored)
    (steps : List VoiceStep) :
    let world := (VoiceStep.voice call .speechStarted).after backend before
    let turns := before.stored.turns.map Turn.id
    world.voice.phase = .listening ∧ world.voice.activeTtsTurnId = none ∧
      (FloorKept backend turns world steps ↔ AllLeaveFloor backend turns world steps) := by
  intro world turns
  have hsealed : Sealed world.stored.events := VoiceStep.seals _ hvoiced.sealed
  have hworld : world.voice = heard before.voice call.nowMs := by
    show ((VoiceStep.voice call .speechStarted).after backend before).voice = _
    rw [(VoiceStep.voice_after _ _ _ _).1]
    refine (congrArg VoiceWorld.voice (reply_same (speechStarted backend call) _ before).1).trans ?_
    exact (speechStarted_active hvoiced.sealed ha).leaves.1
  have hunset : world.voice.activeTtsTurnId = none := by
    rw [hworld, heard, if_pos hspeaking]
  refine ⟨by rw [hworld]; rfl, hunset, ?_⟩
  clear_value world
  clear hworld
  induction steps generalizing world with
  | nil => exact Iff.rfl
  | cons step rest ih =>
    unfold FloorKept AllLeaveFloor
    by_cases hfinishes : step.finishes backend world
    · exact iff_of_true (.inl hfinishes) (.inl hfinishes)
    · have hstep := keepsFloor_iff turns step hsealed hunset hfinishes
      rw [or_iff_right hfinishes, or_iff_right hfinishes]
      constructor
      · rintro ⟨hkeeps, hrest⟩
        exact ⟨hstep.mp hkeeps, (ih _ (step.seals hsealed) hkeeps.unset).mp hrest⟩
      · rintro ⟨hleaves, hrest⟩
        have hkeeps := hstep.mpr hleaves
        exact ⟨hkeeps, (ih _ (step.seals hsealed) hkeeps.unset).mpr hrest⟩

end

section Runs

attribute [local instance] checksumDigest

/-- The audio of the first question plays, and the interview has not ended. -/
def speaksFirst (world : VoiceWorld) : Bool :=
  world.voice.phase = .speaking && !decide (Ended world.stored) &&
    world.stored.turns.map Turn.id = ["turn-0"]

/-- The interrupted audio is reported completed and then cancelled. -/
theorem floor_kept_reported : ∃ before, Voiced .memory before ∧ before.voice.phase = .speaking ∧
    FloorKept .memory (before.stored.turns.map Turn.id)
      ((VoiceStep.voice plainVoice .speechStarted).after .memory before)
      [.voice plainVoice (.ttsCompleted "turn-0"),
        .voice plainVoice (.ttsCancelled "turn-0" "provider_cancelled")] := by
  have hrun : (voicedRun plainJob askedAloud).any speaksFirst = true := by decide +kernel
  obtain ⟨before, hvoiced, hcheck⟩ := voicedRun_last hrun
  obtain ⟨⟨hspeaking, hactive⟩, _⟩ : (before.voice.phase = .speaking ∧ ¬Ended before.stored) ∧
      before.stored.turns.map Turn.id = ["turn-0"] := by simpa [speaksFirst] using hcheck
  obtain ⟨_, _, hiff⟩ := floor_kept_iff hvoiced hspeaking hactive
    [.voice plainVoice (.ttsCompleted "turn-0"),
      .voice plainVoice (.ttsCancelled "turn-0" "provider_cancelled")]
  exact ⟨before, hvoiced, hspeaking, hiff.mpr (.inr ⟨trivial, .inr ⟨trivial, trivial⟩⟩)⟩

/-- A late start of the interrupted audio is accepted, and takes the floor again. -/
def retakesFloor (before : VoiceWorld) : Bool :=
  speaksFirst before &&
    let world := (VoiceStep.voice plainVoice .speechStarted).after .memory before
    (VoiceStep.voice plainVoice (.ttsStarted "turn-0")).taken .memory world &&
      ((VoiceStep.voice plainVoice (.ttsStarted "turn-0")).after .memory world).voice.phase =
        .speaking

theorem floor_taken_by_late_start : ∃ before, Voiced .memory before ∧
    before.voice.phase = .speaking ∧ ¬Ended before.stored ∧
    ¬FloorKept .memory (before.stored.turns.map Turn.id)
      ((VoiceStep.voice plainVoice .speechStarted).after .memory before)
      [.voice plainVoice (.ttsStarted "turn-0")] := by
  have hrun : (voicedRun plainJob askedAloud).any retakesFloor = true := by decide +kernel
  obtain ⟨before, hvoiced, hcheck⟩ := voicedRun_last hrun
  obtain ⟨hfirst, hretakes⟩ := Bool.and_eq_true_iff.mp hcheck
  obtain ⟨⟨hspeaking, hactive⟩, hturns⟩ : (before.voice.phase = .speaking ∧
      ¬Ended before.stored) ∧ before.stored.turns.map Turn.id = ["turn-0"] := by
    simpa [speaksFirst] using hfirst
  refine ⟨before, hvoiced, hspeaking, hactive, fun hkept => ?_⟩
  obtain ⟨hkeeps, _⟩ := hkept.resolve_left id
  obtain ⟨htaken, _⟩ := Bool.and_eq_true_iff.mp hretakes
  have hrefused := (hkeeps.refuses plainVoice _ "turn-0" rfl rfl (by rw [hturns]; simp)).1
  rw [htaken] at hrefused
  cases hrefused

end Runs

end RealtimeVoiceCoordinator

end NoraInterviewer
