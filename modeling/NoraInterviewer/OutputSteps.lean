import NoraInterviewer.VoiceOutputBridge
import NoraInterviewer.VoiceGenerations
import Mathlib.Logic.Relation

namespace NoraInterviewer

/-- The call of `open` that goes on after the operation. -/
def AfterVoice.opening : AfterVoice → Option Opening
  | .openFailed opening | .openStarted opening | .openSelected opening => some opening
  | _ => none

/-- The call of `open` that has its session reserved. -/
def OutputPoint.opening : OutputPoint → Option Opening
  | .synthesizing opening | .abandoning opening => some opening
  | .voice _ _ _ after => after.opening
  | _ => none

def AwaitReply.isReturned : AwaitReply → Bool
  | .returned => true
  | _ => false

/-- A point of a call of `open`. -/
def OutputPoint.isOpen : OutputPoint → Bool
  | .fetching .. => true
  | point => point.opening.isSome

/-- A point of a call of `speech_started`. -/
def OutputPoint.isSpeech : OutputPoint → Bool
  | .voice _ _ _ .speechStarted => true
  | _ => false

/-- The stream that an iteration of `chunks` is about to read on. -/
def OutputPoint.plays : OutputPoint → Option String
  | .pulling streamId | .yielded streamId _ => some streamId
  | _ => none

/-- A point of a call that opens nothing and plays nothing. -/
structure OutputPoint.Settles (point : OutputPoint) : Prop where
  isOpen : point.isOpen = false
  isSpeech : point.isSpeech = false
  plays : point.plays = none

/-- Where a call that opens nothing can be suspended next. -/
inductive OutputPoint.Follows : OutputPoint → OutputPoint → Prop where
  | same {point : OutputPoint} : Follows point point
  | settles {point next : OutputPoint} (h : next.Settles) : Follows point next
  | pulled (streamId : String) (chunk : TtsAudioChunk) :
    Follows (.pulling streamId) (.yielded streamId chunk)
  | pulls (streamId : String) (chunk : TtsAudioChunk) :
    Follows (.yielded streamId chunk) (.pulling streamId)

namespace VoiceOutputBridge

open RealtimeVoiceCoordinator Relation

/-- What the segments that open nothing do to the world, one thing after another. In a strict one no
call ends without a release while its stream is in the tables. -/
inductive Change (strict : Bool) (world : OutputWorld) : OutputWorld → Prop where
  | record (streamId : String) (f : TtsStreamState → TtsStreamState)
    (hf : ∀ state, (f state).streamId = state.streamId ∧ (f state).sessionId = state.sessionId ∧
      (f state).turnId = state.turnId ∧ (f state).generation = state.generation) :
    Change strict world (setRecord world streamId f)
  | close {streamId : String} {record stored : OutputStream}
    (h : world.records streamId = some stored)
    (hid : record.state.streamId = stored.state.streamId)
    (hsession : record.state.sessionId = stored.state.sessionId) :
    Change strict world (closes world streamId record)
  | finish {streamId : String} {record : OutputStream} (h : world.records streamId = some record)
    (hid : strict = true → streamId ∉ world.streams) : Change strict world (finish world streamId)
  | voice (sessionId : String) (voice : VoiceSessionState)
    (h : (world.voice sessionId).generation ≤ voice.generation) :
    Change strict world (setVoice world sessionId voice)

/-- A segment that opens nothing and is not of `speech_started`. -/
structure Quiet (strict : Bool) (point : OutputPoint) (world : OutputWorld) (after : Segment) :
    Prop where
  changes : ReflTransGen (Change strict) world after.1
  follows : ∀ next, after.2 = some next → point.Follows next

variable {strict : Bool} {point : OutputPoint}

theorem Quiet.ends {world after : OutputWorld} (h : ReflTransGen (Change strict) world after) :
    Quiet strict point world (ends after) :=
  ⟨h, fun next hnext => (by cases hnext)⟩

theorem Quiet.waits {world after : OutputWorld} {next : OutputPoint}
    (h : ReflTransGen (Change strict) world after) (hf : point.Follows next) :
    Quiet strict point world (after, some next) :=
  ⟨h, fun other hother => (by cases hother; exact hf)⟩

theorem Quiet.of_change {world mid : OutputWorld} {after : Segment} (h : Change strict world mid)
    (hq : Quiet strict point mid after) : Quiet strict point world after :=
  ⟨.head h hq.changes, hq.follows⟩

theorem change_marked (world : OutputWorld) (streamId : String) :
    Change strict world (setRecord world streamId fun state => { state with cancelled := true }) :=
  .record streamId _ fun _ => ⟨rfl, rfl, rfl, rfl⟩

theorem recordOf_some {world : OutputWorld} {streamId : String} {record : OutputStream}
    (h : recordOf world streamId = some record) :
    streamId ∈ world.streams ∧ world.records streamId = some record := by
  unfold recordOf at h
  split at h
  next hin => exact ⟨hin, h⟩
  next => cases h

theorem notFound_changes {world : OutputWorld} {streamId : String}
    (h : recordOf world streamId = none) :
    ReflTransGen (Change strict) world (notFound world streamId) := by
  unfold notFound
  split
  next => exact .refl
  next record hrecord =>
    refine .single (.finish hrecord fun _ hin => ?_)
    unfold recordOf at h
    rw [if_pos hin, hrecord] at h
    cases h

theorem closeNext_quiet (ids : List String) (world : OutputWorld) :
    Quiet strict point world (closeNext ids world) := by
  induction ids generalizing world with
  | nil => exact .ends .refl
  | cons streamId rest ih =>
    unfold closeNext
    split
    next hnone =>
      obtain ⟨hchanges, hquiet⟩ := ih (notFound world streamId)
      exact ⟨(notFound_changes hnone).trans hchanges, hquiet⟩
    next record hrecord =>
      split
      next => exact .of_change (.close (recordOf_some hrecord).2 rfl rfl) (ih _)
      next => exact .waits (.single (change_marked world streamId)) (.settles ⟨rfl, rfl, rfl⟩)

/-- `chunks` releases its stream in any case, the others only when nothing was raised. -/
theorem afterMark_quiet {world : OutputWorld} {streamId : String} {record : OutputStream}
    {raised : Bool} {canceller : Canceller} (h : world.records streamId = some record)
    (hr : strict = true → raised = true → canceller ≠ .chunks → streamId ∉ world.streams) :
    Quiet strict point world (afterMark streamId record raised canceller world) := by
  unfold afterMark
  cases canceller with
  | chunks => exact .ends (.single (.close h rfl rfl))
  | cancelActive =>
    simp only
    split
    next hraised => exact .ends (.single (.finish h fun hstrict => hr hstrict hraised (by simp)))
    next => exact .ends (.single (.close h rfl rfl))
  | close =>
    simp only
    split
    next hraised => exact .ends (.single (.finish h fun hstrict => hr hstrict hraised (by simp)))
    next => exact .ends (.single (.close h rfl rfl))
  | closeAll rest =>
    simp only
    split
    next hraised => exact .ends (.single (.finish h fun hstrict => hr hstrict hraised (by simp)))
    next => exact .of_change (.close h rfl rfl) (closeNext_quiet rest _)

theorem markCancelled_quiet {world : OutputWorld} {streamId reason : String}
    {record : OutputStream} {canceller : Canceller} (h : world.records streamId = some record) :
    Quiet strict point world (markCancelled streamId reason record canceller world) := by
  unfold markCancelled
  split
  next => exact afterMark_quiet h fun _ hraised => (by cases hraised)
  next => exact .waits (.single (change_marked world streamId)) (.settles ⟨rfl, rfl, rfl⟩)

variable (providerId : String) (streamId : Nat → String)

theorem chunksRaise_quiet {world : OutputWorld} {id : String} {record : OutputStream}
    (failure : AwaitFailure) (h : world.records id = some record) :
    Quiet strict point world (chunksRaise providerId id record failure world) := by
  unfold chunksRaise
  split
  next => exact markCancelled_quiet h
  next => exact .waits .refl (.settles ⟨rfl, rfl, rfl⟩)

theorem chunkPulled_quiet {world : OutputWorld} {id : String} {record : OutputStream}
    (chunk : TtsAudioChunk) (h : world.records id = some record) :
    Quiet strict (.pulling id) world (chunkPulled providerId id record chunk world) := by
  unfold chunkPulled
  split
  next => exact chunksRaise_quiet providerId _ h
  next =>
    simp only
    split
    next => exact .waits (.single (change_marked world id)) (.settles ⟨rfl, rfl, rfl⟩)
    next => exact .waits (.single (.record id _ fun _ => ⟨rfl, rfl, rfl, rfl⟩)) (.pulled id chunk)

theorem chunksExhausted_quiet {world : OutputWorld} {id : String} {record : OutputStream}
    (h : world.records id = some record) :
    Quiet strict point world (chunksExhausted id record world) := by
  unfold chunksExhausted
  simp only
  split
  next => exact .waits .refl (.settles ⟨rfl, rfl, rfl⟩)
  next =>
    have hmarked : (setRecord world id fun state => { state with cancelled := true }).records id =
        some { record with state := { record.state with cancelled := true } } := by
      simp [setRecord, h]
    exact .ends (.tail (.single (change_marked world id)) (.close hmarked rfl rfl))

theorem isReturned_false {reply : AwaitReply} (h : reply = .returned → False) :
    reply.isReturned = false := by
  cases reply with
  | returned => exact absurd rfl h
  | _ => rfl

/-- Where the call would end without a release, the stream is in the tables no longer: `chunks` after
a `tts_completed` that raised, the other calls after a `_mark_cancelled` that raised. -/
def LeavesNone (world : OutputWorld) (returned : Bool) : AfterVoice → Prop
  | .markedCancelled id raised canceller =>
    canceller ≠ .chunks → raised = true ∨ returned = false → id ∉ world.streams
  | .chunksCompleted id => returned = false → id ∉ world.streams
  | _ => True

theorem afterVoice_quiet {world : OutputWorld} {n : Nat} {sessionId : String} {after : AfterVoice}
    {reply : AwaitReply} (hopen : after.opening = none) (hspeech : after ≠ .speechStarted)
    (hl : strict = true → LeavesNone world reply.isReturned after) :
    Quiet strict point world (afterVoice providerId streamId n sessionId after reply world) := by
  unfold afterVoice
  cases after with
  | openFailed | openStarted | openSelected => cases hopen
  | chunksReported id =>
    simp only
    split
    next => exact .ends .refl
    next record hrecord =>
      split
      next => exact .ends (.single (.close hrecord rfl rfl))
      next => exact markCancelled_quiet hrecord
  | markedCancelled id raised canceller =>
    simp only
    split
    next => exact .ends .refl
    next record hrecord =>
      split
      next => exact afterMark_quiet hrecord fun hstrict hraised hc => hl hstrict hc (.inl hraised)
      next hnot =>
        exact afterMark_quiet hrecord fun hstrict _ hc =>
          hl hstrict hc (.inr (isReturned_false hnot))
  | chunksCompleted id =>
    simp only
    split
    next => exact .ends .refl
    next record hrecord =>
      split
      next => exact .ends (.single (.close hrecord rfl rfl))
      next hnot =>
        exact .ends (.single (.finish hrecord fun hstrict => hl hstrict (isReturned_false hnot)))
  | speechStarted => exact absurd rfl hspeech

variable [CanonicalDigest]

theorem voiceSegment_climbs (call : VoiceCall) (session : InterviewSession)
    (operation : VoiceOperation) (voice : VoiceSessionState) :
    voice.generation ≤ (voiceSegment call session operation voice).2.generation :=
  perform_climbs _ _ _ ⟨voice, session⟩

/-- The same, of the step in which a suspended call gets `reply`. -/
def StepLeavesNone (world : OutputWorld) (point : OutputPoint) (reply : AwaitReply) : Prop :=
  match point, reply with
  | .cancelling id _ canceller, .raised _ | .cancelling id _ canceller, .cancelled =>
    ∀ record, world.records id = some record →
      (world.voice record.state.sessionId).activeTtsTurnId ≠ some record.state.turnId →
      canceller ≠ .chunks → id ∉ world.streams
  | .voice _ _ false after, .session none _ => LeavesNone world false after
  | .voice sessionId operation false after, .session (some session) call =>
    (voiceSegment call session operation (world.voice sessionId)).1 = false →
      LeavesNone world false after
  | .voice _ _ _ after, .raised _ | .voice _ _ _ after, .cancelled => LeavesNone world false after
  | .voice _ _ true after, .returned => LeavesNone world true after
  | _, _ => True

omit [CanonicalDigest] in
theorem voice_settles {sessionId : String} {operation : VoiceOperation} {persisting : Bool}
    {after : AfterVoice} (hopen : after.opening = none) (hspeech : after ≠ .speechStarted) :
    (OutputPoint.voice sessionId operation persisting after).Settles := by
  refine ⟨by simp [OutputPoint.isOpen, OutputPoint.opening, hopen], ?_, rfl⟩
  cases after with
  | speechStarted => exact absurd rfl hspeech
  | _ => rfl

theorem voiceLoaded_quiet {world : OutputWorld} {n : Nat} {sessionId : String}
    {operation : VoiceOperation} {after : AfterVoice} {session : Option InterviewSession}
    {call : VoiceCall} (hopen : after.opening = none) (hspeech : after ≠ .speechStarted)
    (hl : strict = true →
      StepLeavesNone world (.voice sessionId operation false after) (.session session call)) :
    Quiet strict point world
      (voiceLoaded providerId streamId n sessionId operation after session call world) := by
  unfold voiceLoaded
  cases session with
  | none => exact afterVoice_quiet providerId streamId hopen hspeech hl
  | some session =>
    simp only
    refine .of_change (.voice sessionId _ (voiceSegment_climbs call session operation _)) ?_
    split
    next => exact .waits .refl (.settles (voice_settles hopen hspeech))
    next hrefused =>
      exact afterVoice_quiet providerId streamId hopen hspeech fun hstrict =>
        hl hstrict (Bool.eq_false_iff.mpr hrefused)

theorem resume_quiet {world : OutputWorld} {n : Nat} {reply : AwaitReply}
    (hopen : point.isOpen = false) (hspeech : point.isSpeech = false)
    (hl : strict = true → StepLeavesNone world point reply) :
    Quiet strict point world (resume providerId streamId n point reply world) := by
  have hstays : Quiet strict point world (world, some point) := .waits .refl .same
  unfold resume
  cases point with
  | fetching | synthesizing | abandoning => cases hopen
  | pulling id =>
    simp only
    split
    next => exact .ends .refl
    next record hrecord =>
      split
      next => exact chunkPulled_quiet providerId _ hrecord
      next => exact chunksExhausted_quiet hrecord
      next => exact chunksRaise_quiet providerId _ hrecord
      next => exact .ends (.single (.close hrecord rfl rfl))
      next => exact hstays
  | yielded id chunk =>
    simp only
    split
    next => exact .ends .refl
    next record hrecord =>
      split
      next => exact .waits .refl (.pulls id chunk)
      next => exact .ends (.single (.close hrecord rfl rfl))
      next => exact hstays
  | dropping id =>
    simp only
    split
    next => exact .ends .refl
    next record hrecord =>
      split
      next => exact .ends (.single (.close hrecord rfl rfl))
      next => exact .ends (.single (.close hrecord rfl rfl))
      next => exact chunksRaise_quiet providerId _ hrecord
      next => exact hstays
  | cancelling id reason canceller =>
    simp only
    split
    next => exact .ends .refl
    next record hrecord =>
      have hcancelled : ∀ {raised : Bool}, (strict = true → raised = true →
          (world.voice record.state.sessionId).activeTtsTurnId ≠ some record.state.turnId →
          canceller ≠ .chunks → id ∉ world.streams) →
          Quiet strict (.cancelling id reason canceller) world
          (if (world.voice record.state.sessionId).activeTtsTurnId = some record.state.turnId then
            (world, some (.voice record.state.sessionId
              (.ttsCancelled record.state.turnId reason) false
              (.markedCancelled id raised canceller)))
          else afterMark id record raised canceller world) := by
        intro raised hr
        split
        next => exact .waits .refl (.settles ⟨rfl, rfl, rfl⟩)
        next hidle =>
          exact afterMark_quiet hrecord fun hstrict hraised hc => hr hstrict hraised hidle hc
      split
      next => exact hcancelled fun _ hraised => (by cases hraised)
      next => exact hcancelled fun hstrict _ => hl hstrict record hrecord
      next => exact hcancelled fun hstrict _ => hl hstrict record hrecord
      next => exact hstays
  | voice sessionId operation persisting after =>
    have hafter : after.opening = none := by
      simpa [OutputPoint.isOpen, OutputPoint.opening] using hopen
    have hother : after ≠ .speechStarted := by
      rintro rfl
      cases hspeech
    cases persisting with
    | false =>
      simp only
      split
      next => exact voiceLoaded_quiet providerId streamId hafter hother hl
      next => exact afterVoice_quiet providerId streamId hafter hother hl
      next => exact afterVoice_quiet providerId streamId hafter hother hl
      next => exact hstays
    | true =>
      simp only
      split
      next => exact afterVoice_quiet providerId streamId hafter hother hl
      next => exact afterVoice_quiet providerId streamId hafter hother hl
      next => exact afterVoice_quiet providerId streamId hafter hother hl
      next => exact hstays

/-- Where a call that opens nothing is suspended first. -/
inductive Enters (world : OutputWorld) : OutputPoint → Prop where
  | settles {next : OutputPoint} (h : next.Settles) : Enters world next
  | plays {id : String} (h : id ∈ world.streams) : Enters world (.pulling id)
  | speaks (sessionId : String) :
    Enters world (.voice sessionId .speechStarted false .speechStarted)

omit [CanonicalDigest] in
/-- After a point that settles only such points follow. -/
theorem Quiet.enters {world : OutputWorld} {after : Segment}
    (h : Quiet strict (.dropping "") world after) :
    ReflTransGen (Change strict) world after.1 ∧ ∀ next, after.2 = some next → Enters world next := by
  refine ⟨h.changes, fun next hnext => ?_⟩
  cases h.follows next hnext with
  | same => exact .settles ⟨rfl, rfl, rfl⟩
  | settles hsettles => exact .settles hsettles

theorem enter_quiet (strict : Bool) (world : OutputWorld) (n : Nat) {call : OutputCall}
    (h : ∀ sessionId turnId locale, call ≠ .open_ sessionId turnId locale) :
    ReflTransGen (Change strict) world (enter n call world).1 ∧
      ∀ next, (enter n call world).2 = some next → Enters world next := by
  unfold enter
  cases call with
  | open_ sessionId turnId locale => exact absurd rfl (h sessionId turnId locale)
  | chunks id =>
    simp only
    split
    next hnone => exact (Quiet.ends (notFound_changes hnone)).enters
    next record hrecord =>
      refine ⟨.refl, fun next hnext => ?_⟩
      cases hnext
      exact .plays (recordOf_some hrecord).1
  | cancelActive sessionId reason =>
    simp only
    split
    next => exact (Quiet.ends .refl).enters
    next id record hfound =>
      obtain ⟨found, _, hrecord⟩ := Option.bind_eq_some_iff.mp hfound
      obtain ⟨stored, hstored, heq⟩ := Option.map_eq_some_iff.mp hrecord
      cases heq
      exact (markCancelled_quiet (recordOf_some hstored).2).enters
  | close id reason =>
    simp only
    split
    next hnone => exact (Quiet.ends (notFound_changes hnone)).enters
    next record hrecord => exact (markCancelled_quiet (recordOf_some hrecord).2).enters
  | closeAll => exact (closeNext_quiet _ _).enters
  | speechStarted sessionId =>
    refine ⟨.refl, fun next hnext => ?_⟩
    cases hnext
    exact .speaks sessionId
  | coordinator sessionId call session operation =>
    exact (Quiet.ends (.single
      (.voice sessionId _ (perform_climbs _ _ _ ⟨_, session⟩)))).enters

/-- What a segment of `speech_started` does. -/
inductive Speaks (n : Nat) (world : OutputWorld) : OutputPoint → Segment → Prop where
  | stays {point : OutputPoint} : Speaks n world point (world, some point)
  | raised {point : OutputPoint} {voice : String → VoiceSessionState}
    (hvoice : ∀ s, (world.voice s).generation ≤ (voice s).generation) :
    Speaks n world point (ends { world with voice })
  | heard {sessionId : String} {operation : VoiceOperation} (session : InterviewSession)
    (call : VoiceCall)
    (ht : (voiceSegment call session operation (world.voice sessionId)).1 = true) :
    Speaks n world (.voice sessionId operation false .speechStarted)
      (setVoice world sessionId (voiceSegment call session operation (world.voice sessionId)).2,
        some (.voice sessionId operation true .speechStarted))
  | returned {sessionId : String} {operation : VoiceOperation} :
    Speaks n world (.voice sessionId operation true .speechStarted)
      (ends { world with interrupted := (sessionId, n) :: world.interrupted })

theorem update_climbs (call : VoiceCall) (session : InterviewSession) (operation : VoiceOperation)
    (world : OutputWorld) (sessionId s : String) :
    (world.voice s).generation ≤ (Function.update world.voice sessionId
      (voiceSegment call session operation (world.voice sessionId)).2 s).generation := by
  by_cases hs : s = sessionId
  · rw [hs, Function.update_self]
    exact voiceSegment_climbs _ _ _ _
  · rw [Function.update_of_ne hs]

theorem resume_speaks (world : OutputWorld) (n : Nat) (reply : AwaitReply)
    (h : point.isSpeech = true) :
    Speaks n world point (resume providerId streamId n point reply world) := by
  have hsame : ∀ s, (world.voice s).generation ≤ (world.voice s).generation := fun _ => le_refl _
  cases point with
  | voice sessionId operation persisting after =>
    cases after with
    | speechStarted =>
      unfold resume
      cases persisting with
      | false =>
        simp only
        split
        next session call =>
          cases session with
          | none => exact .raised hsame
          | some session =>
            unfold voiceLoaded
            simp only
            split
            next ht => exact .heard session call ht
            next => exact .raised fun s => update_climbs call session operation world sessionId s
        next => exact .raised hsame
        next => exact .raised hsame
        next => exact .stays
      | true =>
        simp only
        split
        next => exact .returned
        next => exact .raised hsame
        next => exact .raised hsame
        next => exact .stays
    | _ => cases h
  | _ => cases h

/-- What a segment of `open` does: it waits on, it reserves its session once it has it, and it ends
without the reservation, with the stream in both tables or not. -/
inductive Opens (n : Nat) (world : OutputWorld) : OutputPoint → Segment → Prop where
  | stays {point : OutputPoint} : Opens n world point (world, some point)
  | waits {point next : OutputPoint} {opening : Opening} {voice : String → VoiceSessionState}
    (hvoice : ∀ s, (world.voice s).generation ≤ (voice s).generation)
    (h : point.opening = some opening) (hnext : next.opening = some opening) :
    Opens n world point ({ world with voice }, some next)
  | gone {sessionId turnId : String} {locale : Option String} :
    Opens n world (.fetching sessionId turnId locale) (ends world)
  | reserved {turnId : String} {asked : Option String} {opening : Opening}
    (hactive : world.activeBySession opening.sessionId = none)
    (hfree : world.openingSessions opening.sessionId = none)
    (hg : opening.generation = (world.voice opening.sessionId).generation) :
    Opens n world (.fetching opening.sessionId turnId asked)
      ({ world with openingSessions :=
          Function.update world.openingSessions opening.sessionId (some n) },
        some (.synthesizing opening))
  | dropped {point : OutputPoint} {opening : Opening} {voice : String → VoiceSessionState}
    (hvoice : ∀ s, (world.voice s).generation ≤ (voice s).generation)
    (h : point.opening = some opening) :
    Opens n world point (ends (discardOpening { world with voice } opening.sessionId))
  | registered {point : OutputPoint} {opening : Opening} {voice : String → VoiceSessionState}
    (hvoice : ∀ s, (world.voice s).generation ≤ (voice s).generation)
    (h : point.opening = some opening) :
    Opens n world point (ends (register streamId n opening { world with voice }))

omit [CanonicalDigest] in
theorem openFetched_opens (world : OutputWorld) (n : Nat) (sessionId turnId : String)
    (locale : Option String) (session : Option InterviewSession) :
    Opens streamId n world (.fetching sessionId turnId locale)
      (openFetched n sessionId turnId locale session world) := by
  unfold openFetched
  split
  next => exact .gone
  next =>
    split
    next => exact .gone
    next =>
      split
      next => exact .gone
      next =>
        split
        next => exact .gone
        next hfree =>
          obtain ⟨hactive, hopening⟩ := not_or.mp hfree
          exact @Opens.reserved _ _ _ turnId locale ⟨sessionId, _, _, _⟩ (not_not.mp hactive)
            (not_not.mp hopening) rfl

omit [CanonicalDigest] in
theorem openSynthesized_opens (world : OutputWorld) (n : Nat) (opening : Opening)
    (reply : AwaitReply) :
    Opens streamId n world (.synthesizing opening)
      (openSynthesized providerId opening reply world) := by
  have hsame : ∀ s, (world.voice s).generation ≤ (world.voice s).generation := fun _ => le_refl _
  unfold openSynthesized
  split
  next => exact .waits hsame rfl rfl
  next =>
    split
    next => exact .dropped hsame rfl
    next => exact .waits hsame rfl rfl
  next => exact .dropped hsame rfl

omit [CanonicalDigest] in
theorem afterVoice_opens {world : OutputWorld} {voice : String → VoiceSessionState} {n : Nat}
    {point : OutputPoint} {sessionId : String} {after : AfterVoice} {opening : Opening}
    (hvoice : ∀ s, (world.voice s).generation ≤ (voice s).generation)
    (hpoint : point.opening = some opening) (hafter : after.opening = some opening)
    (reply : AwaitReply) :
    Opens streamId n world point
      (afterVoice providerId streamId n sessionId after reply { world with voice }) := by
  have hraises : Opens streamId n world point (openRaises opening reply { world with voice }) := by
    unfold openRaises
    split
    next => exact .dropped hvoice hpoint
    next => exact .waits hvoice hpoint rfl
  unfold afterVoice
  cases after with
  | openFailed => cases hafter; exact .dropped hvoice hpoint
  | openStarted =>
    cases hafter
    simp only
    split
    next => exact .waits hvoice hpoint rfl
    next => exact hraises
  | openSelected =>
    cases hafter
    simp only
    split
    next => exact .registered hvoice hpoint
    next => exact hraises
  | _ => cases hafter

theorem resume_opens (world : OutputWorld) (n : Nat) {point : OutputPoint} (reply : AwaitReply)
    (h : point.isOpen = true) :
    Opens streamId n world point (resume providerId streamId n point reply world) := by
  have hsame : ∀ s, (world.voice s).generation ≤ (world.voice s).generation := fun _ => le_refl _
  unfold resume
  cases point with
  | fetching sessionId turnId locale =>
    simp only
    split
    next => exact openFetched_opens _ _ _ _ _ _ _
    next => exact .gone
    next => exact .gone
    next => exact .stays
  | synthesizing opening =>
    simp only
    split
    next => exact openSynthesized_opens _ _ _ _ _ _
    next => exact openSynthesized_opens _ _ _ _ _ _
    next => exact openSynthesized_opens _ _ _ _ _ _
    next => exact .stays
  | abandoning opening =>
    simp only
    split
    next => exact .dropped hsame rfl
    next => exact .dropped hsame rfl
    next => exact .dropped hsame rfl
    next => exact .stays
  | voice sessionId operation persisting after =>
    obtain ⟨opening, hafter⟩ : ∃ opening, after.opening = some opening := by
      simpa [OutputPoint.isOpen, OutputPoint.opening, Option.isSome_iff_exists] using h
    have hpoint : (OutputPoint.voice sessionId operation persisting after).opening = some opening :=
      hafter
    have hafters : ∀ reply, Opens streamId n world (.voice sessionId operation persisting after)
        (afterVoice providerId streamId n sessionId after reply world) := fun reply =>
      afterVoice_opens providerId streamId hsame hpoint hafter reply
    cases persisting with
    | false =>
      simp only
      split
      next session call =>
        unfold voiceLoaded
        split
        next => exact hafters _
        next session =>
          simp only
          have hclimbs := update_climbs call session operation world sessionId
          split
          next => exact .waits hclimbs hpoint hafter
          next => exact afterVoice_opens providerId streamId hclimbs hpoint hafter _
      next => exact hafters _
      next => exact hafters _
      next => exact .stays
    | true =>
      simp only
      split
      next => exact hafters _
      next => exact hafters _
      next => exact hafters _
      next => exact .stays
  | _ => cases h

end VoiceOutputBridge

end NoraInterviewer
