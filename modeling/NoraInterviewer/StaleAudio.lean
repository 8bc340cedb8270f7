import NoraInterviewer.OutputTables

/-! Barge-in: which audio can still be played once `speech_started` has returned. -/

namespace NoraInterviewer

/-- The stream of which a call of `chunks` has just handed out a chunk. -/
def OutputPoint.yields : OutputPoint → Option String
  | .yielded streamId _ => some streamId
  | _ => none

namespace VoiceOutputBridge

open Cooperative Relation RealtimeVoiceCoordinator

/-- A stream that a call of `chunks` can find, or has found. -/
def Playable (state : OutputState) (id : String) : Prop :=
  id ∈ state.world.streams ∨ ∃ n point, state.tasks n = some point ∧ point.plays = some id

/-- Call `n` of `open` may still bring audio of the session, of the generation that it captured
unless it captured none so far. -/
inductive ToCome (state : OutputState) (sessionId : String) (n : Nat) : Option Nat → Prop where
  | fetching {turnId : String} {locale : Option String}
    (h : state.tasks n = some (.fetching sessionId turnId locale)) : ToCome state sessionId n none
  | opening {point : OutputPoint} {opening : Opening} (h : state.tasks n = some point)
    (ho : point.opening = some opening) (hs : opening.sessionId = sessionId) :
    ToCome state sessionId n (some opening.generation)
  | stream {id : String} {record : OutputStream} (h : Playable state id)
    (hr : state.world.records id = some record) (hs : record.state.sessionId = sessionId)
    (hn : record.openedBy = n) : ToCome state sessionId n (some record.state.generation)

/-- Call `k` of `speech_started` was heard: it waits for its write, or has returned. -/
def HasSpoken (state : OutputState) (sessionId : String) (k : Nat) : Prop :=
  (sessionId, k) ∈ state.world.interrupted ∨
    ∃ operation, state.tasks k = some (.voice sessionId operation true .speechStarted)

/-- Where `speech_started` is heard, every earlier call of `open` for the session has captured its
generation, and no audio of the current one is to come unless the interviewer is speaking. -/
def CutsOff (state : OutputState) : Action OutputCall AwaitReply → Prop
  | .resume k (.session (some session) _) => ∀ sessionId,
    state.tasks k = some (.voice sessionId .speechStarted false .speechStarted) → ¬Ended session →
      ∀ n captured, n < k → ToCome state sessionId n captured →
        ∃ generation, captured = some generation ∧
          ((state.world.voice sessionId).phase = .speaking ∨
            generation ≠ (state.world.voice sessionId).generation)
  | _ => True

/-- A step hands out no chunk of a stream whose `open` began before a call of `speech_started` that
has returned. -/
def Silent [CanonicalDigest] (providerId : String) (streamId : Nat → String) (state : OutputState)
    (action : Action OutputCall AwaitReply) : Prop :=
  ∀ n id record k,
    (((program providerId streamId).act state action).tasks n).bind OutputPoint.yields = some id →
    (state.tasks n).bind OutputPoint.yields ≠ some id →
    state.world.records id = some record →
    (record.state.sessionId, k) ∈ state.world.interrupted → ¬record.openedBy < k

/-- What a run keeps: a captured generation is not ahead of the voice, and what an earlier `open`
may still bring is behind it once speech was heard. -/
structure Hushed (state : OutputState) : Prop where
  numbered : Program.Numbered state
  spoken : ∀ s k, HasSpoken state s k → k < state.begun
  speech : ∀ n s operation persisting,
    state.tasks n = some (.voice s operation persisting .speechStarted) → operation = .speechStarted
  captured : ∀ s n generation, ToCome state s n (some generation) →
    generation ≤ (state.world.voice s).generation
  behind : ∀ s k n captured, HasSpoken state s k → n < k → ToCome state s n captured →
    ∃ generation, captured = some generation ∧ generation < (state.world.voice s).generation

/-- What a segment that registers nothing does to the records and to the voices. -/
structure Subsides (world after : OutputWorld) : Prop where
  records : SameRecords world after
  streams : ∀ id ∈ after.streams, id ∈ world.streams
  voice : ∀ s, (world.voice s).generation ≤ (after.voice s).generation
  interrupted : after.interrupted = world.interrupted

theorem Subsides.refl (world : OutputWorld) : Subsides world world :=
  ⟨.refl world, fun _ => id, fun _ => le_refl _, rfl⟩

theorem SameRecords.trans {world mid after : OutputWorld} (h : SameRecords world mid)
    (h' : SameRecords mid after) : SameRecords world after := by
  intro id
  rcases h' id with ⟨record, found, hrecord, hfound, hlast⟩ | ⟨hafter, hmid⟩
  · obtain ⟨stored, hstored, hfirst⟩ := h.earlier hfound
    exact .inl ⟨record, stored, hrecord, hstored, hlast.openedBy.trans hfirst.openedBy,
      hlast.streamId.trans hfirst.streamId, hlast.sessionId.trans hfirst.sessionId,
      hlast.generation.trans hfirst.generation⟩
  · rcases h id with ⟨found, _, hfound, _⟩ | ⟨_, hworld⟩
    · rw [hmid] at hfound
      cases hfound
    · exact .inr ⟨hafter, hworld⟩

theorem Change.subsides {strict : Bool} {world after : OutputWorld} (h : Change strict world after) :
    Subsides world after := by
  refine ⟨h.records, ?_, ?_, ?_⟩
  · cases h with
    | record => exact fun _ => id
    | close => exact fun id hid => (List.mem_filter.mp hid).1
    | finish => exact fun _ => id
    | voice => exact fun _ => id
  · cases h with
    | record => exact fun _ => le_refl _
    | close => exact fun _ => le_refl _
    | finish => exact fun _ => le_refl _
    | voice sessionId voice h =>
      intro s
      by_cases hs : s = sessionId
      · rw [hs]
        simpa [setVoice] using h
      · simp [setVoice, Function.update_of_ne hs]
  · cases h with
    | record | close | finish | voice => rfl

theorem changes_subside {strict : Bool} {world after : OutputWorld}
    (h : ReflTransGen (Change strict) world after) : Subsides world after := by
  induction h with
  | refl => exact .refl world
  | tail _ hc ih =>
    obtain ⟨hrecords, hstreams, hvoice, hinterrupted⟩ := hc.subsides
    exact ⟨ih.records.trans hrecords, fun id hid => ih.streams id (hstreams id hid),
      fun s => (ih.voice s).trans (hvoice s), hinterrupted.trans ih.interrupted⟩

section

variable {state : OutputState} {after : OutputWorld} {begun m : Nat} {next : Option OutputPoint}

/-- After such a segment only that is to come which was to come before. -/
theorem ToCome.earlier {s : String} {n : Nat} {captured : Option Nat}
    (h : ToCome { world := after, begun, tasks := Function.update state.tasks m next } s n captured)
    (hrecords : SameRecords state.world after)
    (hstreams : ∀ id ∈ after.streams, id ∈ state.world.streams)
    (hopen : ∀ point, next = some point → point.isOpen = false)
    (hplays : ∀ point id, next = some point → point.plays = some id → Playable state id) :
    ToCome state s n captured := by
  cases h with
  | fetching h =>
    by_cases hn : n = m
    · simp only [hn, Function.update_self] at h
      have hclosed := hopen _ h
      cases hclosed
    · simp only [Function.update_of_ne hn] at h
      exact .fetching h
  | opening h ho hsession =>
    by_cases hn : n = m
    · simp only [hn, Function.update_self] at h
      have hclosed := hopen _ h
      rw [isOpen_of_opening ho] at hclosed
      cases hclosed
    · simp only [Function.update_of_ne hn] at h
      exact .opening h ho hsession
  | @stream id record h hr hsession hn =>
    obtain ⟨stored, hstored, hsame⟩ := hrecords.earlier hr
    rw [hsame.generation]
    refine .stream ?_ hstored (hsame.sessionId.symm.trans hsession) (hsame.openedBy.symm.trans hn)
    rcases h with hin | ⟨p, point, hpoint, hplay⟩
    · exact .inl (hstreams id hin)
    · by_cases hp : p = m
      · simp only [hp, Function.update_self] at hpoint
        exact hplays point id hpoint hplay
      · simp only [Function.update_of_ne hp] at hpoint
        exact .inr ⟨p, point, hpoint, hplay⟩

theorem HasSpoken.earlier {s : String} {k : Nat}
    (h : HasSpoken { world := after, begun, tasks := Function.update state.tasks m next } s k)
    (hi : after.interrupted = state.world.interrupted)
    (hnext : ∀ operation, next ≠ some (.voice s operation true .speechStarted)) :
    HasSpoken state s k := by
  rcases h with hin | ⟨operation, hpoint⟩
  · simp only [hi] at hin
    exact .inl hin
  · by_cases hk : k = m
    · simp only [hk, Function.update_self] at hpoint
      exact absurd hpoint (hnext operation)
    · simp only [Function.update_of_ne hk] at hpoint
      exact .inr ⟨operation, hpoint⟩

end

/-- A step keeps the invariant when it brings nothing that was not to come, but for the generation
that an `open` captures and for a new `open`, and when what it makes heard is ahead of the rest. -/
theorem Hushed.passes {state after : OutputState} (h : Hushed state)
    (hnumbered : Program.Numbered after) (hbegun : state.begun ≤ after.begun)
    (hvoice : ∀ s, (state.world.voice s).generation ≤ (after.world.voice s).generation)
    (hspeech : ∀ n s operation persisting,
      after.tasks n = some (.voice s operation persisting .speechStarted) →
        operation = .speechStarted)
    (hcoming : ∀ s n captured, ToCome after s n captured → ToCome state s n captured ∨
      ToCome state s n none ∧ captured = some (state.world.voice s).generation ∨
      n = state.begun ∧ captured = none)
    (hspoken : ∀ s k, HasSpoken after s k → HasSpoken state s k ∨ k < after.begun ∧
      ∀ n captured, n < k → ToCome after s n captured →
        ∃ generation, captured = some generation ∧
          generation < (after.world.voice s).generation) :
    Hushed after := by
  refine ⟨hnumbered, fun s k hk => ?_, hspeech, fun s n generation hcome => ?_,
    fun s k n captured hk hlt hcome => ?_⟩
  · rcases hspoken s k hk with hold | ⟨hnew, _⟩
    · exact (h.spoken s k hold).trans_le hbegun
    · exact hnew
  · rcases hcoming s n _ hcome with hold | ⟨_, hcaptured⟩ | ⟨_, hnone⟩
    · exact (h.captured s n generation hold).trans (hvoice s)
    · cases hcaptured
      exact hvoice s
    · cases hnone
  · rcases hspoken s k hk with hold | ⟨_, hnew⟩
    · rcases hcoming s n captured hcome with hbefore | ⟨hfetching, _⟩ | ⟨hn, _⟩
      · obtain ⟨generation, heq, hbehind⟩ := h.behind s k n captured hold hlt hbefore
        exact ⟨generation, heq, hbehind.trans_le (hvoice s)⟩
      · obtain ⟨generation, heq, _⟩ := h.behind s k n none hold hlt hfetching
        cases heq
      · have hbefore := h.spoken s k hold
        omega
    · exact hnew n captured hlt hcome

section

variable {state : OutputState} {n : Nat} {point : OutputPoint}

/-- What a call that opens nothing and of which no `speech_started` is made hands on. -/
theorem Hushed.settles {after : OutputWorld} {begun m : Nat} {next : Option OutputPoint}
    (h : Hushed state) (hs : Subsides state.world after) (hbegun : state.begun ≤ begun)
    (hnumbered : Program.Numbered
      { world := after, begun, tasks := Function.update state.tasks m next })
    (hopen : ∀ point, next = some point → point.isOpen = false)
    (hplays : ∀ point id, next = some point → point.plays = some id → Playable state id)
    (hspeech : ∀ s operation persisting,
      next = some (.voice s operation persisting .speechStarted) →
        operation = .speechStarted ∧ persisting = false) :
    Hushed { world := after, begun, tasks := Function.update state.tasks m next } := by
  refine h.passes hnumbered hbegun hs.voice (fun n s operation persisting hpoint => ?_)
    (fun s n captured hcome => .inl (hcome.earlier hs.records hs.streams hopen hplays)) fun s k hk => .inl ?_
  · by_cases hn : n = m
    · simp only [hn, Function.update_self] at hpoint
      exact (hspeech s operation persisting hpoint).1
    · simp only [Function.update_of_ne hn] at hpoint
      exact h.speech n s operation persisting hpoint
  · refine hk.earlier hs.interrupted fun operation hnext => ?_
    obtain ⟨_, hfalse⟩ := hspeech s operation true hnext
    cases hfalse

theorem plays_none {opening : Opening} (h : point.opening = some opening) : point.plays = none := by
  cases point with
  | pulling => cases h
  | yielded => cases h
  | _ => rfl

theorem opening_silent {opening : Opening} {s : String} {operation : VoiceOperation}
    {persisting : Bool} (h : point.opening = some opening) :
    point ≠ .voice s operation persisting .speechStarted := by
  rintro rfl
  cases h

/-- After a segment of `open` that waits on, only its own generation is new. -/
theorem ToCome.waits {after : OutputWorld} {begun m : Nat} {next : OutputPoint} {opening : Opening}
    {s : String} {captured : Option Nat}
    (h : ToCome { world := after, begun, tasks := Function.update state.tasks m (some next) } s n
      captured)
    (hs : Subsides state.world after) (hnext : next.opening = some opening) :
    ToCome state s n captured ∨
      n = m ∧ captured = some opening.generation ∧ opening.sessionId = s := by
  cases h with
  | fetching h =>
    by_cases hn : n = m
    · simp only [hn, Function.update_self] at h
      cases h
      cases hnext
    · simp only [Function.update_of_ne hn] at h
      exact .inl (.fetching h)
  | opening h ho hsession =>
    by_cases hn : n = m
    · simp only [hn, Function.update_self] at h
      cases h
      rw [hnext] at ho
      cases ho
      exact .inr ⟨hn, rfl, hsession⟩
    · simp only [Function.update_of_ne hn] at h
      exact .inl (.opening h ho hsession)
  | @stream id record h hr hsession hn =>
    obtain ⟨stored, hstored, hsame⟩ := hs.records.earlier hr
    rw [hsame.generation]
    refine .inl (.stream ?_ hstored (hsame.sessionId.symm.trans hsession)
      (hsame.openedBy.symm.trans hn))
    rcases h with hin | ⟨p, other, hpoint, hplay⟩
    · exact .inl (hs.streams id hin)
    · by_cases hp : p = m
      · simp only [hp, Function.update_self] at hpoint
        cases hpoint
        rw [plays_none hnext] at hplay
        cases hplay
      · simp only [Function.update_of_ne hp] at hpoint
        exact .inr ⟨p, other, hpoint, hplay⟩

/-- The stream that `open` registers has the generation that it captured. -/
theorem ToCome.registered {streamId : Nat → String} {voice : String → VoiceSessionState}
    {m : Nat} {opening : Opening} {s : String} {captured : Option Nat}
    (h : ToCome { state with
      world := register streamId m opening { state.world with voice }
      tasks := Function.update state.tasks m none } s n captured)
    (hpoint : state.tasks m = some point) (ho : point.opening = some opening) :
    ToCome state s n captured := by
  cases h with
  | fetching h =>
    by_cases hn : n = m
    · simp only [hn, Function.update_self] at h
      cases h
    · simp only [Function.update_of_ne hn] at h
      exact .fetching h
  | opening h hopening hsession =>
    by_cases hn : n = m
    · simp only [hn, Function.update_self] at h
      cases h
    · simp only [Function.update_of_ne hn] at h
      exact .opening h hopening hsession
  | @stream id record h hr hsession hn =>
    simp only [register, discardOpening] at hr
    by_cases hid : id = streamId m
    · rw [hid, Function.update_self] at hr
      cases hr
      cases hn
      exact .opening hpoint ho hsession
    · rw [Function.update_of_ne hid] at hr
      refine .stream ?_ hr hsession hn
      rcases h with hin | ⟨p, other, hother, hplay⟩
      · simp only [register, discardOpening, List.mem_append, List.mem_singleton, hid,
          or_false] at hin
        exact .inl hin
      · by_cases hp : p = m
        · simp only [hp, Function.update_self] at hother
          cases hother
        · simp only [Function.update_of_ne hp] at hother
          exact .inr ⟨p, other, hother, hplay⟩

/-- What is left of `speech_started` when the segment of `open` ends or waits on. -/
theorem Hushed.opens {streamId : Nat → String} {segment : Segment} {m : Nat} (h : Hushed state)
    (hpoint : state.tasks m = some point) (hopens : Opens streamId m state.world point segment)
    (hnumbered : Program.Numbered
      { state with world := segment.1, tasks := Function.update state.tasks m segment.2 }) :
    Hushed { state with world := segment.1, tasks := Function.update state.tasks m segment.2 } := by
  have hends : ∀ {after : OutputWorld}, Subsides state.world after →
      Program.Numbered { state with world := after, tasks := Function.update state.tasks m none } →
      Hushed { state with world := after, tasks := Function.update state.tasks m none } :=
    fun hs hnumbered => h.settles hs (le_refl _) hnumbered (fun _ hnext => (by cases hnext))
      (fun _ _ hnext => (by cases hnext)) fun _ _ _ hnext => (by cases hnext)
  have hwaits : ∀ {after : OutputWorld} {next : OutputPoint} {opening : Opening},
      Subsides state.world after → next.opening = some opening →
      (ToCome state opening.sessionId m (some opening.generation) ∨
        ToCome state opening.sessionId m none ∧
          opening.generation = (state.world.voice opening.sessionId).generation) →
      Program.Numbered
        { state with world := after, tasks := Function.update state.tasks m (some next) } →
      Hushed { state with world := after, tasks := Function.update state.tasks m (some next) } := by
    intro after next opening hs hnext hown hnumbered
    refine h.passes hnumbered (le_refl _) hs.voice (fun n s operation persisting hat => ?_)
      (fun s n captured hcome => ?_) fun s k hk => .inl ?_
    · by_cases hn : n = m
      · simp only [hn, Function.update_self] at hat
        exact absurd (Option.some.inj hat) (opening_silent hnext)
      · simp only [Function.update_of_ne hn] at hat
        exact h.speech n s operation persisting hat
    · rcases hcome.waits hs hnext with hold | ⟨rfl, rfl, rfl⟩
      · exact .inl hold
      · rcases hown with hold | ⟨hfetching, hg⟩
        · exact .inl hold
        · exact .inr (.inl ⟨hfetching, by rw [hg]⟩)
    · exact hk.earlier hs.interrupted fun operation heq =>
        opening_silent hnext (Option.some.inj heq)
  cases hopens with
  | stays =>
    rw [← hpoint, Function.update_eq_self]
    exact h
  | waits hvoice ho hnext =>
    exact hwaits ⟨.refl _, fun _ => id, hvoice, rfl⟩ hnext (.inl (.opening hpoint ho rfl)) hnumbered
  | gone => exact hends (.refl _) hnumbered
  | reserved _ _ hg =>
    exact hwaits ⟨.refl _, fun _ => id, fun _ => le_refl _, rfl⟩ rfl
      (.inr ⟨.fetching hpoint, hg⟩) hnumbered
  | dropped hvoice ho =>
    exact hends ⟨.refl _, fun _ => id, hvoice, rfl⟩ hnumbered
  | registered hvoice ho =>
    refine h.passes hnumbered (le_refl _) hvoice (fun n s operation persisting hat => ?_)
      (fun s n captured hcome => .inl (hcome.registered hpoint ho)) fun s k hk => .inl ?_
    · by_cases hn : n = m
      · simp only [hn, Function.update_self] at hat
        cases hat
      · simp only [Function.update_of_ne hn] at hat
        exact h.speech n s operation persisting hat
    · exact hk.earlier rfl fun operation heq => (by cases heq)

theorem Follows.plays {next : OutputPoint} {id : String} (h : point.Follows next)
    (hplays : next.plays = some id) : point.plays = some id := by
  cases h with
  | same => exact hplays
  | settles hsettles =>
    rw [hsettles.plays] at hplays
    cases hplays
  | pulled => exact hplays
  | pulls => exact hplays

theorem Follows.isSpeech {next : OutputPoint} (h : point.Follows next)
    (hspeech : point.isSpeech = false) : next.isSpeech = false := by
  cases h with
  | same => exact hspeech
  | settles hsettles => exact hsettles.isSpeech
  | pulled => rfl
  | pulls => rfl

section

variable [CanonicalDigest] (providerId : String) (streamId : Nat → String)

/-- A call of `speech_started` comes to its write with the session that it got. -/
theorem resume_heard {m : Nat} {s other : String} {operation : VoiceOperation} {reply : AwaitReply}
    {world : OutputWorld} {operation' : VoiceOperation}
    (h : (resume providerId streamId m (.voice s operation false .speechStarted) reply world).2 =
      some (.voice other operation' true .speechStarted)) :
    ∃ session call, reply = .session (some session) call ∧ other = s ∧
      (voiceSegment call session operation (world.voice s)).1 = true ∧
      (resume providerId streamId m (.voice s operation false .speechStarted) reply world).1 =
        setVoice world s (voiceSegment call session operation (world.voice s)).2 := by
  unfold resume at h ⊢
  simp only at h ⊢
  split at h
  next session call =>
    cases session with
    | none => cases h
    | some session =>
      unfold voiceLoaded at h ⊢
      simp only at h ⊢
      split at h
      next ht =>
        cases h
        exact ⟨session, call, rfl, rfl, ht, by rw [if_pos ht]⟩
      next => cases h
  next => cases h
  next => cases h
  next => cases h

/-- `speech_started` is heard only in a session that takes input, and takes a voice that speaks to the
next generation. -/
theorem voiceSegment_heard {call : VoiceCall} {session : InterviewSession}
    {voice : VoiceSessionState} (h : (voiceSegment call session .speechStarted voice).1 = true) :
    ¬Ended session ∧ (voice.phase = .speaking → voice.generation + 1 ≤
      (voiceSegment call session .speechStarted voice).2.generation) := by
  have hactive : ¬Ended session := by
    intro hended
    obtain ⟨e, he⟩ : ∃ e, speechStarted .memory { call with persists := true } ⟨voice, session⟩ =
      .error e (shut ⟨voice, session⟩) := speechStarted_ended hended
    have hrefused : RealtimeVoiceCoordinator.perform .memory { call with persists := true }
        .speechStarted ⟨voice, session⟩ = .error e (shut ⟨voice, session⟩) :=
      Voicing.bind_error he
    simp [voiceSegment, hrefused] at h
  have hclimbs : voice.phase = .speaking → voice.generation + 1 ≤
      (landed (speechStarted .memory { call with persists := true } ⟨voice, session⟩)).voice.generation :=
    speechStarted_raises _ _ ⟨voice, session⟩ hactive
  exact ⟨hactive, fun hspeaking => Voicing.Climbs.after (hclimbs hspeaking) fun _ => .pure _⟩

omit [CanonicalDigest] in
/-- A `speech_started` that is ahead of all that is to come from before it. -/
theorem Hushed.heard {after : OutputWorld} {m : Nat} {s : String} (h : Hushed state)
    (hs : Subsides state.world after) (hpoint : state.tasks m = some point)
    (hahead : ∀ n captured, n < m → ToCome state s n captured →
      ∃ generation, captured = some generation ∧ generation < (after.voice s).generation)
    (hnumbered : Program.Numbered { state with
      world := after
      tasks := Function.update state.tasks m
        (some (.voice s .speechStarted true .speechStarted)) }) :
    Hushed { state with
      world := after
      tasks := Function.update state.tasks m
        (some (.voice s .speechStarted true .speechStarted)) } := by
  have hcoming : ∀ s' n captured, ToCome { state with
      world := after
      tasks := Function.update state.tasks m
        (some (.voice s .speechStarted true .speechStarted)) } s' n captured →
      ToCome state s' n captured := fun s' n captured hcome =>
    hcome.earlier hs.records hs.streams (fun _ hnext => (by cases hnext; rfl))
      fun _ _ hnext hplays => (by cases hnext; cases hplays)
  refine h.passes hnumbered (le_refl _) hs.voice (fun n s' operation persisting hat => ?_)
    (fun s' n captured hcome => .inl (hcoming s' n captured hcome)) fun s' k hk => ?_
  · by_cases hn : n = m
    · simp only [hn, Function.update_self] at hat
      cases hat
      rfl
    · simp only [Function.update_of_ne hn] at hat
      exact h.speech n s' operation persisting hat
  · by_cases hown : k = m ∧ s' = s
    · obtain ⟨rfl, rfl⟩ := hown
      exact .inr ⟨h.numbered.lt hpoint, fun n captured hlt hcome =>
        hahead n captured hlt (hcoming _ n captured hcome)⟩
    · refine .inl ?_
      rcases hk with hin | ⟨operation, hat⟩
      · simp only [hs.interrupted] at hin
        exact .inl hin
      · by_cases hk : k = m
        · simp only [hk, Function.update_self] at hat
          cases hat
          exact absurd ⟨hk, rfl⟩ hown
        · simp only [Function.update_of_ne hk] at hat
          exact .inr ⟨operation, hat⟩

theorem speaks_hushed {m : Nat} {reply : AwaitReply} (h : Hushed state)
    (hpoint : state.tasks m = some point) (hspeech : point.isSpeech = true)
    (hcut : CutsOff state (.resume m reply))
    (hnumbered : Program.Numbered { state with
      world := (resume providerId streamId m point reply state.world).1
      tasks := Function.update state.tasks m
        (resume providerId streamId m point reply state.world).2 }) :
    Hushed { state with
      world := (resume providerId streamId m point reply state.world).1
      tasks := Function.update state.tasks m
        (resume providerId streamId m point reply state.world).2 } := by
  have hspeaks := resume_speaks providerId streamId state.world m reply hspeech
  generalize hsegment : resume providerId streamId m point reply state.world = segment
    at hspeaks hnumbered ⊢
  cases hspeaks with
  | stays =>
    rw [← hpoint, Function.update_eq_self]
    exact h
  | raised hvoice =>
    exact h.settles ⟨.refl _, fun _ => id, hvoice, rfl⟩ (le_refl _) hnumbered
      (fun _ hnext => (by cases hnext)) (fun _ _ hnext => (by cases hnext))
      fun _ _ _ hnext => (by cases hnext)
  | @heard sessionId operation session call ht =>
    cases h.speech m _ _ _ hpoint
    obtain ⟨found, call', rfl, _, haccepted, hworld⟩ :=
      resume_heard providerId streamId (congrArg Prod.snd hsegment)
    have hvoiced := (congrArg Prod.fst hsegment).symm.trans hworld
    obtain ⟨hactive, hraises⟩ := voiceSegment_heard haccepted
    simp only at hvoiced hnumbered ⊢
    rw [hvoiced] at hnumbered ⊢
    refine h.heard ⟨.refl _, fun _ => id, update_climbs _ _ _ _ _, rfl⟩ hpoint
      (fun n captured hlt hcome => ?_) hnumbered
    obtain ⟨generation, rfl, hcut⟩ := hcut sessionId hpoint hactive n captured hlt hcome
    have hle := h.captured sessionId n generation hcome
    refine ⟨generation, rfl, ?_⟩
    simp only [setVoice, Function.update_self]
    have hclimbs := voiceSegment_climbs call' found .speechStarted (state.world.voice sessionId)
    rcases hcut with hspeaking | hne
    · have hraised := hraises hspeaking
      omega
    · omega
  | @returned sessionId operation =>
    refine h.passes hnumbered (le_refl _) (fun _ => le_refl _) (fun n s operation persisting hat => ?_)
      (fun s n captured hcome => .inl (hcome.earlier (.refl _) (fun _ => id)
        (fun _ hnext => (by cases hnext)) fun _ _ hnext => (by cases hnext))) fun s k hk => .inl ?_
    · by_cases hn : n = m
      · simp only [hn, Function.update_self] at hat
        cases hat
      · simp only [Function.update_of_ne hn] at hat
        exact h.speech n s operation persisting hat
    · rcases hk with hin | ⟨operation, hat⟩
      · rcases List.mem_cons.mp hin with heq | hold
        · cases heq
          exact .inr ⟨_, hpoint⟩
        · exact .inl hold
      · by_cases hk : k = m
        · simp only [hk, Function.update_self] at hat
          cases hat
        · simp only [Function.update_of_ne hk] at hat
          exact .inr ⟨operation, hat⟩

theorem act_hushed (h : Hushed state) (action : Action OutputCall AwaitReply)
    (hcut : CutsOff state action) : Hushed ((program providerId streamId).act state action) := by
  have hnumbered := h.numbered.act (program providerId streamId) action
  cases action with
  | enter call =>
    by_cases hopen : ∃ sessionId turnId locale, call = .open_ sessionId turnId locale
    · obtain ⟨sessionId, turnId, locale, rfl⟩ := hopen
      refine h.passes hnumbered (Nat.le_succ _) (fun _ => le_refl _)
        (fun n s operation persisting hat => ?_) (fun s n captured hcome => ?_) fun s k hk => .inl ?_
      · by_cases hn : n = state.begun
        · simp only [Program.act, hn, Function.update_self] at hat
          cases hat
        · simp only [Program.act, Function.update_of_ne hn] at hat
          exact h.speech n s operation persisting hat
      · cases hcome with
        | fetching hat =>
          by_cases hn : n = state.begun
          · exact .inr (.inr ⟨hn, rfl⟩)
          · simp only [Program.act, Function.update_of_ne hn] at hat
            exact .inl (.fetching hat)
        | opening hat ho hsession =>
          by_cases hn : n = state.begun
          · simp only [Program.act, hn, Function.update_self] at hat
            cases hat
            cases ho
          · simp only [Program.act, Function.update_of_ne hn] at hat
            exact .inl (.opening hat ho hsession)
        | stream hplayable hr hsession hn =>
          refine .inl (.stream ?_ hr hsession hn)
          rcases hplayable with hin | ⟨p, other, hother, hplays⟩
          · exact .inl hin
          · by_cases hp : p = state.begun
            · simp only [Program.act, hp, Function.update_self] at hother
              cases hother
              cases hplays
            · simp only [Program.act, Function.update_of_ne hp] at hother
              exact .inr ⟨p, other, hother, hplays⟩
      · exact hk.earlier rfl fun operation heq => (by cases heq)
    · obtain ⟨hchanges, henters⟩ := enter_quiet false state.world state.begun
        fun sessionId turnId locale heq => hopen ⟨sessionId, turnId, locale, heq⟩
      refine h.settles (changes_subside hchanges) (Nat.le_succ _) hnumbered
        (fun point hnext => Enters.isOpen (henters point hnext)) (fun point id hnext hplays => ?_)
        fun s operation persisting hnext => ?_
      · cases henters point hnext with
        | settles hsettles =>
          rw [hsettles.plays] at hplays
          cases hplays
        | plays hin =>
          cases hplays
          exact .inl hin
        | speaks => cases hplays
      · cases henters _ hnext with
        | settles hsettles => cases hsettles.isSpeech
        | speaks => exact ⟨rfl, rfl⟩
  | resume m reply =>
    cases hpoint : state.tasks m with
    | none =>
      rw [Program.act_gone _ hpoint]
      exact h
    | some point =>
      rw [Program.act_suspended _ hpoint] at hnumbered ⊢
      cases hopen : point.isOpen with
      | true =>
        exact h.opens hpoint (resume_opens providerId streamId state.world m reply hopen) hnumbered
      | false =>
        cases hspeech : point.isSpeech with
        | true => exact speaks_hushed providerId streamId h hpoint hspeech hcut hnumbered
        | false =>
          have hquiet : Quiet false point state.world
              (resume providerId streamId m point reply state.world) :=
            resume_quiet providerId streamId hopen hspeech fun hstrict => (by cases hstrict)
          refine h.settles (changes_subside hquiet.changes) (le_refl _) hnumbered
            (fun next hnext => Follows.isOpen (hquiet.follows next hnext) hopen)
            (fun next id hnext hplays => ?_) fun s operation persisting hnext => ?_
          · exact .inr ⟨m, point, hpoint, Follows.plays (hquiet.follows next hnext) hplays⟩
          · cases Follows.isSpeech (hquiet.follows _ hnext) hspeech

omit [CanonicalDigest] in
theorem settled_yields_none {next : OutputPoint} (h : next.Settles) : next.yields = none := by
  cases next with
  | yielded => cases h.plays
  | _ => rfl

omit [CanonicalDigest] in
theorem open_yields_none {next : OutputPoint} (h : next.isOpen = true) : next.yields = none := by
  cases next with
  | yielded => cases h
  | _ => rfl

omit [CanonicalDigest] in
/-- A segment that would do at any point hands out nothing. -/
theorem Quiet.yields_none {world : OutputWorld} {segment : Segment} {next : OutputPoint}
    (h : Quiet false (.dropping "") world segment) (hnext : segment.2 = some next) :
    next.yields = none := by
  cases h.follows next hnext with
  | same => rfl
  | settles hsettles => exact settled_yields_none hsettles

omit [CanonicalDigest] in
/-- A chunk that is handed out is of the generation of the voice. -/
theorem chunkPulled_yields {world : OutputWorld} {id other : String} {record : OutputStream}
    {chunk : TtsAudioChunk} {next : OutputPoint} (hrecord : world.records id = some record)
    (h : (chunkPulled providerId id record chunk world).2 = some next)
    (hnext : next.yields = some other) :
    (world.voice record.state.sessionId).generation = record.state.generation := by
  unfold chunkPulled at h
  split at h
  next =>
    rw [Quiet.yields_none (chunksRaise_quiet providerId _ hrecord) h] at hnext
    cases hnext
  next =>
    simp only at h
    split at h
    next =>
      cases h
      cases hnext
    next hcurrent =>
      by_contra hstale
      exact hcurrent (.inl hstale)

theorem pulling_yields {world : OutputWorld} {m : Nat} {id other : String} {reply : AwaitReply}
    {next : OutputPoint} (h : (resume providerId streamId m (.pulling id) reply world).2 = some next)
    (hnext : next.yields = some other) :
    ∃ record, world.records id = some record ∧
      (world.voice record.state.sessionId).generation = record.state.generation := by
  unfold resume at h
  simp only at h
  split at h
  next => cases h
  next record hrecord =>
    refine ⟨record, hrecord, ?_⟩
    split at h
    next => exact chunkPulled_yields providerId hrecord h hnext
    next =>
      rw [Quiet.yields_none (chunksExhausted_quiet hrecord) h] at hnext
      cases hnext
    next =>
      rw [Quiet.yields_none (chunksRaise_quiet providerId _ hrecord) h] at hnext
      cases hnext
    next => cases h
    next =>
      cases h
      cases hnext

/-- A chunk is handed out by a call that reads on, and it is of the generation of the voice. -/
theorem resume_yields {world : OutputWorld} {m : Nat} {id : String} {reply : AwaitReply}
    {next : OutputPoint} (h : (resume providerId streamId m point reply world).2 = some next)
    (hnext : next.yields = some id) (hbefore : point.yields ≠ some id) :
    point = .pulling id ∧ ∃ record, world.records id = some record ∧
      (world.voice record.state.sessionId).generation = record.state.generation := by
  cases hopen : point.isOpen with
  | true =>
    have hopens := resume_opens providerId streamId world m reply hopen
    generalize resume providerId streamId m point reply world = segment at h hopens
    cases hopens with
    | stays =>
      cases h
      exact absurd hnext hbefore
    | waits _ _ hopening =>
      cases h
      rw [open_yields_none (isOpen_of_opening hopening)] at hnext
      cases hnext
    | reserved =>
      cases h
      cases hnext
    | gone | dropped | registered => cases h
  | false =>
    cases hspeech : point.isSpeech with
    | true =>
      have hspeaks := resume_speaks providerId streamId world m reply hspeech
      generalize resume providerId streamId m point reply world = segment at h hspeaks
      cases hspeaks with
      | stays =>
        cases h
        exact absurd hnext hbefore
      | heard =>
        cases h
        cases hnext
      | raised | returned => cases h
    | false =>
      have hquiet : Quiet false point world (resume providerId streamId m point reply world) :=
        resume_quiet providerId streamId hopen hspeech fun hstrict => (by cases hstrict)
      cases hquiet.follows next h with
      | same => exact absurd hnext hbefore
      | settles hsettles =>
        rw [settled_yields_none hsettles] at hnext
        cases hnext
      | pulled other chunk =>
        cases hnext
        exact ⟨rfl, pulling_yields providerId streamId h rfl⟩
      | pulls => cases hnext

theorem Hushed.silent (h : Hushed state) (action : Action OutputCall AwaitReply) :
    Silent providerId streamId state action := by
  intro n id record k hafter hbefore hrecord hinterrupted hlt
  obtain ⟨next, htask, hnext⟩ := Option.bind_eq_some_iff.mp hafter
  cases action with
  | enter call =>
    by_cases hn : n = state.begun
    · simp only [Program.act, hn, Function.update_self] at htask
      by_cases hopen : ∃ sessionId turnId locale, call = .open_ sessionId turnId locale
      · obtain ⟨sessionId, turnId, locale, rfl⟩ := hopen
        cases htask
        cases hnext
      · obtain ⟨_, henters⟩ := enter_quiet false state.world state.begun
          fun sessionId turnId locale heq => hopen ⟨sessionId, turnId, locale, heq⟩
        cases henters next htask with
        | settles hsettles =>
          rw [settled_yields_none hsettles] at hnext
          cases hnext
        | plays => cases hnext
        | speaks => cases hnext
    · simp only [Program.act, Function.update_of_ne hn] at htask
      exact hbefore (by rw [htask]; exact hnext)
  | resume m reply =>
    cases hpoint : state.tasks m with
    | none =>
      rw [Program.act_gone _ hpoint] at htask
      exact hbefore (by rw [htask]; exact hnext)
    | some point =>
      rw [Program.act_suspended _ hpoint] at htask
      by_cases hn : n = m
      · simp only [hn, Function.update_self] at htask
        rw [hn, hpoint] at hbefore
        obtain ⟨rfl, found, hfound, hcurrent⟩ :=
          resume_yields providerId streamId htask hnext hbefore
        rw [hrecord] at hfound
        cases hfound
        have hcome : ToCome state record.state.sessionId record.openedBy
            (some record.state.generation) :=
          .stream (.inr ⟨m, _, hpoint, rfl⟩) hrecord rfl rfl
        obtain ⟨generation, heq, hbehind⟩ :=
          h.behind _ k _ _ (.inl hinterrupted) hlt hcome
        cases heq
        omega
      · simp only [Function.update_of_ne hn] at htask
        exact hbefore (by rw [htask]; exact hnext)

omit [CanonicalDigest] in
theorem empty_hushed : Hushed { world := {} } := by
  refine ⟨fun _ _ => rfl, fun s k hk => ?_, fun _ _ _ _ hat => (by cases hat), fun s n _ hcome => ?_,
    fun s k _ _ hk => ?_⟩
  · rcases hk with hin | ⟨_, hat⟩
    · cases hin
    · cases hat
  · cases hcome with
    | opening hat => cases hat
    | stream _ hr => cases hr
  · rcases hk with hin | ⟨_, hat⟩
    · cases hin
    · cases hat

/-- In a run in which every `speech_started` cuts off what was opened before it, no chunk of a stream
whose `open` began before a `speech_started` is handed out once that has returned. -/
theorem barge_in_silences (actions : List (Action OutputCall AwaitReply))
    (h : (program providerId streamId).Throughout CutsOff { world := {} } actions) :
    (program providerId streamId).Throughout (Silent providerId streamId) { world := {} } actions :=
  Program.throughout_of_step (J := Hushed) (Q := Silent providerId streamId) _
    (fun _ action h hcut => act_hushed providerId streamId h action hcut)
    (fun _ action h _ => h.silent providerId streamId action) empty_hushed actions h

end

end

section Runs

attribute [local instance] checksumDigest

/-- The candidate starts to speak while the interviewer's audio plays. -/
def bargedIn : List (Action OutputCall AwaitReply) := [
  .enter (.open_ "session" "turn-0" none), .resume 0 (gets askedSession), .resume 0 .returned,
  .resume 0 (gets askedSession), .resume 0 .returned,
  .resume 0 (gets askedSession), .resume 0 .returned,
  .enter (.chunks (spelledId 0)), .resume 1 (.chunk plainChunk), .resume 1 .next,
  .enter (.speechStarted "session"), .resume 2 (gets askedSession), .resume 2 .returned,
  .resume 1 (.chunk plainChunk)]

/-- The candidate starts to speak while the provider still synthesizes. -/
def spokenEarly : List (Action OutputCall AwaitReply) := [
  .enter (.open_ "session" "turn-0" none), .resume 0 (gets askedSession),
  .enter (.speechStarted "session"), .resume 1 (gets askedSession), .resume 1 .returned,
  .resume 0 .returned, .resume 0 (gets askedSession), .resume 0 .returned,
  .resume 0 (gets askedSession), .resume 0 .returned,
  .enter (.chunks (spelledId 0))]

theorem barge_in_silences_speaker :
    (program "tts" spelledId).Throughout (Silent "tts" spelledId) { world := {} } bargedIn := by
  refine barge_in_silences "tts" spelledId bargedIn
    ⟨trivial, ?_, trivial, ?_, trivial, ?_, trivial, trivial, trivial, trivial, trivial, ?_, trivial,
      trivial, trivial⟩
  · intro s hat
    cases hat
  · intro s hat
    cases hat
  · intro s hat
    cases hat
  · intro s hat _ n captured hlt hcome
    cases hat
    have hspeaking : (((bargedIn.take 11).foldl (program "tts" spelledId).act
        { world := {} }).world.voice "session").phase = .speaking := by decide +kernel
    cases hcome with
    | fetching h =>
      have hfetching : ∀ n < 2, (((bargedIn.take 11).foldl (program "tts" spelledId).act
          { world := {} }).tasks n).all fun point => !point.isOpen := by decide +kernel
      have hclosed := hfetching n hlt
      rw [show ((bargedIn.take 11).foldl (program "tts" spelledId).act { world := {} }).tasks n = _
        from h] at hclosed
      cases hclosed
    | opening => exact ⟨_, rfl, .inl hspeaking⟩
    | stream => exact ⟨_, rfl, .inl hspeaking⟩

theorem early_speech_ignored :
    ¬(program "tts" spelledId).Throughout (Silent "tts" spelledId) { world := {} }
      (spokenEarly ++ [.resume 2 (.chunk plainChunk)]) := by
  intro h
  have hlast := Program.Throughout.last _ h
  have hfound : (((spokenEarly.foldl (program "tts" spelledId).act
      { world := {} }).world.records (spelledId 0)).map fun record =>
        (record.state.sessionId, record.openedBy)) = some ("session", 0) := by decide +kernel
  obtain ⟨record, hrecord, heq⟩ := Option.map_eq_some_iff.mp hfound
  obtain ⟨hsession, hopened⟩ := Prod.mk.inj heq
  have hyields : (((program "tts" spelledId).act
      (spokenEarly.foldl (program "tts" spelledId).act { world := {} })
        (.resume 2 (.chunk plainChunk))).tasks 2).bind OutputPoint.yields = some (spelledId 0) := by
    decide +kernel
  have hpulling : ((spokenEarly.foldl (program "tts" spelledId).act { world := {} }).tasks 2).bind
      OutputPoint.yields ≠ some (spelledId 0) := by decide +kernel
  have hreturned : (record.state.sessionId, 1) ∈ (spokenEarly.foldl (program "tts" spelledId).act
      { world := {} }).world.interrupted := by
    rw [hsession]
    decide +kernel
  exact hlast 2 (spelledId 0) record 1 hyields hpulling hrecord hreturned (by omega)

end Runs

end VoiceOutputBridge

end NoraInterviewer
