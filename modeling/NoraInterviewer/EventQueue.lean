import NoraInterviewer.VoiceStreamBridge
import NoraInterviewer.VoiceCoordinator
import NoraInterviewer.Cooperative
import Mathlib.Data.PNat.Basic

/-! The event queue of one stream of `VoiceStreamBridge`, from the return of `open` on. Task 0 is the
pump that `open` created; the other tasks are the calls of `next_event` and `close`. A cancellation
reaches a task at the await where it is suspended, when it runs next. -/

namespace NoraInterviewer

structure SpeechRecognitionEvent where
  text : String
  isFinal : Bool := false
  confidence : Option UnitScore := none

inductive StreamingVoiceEvent where
  | partialTranscript (event : SpeechRecognitionEvent) (state : VoiceSessionState)
  | finalTranscript (event : SpeechRecognitionEvent) (result : VoiceTurnResult)
  | providerFailure (errorType message : String)

/-- What is in the queue; `ended` is `_END`. -/
inductive QueueItem where
  | event (event : StreamingVoiceEvent)
  | ended

structure PumpFailure where
  errorType : String
  message : String

/-- Where the pump is suspended. -/
inductive PumpPoint where
  | starting
  | listening
  | hearing (event : SpeechRecognitionEvent)
  | answering (event : SpeechRecognitionEvent)
  | reporting (failure : PumpFailure)
  | putting (item : QueueItem)

inductive QueuePoint where
  | pump (point : PumpPoint)
  | getting
  | closingProvider (cancelProvider : Bool)
  /-- `close` waits for the pump -/
  | joining

inductive QueueCall where
  | nextEvent
  | close (cancelProvider : Bool)
  | rotateGeneration (generation : ℤ)

inductive QueueReply where
  | event (event : SpeechRecognitionEvent)
  | exhausted
  | state (state : VoiceSessionState)
  | turn (result : VoiceTurnResult)
  | returned
  | raised (failure : PumpFailure)
  | cancelled

structure QueueWorld where
  record : StreamRecord
  queue : List QueueItem := []
  /-- `_provider_streams` has the stream -/
  listed : Bool := true
  pumpDone : Bool := false
  /-- the pump was cancelled, and has not run since -/
  cancelRequested : Bool := false

namespace EventQueue

open Cooperative

abbrev Segment := QueueWorld × Option QueuePoint

def ends (world : QueueWorld) : Segment := (world, none)

def pumpEnds (world : QueueWorld) : Segment := ({ world with pumpDone := true }, none)

variable (streamId : String) (generation : ℕ) (eventQueueSize : ℕ+)

def full (world : QueueWorld) : Prop := eventQueueSize ≤ world.queue.length

instance (world : QueueWorld) : Decidable (full eventQueueSize world) :=
  inferInstanceAs (Decidable (_ ≤ _))

def stores (world : QueueWorld) (item : QueueItem) : QueueWorld :=
  { world with queue := world.queue ++ [item] }

/-- The `finally` of the pump. -/
def putEnd (world : QueueWorld) : Segment :=
  if full eventQueueSize world then (world, some (.pump (.putting .ended)))
  else pumpEnds (stores world .ended)

/-- The pump goes on after it has stored an event. -/
def afterPut (event : StreamingVoiceEvent) (world : QueueWorld) : Segment :=
  match event with
  | .partialTranscript _ _ => (world, some (.pump .listening))
  | .finalTranscript _ _ | .providerFailure _ _ => putEnd eventQueueSize world

def putEvent (event : StreamingVoiceEvent) (world : QueueWorld) : Segment :=
  if full eventQueueSize world then (world, some (.pump (.putting (.event event))))
  else afterPut eventQueueSize event (stores world (.event event))

/-- A `put` that waits is cancelled, or goes on as soon as there is space. -/
def resumePut (item : QueueItem) (world : QueueWorld) : Segment :=
  if world.cancelRequested then
    let world := { world with cancelRequested := false }
    match item with
    | .event _ => putEnd eventQueueSize world
    | .ended => pumpEnds world
  else if full eventQueueSize world then (world, some (.pump (.putting item)))
  else match item with
    | .event event => afterPut eventQueueSize event (stores world (.event event))
    | .ended => pumpEnds (stores world .ended)

/-- `_pump_provider` from one await to the next. An await that was cancelled may all the same reply
otherwise, where the provider or the store takes the cancellation for itself. -/
def resumePump (point : PumpPoint) (reply : QueueReply) (world : QueueWorld) : Segment :=
  let awake := { world with cancelRequested := false }
  match point, reply with
  | .starting, _ =>
    if world.cancelRequested then pumpEnds awake else (world, some (.pump .listening))
  | .listening, .event event =>
    if world.record.state.closed ∨ world.record.state.generation ≠ generation then
      putEnd eventQueueSize awake
    else if event.isFinal then (awake, some (.pump (.answering event)))
    else (awake, some (.pump (.hearing event)))
  | .listening, .exhausted => putEnd eventQueueSize awake
  | .hearing event, .state state => putEvent eventQueueSize (.partialTranscript event state) awake
  | .answering event, .turn result => putEvent eventQueueSize (.finalTranscript event result) awake
  | .reporting failure, .returned | .reporting failure, .raised _ =>
    putEvent eventQueueSize (.providerFailure failure.errorType
      (String.ofList (failure.message.toList.take 1000))) awake
  | .listening, .raised failure | .hearing _, .raised failure | .answering _, .raised failure =>
    (awake, some (.pump (.reporting failure)))
  | .listening, .cancelled | .hearing _, .cancelled | .answering _, .cancelled
  | .reporting _, .cancelled => putEnd eventQueueSize awake
  | .putting item, _ => resumePut eventQueueSize item world
  | point, _ => (world, some (.pump point))

/-- `queue.get()`. -/
def getItem (world : QueueWorld) : Segment :=
  match world.queue with
  | [] => (world, some .getting)
  | _ :: rest => ends { world with queue := rest }

def enter (_n : ℕ) (call : QueueCall) (world : QueueWorld) : Segment :=
  match call with
  | .nextEvent => if world.listed then getItem world else ends world
  | .close cancelProvider =>
    let closed := { world with record := world.record.close.2 }
    if world.listed then ({ closed with listed := false }, some (.closingProvider cancelProvider))
    else ends closed
  | .rotateGeneration generation =>
    ends { world with record := (world.record.rotateGeneration streamId generation).2 }

def resume (_n : ℕ) (point : QueuePoint) (reply : QueueReply) (world : QueueWorld) : Segment :=
  match point with
  | .pump point => resumePump generation eventQueueSize point reply world
  | .getting =>
    match reply with
    | .cancelled => ends world
    | _ => getItem world
  | .closingProvider _ =>
    match reply with
    | .returned =>
      if world.pumpDone then ends world else ({ world with cancelRequested := true }, some .joining)
    | .raised _ | .cancelled => ends world
    | _ => (world, some point)
  | .joining =>
    if world.pumpDone then ends world
    else
      match reply with
      | .cancelled => ({ world with cancelRequested := true }, some .joining)
      | _ => (world, some .joining)

def program : Program QueueWorld QueuePoint QueueCall QueueReply where
  enter := enter streamId
  resume := resume generation eventQueueSize

abbrev QueueState := State QueueWorld QueuePoint

/-- `open` has returned. -/
def opened (record : StreamRecord) : QueueState where
  world := { record }
  begun := 1
  tasks := fun n => if n = 0 then some (.pump .starting) else none

/-- `close` waits for the pump, the pump waits for space, and nobody can take anything out of the
queue: no call of `next_event` waits for an item, and none can find the stream. -/
structure Deadlocked (state : QueueState) : Prop where
  joining : ∃ n, state.tasks n = some .joining
  putting : ∃ item, state.tasks 0 = some (.pump (.putting item))
  awaits : state.world.cancelRequested = false
  full : full eventQueueSize state.world
  unlisted : state.world.listed = false
  unread : ∀ n, state.tasks n ≠ some .getting

/-- The reply makes the pump store an event, after which its final marker is still to be stored. -/
def Stores : PumpPoint → QueueReply → Prop
  | .hearing _, .state _ => True
  | .answering _, .turn _ => True
  | .reporting _, .returned => True
  | .reporting _, .raised _ => True
  | _, _ => False

/-- Where `close` cancels the pump, the final marker finds space, unless the pump has not begun or
waits to store it already; and while `close` waits the pump has space for an event and the marker
when an await that was cancelled replies all the same. -/
def HasRoom (state : QueueState) : Action QueueCall QueueReply → Prop
  | .enter _ => True
  | .resume n reply =>
    match state.tasks n with
    | some (.closingProvider _) => reply = .returned → state.world.pumpDone = false →
      state.tasks 0 = some (.pump .starting) ∨ state.tasks 0 = some (.pump (.putting .ended)) ∨
        ¬full eventQueueSize state.world
    | some (.pump point) => (∃ m, state.tasks m = some .joining) → Stores point reply →
      state.world.queue.length + 1 < eventQueueSize
    | _ => True

/-- The pump can still end: a cancellation is on its way to it, or its final marker has space. -/
def CanEnd (world : QueueWorld) : Option QueuePoint → Prop
  | some (.pump .starting) => world.cancelRequested = true
  | some (.pump (.putting .ended)) => world.cancelRequested = true
  | some (.pump (.putting (.event _))) => world.cancelRequested = true ∧ ¬full eventQueueSize world
  | some (.pump _) => ¬full eventQueueSize world
  | _ => True

/-- There is one pump, and while `close` waits for it, it can end. -/
structure Drains (state : QueueState) : Prop where
  begun : 0 < state.begun
  single : ∀ n point, state.tasks n = some point → (n = 0 ↔ ∃ inner, point = .pump inner)
  canEnd : (∃ n, state.tasks n = some .joining) → CanEnd eventQueueSize state.world (state.tasks 0)

variable {eventQueueSize} {state : QueueState}

theorem Drains.free (h : Drains eventQueueSize state) : ¬Deadlocked eventQueueSize state := by
  rintro ⟨hjoining, ⟨item, hputting⟩, hawaits, _, _, _⟩
  have hcan := h.canEnd hjoining
  rw [hputting] at hcan
  have hcancelled : state.world.cancelRequested = true := by
    cases item with
    | event => exact hcan.1
    | ended => exact hcan
  rw [hawaits] at hcancelled
  cases hcancelled

theorem full_of_le {world after : QueueWorld} (hle : after.queue.length ≤ world.queue.length)
    (h : full eventQueueSize after) : full eventQueueSize world := by
  unfold full at h ⊢
  omega

/-- The pump can end as before when no item came in and no cancellation was lost. -/
theorem CanEnd.mono {world after : QueueWorld} {point : Option QueuePoint}
    (h : CanEnd eventQueueSize world point) (hle : after.queue.length ≤ world.queue.length)
    (hcancel : world.cancelRequested = true → after.cancelRequested = true) :
    CanEnd eventQueueSize after point := by
  have hfull : full eventQueueSize after → full eventQueueSize world := full_of_le hle
  cases point with
  | none => trivial
  | some point =>
    cases point with
    | pump point =>
      cases point with
      | starting => exact hcancel h
      | putting item =>
        cases item with
        | event => exact ⟨hcancel h.1, fun hf => h.2 (hfull hf)⟩
        | ended => exact hcancel h
      | _ => exact fun hf => h (hfull hf)
    | _ => trivial

theorem putEnd_ends {world : QueueWorld} (h : ¬full eventQueueSize world) :
    (putEnd eventQueueSize world).2 = none := by
  unfold putEnd
  rw [if_neg h]
  rfl

/-- An event that leaves space for the final marker. -/
theorem putEvent_canEnd {world : QueueWorld} (event : StreamingVoiceEvent)
    (h : world.queue.length + 1 < eventQueueSize) :
    CanEnd eventQueueSize (putEvent eventQueueSize event world).1
      (putEvent eventQueueSize event world).2 := by
  have hspace : ¬full eventQueueSize world := by
    unfold full
    omega
  have hmarker : ¬full eventQueueSize (stores world (.event event)) := by
    unfold full stores
    simp only [List.length_append, List.length_singleton]
    omega
  unfold putEvent
  rw [if_neg hspace]
  unfold afterPut
  cases event with
  | partialTranscript => exact hmarker
  | finalTranscript =>
    simp only
    rw [putEnd_ends hmarker]
    trivial
  | providerFailure =>
    simp only
    rw [putEnd_ends hmarker]
    trivial

theorem resumePump_canEnd {world : QueueWorld} {point : PumpPoint} {reply : QueueReply}
    (h : CanEnd eventQueueSize world (some (.pump point)))
    (hroom : Stores point reply → world.queue.length + 1 < eventQueueSize) :
    CanEnd eventQueueSize (resumePump generation eventQueueSize point reply world).1
      (resumePump generation eventQueueSize point reply world).2 := by
  have hend : ∀ {after : QueueWorld}, ¬full eventQueueSize after →
      CanEnd eventQueueSize (putEnd eventQueueSize after).1 (putEnd eventQueueSize after).2 := by
    intro after hspace
    rw [putEnd_ends hspace]
    trivial
  unfold resumePump
  cases point with
  | starting =>
    have hcancelled : world.cancelRequested = true := h
    simp only [hcancelled, if_true]
    trivial
  | listening =>
    cases reply with
    | event event =>
      simp only
      split
      next => exact hend h
      next =>
        split
        next => exact h
        next => exact h
    | exhausted => exact hend h
    | cancelled => exact hend h
    | _ => exact h
  | hearing event =>
    cases reply with
    | state => exact putEvent_canEnd _ (hroom trivial)
    | cancelled => exact hend h
    | _ => exact h
  | answering event =>
    cases reply with
    | turn => exact putEvent_canEnd _ (hroom trivial)
    | cancelled => exact hend h
    | _ => exact h
  | reporting failure =>
    cases reply with
    | returned => exact putEvent_canEnd _ (hroom trivial)
    | raised => exact putEvent_canEnd _ (hroom trivial)
    | cancelled => exact hend h
    | _ => exact h
  | putting item =>
    unfold resumePut
    cases item with
    | event event =>
      obtain ⟨hcancelled, hspace⟩ : world.cancelRequested = true ∧ ¬full eventQueueSize world := h
      simp only [hcancelled, if_true]
      exact hend hspace
    | ended =>
      have hcancelled : world.cancelRequested = true := h
      simp only [hcancelled, if_true]
      trivial

theorem getItem_shrinks (world : QueueWorld) :
    (getItem world).1.queue.length ≤ world.queue.length ∧
      (getItem world).1.cancelRequested = world.cancelRequested ∧
      ∀ next, (getItem world).2 = some next → next = .getting := by
  unfold getItem
  cases hqueue : world.queue with
  | nil => exact ⟨by simp [hqueue], rfl, fun next hnext => (Option.some.inj hnext).symm⟩
  | cons item rest => exact ⟨by simp [ends], rfl, fun next hnext => (by cases hnext)⟩

theorem putEnd_pump {world : QueueWorld} {next : QueuePoint}
    (h : (putEnd eventQueueSize world).2 = some next) : ∃ point, next = .pump point := by
  unfold putEnd at h
  split at h
  next => exact ⟨_, (Option.some.inj h).symm⟩
  next => cases h

theorem afterPut_pump {world : QueueWorld} {event : StreamingVoiceEvent} {next : QueuePoint}
    (h : (afterPut eventQueueSize event world).2 = some next) : ∃ point, next = .pump point := by
  cases event with
  | partialTranscript => exact ⟨_, (Option.some.inj h).symm⟩
  | finalTranscript => exact putEnd_pump h
  | providerFailure => exact putEnd_pump h

theorem putEvent_pump {world : QueueWorld} {event : StreamingVoiceEvent} {next : QueuePoint}
    (h : (putEvent eventQueueSize event world).2 = some next) : ∃ point, next = .pump point := by
  unfold putEvent at h
  split at h
  next => exact ⟨_, (Option.some.inj h).symm⟩
  next => exact afterPut_pump h

theorem resumePut_pump {world : QueueWorld} {item : QueueItem} {next : QueuePoint}
    (h : (resumePut eventQueueSize item world).2 = some next) : ∃ point, next = .pump point := by
  unfold resumePut at h
  split at h
  next =>
    cases item with
    | event => exact putEnd_pump h
    | ended => cases h
  next =>
    split at h
    next => exact ⟨_, (Option.some.inj h).symm⟩
    next =>
      cases item with
      | event => exact afterPut_pump h
      | ended => cases h

/-- The pump stays the pump until it ends. -/
theorem resumePump_pump {world : QueueWorld} {point : PumpPoint} {reply : QueueReply}
    {next : QueuePoint} (h : (resumePump generation eventQueueSize point reply world).2 = some next) :
    ∃ point, next = .pump point := by
  have hsome : ∀ {point : PumpPoint}, some (QueuePoint.pump point) = some next →
      ∃ point, next = .pump point := fun heq => ⟨_, (Option.some.inj heq).symm⟩
  unfold resumePump at h
  cases point with
  | starting =>
    simp only at h
    split at h
    next => cases h
    next => exact hsome h
  | listening =>
    cases reply with
    | event event =>
      simp only at h
      split at h
      next => exact putEnd_pump h
      next =>
        split at h
        next => exact hsome h
        next => exact hsome h
    | exhausted => exact putEnd_pump h
    | cancelled => exact putEnd_pump h
    | _ => exact hsome h
  | hearing event =>
    cases reply with
    | state => exact putEvent_pump h
    | cancelled => exact putEnd_pump h
    | _ => exact hsome h
  | answering event =>
    cases reply with
    | turn => exact putEvent_pump h
    | cancelled => exact putEnd_pump h
    | _ => exact hsome h
  | reporting failure =>
    cases reply with
    | returned => exact putEvent_pump h
    | raised => exact putEvent_pump h
    | cancelled => exact putEnd_pump h
    | _ => exact hsome h
  | putting item => exact resumePut_pump h

/-- A segment of a call that is not the pump and does not begin to wait for it. -/
theorem Drains.segment (h : Drains eventQueueSize state) {begun n : ℕ} {after : QueueWorld}
    {next : Option QueuePoint} (hbegun : 0 < begun) (hn : n ≠ 0)
    (hpump : ∀ point, next ≠ some (.pump point))
    (hjoining : next = some .joining → state.tasks n = some .joining)
    (hle : after.queue.length ≤ state.world.queue.length)
    (hcancel : state.world.cancelRequested = true → after.cancelRequested = true) :
    Drains eventQueueSize
      { world := after, begun, tasks := Function.update state.tasks n next } := by
  refine ⟨hbegun, fun m point hpoint => ?_, ?_⟩
  · by_cases hm : m = n
    · simp only [hm, Function.update_self] at hpoint
      refine iff_of_false (hm ▸ hn) ?_
      rintro ⟨inner, rfl⟩
      exact hpump inner hpoint
    · simp only [Function.update_of_ne hm] at hpoint
      exact h.single m point hpoint
  · rintro ⟨m, hm⟩
    have hbefore : ∃ m, state.tasks m = some .joining := by
      by_cases hmn : m = n
      · simp only [hmn, Function.update_self] at hm
        exact ⟨n, hjoining hm⟩
      · simp only [Function.update_of_ne hmn] at hm
        exact ⟨m, hm⟩
    simp only [Function.update_of_ne (Ne.symm hn)]
    exact (h.canEnd hbefore).mono hle hcancel

theorem Drains.other (h : Drains eventQueueSize state) {n : ℕ} {point : QueuePoint}
    (hpoint : state.tasks n = some point) (hother : ∀ inner, point ≠ .pump inner) : n ≠ 0 := by
  intro hzero
  obtain ⟨inner, heq⟩ := (h.single n point hpoint).mp hzero
  exact hother inner heq

/-- `close` cancels a pump that can end then, and waits for it. -/
theorem Drains.cancels (h : Drains eventQueueSize state) {n : ℕ} (hn : n ≠ 0)
    (hroom : state.tasks 0 = some (.pump .starting) ∨
      state.tasks 0 = some (.pump (.putting .ended)) ∨ ¬full eventQueueSize state.world) :
    Drains eventQueueSize { state with
      world := { state.world with cancelRequested := true }
      tasks := Function.update state.tasks n (some .joining) } := by
  refine ⟨h.begun, fun m point hpoint => ?_, fun _ => ?_⟩
  · by_cases hm : m = n
    · simp only [hm, Function.update_self] at hpoint
      refine iff_of_false (hm ▸ hn) ?_
      rintro ⟨inner, rfl⟩
      cases hpoint
    · simp only [Function.update_of_ne hm] at hpoint
      exact h.single m point hpoint
  · simp only [Function.update_of_ne (Ne.symm hn)]
    rcases hroom with hstarting | hputting | hspace
    · rw [hstarting]
      rfl
    · rw [hputting]
      rfl
    · cases hpoint : state.tasks 0 with
      | none => trivial
      | some point =>
        cases point with
        | pump point =>
          cases point with
          | starting => rfl
          | putting item =>
            cases item with
            | event => exact ⟨rfl, hspace⟩
            | ended => rfl
          | _ => exact hspace
        | _ => trivial

theorem act_drains (h : Drains eventQueueSize state) (action : Action QueueCall QueueReply)
    (hroom : HasRoom eventQueueSize state action) :
    Drains eventQueueSize ((program streamId generation eventQueueSize).act state action) := by
  cases action with
  | enter call =>
    have hn : state.begun ≠ 0 := Nat.pos_iff_ne_zero.mp h.begun
    obtain ⟨hle, hcancel, hnext⟩ : (enter streamId state.begun call state.world).1.queue.length ≤
          state.world.queue.length ∧
        (enter streamId state.begun call state.world).1.cancelRequested =
          state.world.cancelRequested ∧
        ∀ next, (enter streamId state.begun call state.world).2 = some next →
          next = .getting ∨ ∃ cancelProvider, next = .closingProvider cancelProvider := by
      unfold enter
      cases call with
      | nextEvent =>
        simp only
        split
        next =>
          obtain ⟨hle, hcancel, hnext⟩ := getItem_shrinks state.world
          exact ⟨hle, hcancel, fun next heq => .inl (hnext next heq)⟩
        next => exact ⟨le_refl _, rfl, fun next heq => (by cases heq)⟩
      | close cancelProvider =>
        simp only
        split
        next => exact ⟨le_refl _, rfl, fun next heq => .inr ⟨_, (Option.some.inj heq).symm⟩⟩
        next => exact ⟨le_refl _, rfl, fun next heq => (by cases heq)⟩
      | rotateGeneration => exact ⟨le_refl _, rfl, fun next heq => (by cases heq)⟩
    refine h.segment (Nat.succ_pos _) hn (fun point heq => ?_) (fun heq => ?_) hle
      fun hcancelled => hcancel.trans hcancelled
    · rcases hnext _ heq with hgetting | ⟨_, hclosing⟩
      · cases hgetting
      · cases hclosing
    · rcases hnext _ heq with hgetting | ⟨_, hclosing⟩
      · cases hgetting
      · cases hclosing
  | resume n reply =>
    cases hpoint : state.tasks n with
    | none =>
      rw [Program.act_gone _ hpoint]
      exact h
    | some point =>
      rw [Program.act_suspended _ hpoint]
      simp only [HasRoom, hpoint] at hroom
      cases point with
      | pump point =>
        have hzero : n = 0 := (h.single n _ hpoint).mpr ⟨point, rfl⟩
        subst hzero
        refine ⟨h.begun, fun m other hother => ?_, ?_⟩
        · by_cases hm : m = 0
          · simp only [hm, Function.update_self] at hother
            exact iff_of_true hm (resumePump_pump generation hother)
          · simp only [Function.update_of_ne hm] at hother
            exact h.single m other hother
        · rintro ⟨m, hm⟩
          have hne : m ≠ 0 := by
            rintro rfl
            simp only [Function.update_self] at hm
            obtain ⟨inner, heq⟩ := resumePump_pump generation hm
            cases heq
          simp only [Function.update_of_ne hne] at hm
          have hcan := h.canEnd ⟨m, hm⟩
          rw [hpoint] at hcan
          simp only [Function.update_self]
          exact resumePump_canEnd generation hcan (hroom ⟨m, hm⟩)
      | getting =>
        have hn := h.other hpoint fun inner heq => (by cases heq)
        obtain ⟨hle, hcancel, hnext⟩ := getItem_shrinks state.world
        cases reply with
        | cancelled =>
          exact h.segment h.begun hn (fun _ heq => (by cases heq)) (fun heq => (by cases heq))
            (le_refl _) id
        | _ =>
          exact h.segment h.begun hn (fun point heq => (by cases hnext _ heq))
            (fun heq => (by cases hnext _ heq)) hle fun hcancelled => hcancel.trans hcancelled
      | closingProvider cancelProvider =>
        have hn := h.other hpoint fun inner heq => (by cases heq)
        have hends : Drains eventQueueSize
            { state with tasks := Function.update state.tasks n none } :=
          h.segment h.begun hn (fun _ heq => (by cases heq)) (fun heq => (by cases heq))
            (le_refl _) id
        have hstays : Drains eventQueueSize { state with
            tasks := Function.update state.tasks n (some (.closingProvider cancelProvider)) } :=
          h.segment h.begun hn (fun _ heq => (by cases heq)) (fun heq => (by cases heq))
            (le_refl _) id
        cases reply with
        | returned =>
          cases hdone : state.world.pumpDone with
          | true =>
            simp only [program, resume, hdone, if_true]
            exact hends
          | false =>
            have hrunning : ¬state.world.pumpDone = true := by simp [hdone]
            simp only [program, resume, if_neg hrunning]
            exact h.cancels hn (hroom rfl hdone)
        | raised => exact hends
        | cancelled => exact hends
        | _ => exact hstays
      | joining =>
        have hn := h.other hpoint fun inner heq => (by cases heq)
        cases hdone : state.world.pumpDone with
        | true =>
          simp only [program, resume, hdone, if_true]
          exact h.segment h.begun hn (fun _ heq => (by cases heq)) (fun heq => (by cases heq))
            (le_refl _) id
        | false =>
          have hwaits : ∀ {after : QueueWorld}, after.queue = state.world.queue →
              (state.world.cancelRequested = true → after.cancelRequested = true) →
              Drains eventQueueSize { state with
                world := after, tasks := Function.update state.tasks n (some .joining) } :=
            fun hqueue hcancel => h.segment h.begun hn (fun _ heq => (by cases heq))
              (fun _ => hpoint) (hqueue ▸ le_refl _) hcancel
          have hrunning : ¬state.world.pumpDone = true := by simp [hdone]
          simp only [program, resume, if_neg hrunning]
          cases reply with
          | cancelled => exact hwaits rfl fun _ => rfl
          | _ => exact hwaits rfl id

theorem opened_drains (record : StreamRecord) : Drains eventQueueSize (opened record) := by
  refine ⟨Nat.one_pos, fun n point hpoint => ?_, ?_⟩
  · by_cases hn : n = 0
    · simp only [opened, hn, if_true] at hpoint
      exact iff_of_true hn ⟨_, (Option.some.inj hpoint).symm⟩
    · simp only [opened, hn, if_false] at hpoint
      cases hpoint
  · rintro ⟨n, hjoining⟩
    simp only [opened] at hjoining
    split at hjoining
    next => cases hjoining
    next => cases hjoining

/-- In a run in which the pump always has room for what it still stores when `close` cancels it, no
state is a deadlock of `close` and the pump. -/
theorem close_never_deadlocks (eventQueueSize : ℕ+) (record : StreamRecord)
    (actions : List (Action QueueCall QueueReply))
    (h : (program streamId generation eventQueueSize).Throughout (HasRoom eventQueueSize)
      (opened record) actions) :
    (program streamId generation eventQueueSize).Always
      (fun state => ¬Deadlocked eventQueueSize state) (opened record) actions := by
  have hdrains : (program streamId generation eventQueueSize).Always (Drains eventQueueSize)
      (opened record) actions :=
    Program.always_of_step (P := Drains eventQueueSize) _ (fun _ action h hroom => act_drains streamId generation h action hroom)
      (opened_drains record) actions h
  exact hdrains.mono _ fun _ h => h.free

def partialText (text : String) : QueueReply := .event { text }

/-- A partial transcript is stored, nobody reads it, and the stream is closed. -/
def closedEarly : List (Action QueueCall QueueReply) := [
  .resume 0 .returned, .resume 0 (partialText "I"), .resume 0 (.state {}),
  .enter (.close true), .resume 1 .returned, .resume 0 .cancelled, .resume 1 .returned]

theorem close_never_deadlocks_early :
    (program "stream" 0 2).Always (fun state => ¬Deadlocked 2 state)
      (opened BridgeStream.quietStream) closedEarly := by
  refine close_never_deadlocks "stream" 0 2 BridgeStream.quietStream closedEarly ?_
  refine ⟨?_, ?_, ?_, trivial, fun _ _ => .inr (.inr ?_), ?_, ?_, trivial⟩
  · exact fun _ hstores => (by cases hstores)
  · exact fun _ hstores => (by cases hstores)
  · exact fun _ _ => Nat.le_refl 2
  · decide
  · exact fun _ hstores => (by cases hstores)
  · trivial

/-- A second partial transcript waits for space, nobody reads, and the stream is closed. -/
def closedFull : List (Action QueueCall QueueReply) := [
  .resume 0 .returned, .resume 0 (partialText "I"), .resume 0 (.state {}),
  .resume 0 (partialText "I built"), .resume 0 (.state {}),
  .enter (.close true), .resume 1 .returned, .resume 0 .cancelled]

theorem close_deadlocks_full :
    ¬(program "stream" 0 1).Always (fun state => ¬Deadlocked 1 state)
      (opened BridgeStream.quietStream) closedFull := by
  intro h
  refine Program.Always.last _ h ⟨⟨1, rfl⟩, ⟨.ended, rfl⟩, rfl, by decide, rfl, ?_⟩
  intro n hgetting
  rcases n with _ | _ | n
  · cases hgetting
  · cases hgetting
  · cases hgetting

end EventQueue

end NoraInterviewer
