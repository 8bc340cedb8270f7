import NoraInterviewer.ServicePrograms
import NoraInterviewer.ToolStatuses

namespace NoraInterviewer

open ExceptRules OptimisticRuns

def InterviewSession.eventTypes (session : InterviewSession) : List EventType :=
  session.log.map LogEntry.type

def EventType.terminal : EventType → Bool
  | .sessionCompleted | .sessionCancelled => true
  | _ => false

/-- The events of a candidate's answers and controls, and of tools. -/
def EventType.interactive : EventType → Bool
  | .candidateTurn | .candidateControl | .toolOpened | .toolSubmitted | .toolEvaluated
  | .toolCancelled => true
  | _ => false

/-- No interactive event follows a terminal one. -/
def QuietAfterEnd (types : List EventType) : Prop :=
  ∀ before ending after, types = before ++ ending :: after → ending.terminal = true →
    ∀ type ∈ after, type.interactive = false

/-- Where a session is in its life, told by its status, its timestamps and its log alike. -/
structure Lifecycle (session : InterviewSession) : Prop where
  completedAt : session.completedAt.isSome = true ↔ session.status = .completed
  cancelledAt : session.cancelledAt.isSome = true ↔ session.status = .cancelled
  completed : session.eventTypes.count .sessionCompleted = if session.status = .completed then 1 else 0
  cancelled : session.eventTypes.count .sessionCancelled = if session.status = .cancelled then 1 else 0
  started : session.eventTypes.count .interviewStarted ≤ 1
  unstarted : session.status = .created → session.eventTypes.count .interviewStarted = 0
  running : session.status = .running → session.turns ≠ []
  tools : session.status = .cancelled →
    ∀ tool ∈ session.tools, tool.status = .evaluated ∨ tool.status = .cancelled
  quiet : QuietAfterEnd session.eventTypes

/-- Once a session has ended, its end is final. -/
def Settled (later earlier : InterviewSession) : Prop :=
  earlier.status = .completed ∨ earlier.status = .cancelled →
    later.status = earlier.status ∧ later.completedAt = earlier.completedAt ∧
      later.cancelledAt = earlier.cancelledAt ∧
      later.cancellationReason = earlier.cancellationReason

theorem QuietAfterEnd.append {types more : List EventType} (h : QuietAfterEnd types)
    (hm : (∀ type ∈ types, type.terminal = false) ∨ ∀ type ∈ more, type.interactive = false)
    (hq : QuietAfterEnd more) : QuietAfterEnd (types ++ more) := by
  intro before ending after he ht type hmem
  rcases List.append_eq_append_iff.mp he with ⟨mid, hb, hmid⟩ | ⟨mid, hb, hmid⟩
  · -- the end is in `more`
    exact hq mid ending after hmid ht type hmem
  · cases mid with
    | nil => exact hq [] ending after hmid.symm ht type hmem
    | cons first rest =>
      obtain ⟨rfl, hafter⟩ := List.cons.inj hmid
      have hin : ending ∈ types := by rw [hb]; simp
      rcases hm with hm | hm
      · rw [hm ending hin] at ht
        cases ht
      · rw [hafter] at hmem
        rcases List.mem_append.mp hmem with hmem | hmem
        · exact h before ending rest hb ht type hmem
        · exact hm type hmem

theorem quietAfterEnd_of_no_interactive {types : List EventType}
    (h : ∀ type ∈ types, type.interactive = false) : QuietAfterEnd types := by
  intro before ending after he _ type hmem
  exact h type (by rw [he]; simp [hmem])

theorem quietAfterEnd_of_no_terminal {types : List EventType}
    (h : ∀ type ∈ types, type.terminal = false) : QuietAfterEnd types := by
  intro before ending after he ht
  rw [h ending (by rw [he]; simp)] at ht
  cases ht

theorem Lifecycle.no_terminal {session : InterviewSession} (h : Lifecycle session)
    (ha : session.active) : ∀ type ∈ session.eventTypes, type.terminal = false := by
  have hcompleted : session.eventTypes.count .sessionCompleted = 0 := by
    rw [h.completed, if_neg ha.1]
  have hcancelled : session.eventTypes.count .sessionCancelled = 0 := by
    rw [h.cancelled, if_neg ha.2]
  intro type ht
  cases type with
  | sessionCompleted => exact absurd ht (List.count_eq_zero.mp hcompleted)
  | sessionCancelled => exact absurd ht (List.count_eq_zero.mp hcancelled)
  | _ => rfl

/-- Events that neither start nor end the session, with its place in life as it was. -/
theorem Lifecycle.log {session session' : InterviewSession} {more : List EventType}
    (h : Lifecycle session) (ht : session'.eventTypes = session.eventTypes ++ more)
    (hplain : ∀ type ∈ more, type ≠ .sessionCompleted ∧ type ≠ .sessionCancelled ∧
      type ≠ .interviewStarted)
    (hq : session.active ∨ ∀ type ∈ more, type.interactive = false)
    (hstatus : session'.status = session.status)
    (hcompletedAt : session'.completedAt = session.completedAt)
    (hcancelledAt : session'.cancelledAt = session.cancelledAt)
    (hturns : session.turns ≠ [] → session'.turns ≠ [])
    (htools : session.status = .cancelled → session'.tools = session.tools) :
    Lifecycle session' := by
  have hcount : ∀ type, (type = .sessionCompleted ∨ type = .sessionCancelled ∨
      type = .interviewStarted) → session'.eventTypes.count type = session.eventTypes.count type := by
    intro type htype
    have hnone : more.count type = 0 := by
      refine List.count_eq_zero.mpr fun hm => ?_
      obtain ⟨h1, h2, h3⟩ := hplain type hm
      rcases htype with rfl | rfl | rfl
      · exact h1 rfl
      · exact h2 rfl
      · exact h3 rfl
    rw [ht, List.count_append, hnone, Nat.add_zero]
  refine ⟨?_, ?_, ?_, ?_, ?_, ?_, ?_, ?_, ?_⟩
  · rw [hcompletedAt, hstatus]
    exact h.completedAt
  · rw [hcancelledAt, hstatus]
    exact h.cancelledAt
  · rw [hcount _ (by simp), hstatus]
    exact h.completed
  · rw [hcount _ (by simp), hstatus]
    exact h.cancelled
  · rw [hcount _ (by simp)]
    exact h.started
  · rw [hcount _ (by simp), hstatus]
    exact h.unstarted
  · rw [hstatus]
    exact fun hr => hturns (h.running hr)
  · rw [hstatus]
    intro hc
    rw [htools hc]
    exact h.tools hc
  · rw [ht]
    refine h.quiet.append (hq.imp_left h.no_terminal) (quietAfterEnd_of_no_terminal fun type hm => ?_)
    obtain ⟨h1, h2, _⟩ := hplain type hm
    cases type <;> first | rfl | contradiction

theorem writeMetadata_types (session : InterviewSession) (index : Nat) (text : String)
    (metadata : Dict Json) :
    (writeMetadata session index text metadata).eventTypes = session.eventTypes := by
  apply List.ext_getElem?
  intro i
  simp only [InterviewSession.eventTypes, InterviewSession.log, writeMetadata, List.getElem?_map,
    List.getElem?_mapIdx, Option.map_map]
  congr 1
  funext event
  simp only [Function.comp]
  split <;> rfl

theorem append_singleton_ne_nil {α : Type} (items : List α) (item : α) : items ++ [item] ≠ [] := by
  simp

theorem cancelled_types {tools : List ToolInvocation} {entries : List LogEntry}
    (h : List.Forall₂ (fun tool entry => LogEntry.Names entry .toolCancelled "tool_id" tool.id)
      tools entries) : ∀ type ∈ entries.map LogEntry.type, type = .toolCancelled := by
  induction h with
  | nil => simp
  | cons he _ ih => simpa [he.type] using ih

section

variable [CanonicalDigest]

theorem Grows.types {events events' : List InterviewEvent} {entries : List LogEntry}
    (h : Grows events events' entries) :
    (events'.map InterviewEvent.entry).map LogEntry.type =
      (events.map InterviewEvent.entry).map LogEntry.type ++ entries.map LogEntry.type := by
  rw [h.log, List.map_append]

/-- Every effect leaves a session with a consistent life. -/
theorem Lifecycle.effect {policy : Policy} {session session' : InterviewSession}
    (h : Lifecycle session) (he : Effect policy session session') : Lifecycle session' := by
  cases he with
  | evidence he =>
    obtain ⟨_, _, _, entries, rfl, hg, hx⟩ := he
    have htypes : ∀ type ∈ entries.map LogEntry.type, type.aboutEvidence = true := by
      intro type ht
      obtain ⟨entry, hm, rfl⟩ := List.mem_map.mp ht
      exact hx entry hm
    refine h.log hg.types (fun type ht => ?_) (Or.inr fun type ht => ?_) rfl rfl rfl id fun _ => rfl
    · have := htypes type ht
      refine ⟨?_, ?_, ?_⟩ <;> (rintro rfl; cases this)
    · have := htypes type ht
      cases type <;> first | rfl | cases this
  | covered => exact h.log (List.append_nil _).symm (by simp) (by simp) rfl rfl rfl id fun _ => rfl
  | followups => exact h.log (List.append_nil _).symm (by simp) (by simp) rfl rfl rfl id fun _ => rfl
  | asked ha _ _ he hg =>
    exact h.log hg.types (by simp [he.type]) (Or.inl ha) rfl rfl rfl
      (fun _ => append_singleton_ne_nil _ _) fun _ => rfl
  | opened ha _ _ he hg =>
    exact h.log hg.types (by simp [he.type]) (Or.inl ha) rfl rfl rfl id fun hc => absurd hc ha.2
  | answered ha _ _ _ he hg =>
    exact h.log hg.types (by simp [he.type]) (Or.inl ha) rfl rfl rfl
      (fun _ => append_singleton_ne_nil _ _) fun _ => rfl
  | worked ha _ _ _ _ _ e1 e2 e3 hg =>
    exact h.log hg.types (by simp [e1.type, e2.type, e3.type]) (Or.inl ha) rfl rfl rfl
      (fun _ => append_singleton_ne_nil _ _) fun hc => absurd hc ha.2
  | controlled ha he hg =>
    exact h.log hg.types (by simp [he.type]) (Or.inl ha) rfl rfl rfl id fun _ => rfl
  | replied ha _ _ _ he hg =>
    exact h.log hg.types (by simp [he.type]) (Or.inl ha) rfl rfl rfl
      (fun _ => append_singleton_ne_nil _ _) fun _ => rfl
  | @corrected index turn text metadata revision entry events _ _ _ _ he hl _ _ =>
    have htypes : (events.map InterviewEvent.entry).map LogEntry.type =
        session.eventTypes ++ [EventType.transcriptCorrected] := by
      rw [hl, List.map_append, List.map_singleton, he.type]
      exact congrArg (· ++ [EventType.transcriptCorrected])
        (writeMetadata_types session index text metadata)
    refine h.log htypes (by simp) (Or.inr (by simp [EventType.interactive])) rfl rfl rfl ?_ fun _ => rfl
    intro hne hnil
    have hlen := congrArg List.length hnil
    simp [writeMetadata] at hlen
    exact hne (by simpa using hlen)
  | appealed _ he hg =>
    exact h.log hg.types (by simp [he.type]) (Or.inr (by simp [he.type, EventType.interactive]))
      rfl rfl rfl id fun _ => rfl
  | @reviewed appeals signals entry events _ he hg =>
    simp only [List.mem_cons, List.not_mem_nil, or_false] at he
    refine h.log hg.types ?_ (Or.inr ?_) rfl rfl rfl id fun _ => rfl
    · rcases he with he | he | he <;> simp [he]
    · rcases he with he | he | he <;> simp [he, EventType.interactive]
  | @started decision turn first second events hs _ ht hf he hg =>
    have hcreated : session.status = .created := by
      rcases hs with hs | ⟨hs, hnil⟩
      · exact hs
      · exact absurd hnil (h.running hs)
    have hactive : session.active := by simp [InterviewSession.active, hcreated]
    have htypes : (events.map InterviewEvent.entry).map LogEntry.type =
        session.eventTypes ++ [EventType.interviewStarted, .interviewerTurn] := by
      rw [hg.types, List.map_cons, List.map_singleton, hf, he.type]
      rfl
    have hcompleted := h.completed
    have hcancelled := h.cancelled
    rw [if_neg hactive.1] at hcompleted
    rw [if_neg hactive.2] at hcancelled
    refine ⟨?_, ?_, ?_, ?_, ?_, (fun h => by cases h), fun _ => append_singleton_ne_nil _ _,
      (fun h => by cases h), ?_⟩
    · have := h.completedAt
      simp_all [countDecision]
    · have := h.cancelledAt
      simp_all [countDecision]
    · change ((events.map InterviewEvent.entry).map LogEntry.type).count _ = 0
      simp [htypes, hcompleted]
    · change ((events.map InterviewEvent.entry).map LogEntry.type).count _ = 0
      simp [htypes, hcancelled]
    · change ((events.map InterviewEvent.entry).map LogEntry.type).count _ ≤ 1
      simp [htypes, h.unstarted hcreated]
    · change QuietAfterEnd ((events.map InterviewEvent.entry).map LogEntry.type)
      rw [htypes]
      refine h.quiet.append (Or.inl (h.no_terminal hactive)) (quietAfterEnd_of_no_terminal ?_)
      simp [EventType.terminal]
  | @completed decision entry events ha _ _ at_ he hg =>
    have htypes : (events.map InterviewEvent.entry).map LogEntry.type =
        session.eventTypes ++ [EventType.sessionCompleted] := by
      rw [hg.types, List.map_singleton, he]
      rfl
    have hcompleted := h.completed
    have hcancelled := h.cancelled
    rw [if_neg ha.1] at hcompleted
    rw [if_neg ha.2] at hcancelled
    refine ⟨?_, ?_, ?_, ?_, ?_, (fun h => by cases h), (fun h => by cases h),
      (fun h => by cases h), ?_⟩
    · simp [Option.or]
      cases session.completedAt <;> rfl
    · have := h.cancelledAt
      simpa [ha.2] using this
    · change ((events.map InterviewEvent.entry).map LogEntry.type).count _ = 1
      simp [htypes, hcompleted]
    · change ((events.map InterviewEvent.entry).map LogEntry.type).count _ = 0
      simp [htypes, hcancelled]
    · change ((events.map InterviewEvent.entry).map LogEntry.type).count _ ≤ 1
      simpa [htypes] using h.started
    · change QuietAfterEnd ((events.map InterviewEvent.entry).map LogEntry.type)
      rw [htypes]
      refine h.quiet.append (Or.inl (h.no_terminal ha)) (quietAfterEnd_of_no_interactive ?_)
      simp [EventType.interactive]
  | @cancelled reason entries last events ha at_ hc he hg =>
    have htypes : (events.map InterviewEvent.entry).map LogEntry.type =
        session.eventTypes ++ (entries.map LogEntry.type ++ [EventType.sessionCancelled]) := by
      rw [hg.types, List.map_append, List.map_singleton, he]
      rfl
    have hnone : ∀ type : EventType, type ≠ .toolCancelled →
        (entries.map LogEntry.type).count type = 0 := fun type hne =>
      List.count_eq_zero.mpr fun hm => hne (cancelled_types hc type hm)
    have hcompleted := h.completed
    have hcancelled := h.cancelled
    rw [if_neg ha.1] at hcompleted
    rw [if_neg ha.2] at hcancelled
    refine ⟨?_, ?_, ?_, ?_, ?_, (fun h => by cases h), (fun h => by cases h), ?_, ?_⟩
    · have := h.completedAt
      simpa [ha.1] using this
    · simp
    · change ((events.map InterviewEvent.entry).map LogEntry.type).count _ = 0
      simp [htypes, hcompleted, hnone]
    · change ((events.map InterviewEvent.entry).map LogEntry.type).count _ = 1
      simp [htypes, hcancelled, hnone]
    · change ((events.map InterviewEvent.entry).map LogEntry.type).count _ ≤ 1
      simpa [htypes, hnone] using h.started
    · intro _ tool hm
      obtain ⟨old, _, rfl⟩ := List.mem_map.mp hm
      rcases cancel_status old with ⟨hs, _⟩ | ⟨hs, _⟩
      · exact Or.inl hs
      · exact Or.inr hs
    · change QuietAfterEnd ((events.map InterviewEvent.entry).map LogEntry.type)
      rw [htypes]
      refine h.quiet.append (Or.inl (h.no_terminal ha)) ?_
      refine QuietAfterEnd.append (quietAfterEnd_of_no_terminal fun type hm => ?_)
        (Or.inl fun type hm => ?_) (quietAfterEnd_of_no_interactive (by simp [EventType.interactive]))
      · rw [cancelled_types hc type hm]
        rfl
      · rw [cancelled_types hc type hm]
        rfl

omit [CanonicalDigest] in
theorem Settled.trans {a b c : InterviewSession} (hcb : Settled c b) (hba : Settled b a) :
    Settled c a := by
  intro ha
  obtain ⟨h1, h2, h3, h4⟩ := hba ha
  obtain ⟨h1', h2', h3', h4'⟩ := hcb (h1 ▸ ha)
  exact ⟨h1'.trans h1, h2'.trans h2, h3'.trans h3, h4'.trans h4⟩

theorem Effect.settled {policy : Policy} {session session' : InterviewSession}
    (h : Effect policy session session') : Settled session' session := by
  intro hend
  cases h with
  | evidence h =>
    obtain ⟨_, _, _, _, rfl, _⟩ := h
    exact ⟨rfl, rfl, rfl, rfl⟩
  | started hs =>
    rcases hs with hs | ⟨hs, _⟩ <;> simp [hs] at hend
  | completed ha => exact absurd hend (not_or.mpr ha)
  | cancelled ha => exact absurd hend (not_or.mpr ha)
  | _ => exact ⟨rfl, rfl, rfl, rfl⟩

theorem lifecycle_fresh {session : InterviewSession} (h : Fresh session) : Lifecycle session := by
  obtain ⟨payload, hlog⟩ := h.log
  have htypes : session.eventTypes = [.sessionCreated] := by
    rw [InterviewSession.eventTypes, hlog]
    rfl
  constructor <;> simp [h.status, h.completedAt, h.cancelledAt, htypes]
  exact quietAfterEnd_of_no_interactive (by simp [EventType.interactive])

omit [CanonicalDigest] in
theorem Lifecycle.stored {session : InterviewSession} (h : Lifecycle session) (backend : Backend) :
    Lifecycle (backend.stored session) := by
  obtain ⟨h1, h2, h3, h4, h5, h6, h7, h8, h9⟩ := h
  cases backend with
  | memory => exact ⟨h1, h2, h3, h4, h5, h6, h7, h8, h9⟩
  | json => exact ⟨h1, h2, h3, h4, h5, h6, h7, h8, h9⟩

theorem History.lifecycle {backend : Backend}
    {admissible : Call → Operation → InterviewSession → Prop} {versions : List InterviewSession}
    (h : History backend admissible versions) : ∀ session ∈ versions, Lifecycle session := by
  refine h.invariant (fun _ => lifecycle_fresh) (fun _ hs => hs.stored backend) ?_
  intro _ _ _ _ _ _ _ hs heffects
  exact heffects.invariant (fun h he => h.effect he) hs

theorem Effects.settled {policy : Policy} {session session' : InterviewSession}
    (h : Effects policy session session') : Settled session' session := by
  induction h with
  | nil => exact fun _ => ⟨rfl, rfl, rfl, rfl⟩
  | snoc _ he ih => exact he.settled.trans ih

theorem History.settled {backend : Backend}
    {admissible : Call → Operation → InterviewSession → Prop} {versions : List InterviewSession}
    (h : History backend admissible versions) : versions.Pairwise Settled := by
  induction h with
  | created => exact List.pairwise_singleton _ _
  | @committed call operation session session' past _ _ hm ih =>
    obtain ⟨job, _, heffects⟩ := mutate_ok hm
    have hstep : Settled (backend.stored session') session := by
      have := heffects.settled
      cases backend with
      | memory => exact this
      | json => exact this
    refine List.pairwise_cons.mpr ⟨fun earlier he => ?_, ih⟩
    rcases List.mem_cons.mp he with rfl | he
    · exact hstep
    · exact hstep.trans ((List.pairwise_cons.mp ih).1 earlier he)

theorem Backend.version_of_transaction (backend : Backend) (session session' : InterviewSession)
    (h : Transaction session session') :
    backend.versioned.version session' = backend.versioned.version session :=
  h.identity.version

theorem History.chained {backend : Backend}
    {admissible : Call → Operation → InterviewSession → Prop} {versions : List InterviewSession}
    (h : History backend admissible versions) :
    Chained backend.versioned Transaction versions := by
  induction h with
  | created => exact List.isChain_singleton _
  | committed _ _ hm ih => exact List.isChain_cons_cons.mpr ⟨⟨_, ⟨_, _, hm⟩, rfl⟩, ih⟩

/-- Operations that interleave in any way make no version that operations one after the other
do not make. -/
theorem interleaved_history {ι : Type} [DecidableEq ι] {backend : Backend} {first : InterviewSession}
    {past : List InterviewSession} (h : History backend (fun _ _ _ => True) (first :: past))
    (startCall call : ι → Call) (operation : ι → Operation) {events : List (Event ι InterviewSession)}
    {final : State ι InterviewSession (Except PyError Unit)}
    (hr : Run backend.versioned
      { cell := first, past, clients := fun i => (operation i).program (startCall i) (call i) }
      events final) :
    History backend (fun _ _ _ => True) (final.cell :: final.past) := by
  have hsound := sound_initial h.chained
    fun i => program_grounded (startCall i) (call i) (operation i)
  refine hr.preserves backend.version_of_transaction ?_ hsound h
  rintro base past value hbase ⟨call, operation, hm⟩
  exact hbase.committed trivial hm

/-- In every interleaving of any operations each version has a consistent life, and an end
is final. -/
theorem lifecycle_interleaved {ι : Type} [DecidableEq ι] {backend : Backend}
    {first : InterviewSession} {past : List InterviewSession}
    (h : History backend (fun _ _ _ => True) (first :: past)) (startCall call : ι → Call)
    (operation : ι → Operation) {events : List (Event ι InterviewSession)}
    {final : State ι InterviewSession (Except PyError Unit)}
    (hr : Run backend.versioned
      { cell := first, past, clients := fun i => (operation i).program (startCall i) (call i) }
      events final) :
    (∀ session ∈ final.cell :: final.past, Lifecycle session) ∧
      (final.cell :: final.past).Pairwise Settled :=
  have hfinal := interleaved_history h startCall call operation hr
  ⟨hfinal.lifecycle, hfinal.settled⟩

end

section Runs

attribute [local instance] checksumDigest

def raceOperation (cancels : Bool) : Operation :=
  if cancels then .cancelSession { reason := "withdrawn" } else .answer "I built a queue." []

def raceClient (cancels : Bool) : ServiceProg :=
  (raceOperation cancels).program (plainCall askDecision) (plainCall askDecision)

/-- One client cancels the session between the load and the put of another one's answer. -/
theorem lifecycle_interleaved_race :
    ∃ (first : InterviewSession) (past : List InterviewSession)
      (events : List (Event Bool InterviewSession))
      (final : State Bool InterviewSession (Except PyError Unit)),
      Run Backend.memory.versioned { cell := first, past, clients := raceClient } events final ∧
      final.cell.status = .cancelled ∧ (∀ session ∈ final.cell :: final.past, Lifecycle session) ∧
      (final.cell :: final.past).Pairwise Settled := by
  have hrun : (plainSchedule .memory [(plainCall askDecision, .start)] raceClient
      [false, true, true, false]).any fun result => result.2.2.cell.status = .cancelled := by
    decide +kernel
  obtain ⟨first, past, events, final, hhistory, hr, hcheck⟩ := plainSchedule_run hrun
  obtain ⟨hlife, hsettled⟩ := lifecycle_interleaved (hhistory.mono fun _ _ _ _ => trivial)
    (fun _ => plainCall askDecision) (fun _ => plainCall askDecision) raceOperation hr
  exact ⟨first, past, events, final, hr, of_decide_eq_true hcheck, hlife, hsettled⟩

end Runs

end NoraInterviewer
