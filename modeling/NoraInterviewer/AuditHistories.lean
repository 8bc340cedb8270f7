import NoraInterviewer.Audit
import NoraInterviewer.Execution

/-! `seal_event_chain` and `append_event` on any history, with what they leave behind when they
raise. -/

namespace NoraInterviewer

open ExceptRules HashChain

variable [CanonicalDigest]

/-- `seal_event_chain`, and the list as the call leaves it. -/
def sealEventChainInPlace (events : List InterviewEvent) :
    Except PyError (Option String) × List InterviewEvent :=
  if events.any InterviewEvent.hashed then (verifyEventChain events, events)
  else (.ok (sealFrom none events).2, (sealFrom none events).1)

/-- `append_event`, and the session as the call leaves it. -/
def appendEventInPlace (call : Ambient) (session : InterviewSession) (type : EventType)
    (turn : Option Turn) (payload : Dict Json) : Except PyError InterviewEvent × InterviewSession :=
  let chain := sealEventChainInPlace session.events
  let session := { session with events := chain.2 }
  match chain.1 with
  | .error e => (.error e, session)
  | .ok prevHash =>
    let seq := session.events.length + 1
    let event : InterviewEvent := {
      seq, type, turnId := turn.map Turn.id
      payload := withTrace call.correlationId payload
      createdAt := call.now (.event seq)
      hashVersion := some hashVersion, prevHash }
    let event := { event with eventHash := some (computeEventHash event prevHash) }
    (.ok event, { session with events := session.events ++ [event] })

/-- Legacy events and events with a hash field, in one history. -/
def Mixed (events : List InterviewEvent) : Prop :=
  (∃ event ∈ events, event.hashed = true) ∧ ∃ event ∈ events, event.hashed = false

/-- Every event has a hash field, and they do not form a chain. -/
def Broken (events : List InterviewEvent) : Prop :=
  (∀ event ∈ events, event.hashed = true) ∧ ¬Linked auditLinks none events

/-- An event before and after it was sealed. -/
def GainsSeal (event sealed : InterviewEvent) : Prop :=
  sealed = { event with
    hashVersion := sealed.hashVersion, prevHash := sealed.prevHash, eventHash := sealed.eventHash }

theorem verifyFrom_error {prev : Option String} {events : List InterviewEvent} {e : PyError}
    (h : verifyFrom prev events = .error e) : ∃ message, e = .auditChain message := by
  induction events generalizing prev with
  | nil => cases h
  | cons event rest ih =>
    rw [verifyFrom] at h
    split at h
    next =>
      cases h
      exact ⟨_, rfl⟩
    next =>
      split at h
      next =>
        cases h
        exact ⟨_, rfl⟩
      next =>
        split at h
        next =>
          cases h
          exact ⟨_, rfl⟩
        next => exact ih h

theorem sealFrom_gains (prev : Option String) (events : List InterviewEvent) :
    List.Forall₂ GainsSeal events (sealFrom prev events).1 := by
  induction events generalizing prev with
  | nil => exact .nil
  | cons event rest ih => exact .cons rfl (ih (some (computeEventHash event prev)))

/-- What becomes of a history: a mixed or broken one is refused, and left as it is. -/
theorem sealEventChainInPlace_cases (events : List InterviewEvent) :
    (∃ message, sealEventChainInPlace events = (.error (.auditChain message), events)) ∧
        (Mixed events ∨ Broken events) ∨
      ∃ sealed, sealEventChainInPlace events = (.ok (head auditLinks none sealed), sealed) ∧
        ¬(Mixed events ∨ Broken events) ∧ Linked auditLinks none sealed ∧
        List.Forall₂ GainsSeal events sealed ∧
        (events.any InterviewEvent.hashed = true → sealed = events) := by
  unfold sealEventChainInPlace
  split
  next hany =>
    unfold verifyEventChain
    rw [if_pos hany]
    split
    next hall =>
      have hall : ∀ event ∈ events, event.hashed = true := List.all_eq_true.mp hall
      have hmixed : ¬Mixed events := by
        rintro ⟨_, event, hmem, hlegacy⟩
        rw [hall event hmem] at hlegacy
        cases hlegacy
      cases hverify : verifyFrom none events with
      | error e =>
        obtain ⟨message, rfl⟩ := verifyFrom_error hverify
        refine .inl ⟨⟨message, rfl⟩, .inr ⟨hall, fun hlinked => ?_⟩⟩
        rw [verifyFrom_of_linked hlinked] at hverify
        cases hverify
      | ok last =>
        obtain ⟨hlinked, hhead⟩ := verifyFrom_ok hverify
        have hkeeps : List.Forall₂ GainsSeal events events :=
          List.forall₂_same.mpr fun event _ => rfl
        exact .inr ⟨events, by rw [hhead],
          not_or.mpr ⟨hmixed, fun hbroken => hbroken.2 hlinked⟩, hlinked, hkeeps, fun _ => rfl⟩
    next hall =>
      obtain ⟨event, hmem, hlegacy⟩ : ∃ event ∈ events, event.hashed = false := by
        simpa using hall
      exact .inl ⟨⟨_, rfl⟩, .inl ⟨List.any_eq_true.mp hany, event, hmem, hlegacy⟩⟩
  next hany =>
    have hlegacy : ∀ event ∈ events, event.hashed = false := by simpa using hany
    obtain ⟨hlinked, hhead⟩ := sealFrom_linked none events
    have hsound : ¬(Mixed events ∨ Broken events) := by
      rintro (⟨⟨event, hmem, hhashed⟩, _⟩ | ⟨hall, hbroken⟩)
      · rw [hlegacy event hmem] at hhashed
        cases hhashed
      · cases events with
        | nil => exact hbroken trivial
        | cons event rest =>
          have hhashed := hall event List.mem_cons_self
          rw [hlegacy event List.mem_cons_self] at hhashed
          cases hhashed
    exact .inr ⟨(sealFrom none events).1, by rw [hhead], hsound, hlinked,
      sealFrom_gains none events, fun hc => absurd hc hany⟩

/-- `appendEvent` is `append_event` where it does not raise. -/
theorem appendEventInPlace_appendEvent (call : Ambient) (session : InterviewSession)
    (type : EventType) (turn : Option Turn) (payload : Dict Json) :
    appendEvent call session type turn payload =
      (appendEventInPlace call session type turn payload).1.map
        fun _ => (appendEventInPlace call session type turn payload).2 := by
  have hchain : sealEventChain session.events = (sealEventChainInPlace session.events).1.map
      fun prevHash => ((sealEventChainInPlace session.events).2, prevHash) := by
    unfold sealEventChain sealEventChainInPlace
    split
    next => rfl
    next => rfl
  unfold appendEvent appendEventInPlace
  rw [hchain]
  rcases sealEventChainInPlace_cases session.events with ⟨⟨_, heq⟩, _⟩ | ⟨_, heq, _, _, hgains, _⟩
  · rw [heq]
    rfl
  · rw [heq]
    simp only [hgains.length_eq]
    rfl

section Runs

attribute [local instance] checksumDigest

end Runs

end NoraInterviewer
