import NoraInterviewer.Errors
import NoraInterviewer.Models
import NoraInterviewer.Simulation
import Mathlib.Algebra.Order.Group.Defs
import Mathlib.Algebra.Order.Group.Int

/-! `CircuitBreaker` and the records of `ProviderHealthRegistry`, over the readings of one clock. -/

namespace NoraInterviewer

open Simulation

inductive CircuitState where
  | closed
  | open
  | halfOpen
  deriving DecidableEq

/-- What `before_call` raises. -/
inductive CircuitError (T : Type) where
  | circuitOpen (message : String)
  | circuitOpenFor (key : String) (remaining : T)
  | assertion
  deriving DecidableEq

section

variable (T : Type) [AddCommGroup T] [LinearOrder T]

structure CircuitBreaker where
  providerId : String
  failureThreshold : Nat
  cooldownSeconds : T
  state : CircuitState := .closed
  consecutiveFailures : Nat := 0
  totalFailures : Nat := 0
  totalSuccesses : Nat := 0
  openedAt : Option T := none

structure ProviderHealthRecord where
  key : String
  providerId : String
  disabled : Bool
  consecutiveFailures : Nat := 0
  totalFailures : Nat := 0
  totalSuccesses : Nat := 0
  openUntil : T := 0
  lastErrorType : Option String := none
  lastError : Option String := none
  lastFailureAt : Option DateTime := none
  lastSuccessAt : Option DateTime := none

/-- What the constructors of both admit. -/
structure BreakerConfig where
  failureThreshold : Nat
  cooldownSeconds : T
  threshold_pos : 1 ≤ failureThreshold
  cooldown_pos : 0 < cooldownSeconds

end

variable {T : Type} [AddCommGroup T] [LinearOrder T]

namespace CircuitBreaker

def beforeCall (breaker : CircuitBreaker T) (time : T) : Except (CircuitError T) (CircuitBreaker T) :=
  if breaker.state ≠ .open then .ok breaker
  else match breaker.openedAt with
    | none => .error .assertion
    | some openedAt =>
      if breaker.cooldownSeconds ≤ time - openedAt then .ok { breaker with state := .halfOpen }
      else .error (.circuitOpen ("Provider circuit is open: " ++ breaker.providerId))

def recordSuccess (breaker : CircuitBreaker T) : CircuitBreaker T :=
  { breaker with
    totalSuccesses := breaker.totalSuccesses + 1
    consecutiveFailures := 0
    state := .closed
    openedAt := none }

def recordFailure (breaker : CircuitBreaker T) (time : T) : CircuitBreaker T :=
  let breaker := { breaker with
    totalFailures := breaker.totalFailures + 1
    consecutiveFailures := breaker.consecutiveFailures + 1 }
  if breaker.state = .halfOpen ∨ breaker.failureThreshold ≤ breaker.consecutiveFailures then
    { breaker with state := .open, openedAt := some time }
  else breaker

end CircuitBreaker

namespace ProviderHealthRecord

def beforeCall (record : ProviderHealthRecord T) (time : T) :
    Except (CircuitError T) (ProviderHealthRecord T) :=
  if record.disabled then .ok record
  else if record.openUntil ≤ time then .ok { record with openUntil := 0 }
  else .error (.circuitOpenFor record.key (max 0 (record.openUntil - time)))

def recordSuccess (record : ProviderHealthRecord T) (now : DateTime) : ProviderHealthRecord T :=
  { record with
    totalSuccesses := record.totalSuccesses + 1
    consecutiveFailures := 0
    openUntil := 0
    lastErrorType := none
    lastError := none
    lastSuccessAt := some now }

def recordFailure (config : BreakerConfig T) (record : ProviderHealthRecord T) (time : T)
    (exc : Raised) (now : DateTime) : ProviderHealthRecord T :=
  if record.disabled then record
  else
    let record := { record with
      totalFailures := record.totalFailures + 1
      consecutiveFailures := record.consecutiveFailures + 1
      lastErrorType := some exc.className
      lastError := some (String.ofList (exc.message.toList.take 1000))
      lastFailureAt := some now }
    if config.failureThreshold ≤ record.consecutiveFailures then
      { record with openUntil := time + config.cooldownSeconds }
    else record

end ProviderHealthRecord

/-- One event, at the reading `time` of the clock. -/
inductive BreakerEvent (T : Type) where
  | beforeCall (time : T)
  | recordSuccess (time : T) (now : DateTime)
  | recordFailure (time : T) (exc : Raised) (now : DateTime)

def BreakerEvent.time : BreakerEvent T → T
  | beforeCall time | recordSuccess time _ | recordFailure time _ _ => time

/-- `CircuitBreaker` under events; the answer is the exception, if one is raised. -/
def CircuitBreaker.step (breaker : CircuitBreaker T) :
    BreakerEvent T → CircuitBreaker T × Option (CircuitError T)
  | .beforeCall time =>
    match breaker.beforeCall time with
    | .ok breaker => (breaker, none)
    | .error e => (breaker, some e)
  | .recordSuccess _ _ => (breaker.recordSuccess, none)
  | .recordFailure time _ _ => (breaker.recordFailure time, none)

def ProviderHealthRecord.step (config : BreakerConfig T) (record : ProviderHealthRecord T) :
    BreakerEvent T → ProviderHealthRecord T × Option (CircuitError T)
  | .beforeCall time =>
    match record.beforeCall time with
    | .ok record => (record, none)
    | .error e => (record, some e)
  | .recordSuccess _ now => (record.recordSuccess now, none)
  | .recordFailure time exc now => (record.recordFailure config time exc now, none)

def breakerMachine (T : Type) [AddCommGroup T] [LinearOrder T] :
    Machine (BreakerEvent T) (Option (CircuitError T)) where
  State := CircuitBreaker T
  step := CircuitBreaker.step

def recordMachine (config : BreakerConfig T) :
    Machine (BreakerEvent T) (Option (CircuitError T)) where
  State := ProviderHealthRecord T
  step := ProviderHealthRecord.step config

def BreakerConfig.breaker (config : BreakerConfig T) (providerId : String) : CircuitBreaker T where
  providerId := providerId
  failureThreshold := config.failureThreshold
  cooldownSeconds := config.cooldownSeconds

/-- What `register` puts into the registry. -/
def registered (T : Type) [AddCommGroup T] [LinearOrder T] (key providerId : String)
    (disabled : Bool) : ProviderHealthRecord T where
  key := key
  providerId := providerId
  disabled := disabled

/-- What holds of a breaker that its constructor and its three methods lead to. -/
structure Sane (config : BreakerConfig T) (breaker : CircuitBreaker T) : Prop where
  threshold : breaker.failureThreshold = config.failureThreshold
  cooldown : breaker.cooldownSeconds = config.cooldownSeconds
  closed : breaker.state = .closed → breaker.consecutiveFailures < config.failureThreshold
  tripped : breaker.state ≠ .closed → config.failureThreshold ≤ breaker.consecutiveFailures
  opened : breaker.state = .open → ∃ openedAt, breaker.openedAt = some openedAt

variable {config : BreakerConfig T} {breaker : CircuitBreaker T} {record : ProviderHealthRecord T}

theorem Sane.fresh (config : BreakerConfig T) (providerId : String) :
    Sane config (config.breaker providerId) where
  threshold := rfl
  cooldown := rfl
  closed _ := config.threshold_pos
  tripped h := absurd rfl h
  opened h := by cases h

/-- What a call in the open state comes to. -/
theorem beforeCall_open (h : breaker.state = .open) {openedAt : T}
    (ho : breaker.openedAt = some openedAt) (time : T) :
    breaker.beforeCall time = if breaker.cooldownSeconds ≤ time - openedAt then
        .ok { breaker with state := .halfOpen }
      else .error (.circuitOpen ("Provider circuit is open: " ++ breaker.providerId)) := by
  simp only [CircuitBreaker.beforeCall, h, ho, ne_eq, not_true_eq_false, if_false]

theorem beforeCall_passes (h : breaker.state ≠ .open) (time : T) :
    breaker.beforeCall time = .ok breaker := if_pos h

/-- A failure trips a breaker that is tripped already or comes to its threshold. -/
theorem recordFailure_eq (h : Sane config breaker) (time : T) :
    (config.failureThreshold ≤ breaker.consecutiveFailures + 1 ∧
      breaker.recordFailure time = { breaker with
        totalFailures := breaker.totalFailures + 1
        consecutiveFailures := breaker.consecutiveFailures + 1
        state := .open
        openedAt := some time }) ∨
    (breaker.consecutiveFailures + 1 < config.failureThreshold ∧ breaker.state = .closed ∧
      breaker.recordFailure time = { breaker with
        totalFailures := breaker.totalFailures + 1
        consecutiveFailures := breaker.consecutiveFailures + 1 }) := by
  by_cases hc : config.failureThreshold ≤ breaker.consecutiveFailures + 1
  · refine .inl ⟨hc, ?_⟩
    simp only [CircuitBreaker.recordFailure, h.threshold, hc, or_true, if_true]
  · have hclosed : breaker.state = .closed := by
      by_contra hs
      have htripped := h.tripped hs
      omega
    refine .inr ⟨by omega, hclosed, ?_⟩
    simp only [CircuitBreaker.recordFailure, h.threshold, hc, hclosed, reduceCtorEq, or_self,
      if_false]

theorem Sane.step (h : Sane config breaker) (event : BreakerEvent T) :
    Sane config (breaker.step event).1 ∧ (breaker.step event).2 ≠ some .assertion := by
  cases event with
  | recordSuccess time now =>
    exact ⟨⟨h.threshold, h.cooldown, fun _ => config.threshold_pos, fun hs => absurd rfl hs,
      fun hs => by cases hs⟩, fun he => by cases he⟩
  | recordFailure time exc now =>
    refine ⟨?_, fun he => by cases he⟩
    simp only [CircuitBreaker.step]
    rcases recordFailure_eq h time with ⟨hc, heq⟩ | ⟨hc, hclosed, heq⟩
    · rw [heq]
      exact ⟨h.threshold, h.cooldown, (fun hs => by cases hs), fun _ => hc, fun _ => ⟨time, rfl⟩⟩
    · rw [heq]
      exact ⟨h.threshold, h.cooldown, fun _ => hc, fun hs => absurd hclosed hs,
        fun hs => by rw [hclosed] at hs; cases hs⟩
  | beforeCall time =>
    simp only [CircuitBreaker.step]
    by_cases hs : breaker.state = .open
    · obtain ⟨openedAt, ho⟩ := h.opened hs
      rw [beforeCall_open hs ho]
      split
      next breaker' hb =>
        split at hb
        next =>
          cases hb
          refine ⟨⟨h.threshold, h.cooldown, (fun hs => by cases hs), fun _ => h.tripped ?_,
            fun hs => by cases hs⟩, fun he => by cases he⟩
          rw [hs]
          exact fun hs => by cases hs
        next => cases hb
      next e he =>
        split at he
        next => cases he
        next =>
          cases he
          exact ⟨h, fun he => by cases he⟩
    · rw [beforeCall_passes hs]
      exact ⟨h, fun he => by cases he⟩

/-- The failures and successes that both count. -/
structure SameCounts (breaker : CircuitBreaker T) (record : ProviderHealthRecord T) : Prop where
  consecutive : breaker.consecutiveFailures = record.consecutiveFailures
  failures : breaker.totalFailures = record.totalFailures
  successes : breaker.totalSuccesses = record.totalSuccesses

/-- The deadline of the record is the end of the cooldown of the breaker. -/
structure Matches (config : BreakerConfig T) (breaker : CircuitBreaker T)
    (record : ProviderHealthRecord T) : Prop where
  sane : Sane config breaker
  enabled : record.disabled = false
  counts : SameCounts breaker record
  deadline : ∀ openedAt, breaker.state = .open → breaker.openedAt = some openedAt →
    record.openUntil = openedAt + config.cooldownSeconds
  idle : breaker.state ≠ .open → record.openUntil = 0

def BreakerEvent.isCall : BreakerEvent T → Bool
  | beforeCall _ => true
  | _ => false

/-- The last result that was recorded is a failure at `openedAt`. -/
def FailedLast (events : List (BreakerEvent T)) (openedAt : T) : Prop :=
  ∃ before exc now calls, events = before ++ .recordFailure openedAt exc now :: calls ∧
    calls.all BreakerEvent.isCall = true

/-- A new breaker after some events. -/
def BreakerConfig.after (config : BreakerConfig T) (providerId : String)
    (events : List (BreakerEvent T)) : CircuitBreaker T :=
  ((breakerMachine T).run (config.breaker providerId) events).1

theorem after_snoc (config : BreakerConfig T) (providerId : String) (events : List (BreakerEvent T))
    (event : BreakerEvent T) : config.after providerId (events ++ [event]) =
      ((config.after providerId events).step event).1 :=
  Machine.run_snoc (breakerMachine T) (config.breaker providerId) events event

theorem sane_after (config : BreakerConfig T) (providerId : String)
    (events : List (BreakerEvent T)) : Sane config (config.after providerId events) := by
  induction events using List.reverseRecOn with
  | nil => exact .fresh config providerId
  | append_singleton events event ih =>
    rw [after_snoc]
    exact (ih.step event).1

/-- An open breaker has been open since the last result that was recorded. -/
theorem open_since (config : BreakerConfig T) (providerId : String) (events : List (BreakerEvent T))
    {openedAt : T} (hs : (config.after providerId events).state = .open)
    (ho : (config.after providerId events).openedAt = some openedAt) :
    FailedLast events openedAt := by
  induction events using List.reverseRecOn with
  | nil => cases hs
  | append_singleton events event ih =>
    rw [after_snoc] at hs ho
    have hsane := sane_after config providerId events
    generalize config.after providerId events = breaker at hs ho ih hsane
    cases event with
    | recordSuccess time now => cases hs
    | recordFailure time exc now =>
      simp only [CircuitBreaker.step] at hs ho
      rcases recordFailure_eq hsane time with ⟨-, heq⟩ | ⟨-, hclosed, heq⟩
      · rw [heq] at ho
        cases ho
        exact ⟨events, exc, now, [], rfl, rfl⟩
      · rw [heq] at hs
        dsimp only at hs
        rw [hclosed] at hs
        cases hs
    | beforeCall time =>
      have hsame : (breaker.step (.beforeCall time)).1 = breaker := by
        simp only [CircuitBreaker.step] at hs ⊢
        by_cases hopen : breaker.state = .open
        · obtain ⟨openedAt', ho'⟩ := hsane.opened hopen
          rw [beforeCall_open hopen ho'] at hs ⊢
          by_cases hc : breaker.cooldownSeconds ≤ time - openedAt'
          · rw [if_pos hc] at hs
            cases hs
          · rw [if_neg hc]
        · rw [beforeCall_passes hopen]
      rw [hsame] at hs ho
      obtain ⟨before, exc, now, calls, rfl, hcalls⟩ := ih hs ho
      refine ⟨before, exc, now, calls ++ [.beforeCall time], ?_, ?_⟩
      · rw [List.append_assoc, List.cons_append]
      · rw [List.all_append, hcalls]
        rfl

/-- A call is refused only within one cooldown of the last result, which is a failure. -/
theorem refused_within (config : BreakerConfig T) (providerId : String)
    (before : List (BreakerEvent T)) (time : T)
    (hrefused : ((config.after providerId before).step (.beforeCall time)).2 ≠ none) :
    ∃ failedAt, FailedLast before failedAt ∧ time - failedAt < config.cooldownSeconds := by
  have hsane := sane_after config providerId before
  by_cases hs : (config.after providerId before).state = .open
  · obtain ⟨openedAt, ho⟩ := hsane.opened hs
    refine ⟨openedAt, open_since config providerId before hs ho, ?_⟩
    by_contra hc
    simp only [CircuitBreaker.step] at hrefused
    rw [beforeCall_open hs ho, hsane.cooldown, if_pos (not_lt.mp hc)] at hrefused
    exact hrefused rfl
  · simp only [CircuitBreaker.step, beforeCall_passes hs] at hrefused
    exact absurd rfl hrefused

theorem matches_fresh (config : BreakerConfig T) (providerId key : String) :
    Matches config (config.breaker providerId) (registered T key providerId false) where
  sane := .fresh config providerId
  enabled := rfl
  counts := ⟨rfl, rfl, rfl⟩
  deadline _ h := by cases h
  idle _ := rfl

theorem never_asserts (h : Sane config breaker) (events : List (BreakerEvent T)) :
    some .assertion ∉ ((breakerMachine T).run breaker events).2 := by
  induction events generalizing breaker with
  | nil => exact List.not_mem_nil
  | cons event rest ih =>
    intro hm
    rcases List.mem_cons.mp hm with he | hm
    · exact (h.step event).2 he.symm
    · exact ih (h.step event).1 hm

variable [IsOrderedAddMonoid T]

theorem Matches.step (h : Matches config breaker record) (event : BreakerEvent T)
    (ht : 0 ≤ event.time) :
    Matches config (breaker.step event).1 (record.step config event).1 ∧
      (breaker.step event).2.isSome = (record.step config event).2.isSome := by
  have hsane := (h.sane.step event).1
  cases event with
  | recordSuccess time now =>
    refine ⟨⟨hsane, h.enabled, ⟨rfl, h.counts.failures, ?_⟩, (fun _ hs => by cases hs),
      fun _ => rfl⟩, rfl⟩
    exact congrArg (· + 1) h.counts.successes
  | recordFailure time exc now =>
    obtain ⟨hconsecutive, hfailures, hsuccesses⟩ := h.counts
    refine ⟨?_, rfl⟩
    simp only [CircuitBreaker.step, ProviderHealthRecord.step, ProviderHealthRecord.recordFailure,
      h.enabled, Bool.false_eq_true, if_false] at hsane ⊢
    rcases recordFailure_eq h.sane time with ⟨hc, heq⟩ | ⟨hc, hclosed, heq⟩
    · rw [heq] at hsane ⊢
      rw [if_pos (hconsecutive ▸ hc)]
      refine ⟨hsane, rfl, ⟨congrArg (· + 1) hconsecutive, congrArg (· + 1) hfailures,
        hsuccesses⟩, fun openedAt _ ho => ?_, fun hs => absurd rfl hs⟩
      cases ho
      rfl
    · rw [heq] at hsane ⊢
      rw [if_neg (by omega)]
      refine ⟨hsane, rfl, ⟨congrArg (· + 1) hconsecutive, congrArg (· + 1) hfailures,
        hsuccesses⟩, fun openedAt hs => ?_, h.idle⟩
      rw [hclosed] at hs
      cases hs
  | beforeCall time =>
    simp only [CircuitBreaker.step, ProviderHealthRecord.step, ProviderHealthRecord.beforeCall,
      h.enabled, Bool.false_eq_true, if_false] at hsane ⊢
    by_cases hs : breaker.state = .open
    · obtain ⟨openedAt, ho⟩ := h.sane.opened hs
      rw [beforeCall_open hs ho] at hsane ⊢
      have hends : breaker.cooldownSeconds ≤ time - openedAt ↔ record.openUntil ≤ time := by
        rw [h.sane.cooldown, h.deadline openedAt hs ho, le_sub_iff_add_le']
      by_cases hc : breaker.cooldownSeconds ≤ time - openedAt
      · rw [if_pos hc] at hsane ⊢
        rw [if_pos (hends.mp hc)]
        exact ⟨⟨hsane, rfl, ⟨h.counts.consecutive, h.counts.failures, h.counts.successes⟩,
          (fun _ hs => by cases hs), fun _ => rfl⟩, rfl⟩
      · rw [if_neg hc]
        rw [if_neg fun hle => hc (hends.mpr hle)]
        exact ⟨h, rfl⟩
    · rw [beforeCall_passes hs]
      have hzero : (0 : T) ≤ time := ht
      rw [h.idle hs, if_pos hzero]
      exact ⟨⟨h.sane, rfl, ⟨h.counts.consecutive, h.counts.failures, h.counts.successes⟩,
        fun _ ho => absurd ho hs, fun _ => rfl⟩, rfl⟩

/-- The breaker refines the record, as long as the clock has not run below zero. -/
def breakerRefinement (config : BreakerConfig T) :
    Refinement (breakerMachine T) (recordMachine config) id (fun event => 0 ≤ event.time)
      (fun answer answer' => answer.isSome = answer'.isSome) where
  rel breaker record := Matches config breaker record
  step _ _ event ht h := h.step event ht

/-- The two breakers refuse the same calls and count the same; an open breaker knows since when it
is open, and refuses a call only within one cooldown of its last result, a failure. -/
theorem breakers_equivalent (config : BreakerConfig T) (providerId key : String)
    (events : List (BreakerEvent T)) (hclock : ∀ event ∈ events, 0 ≤ event.time)
    (hordered : events.Pairwise fun earlier later => earlier.time ≤ later.time) :
    ((breakerMachine T).run (config.breaker providerId) events).2.map Option.isSome =
        ((recordMachine config).run (registered T key providerId false) events).2.map Option.isSome ∧
      SameCounts (config.after providerId events)
        ((recordMachine config).run (registered T key providerId false) events).1 ∧
      Sane config (config.after providerId events) ∧
      some .assertion ∉ ((breakerMachine T).run (config.breaker providerId) events).2 ∧
      ∀ before time after, events = before ++ .beforeCall time :: after →
        ((config.after providerId before).step (.beforeCall time)).2 ≠ none →
        ∃ failedAt, FailedLast before failedAt ∧ failedAt ≤ time ∧
          time - failedAt < config.cooldownSeconds := by
  have hmap : events.map id = events := List.map_id events
  obtain ⟨hmatches, hanswers⟩ := (breakerRefinement config).run (hmap.symm ▸ hclock)
    (matches_fresh config providerId key)
  rw [hmap] at hmatches hanswers
  refine ⟨?_, hmatches.counts, sane_after config providerId events,
    never_asserts (.fresh config providerId) events, ?_⟩
  · rw [← List.forall₂_eq_eq_eq, List.forall₂_map_left_iff, List.forall₂_map_right_iff]
    exact hanswers
  · intro before time after hevents hrefused
    obtain ⟨failedAt, hfailed, hwithin⟩ := refused_within config providerId before time hrefused
    refine ⟨failedAt, hfailed, ?_, hwithin⟩
    obtain ⟨early, exc, now, calls, rfl, -⟩ := hfailed
    rw [hevents, List.append_assoc] at hordered
    have hlater := (List.pairwise_cons.mp (List.pairwise_append.mp hordered).2.1).1
    exact hlater (.beforeCall time) (List.mem_append_right _ List.mem_cons_self)

section Runs

/-- Three failures in twenty seconds. -/
def plainBreaker : BreakerConfig Int := ⟨3, 20, by decide, by decide⟩

def trippingEvents : List (BreakerEvent Int) := [.recordFailure 1 (.valueError "") 0,
  .recordFailure 2 (.valueError "") 0, .recordFailure 3 (.valueError "") 0, .beforeCall 4,
  .beforeCall 23]

/-- Three failures in a row open the circuit, a call is refused, and one after the cooldown is let
through. -/
theorem breakers_equivalent_tripped :
    ((breakerMachine Int).run (plainBreaker.breaker "llm") trippingEvents).2.map Option.isSome =
      [false, false, false, true, false] ∧
    ((recordMachine plainBreaker).run (registered Int "brain" "llm" false) trippingEvents).2.map
      Option.isSome = [false, false, false, true, false] := by
  have hsame := (breakers_equivalent plainBreaker "llm" "brain" trippingEvents (by decide)
    (by decide)).1
  have hbreaker : ((breakerMachine Int).run (plainBreaker.breaker "llm") trippingEvents).2.map
      Option.isSome = [false, false, false, true, false] := by decide +kernel
  exact ⟨hbreaker, hsame.symm.trans hbreaker⟩

end Runs

end NoraInterviewer
