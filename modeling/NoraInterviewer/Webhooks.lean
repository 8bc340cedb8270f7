import NoraInterviewer.Lifecycle
import NoraInterviewer.DispatchedRuns
import Mathlib.Algebra.Order.BigOperators.Group.List
import Mathlib.Tactic.Linarith

namespace NoraInterviewer

open ExceptRules

/-- `_WEBHOOK_SAFE_EVENT_TYPES`. -/
def safeEventTypes : List EventType :=
  [.sessionCreated, .interviewStarted, .appealSubmitted, .appealReviewed, .reviewAssigned,
    .reviewStarted, .reviewCompleted, .reviewAssignmentCancelled, .toolOpened, .toolSubmitted,
    .toolEvaluated, .toolCancelled, .artifactCreated, .artifactDeleted, .sessionCompleted,
    .sessionCancelled]

def webScheme (url : String) : Bool := startsWith url "https://" || startsWith url "http://"

/-- A subscription that has passed `__post_init__`. -/
structure WebhookSubscription where
  id : String
  url : String
  secret : List UInt8
  organizationId : Option String
  eventTypes : List EventType
  id_given : strip id ≠ ""
  url_web : webScheme url = true
  secret_long : 32 ≤ secret.length
  types_safe : ∀ type ∈ eventTypes, type ∈ safeEventTypes
  deriving DecidableEq

def newSubscription (id url : String) (secret : List UInt8) (organizationId : Option String := none)
    (eventTypes : List EventType := safeEventTypes) : Except Raised WebhookSubscription :=
  if hid : strip id = "" then .error (.valueError "webhook subscription id is required")
  else if hurl : webScheme url = false then
    .error (.valueError "webhook URL must use http:// or https://")
  else if hsecret : secret.length < 32 then
    .error (.valueError "webhook signing secret must be at least 32 bytes")
  else if htypes : ∃ type ∈ eventTypes, type ∉ safeEventTypes then
    .error (.valueError ("webhook subscription requested unsafe event types: " ++
      ", ".intercalate (((eventTypes.filter (· ∉ safeEventTypes)).map
        EventType.value).dedup.mergeSort (· ≤ ·))))
  else .ok {
    id, url, secret, organizationId, eventTypes
    id_given := hid
    url_web := eq_true_of_ne_false hurl
    secret_long := not_lt.mp hsecret
    types_safe := by simpa using htypes }

structure WebhookDispatcher where
  subscriptions : List WebhookSubscription
  timeoutSeconds : ℚ
  maxAttempts : ℕ
  retryBaseSeconds : ℚ
  timeout_pos : 0 < timeoutSeconds
  attempts_range : 1 ≤ maxAttempts ∧ maxAttempts ≤ 5
  retryBase_range : 0 ≤ retryBaseSeconds ∧ retryBaseSeconds ≤ 5

def newDispatcher (subscriptions : List WebhookSubscription) (timeoutSeconds : ℚ := 8)
    (maxAttempts : ℤ := 3) (retryBaseSeconds : ℚ := 1 / 4) : Except Raised WebhookDispatcher :=
  if ht : timeoutSeconds ≤ 0 then .error (.valueError "webhook timeout must be positive")
  else if ha : ¬(1 ≤ maxAttempts ∧ maxAttempts ≤ 5) then
    .error (.valueError "webhook max_attempts must be between 1 and 5")
  else if hr : retryBaseSeconds < 0 ∨ 5 < retryBaseSeconds then
    .error (.valueError "webhook retry base must be between 0 and 5 seconds")
  else .ok {
    subscriptions, timeoutSeconds, retryBaseSeconds
    maxAttempts := maxAttempts.toNat
    timeout_pos := not_le.mp ht
    attempts_range := by omega
    retryBase_range := by simpa using hr }

/-- What an event tells a receiver about its place: the session, and the event in it. -/
structure Notice where
  sessionId : String
  organizationId : Option String
  seq : ℕ
  type : EventType
  deriving DecidableEq

def InterviewSession.notice (session : InterviewSession) (event : InterviewEvent) : Notice where
  sessionId := session.id
  organizationId := session.organizationId
  seq := event.seq
  type := event.type

def InterviewSession.notices (session : InterviewSession) : List Notice :=
  session.events.map session.notice

/-- One event for one subscription, which has its position in the dispatcher. -/
structure WebhookDispatch where
  position : ℕ
  subscription : WebhookSubscription
  notice : Notice
  deriving DecidableEq

/-- `X-Nora-Webhook-Idempotency-Key`. -/
def WebhookDispatch.idempotencyKey (dispatch : WebhookDispatch) : String :=
  "nora:" ++ dispatch.subscription.id ++ ":" ++ dispatch.notice.sessionId ++ ":" ++
    toString dispatch.notice.seq

/-- The conditions of the inner loop of `dispatch`. -/
def WebhookSubscription.wants (subscription : WebhookSubscription) (notice : Notice) : Bool :=
  (subscription.organizationId.isNone || subscription.organizationId == notice.organizationId) &&
    subscription.eventTypes.contains notice.type

/-- What `dispatch` delivers for one event. -/
def WebhookDispatcher.dispatches (dispatcher : WebhookDispatcher) (notice : Notice) :
    List WebhookDispatch :=
  if notice.type ∉ safeEventTypes then []
  else dispatcher.subscriptions.zipIdx.filterMap fun entry =>
    if entry.1.wants notice then some ⟨entry.2, entry.1, notice⟩ else none

/-- What becomes of one `client.post`: a response, an `httpx.TimeoutException` or
`httpx.RequestError` of the named class, or another exception. -/
inductive PostOutcome where
  | response (statusCode : ℕ)
  | requestError (className : String)
  | raised (exception : Raised)
  deriving DecidableEq

structure WebhookDeliveryResult where
  subscriptionId : String
  eventSeq : ℕ
  eventType : String
  delivered : Bool
  attempts : ℕ
  statusCode : Option ℕ
  errorType : Option String
  deriving DecidableEq

def WebhookDispatch.result (dispatch : WebhookDispatch) (delivered : Bool) (attempts : ℕ)
    (statusCode : Option ℕ) (errorType : Option String) : WebhookDeliveryResult where
  subscriptionId := dispatch.subscription.id
  eventSeq := dispatch.notice.seq
  eventType := dispatch.notice.type.value
  delivered := delivered
  attempts := attempts
  statusCode := statusCode
  errorType := errorType

def isAccepted (statusCode : ℕ) : Bool := 200 ≤ statusCode && statusCode < 300

def isRetryable (statusCode : ℕ) : Bool := statusCode ∈ [408, 409, 425, 429] || 500 ≤ statusCode

/-- The sleep after an attempt, if it is not the last one. -/
def WebhookDispatcher.backoff (dispatcher : WebhookDispatcher) (attempt : ℕ) : List ℚ :=
  if attempt < dispatcher.maxAttempts then
    [dispatcher.retryBaseSeconds * 2 ^ (attempt - 1)]
  else []

/-- The loop of `_deliver_one` from `attempt` on, with `left` attempts to go. -/
def WebhookDispatcher.deliverFrom (dispatcher : WebhookDispatcher) (dispatch : WebhookDispatch)
    (posts : ℕ → PostOutcome) (lastStatus : Option ℕ) (lastError : Option String)
    (slept : List ℚ) (attempt : ℕ) : ℕ → Except Raised (WebhookDeliveryResult × List ℚ)
  | 0 => .ok (dispatch.result false dispatcher.maxAttempts lastStatus lastError, slept)
  | left + 1 =>
    match posts attempt with
    | .response statusCode =>
      if isAccepted statusCode then .ok (dispatch.result true attempt (some statusCode) none, slept)
      else if isRetryable statusCode then
        dispatcher.deliverFrom dispatch posts (some statusCode) lastError
          (slept ++ dispatcher.backoff attempt) (attempt + 1) left
      else .ok (dispatch.result false attempt (some statusCode) none, slept)
    | .requestError className =>
      dispatcher.deliverFrom dispatch posts lastStatus (some className)
        (slept ++ dispatcher.backoff attempt) (attempt + 1) left
    | .raised e => .error e

/-- `_deliver_one` where attempt `n` turns out as `posts n`, and the sleeps of it. -/
def WebhookDispatcher.deliverOne (dispatcher : WebhookDispatcher) (dispatch : WebhookDispatch)
    (posts : ℕ → PostOutcome) : Except Raised (WebhookDeliveryResult × List ℚ) :=
  dispatcher.deliverFrom dispatch posts none none [] 1 dispatcher.maxAttempts

/-- Another attempt follows, if there is one left. -/
def PostOutcome.retried : PostOutcome → Bool
  | response statusCode => isRetryable statusCode
  | requestError _ => true
  | raised _ => false

def PostOutcome.status : PostOutcome → Option ℕ
  | response statusCode => some statusCode
  | _ => none

def PostOutcome.errorName : PostOutcome → Option String
  | requestError className => some className
  | _ => none

/-- The last of what the first `n` attempts left behind. -/
def lastOf {β : Type} (left : PostOutcome → Option β) (posts : ℕ → PostOutcome) (n : ℕ) : Option β :=
  ((List.range' 1 n).filterMap fun attempt => left (posts attempt)).getLast?

/-- The first `n` sleeps between attempts. -/
def WebhookDispatcher.sleeps (dispatcher : WebhookDispatcher) (n : ℕ) : List ℚ :=
  (List.range n).map fun i => dispatcher.retryBaseSeconds * 2 ^ i

/-- What a delivery result says about the attempts that led to it. -/
structure Reports (dispatcher : WebhookDispatcher) (posts : ℕ → PostOutcome)
    (result : WebhookDeliveryResult) (slept : List ℚ) : Prop where
  attempts : 1 ≤ result.attempts ∧ result.attempts ≤ dispatcher.maxAttempts
  retried : ∀ attempt, 1 ≤ attempt → attempt < result.attempts → (posts attempt).retried = true
  last : (posts result.attempts).retried = true → result.attempts = dispatcher.maxAttempts
  delivered : result.delivered = true ↔
    ∃ statusCode, posts result.attempts = .response statusCode ∧ isAccepted statusCode = true
  statusCode : result.statusCode = lastOf PostOutcome.status posts result.attempts
  errorType : result.errorType =
    if (posts result.attempts).retried then lastOf PostOutcome.errorName posts result.attempts else none
  slept : slept = dispatcher.sleeps (result.attempts - 1)

theorem isAccepted_not_retryable {statusCode : ℕ} (h : isAccepted statusCode = true) :
    isRetryable statusCode = false := by
  simp only [isAccepted, Bool.and_eq_true, decide_eq_true_eq] at h
  simp only [isRetryable, Bool.or_eq_false_iff, decide_eq_false_iff_not, List.mem_cons,
    List.not_mem_nil, or_false]
  omega

theorem lastOf_succ {β : Type} (left : PostOutcome → Option β) (posts : ℕ → PostOutcome) (n : ℕ) :
    lastOf left posts (n + 1) = (left (posts (n + 1))).or (lastOf left posts n) := by
  rw [lastOf, List.range'_1_concat, List.filterMap_append, List.getLast?_append, Nat.add_comm 1 n]
  cases hleft : left (posts (n + 1)) with
  | none => rw [List.filterMap_cons_none (by exact hleft), List.filterMap_nil]; rfl
  | some value => rw [List.filterMap_cons_some (by exact hleft), List.filterMap_nil]; rfl

theorem WebhookDispatcher.sleeps_backoff (dispatcher : WebhookDispatcher) (n : ℕ) :
    dispatcher.sleeps (min n (dispatcher.maxAttempts - 1)) ++ dispatcher.backoff (n + 1) =
      dispatcher.sleeps (min (n + 1) (dispatcher.maxAttempts - 1)) := by
  unfold WebhookDispatcher.backoff
  split
  next hlt =>
    have hn : min n (dispatcher.maxAttempts - 1) = n := by omega
    have hs : min (n + 1) (dispatcher.maxAttempts - 1) = n + 1 := by omega
    rw [hn, hs, WebhookDispatcher.sleeps, WebhookDispatcher.sleeps, List.range_succ, List.map_append]
    rfl
  next hge =>
    have hn : min n (dispatcher.maxAttempts - 1) = dispatcher.maxAttempts - 1 := by omega
    have hs : min (n + 1) (dispatcher.maxAttempts - 1) = dispatcher.maxAttempts - 1 := by omega
    rw [hn, hs, List.append_nil]

/-- Waiting for all the sleeps takes no longer than five seconds doubled four times. -/
theorem WebhookDispatcher.sleeps_sum_le (dispatcher : WebhookDispatcher) {n : ℕ} (hn : n ≤ 4) :
    (dispatcher.sleeps n).sum ≤ 75 := by
  obtain ⟨hlow, hhigh⟩ := dispatcher.retryBase_range
  have hsum : ∀ n, (dispatcher.sleeps n).sum = dispatcher.retryBaseSeconds * (2 ^ n - 1) := by
    intro n
    induction n with
    | zero => simp [WebhookDispatcher.sleeps]
    | succ n ih =>
      have hsucc : dispatcher.sleeps (n + 1) =
          dispatcher.sleeps n ++ [dispatcher.retryBaseSeconds * 2 ^ n] := by
        rw [WebhookDispatcher.sleeps, List.range_succ, List.map_append]
        rfl
      rw [hsucc, List.sum_append, ih, List.sum_singleton, pow_succ]
      linarith
  have hpow : (2 : ℚ) ^ n ≤ 2 ^ 4 := pow_le_pow_right₀ (by norm_num) hn
  rw [hsum]
  calc dispatcher.retryBaseSeconds * (2 ^ n - 1)
    _ ≤ dispatcher.retryBaseSeconds * 15 := mul_le_mul_of_nonneg_left (by linarith) hlow
    _ ≤ 75 := by linarith

theorem deliverFrom_reports {dispatcher : WebhookDispatcher} {dispatch : WebhookDispatch}
    {posts : ℕ → PostOutcome} {n left : ℕ} {result : WebhookDeliveryResult} {slept : List ℚ}
    (hleft : n + left = dispatcher.maxAttempts)
    (hretried : ∀ attempt, 1 ≤ attempt → attempt ≤ n → (posts attempt).retried = true)
    (h : dispatcher.deliverFrom dispatch posts (lastOf PostOutcome.status posts n)
      (lastOf PostOutcome.errorName posts n)
      (dispatcher.sleeps (min n (dispatcher.maxAttempts - 1))) (n + 1) left = .ok (result, slept)) :
    Reports dispatcher posts result slept := by
  have hrange := dispatcher.attempts_range
  induction left generalizing n with
  | zero =>
    obtain ⟨rfl, rfl⟩ := Prod.mk.inj (Except.ok.inj h)
    obtain rfl : n = dispatcher.maxAttempts := hleft
    have hlast : (posts dispatcher.maxAttempts).retried = true :=
      hretried _ hrange.1 (le_refl _)
    refine ⟨⟨hrange.1, le_refl _⟩, fun attempt hone hlt => hretried attempt hone hlt.le,
      fun _ => rfl, ?_, rfl, (if_pos hlast).symm, ?_⟩
    · refine ⟨fun hd => (by cases hd), ?_⟩
      rintro ⟨statusCode, hpost, haccepted⟩
      have hnot := isAccepted_not_retryable haccepted
      rw [show (posts dispatcher.maxAttempts).retried = isRetryable statusCode from
        congrArg PostOutcome.retried hpost, hnot] at hlast
      cases hlast
    · congr 1
      exact Nat.min_eq_right (Nat.sub_le _ _)
  | succ left ih =>
    have hgoes : (posts (n + 1)).retried = true →
        dispatcher.deliverFrom dispatch posts (lastOf PostOutcome.status posts (n + 1))
          (lastOf PostOutcome.errorName posts (n + 1))
          (dispatcher.sleeps (min (n + 1) (dispatcher.maxAttempts - 1))) (n + 1 + 1) left =
            .ok (result, slept) → Reports dispatcher posts result slept := by
      intro hnext hrest
      refine ih (by omega) (fun attempt hone hle => ?_) hrest
      rcases Nat.lt_or_ge n attempt with hlt | hge
      · rwa [show attempt = n + 1 by omega]
      · exact hretried attempt hone hge
    have hends : ∀ {statusCode : ℕ}, posts (n + 1) = .response statusCode →
        isRetryable statusCode = false →
        Reports dispatcher posts (dispatch.result (isAccepted statusCode) (n + 1) (some statusCode) none)
          (dispatcher.sleeps (min n (dispatcher.maxAttempts - 1))) := by
      intro statusCode hpost hnot
      have hlast : (posts (n + 1)).retried = false := (congrArg PostOutcome.retried hpost).trans hnot
      refine ⟨⟨Nat.le_add_left 1 n, by change n + 1 ≤ _; omega⟩,
        fun attempt hone hlt => hretried attempt hone (Nat.le_of_lt_succ hlt),
        fun hr => ?_, ?_, ?_, ?_, ?_⟩
      · change (posts (n + 1)).retried = true at hr
        rw [hlast] at hr
        cases hr
      · refine ⟨fun hd => ⟨statusCode, hpost, hd⟩, ?_⟩
        rintro ⟨other, hother, haccepted⟩
        change posts (n + 1) = .response other at hother
        rw [hpost] at hother
        cases hother
        exact haccepted
      · change some statusCode = lastOf PostOutcome.status posts (n + 1)
        rw [lastOf_succ, hpost]
        rfl
      · change none = if (posts (n + 1)).retried then _ else _
        rw [hlast]
        rfl
      · change _ = dispatcher.sleeps n
        rw [Nat.min_eq_left (by omega)]
    unfold WebhookDispatcher.deliverFrom at h
    split at h
    next statusCode hpost =>
      split at h
      next haccepted =>
        cases h
        have hreports := hends hpost (isAccepted_not_retryable haccepted)
        rwa [haccepted] at hreports
      next hrefused =>
        split at h
        next hretry =>
          refine hgoes ((congrArg PostOutcome.retried hpost).trans hretry) ?_
          rw [lastOf_succ, lastOf_succ, hpost, ← dispatcher.sleeps_backoff]
          exact h
        next hfinal =>
          cases h
          have hreports := hends hpost (Bool.eq_false_of_not_eq_true hfinal)
          rwa [Bool.eq_false_of_not_eq_true hrefused] at hreports
    next className hpost =>
      refine hgoes (congrArg PostOutcome.retried hpost) ?_
      rw [lastOf_succ, lastOf_succ, hpost, ← dispatcher.sleeps_backoff]
      exact h
    next => cases h

/-- A delivery raises what a post raised after attempts that were all retried. -/
theorem deliverFrom_raises {dispatcher : WebhookDispatcher} {dispatch : WebhookDispatch}
    {posts : ℕ → PostOutcome} {status : Option ℕ} {error : Option String} {slept : List ℚ}
    {n left : ℕ} {e : Raised} :
    dispatcher.deliverFrom dispatch posts status error slept (n + 1) left = .error e ↔
      ∃ attempt, n < attempt ∧ attempt ≤ n + left ∧ posts attempt = .raised e ∧
        ∀ earlier, n < earlier → earlier < attempt → (posts earlier).retried = true := by
  induction left generalizing status error slept n with
  | zero =>
    refine ⟨fun h => (by cases h), ?_⟩
    rintro ⟨attempt, hlow, hhigh, _⟩
    omega
  | succ left ih =>
    have hgoes : (posts (n + 1)).retried = true →
        ((∃ attempt, n + 1 < attempt ∧ attempt ≤ n + 1 + left ∧ posts attempt = .raised e ∧
          ∀ earlier, n + 1 < earlier → earlier < attempt → (posts earlier).retried = true) ↔
        ∃ attempt, n < attempt ∧ attempt ≤ n + (left + 1) ∧ posts attempt = .raised e ∧
          ∀ earlier, n < earlier → earlier < attempt → (posts earlier).retried = true) := by
      intro hnext
      constructor
      · rintro ⟨attempt, hlow, hhigh, hpost, hall⟩
        refine ⟨attempt, by omega, by omega, hpost, fun earlier hn hlt => ?_⟩
        rcases Nat.lt_or_ge (n + 1) earlier with hlater | hfirst
        · exact hall earlier hlater hlt
        · rwa [show earlier = n + 1 by omega]
      · rintro ⟨attempt, hlow, hhigh, hpost, hall⟩
        refine ⟨attempt, ?_, by omega, hpost, fun earlier hn hlt => hall earlier (by omega) hlt⟩
        rcases Nat.lt_or_ge (n + 1) attempt with hlater | hfirst
        · exact hlater
        · rw [show n + 1 = attempt by omega, hpost] at hnext
          cases hnext
    have hends : (posts (n + 1)).retried = false → (∀ e, posts (n + 1) ≠ .raised e) →
        ¬∃ attempt, n < attempt ∧ attempt ≤ n + (left + 1) ∧ posts attempt = .raised e ∧
          ∀ earlier, n < earlier → earlier < attempt → (posts earlier).retried = true := by
      rintro hlast hpost ⟨attempt, hlow, _, hraised, hall⟩
      rcases Nat.lt_or_ge (n + 1) attempt with hlater | hfirst
      · have hfirst := hall (n + 1) (by omega) hlater
        rw [hlast] at hfirst
        cases hfirst
      · obtain rfl : attempt = n + 1 := by omega
        exact hpost e hraised
    unfold WebhookDispatcher.deliverFrom
    split
    next statusCode hpost =>
      have hother : ∀ e, posts (n + 1) ≠ .raised e := fun e he => (by rw [hpost] at he; cases he)
      split
      next haccepted =>
        refine iff_of_false (fun h => (by cases h)) (hends ?_ hother)
        rw [hpost]
        exact isAccepted_not_retryable haccepted
      next =>
        split
        next hretry => exact ih.trans (hgoes ((congrArg PostOutcome.retried hpost).trans hretry))
        next hfinal =>
          refine iff_of_false (fun h => (by cases h)) (hends ?_ hother)
          rw [hpost]
          exact Bool.eq_false_of_not_eq_true hfinal
    next className hpost => exact ih.trans (hgoes (congrArg PostOutcome.retried hpost))
    next raised hpost =>
      constructor
      · intro h
        cases h
        exact ⟨n + 1, by omega, by omega, hpost, fun earlier hlow hlt => by omega⟩
      · rintro ⟨attempt, hlow, _, hraised, hall⟩
        rcases Nat.lt_or_ge (n + 1) attempt with hlater | hfirst
        · have hfirst := hall (n + 1) (by omega) hlater
          rw [hpost] at hfirst
          cases hfirst
        · obtain rfl : attempt = n + 1 := by omega
          rw [hpost] at hraised
          cases hraised
          rfl

/-- A delivery tries again after exactly the retryable outcomes, at most as often as it may and
waiting no longer than 75 seconds in all; its result tells how the attempts went, and it raises
only what a post raised. -/
theorem delivery_reports (dispatcher : WebhookDispatcher) (dispatch : WebhookDispatch)
    (posts : ℕ → PostOutcome) :
    (∀ result slept, dispatcher.deliverOne dispatch posts = .ok (result, slept) →
      Reports dispatcher posts result slept ∧ slept.sum ≤ 75) ∧
    ∀ e, dispatcher.deliverOne dispatch posts = .error e ↔
      ∃ attempt, 0 < attempt ∧ attempt ≤ dispatcher.maxAttempts ∧ posts attempt = .raised e ∧
        ∀ earlier, 0 < earlier → earlier < attempt → (posts earlier).retried = true := by
  constructor
  · intro result slept h
    have hreports : Reports dispatcher posts result slept :=
      deliverFrom_reports (Nat.zero_add _) (fun attempt hone hle => by omega)
        (by rw [Nat.zero_min]; exact h)
    refine ⟨hreports, ?_⟩
    have hrange := dispatcher.attempts_range
    have hattempts := hreports.attempts
    rw [hreports.slept]
    exact dispatcher.sleeps_sum_le (by omega)
  · intro e
    have hraises : dispatcher.deliverOne dispatch posts = .error e ↔ _ := deliverFrom_raises
    rwa [Nat.zero_add] at hraises

end NoraInterviewer
