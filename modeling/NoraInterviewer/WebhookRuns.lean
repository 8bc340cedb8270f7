import NoraInterviewer.EncryptedEnvelopes
import NoraInterviewer.Webhooks

namespace NoraInterviewer

open ExceptRules DispatchedRuns

/-- How a service call ends on a dispatching store: with its own result, or with an exception of
a delivery, which comes after the session was saved. -/
inductive CallEnd where
  | ended (result : Except PyError Unit)
  | undelivered (exception : Raised)

def CallEnd.Strays : CallEnd → Prop
  | ended _ => False
  | undelivered _ => True

/-- A client of the store, whose messages are dispatches; each of these turns out in some way at
every attempt. -/
abbrev WebhookProg := Prog InterviewSession WebhookDispatch (ℕ → PostOutcome) CallEnd

/-- The loops of `dispatch`, from `results` on. -/
def WebhookDispatcher.deliverAll (dispatcher : WebhookDispatcher)
    (finish : Except Raised (List WebhookDeliveryResult) → WebhookProg) :
    List WebhookDispatch → List WebhookDeliveryResult → WebhookProg
  | [], results => finish (.ok results)
  | dispatch :: rest, results => .send dispatch fun posts =>
    match dispatcher.deliverOne dispatch posts with
    | .error e => finish (.error e)
    | .ok (result, _) => dispatcher.deliverAll finish rest (results ++ [result])

def lastSeq (session : InterviewSession) : ℕ :=
  match session.events.getLast? with
  | some event => event.seq
  | none => 0

/-- `new_events`. -/
def newEvents (previous session : InterviewSession) : List InterviewEvent :=
  session.events.filter fun event =>
    lastSeq previous < event.seq && decide (event.type ≠ .webhookDelivery)

def WebhookDeliveryResult.payload (result : WebhookDeliveryResult) : Dict Json :=
  [("subscription_id", .str result.subscriptionId),
    ("source_event_seq", .nat result.eventSeq),
    ("source_event_type", .str result.eventType),
    ("delivered", .bool result.delivered),
    ("attempts", .nat result.attempts),
    ("status_code", (result.statusCode.map Json.nat).getD .null),
    ("error_type", .ofOption result.errorType)]

section

variable [CanonicalDigest]

/-- The `append_event` loop over the results. -/
def recordDeliveries (call : Ambient) (session : InterviewSession)
    (results : List WebhookDeliveryResult) : Except PyError InterviewSession :=
  results.foldlM (fun session result =>
    appendEvent call session .webhookDelivery none result.payload) session

/-- How `put_session` of the dispatching store ends. -/
inductive SaveEnd where
  | saved
  | conflict
  | failed (e : PyError)
  | undelivered (e : Raised)

/-- `WebhookDispatchingStore.put_session` for a session that the store has. Whether the deliveries
were recorded makes no difference to the caller. -/
def WebhookDispatcher.putSession (dispatcher : WebhookDispatcher) (call : Ambient)
    (session : InterviewSession) (finish : SaveEnd → WebhookProg) : WebhookProg :=
  .load fun previous => .put session fun committed =>
    if committed then
      let saved := { session with version := session.version + 1 }
      let dispatches := (newEvents previous saved).flatMap fun event =>
        dispatcher.dispatches (saved.notice event)
      dispatcher.deliverAll (fun delivered =>
        match delivered with
        | .error e => finish (.undelivered e)
        | .ok results =>
          if results.isEmpty then finish .saved
          else match recordDeliveries call saved results with
            | .error e => finish (.failed e)
            | .ok recorded => .put recorded fun _ => finish .saved) dispatches []
    else finish .conflict

/-- An operation on the session it loaded, saved through the dispatching store. -/
def WebhookDispatcher.attempt (dispatcher : WebhookDispatcher) (call : Call) (operation : Operation)
    (session : InterviewSession) (next : Unit → WebhookProg) : WebhookProg :=
  match mutate call operation session with
  | .error e => .done (.ended (.error e))
  | .ok none => next ()
  | .ok (some session') => dispatcher.putSession call.toAmbient session' fun outcome =>
    match outcome with
    | .saved => next ()
    | .conflict => .done (.ended (.error changedConcurrently))
    | .failed e => .done (.ended (.error e))
    | .undelivered e => .done (.undelivered e)

/-- `Operation.program` on the dispatching store. -/
def WebhookDispatcher.program (dispatcher : WebhookDispatcher) (startCall call : Call)
    (operation : Operation) : WebhookProg :=
  .load fun session =>
    match operation with
    | .answer text turnMetadata =>
      if session.status = .created then
        .load fun created => dispatcher.attempt startCall .start created fun _ =>
          .load fun started => dispatcher.attempt call (.answer text turnMetadata) started fun _ =>
            .done (.ended (.ok ()))
      else dispatcher.attempt call operation session fun _ => .done (.ended (.ok ()))
    | _ => dispatcher.attempt call operation session fun _ => .done (.ended (.ok ()))

end

/-- What the dispatcher owes for the events of a session. -/
theorem WebhookDispatcher.mem_dispatches {dispatcher : WebhookDispatcher} {notice : Notice}
    {dispatch : WebhookDispatch} :
    dispatch ∈ dispatcher.dispatches notice ↔ notice.type ∈ safeEventTypes ∧
      dispatcher.subscriptions[dispatch.position]? = some dispatch.subscription ∧
      dispatch.subscription.wants notice = true ∧ dispatch.notice = notice := by
  unfold WebhookDispatcher.dispatches
  split
  next hunsafe => exact iff_of_false List.not_mem_nil fun h => hunsafe h.1
  next hsafe =>
    rw [not_not] at hsafe
    simp only [List.mem_filterMap, Prod.exists, List.mem_zipIdx_iff_getElem?, hsafe, true_and]
    constructor
    · rintro ⟨subscription, position, hat, hif⟩
      split at hif
      next hwants =>
        cases hif
        exact ⟨hat, hwants, rfl⟩
      next => cases hif
    · rintro ⟨hat, hwants, rfl⟩
      exact ⟨_, _, hat, if_pos hwants⟩

theorem WebhookDispatcher.dispatches_nodup (dispatcher : WebhookDispatcher) (notice : Notice) :
    (dispatcher.dispatches notice).Nodup := by
  unfold WebhookDispatcher.dispatches
  split
  next => exact List.nodup_nil
  next =>
    have hzip : (dispatcher.subscriptions.zipIdx).Nodup :=
      List.Nodup.of_map Prod.snd (by
        rw [List.zipIdx_map_snd]
        exact List.nodup_range')
    refine hzip.filterMap fun {entry other dispatch} hentry hother => ?_
    simp only [Option.mem_def] at hentry hother
    split at hentry
    next =>
      cases hentry
      split at hother
      next =>
        obtain ⟨hposition, hsubscription, _⟩ := WebhookDispatch.mk.inj (Option.some.inj hother)
        exact Prod.ext hsubscription.symm hposition.symm
      next => cases hother
    next => cases hentry

theorem WebhookDispatcher.dispatches_delivery (dispatcher : WebhookDispatcher) {notice : Notice}
    (h : notice.type = .webhookDelivery) : dispatcher.dispatches notice = [] := by
  have hunsafe : EventType.webhookDelivery ∉ safeEventTypes := by decide
  unfold WebhookDispatcher.dispatches
  rw [h, if_pos hunsafe]

section Deliveries

variable [CanonicalDigest]

/-- A sealed log has one notice for each sequence number. -/
theorem Sealed.notices_nodup {session : InterviewSession} (h : Sealed session.events) :
    (session.notices.map Notice.seq).Nodup := by
  have hseq : session.notices.map Notice.seq = session.events.map InterviewEvent.seq := by
    simp only [InterviewSession.notices, List.map_map]
    rfl
  rw [hseq, h.contiguous]
  exact List.nodup_range'

/-- The notices of a stored session, and the dispatches that each of them asks for. -/
def WebhookDispatcher.notices (dispatcher : WebhookDispatcher) (backend : Backend) :
    Notices backend.versioned Notice WebhookDispatch where
  valid session := Sealed session.events
  log := InterviewSession.notices
  messages := dispatcher.dispatches
  valid_stored session h := by
    cases backend with
    | memory => exact h
    | json => exact h
  log_stored session := by
    cases backend with
    | memory => rfl
    | json => rfl
  log_nodup _ h := List.Nodup.of_map Notice.seq h.notices_nodup
  nodup := dispatcher.dispatches_nodup
  apart hentry hother :=
    (dispatcher.mem_dispatches.mp hentry).2.2.2.symm.trans (dispatcher.mem_dispatches.mp hother).2.2.2

/-- An effect adds to the types of the log. -/
theorem Effect.types_grow {policy : Policy} {session session' : InterviewSession}
    (h : Effect policy session session') : session.eventTypes <+: session'.eventTypes := by
  have hgrows : ∀ {events : List InterviewEvent} {entries : List LogEntry},
      Grows session.events events entries →
      session.eventTypes <+: (events.map InterviewEvent.entry).map LogEntry.type :=
    fun hg => ⟨_, hg.types.symm⟩
  cases h with
  | evidence h =>
    obtain ⟨_, _, _, _, rfl, hg, _⟩ := h
    exact hgrows hg
  | covered => exact List.prefix_refl _
  | followups => exact List.prefix_refl _
  | started _ _ _ _ _ hg => exact hgrows hg
  | asked _ _ _ _ hg => exact hgrows hg
  | opened _ _ _ _ hg => exact hgrows hg
  | completed _ _ _ _ _ hg => exact hgrows hg
  | answered _ _ _ _ _ hg => exact hgrows hg
  | worked _ _ _ _ _ _ _ _ _ hg => exact hgrows hg
  | controlled _ _ hg => exact hgrows hg
  | replied _ _ _ _ _ hg => exact hgrows hg
  | @corrected index _ text metadata _ entry events _ _ _ _ _ hl _ _ =>
    refine ⟨[entry.type], ?_⟩
    rw [← writeMetadata_types session index text metadata]
    change _ = (events.map InterviewEvent.entry).map LogEntry.type
    rw [hl, List.map_append]
    rfl
  | appealed _ _ hg => exact hgrows hg
  | reviewed _ _ hg => exact hgrows hg
  | cancelled _ _ _ _ hg => exact hgrows hg

theorem Effects.types_grow {policy : Policy} {session session' : InterviewSession}
    (h : Effects policy session session') : session.eventTypes <+: session'.eventTypes := by
  induction h with
  | nil => exact List.prefix_refl _
  | snoc _ he ih => exact ih.trans he.types_grow

/-- On a sealed log the notices say no more than the types of the events do. -/
theorem Sealed.notices_eq {session : InterviewSession} (h : Sealed session.events) :
    session.notices = (List.zip (List.range' 1 session.events.length) session.eventTypes).map
      fun entry => ⟨session.id, session.organizationId, entry.1, entry.2⟩ := by
  rw [← h.contiguous]
  simp only [InterviewSession.eventTypes, InterviewSession.log, List.map_map, List.zip_map',
    InterviewSession.notices]
  rfl

theorem notices_grow {session session' : InterviewSession} {added : List EventType}
    (hs : Sealed session.events) (hs' : Sealed session'.events) (hid : session'.id = session.id)
    (horg : session'.organizationId = session.organizationId)
    (ht : session'.eventTypes = session.eventTypes ++ added) :
    ∃ more, session'.notices = session.notices ++ more ∧ more.map Notice.type = added := by
  have hlen : session'.events.length = session.events.length + added.length := by
    have hcount := congrArg List.length ht
    simpa [InterviewSession.eventTypes, InterviewSession.log] using hcount
  have htypes : (List.range' 1 session.events.length).length = session.eventTypes.length := by
    simp [InterviewSession.eventTypes, InterviewSession.log]
  rw [hs'.notices_eq, hs.notices_eq, hlen, ← List.range'_append_1, ht, List.zip_append htypes,
    List.map_append, hid, horg]
  refine ⟨_, rfl, ?_⟩
  rw [List.map_map]
  exact List.map_snd_zip (by simp)

/-- What a service call adds to a sealed log. -/
theorem mutate_notices {call : Call} {operation : Operation} {session session' : InterviewSession}
    (h : mutate call operation session = .ok (some session')) (hs : Sealed session.events) :
    Sealed session'.events ∧ session'.version = session.version ∧
      ∃ more, session'.notices = session.notices ++ more := by
  obtain ⟨_, _, heffects⟩ := mutate_ok h
  have hidentity := heffects.identity
  obtain ⟨added, hadded⟩ := heffects.types_grow
  obtain ⟨more, hmore, _⟩ := notices_grow hs (heffects.seals hs) hidentity.id
    hidentity.organizationId hadded.symm
  exact ⟨heffects.seals hs, hidentity.version, more, hmore⟩

theorem recordDeliveries_ok (call : Ambient) (results : List WebhookDeliveryResult)
    {session : InterviewSession} (h : Sealed session.events) :
    ∃ events entries, recordDeliveries call session results = .ok { session with events := events } ∧
      Grows session.events events entries ∧ ∀ entry ∈ entries, entry.type = .webhookDelivery := by
  induction results generalizing session with
  | nil => exact ⟨session.events, [], rfl, Grows.refl _, by simp⟩
  | cons result rest ih =>
    obtain ⟨mid, hmid⟩ :=
      appendEvent_of_linked call h.linked .webhookDelivery none result.payload
    obtain ⟨events, rfl, hgrows⟩ :=
      (appendEvent_meets call session .webhookDelivery none result.payload).of_ok hmid
    have hseals : Sealed ({ session with events := events } : InterviewSession).events := hgrows.seals h
    obtain ⟨events', entries, hrest, hgrows', htypes⟩ := ih hseals
    refine ⟨events', _, ?_, hgrows.trans hgrows', ?_⟩
    · rw [recordDeliveries, List.foldlM_cons, hmid]
      exact hrest
    · intro entry hentry
      rcases List.mem_append.mp hentry with hfirst | hlater
      · rw [List.mem_singleton.mp hfirst]
      · exact htypes entry hlater

theorem lastSeq_eq {session : InterviewSession} (h : Sealed session.events) :
    lastSeq session = session.events.length := by
  have hlast : (session.events.getLast?).map InterviewEvent.seq =
      (List.range' 1 session.events.length).getLast? := by
    rw [← h.contiguous, List.getLast?_map]
  unfold lastSeq
  split
  next event hevent =>
    rw [hevent, List.getLast?_range'] at hlast
    simp only [Option.map_some] at hlast
    split at hlast
    next => cases hlast
    next => 
      have hseq := Option.some.inj hlast
      omega
  next hnone => rw [List.getLast?_eq_none_iff.mp hnone]; rfl

/-- The new events are the ones after the events that were stored, less the records of deliveries. -/
theorem newEvents_eq {previous session : InterviewSession} (hs : Sealed session.events)
    (hp : Sealed previous.events) :
    newEvents previous session = (session.events.drop previous.events.length).filter
      fun event => decide (event.type ≠ .webhookDelivery) := by
  have hseq : ∀ i event, session.events[i]? = some event → event.seq = i + 1 := by
    intro i event hi
    have hget := congrArg (·[i]?) hs.contiguous
    simp only [List.getElem?_map, hi, Option.map_some] at hget
    obtain ⟨_, hvalue⟩ := List.getElem?_eq_some_iff.mp hget.symm
    rw [List.getElem_range'] at hvalue
    omega
  rw [newEvents, lastSeq_eq hp]
  generalize previous.events.length = n
  conv_lhs => rw [← List.take_append_drop n session.events, List.filter_append]
  have htake : (session.events.take n).filter (fun event =>
      n < event.seq && decide (event.type ≠ .webhookDelivery)) = [] := by
    refine List.filter_eq_nil_iff.mpr fun event hevent => ?_
    obtain ⟨i, hi⟩ := List.mem_iff_getElem?.mp hevent
    rw [List.getElem?_take] at hi
    split at hi
    next hlt =>
      have := hseq i event hi
      simp only [Bool.and_eq_true, decide_eq_true_eq, not_and]
      omega
    next => cases hi
  rw [htake, List.nil_append]
  refine List.filter_congr fun event hevent => ?_
  obtain ⟨i, hi⟩ := List.mem_iff_getElem?.mp hevent
  rw [List.getElem?_drop] at hi
  have := hseq (n + i) event hi
  rw [decide_eq_true (by omega : n < event.seq), Bool.true_and]

/-- What `put_session` dispatches is what is owed for the events that it adds. -/
theorem newEvents_dispatches (dispatcher : WebhookDispatcher) {previous session : InterviewSession}
    {more : List Notice} (hs : Sealed session.events) (hp : Sealed previous.events)
    (hmore : session.notices = previous.notices ++ more) :
    ((newEvents previous session).flatMap fun event => dispatcher.dispatches (session.notice event)) =
      more.flatMap dispatcher.dispatches := by
  have hadded : more = (session.events.drop previous.events.length).map session.notice := by
    have hdrop := congrArg (List.drop previous.events.length) hmore
    have hlen : previous.notices.length = previous.events.length := List.length_map _
    rw [List.drop_append_of_le_length hlen.ge, ← hlen, List.drop_length, List.nil_append, hlen] at hdrop
    rw [← hdrop, InterviewSession.notices, List.map_drop]
  rw [newEvents_eq hs hp, hadded]
  generalize session.events.drop previous.events.length = events
  induction events with
  | nil => rfl
  | cons event rest ih =>
    rw [List.map_cons, List.flatMap_cons, ← ih, List.filter_cons]
    split
    next => rfl
    next hdelivery =>
      have htype : event.type = .webhookDelivery := by simpa using hdelivery
      have hnone : dispatcher.dispatches (session.notice event) = [] :=
        dispatcher.dispatches_delivery htype
      rw [hnone, List.nil_append]

section Announcements

variable {dispatcher : WebhookDispatcher} {backend : Backend}

/-- Delivering sends what is owed, or strays. -/
theorem deliverAll_announces {mark : Option (ℕ × List Notice)}
    {finish : Except Raised (List WebhookDeliveryResult) → WebhookProg}
    (hok : ∀ results,
      (dispatcher.notices backend).Announces CallEnd.Strays mark [] (finish (.ok results)))
    (herror : ∀ e owed,
      (dispatcher.notices backend).Announces CallEnd.Strays mark owed (finish (.error e)))
    (dispatches : List WebhookDispatch) (results : List WebhookDeliveryResult) :
    (dispatcher.notices backend).Announces CallEnd.Strays mark dispatches
      (dispatcher.deliverAll finish dispatches results) := by
  induction dispatches generalizing results with
  | nil => exact hok results
  | cons dispatch rest ih =>
    refine ⟨rest, rfl, fun posts => ?_⟩
    beta_reduce
    split
    next e _ => exact herror e rest
    next result _ _ => exact ih (results ++ [result])

/-- Saving through the dispatching store announces what it adds to the session it goes by. -/
theorem putSession_announces {call : Ambient} {base session : InterviewSession} {more : List Notice}
    {finish : SaveEnd → WebhookProg} (hs : Sealed session.events)
    (hversion : session.version = base.version) (hmore : session.notices = base.notices ++ more)
    (hfinish : ∀ mark outcome, (∀ e, outcome ≠ .undelivered e) →
      (dispatcher.notices backend).Announces CallEnd.Strays mark [] (finish outcome))
    (hstrays : ∀ mark owed e,
      (dispatcher.notices backend).Announces CallEnd.Strays mark owed (finish (.undelivered e))) :
    (dispatcher.notices backend).Announces CallEnd.Strays
      (some ((dispatcher.notices backend).mark base)) [] (dispatcher.putSession call session finish) := by
  refine ⟨rfl, fun previous hprevious hfits => ?_⟩
  obtain ⟨hle, hsame⟩ := hfits _ rfl
  have hstored : (dispatcher.notices backend).mark (backend.stored session) =
      (session.version + 1, session.notices) :=
    Prod.ext rfl ((dispatcher.notices backend).log_stored session)
  refine ⟨rfl, hs, ⟨_, rfl, hversion.trans_le hle, fun heq => ⟨more, ?_, ?_⟩⟩, ?_⟩
  · exact hmore.trans (congrArg (· ++ more) (hsame (hversion.symm.trans heq)))
  · let saved : InterviewSession := { session with version := session.version + 1 }
    have hsaved : Sealed saved.events := hs
    have hadded : saved.notices = previous.notices ++ more :=
      hmore.trans (congrArg (· ++ more) (hsame (hversion.symm.trans heq)))
    simp only [if_true]
    have hdue := newEvents_dispatches dispatcher hsaved hprevious hadded
    rw [hdue]
    refine deliverAll_announces (fun results => ?_) (fun e owed => hstrays _ owed e) _ _
    simp only
    split
    next => exact hfinish _ _ (fun e he => (by cases he))
    next =>
      obtain ⟨events, entries, hrecorded, hgrows, htypes⟩ := recordDeliveries_ok call results hsaved
      rw [hrecorded]
      have hnext : ∀ mark,
          (dispatcher.notices backend).Announces CallEnd.Strays mark [] (finish .saved) :=
        fun mark => hfinish mark _ fun e he => (by cases he)
      let recorded : InterviewSession := { saved with events := events }
      have hseals : Sealed recorded.events := hgrows.seals hs
      have hgrown : recorded.eventTypes = saved.eventTypes ++ entries.map LogEntry.type := hgrows.types
      obtain ⟨records, hrecords, hdelivery⟩ := notices_grow hsaved hseals rfl rfl hgrown
      refine ⟨rfl, hseals, ⟨_, congrArg some hstored, le_refl _, fun _ => ⟨records, hrecords, ?_⟩⟩,
        hnext _⟩
      have hnone : (dispatcher.notices backend).due records = [] := by
        refine List.flatMap_eq_nil_iff.mpr fun notice hnotice => dispatcher.dispatches_delivery ?_
        have htype := List.mem_map_of_mem (f := Notice.type) hnotice
        rw [hdelivery] at htype
        obtain ⟨entry, hentry, hsame⟩ := List.mem_map.mp htype
        exact hsame.symm.trans (htypes entry hentry)
      rw [hnone]
      exact hnext _
  · exact hfinish _ _ (fun e he => (by cases he))

theorem attempt_announces {call : Call} {operation : Operation} {session : InterviewSession}
    {next : Unit → WebhookProg} (hs : Sealed session.events)
    (hnext : ∀ mark,
      (dispatcher.notices backend).Announces CallEnd.Strays mark [] (next ())) :
    (dispatcher.notices backend).Announces CallEnd.Strays
      (some ((dispatcher.notices backend).mark session)) []
      (dispatcher.attempt call operation session next) := by
  unfold WebhookDispatcher.attempt
  split
  next => exact .inl rfl
  next => exact hnext _
  next session' hm =>
    obtain ⟨hseals, hversion, more, hmore⟩ := mutate_notices hm hs
    refine putSession_announces hseals hversion hmore (fun mark outcome ho => ?_)
      fun mark owed e => .inr trivial
    cases outcome with
    | saved => exact hnext mark
    | conflict => exact .inl rfl
    | failed e => exact .inl rfl
    | undelivered e => exact absurd rfl (ho e)

theorem program_announces (startCall call : Call) (operation : Operation) :
    (dispatcher.notices backend).Announces CallEnd.Strays none []
      (dispatcher.program startCall call operation) := by
  have hdone : ∀ mark, (dispatcher.notices backend).Announces CallEnd.Strays mark []
      (Prog.done (.ended (.ok ())) : WebhookProg) := fun mark => .inl rfl
  refine ⟨rfl, fun session hs _ => ?_⟩
  cases operation with
  | answer text turnMetadata =>
    simp only
    split
    next =>
      refine ⟨rfl, fun created hcreated _ => attempt_announces hcreated fun mark => ?_⟩
      exact ⟨rfl, fun started hstarted _ => attempt_announces hstarted hdone⟩
    next => exact attempt_announces hs hdone
  | _ => exact attempt_announces hs hdone

end Announcements

omit [CanonicalDigest] in
/-- The events of one session have different keys, whatever the ids of the subscriptions hold. -/
theorem idempotencyKey_inj {dispatch other : WebhookDispatch}
    (hs : dispatch.notice.sessionId = other.notice.sessionId)
    (h : dispatch.idempotencyKey = other.idempotencyKey) :
    dispatch.subscription.id = other.subscription.id ∧ dispatch.notice.seq = other.notice.seq := by
  have hdigits : ∀ n : ℕ, ':' ∉ (toString n).toList.reverse := by
    intro n hn
    rw [List.mem_reverse, Nat.toString_eq_repr, Nat.toList_repr] at hn
    have hdigit := Nat.isDigit_of_mem_toDigits (by decide) (by decide) hn
    exact absurd hdigit (by decide)
  have hlist := congrArg (fun key => key.toList.reverse) h
  simp only [WebhookDispatch.idempotencyKey, String.toList_append, List.reverse_append, hs] at hlist
  change _ ++ ':' :: _ = _ ++ ':' :: _ at hlist
  obtain ⟨hseq, hrest⟩ := append_cons_inj (hdigits _) (hdigits _) hlist
  have htail : dispatch.subscription.id.toList.reverse ++ "nora:".toList.reverse =
      other.subscription.id.toList.reverse ++ "nora:".toList.reverse :=
    (List.cons.inj (List.append_cancel_left hrest)).2
  refine ⟨String.toList_inj.mp (List.reverse_injective (List.append_cancel_right htail)), ?_⟩
  have hvalue := congrArg (fun digits => Nat.ofDigitChars 10 digits 0) (List.reverse_injective hseq)
  simpa [Nat.toString_eq_repr, Nat.toList_repr] using hvalue

/-- What has been dispatched of the events that a session has had since `start`: each for each
subscription that wants it at most once. -/
structure DeliveredOnce (dispatcher : WebhookDispatcher) (start session : InterviewSession)
    (later : List Notice) (sent : List WebhookDispatch) : Prop where
  log : session.notices = start.notices ++ later
  once : sent.Nodup
  keys : (dispatcher.subscriptions.map WebhookSubscription.id).Nodup →
    (sent.map WebhookDispatch.idempotencyKey).Nodup
  wanted : ∀ dispatch ∈ sent, dispatch.notice ∈ later ∧ dispatch.notice.type ∈ safeEventTypes ∧
    dispatcher.subscriptions[dispatch.position]? = some dispatch.subscription ∧
    dispatch.subscription.wants dispatch.notice = true

/-- In any interleaving of service calls that save through the dispatching store, an event is
dispatched only once it is in the stored log, at most once to each subscription, and only to one
that wants it; when the calls have ended, and no exception of a delivery left one of them, every
new event has been dispatched to every subscription that wants it. -/
theorem webhooks_delivered_once {ι : Type} [DecidableEq ι] {dispatcher : WebhookDispatcher}
    {backend : Backend} {start : InterviewSession} (startCalls calls : ι → Call)
    (operations : ι → Operation) {final : State ι InterviewSession WebhookDispatch
      (ℕ → PostOutcome) CallEnd} (hs : Sealed start.events)
    (h : Run backend.versioned {
      cell := start
      sent := []
      clients := fun i => dispatcher.program (startCalls i) (calls i) (operations i) } final) :
    Sealed final.cell.events ∧ ∃ later,
      DeliveredOnce dispatcher start final.cell later final.sent ∧
      ((∀ i, ∃ result, final.clients i = .done (.ended result)) →
        final.sent.Perm (later.flatMap dispatcher.dispatches)) := by
  have hclients : ∀ i, (dispatcher.notices backend).Announces CallEnd.Strays none []
      (dispatcher.program (startCalls i) (calls i) (operations i)) :=
    fun i => program_announces (startCalls i) (calls i) (operations i)
  have hvalid : (dispatcher.notices backend).valid start := hs
  obtain ⟨later, hsealed, hlog, honce, hdue, hall⟩ := h.announces rfl hvalid hclients
  have hwanted : ∀ dispatch ∈ final.sent, dispatch.notice ∈ later ∧
      dispatch.notice.type ∈ safeEventTypes ∧
      dispatcher.subscriptions[dispatch.position]? = some dispatch.subscription ∧
      dispatch.subscription.wants dispatch.notice = true := by
    intro dispatch hin
    obtain ⟨notice, hnotice, hmessage⟩ := Notices.mem_due.mp (hdue dispatch hin)
    obtain ⟨hsafe, hposition, hwants, rfl⟩ := dispatcher.mem_dispatches.mp hmessage
    exact ⟨hnotice, hsafe, hposition, hwants⟩
  refine ⟨hsealed, later, ⟨hlog, honce, fun hids => ?_, hwanted⟩, fun hended => hall fun i => ?_⟩
  · have hin : ∀ notice ∈ later, notice ∈ final.cell.notices ∧ notice.sessionId = final.cell.id := by
      intro notice hnotice
      have hmem : notice ∈ final.cell.notices := by
        rw [show final.cell.notices = start.notices ++ later from hlog]
        exact List.mem_append_right _ hnotice
      obtain ⟨event, _, rfl⟩ := List.mem_map.mp hmem
      exact ⟨hmem, rfl⟩
    refine honce.map_on fun dispatch hdispatch other hother hkey => ?_
    obtain ⟨hnotice, _, hposition, _⟩ := hwanted dispatch hdispatch
    obtain ⟨hnotice', _, hposition', _⟩ := hwanted other hother
    obtain ⟨hmem, hsession⟩ := hin _ hnotice
    obtain ⟨hmem', hsession'⟩ := hin _ hnotice'
    obtain ⟨hid, hseq⟩ := idempotencyKey_inj (hsession.trans hsession'.symm) hkey
    have hnotices : dispatch.notice = other.notice :=
      List.inj_on_of_nodup_map hsealed.notices_nodup hmem hmem' hseq
    have hpositions : dispatch.position = other.position := by
      have hget := (congrArg (Option.map WebhookSubscription.id) hposition).trans
        ((congrArg some hid).trans (congrArg (Option.map WebhookSubscription.id) hposition').symm)
      rw [← List.getElem?_map, ← List.getElem?_map] at hget
      refine (List.getElem?_inj ?_ hids).mp hget
      rw [List.length_map]
      exact (List.getElem?_eq_some_iff.mp hposition).1
    have hsubscriptions : dispatch.subscription = other.subscription :=
      Option.some.inj (hposition.symm.trans (hpositions ▸ hposition'))
    cases dispatch
    cases other
    cases hnotices
    cases hpositions
    cases hsubscriptions
    rfl
  · obtain ⟨result, hresult⟩ := hended i
    exact ⟨_, hresult, id⟩

end Deliveries

section Races

attribute [local instance] checksumDigest

def plainHook : WebhookSubscription where
  id := "ats"
  url := "https://ats.example/hook"
  secret := List.replicate 32 0
  organizationId := none
  eventTypes := safeEventTypes
  id_given := by decide
  url_web := by decide
  secret_long := by decide
  types_safe := fun _ h => h

def plainDispatcher : WebhookDispatcher where
  subscriptions := [plainHook]
  timeoutSeconds := 8
  maxAttempts := 3
  retryBaseSeconds := 1 / 4
  timeout_pos := by norm_num
  attempts_range := by decide
  retryBase_range := by norm_num

/-- One client starts the interview and the other one cancels it. -/
def hookedOperation : Bool → Operation
  | false => .start
  | true => .cancelSession { reason := "Withdrawn" }

def hookedFinal (order : List Bool) :
    Option (InterviewSession × State Bool InterviewSession WebhookDispatch (ℕ → PostOutcome) CallEnd) :=
  match jobRun plainJob .memory [] with
  | some (start :: _) => (State.schedule Backend.memory.versioned (fun _ => .response 204)
      { cell := start
        sent := []
        clients := fun i => plainDispatcher.program (plainCall askDecision) (plainCall askDecision)
          (hookedOperation i) } order).map (start, ·)
  | _ => none

/-- The cancellation is saved before the deliveries of the start are recorded, so these are never
recorded; both events are dispatched all the same, and once. -/
theorem webhooks_delivered_once_race :
    ∃ (start : InterviewSession)
      (final : State Bool InterviewSession WebhookDispatch (ℕ → PostOutcome) CallEnd)
      (later : List Notice), DeliveredOnce plainDispatcher start final.cell later final.sent ∧
      final.sent.map (fun dispatch => dispatch.notice.type) = [.interviewStarted, .sessionCancelled] ∧
      final.cell.eventTypes.count .webhookDelivery = 1 := by
  have hrun : (hookedFinal [false, false, false, true, true, true, false, false, true, true]).any
      (fun result => result.2.sent.map (fun dispatch => dispatch.notice.type) =
        [.interviewStarted, .sessionCancelled] &&
        decide (result.2.cell.eventTypes.count .webhookDelivery = 1)) = true := by
    decide +kernel
  obtain ⟨⟨start, final⟩, hresult, hcheck⟩ := (Option.any_eq_true _ _).mp hrun
  simp only [Bool.and_eq_true, decide_eq_true_eq] at hcheck
  unfold hookedFinal at hresult
  split at hresult
  next first past hv =>
    obtain ⟨final', hschedule, heq⟩ := Option.map_eq_some_iff.mp hresult
    obtain ⟨rfl, rfl⟩ := Prod.mk.inj heq
    have hsealed : Sealed first.events :=
      (jobRun_history (fun _ _ => True) hv fun _ _ => trivial).sealed first List.mem_cons_self
    obtain ⟨_, later, hdelivered, _⟩ := webhooks_delivered_once (fun _ => plainCall askDecision)
      (fun _ => plainCall askDecision) hookedOperation hsealed (Run.nil.schedule hschedule)
    exact ⟨first, final', later, hdelivered, hcheck⟩
  next => cases hresult

end Races

end NoraInterviewer
