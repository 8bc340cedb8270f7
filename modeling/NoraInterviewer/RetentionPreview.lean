import NoraInterviewer.RetentionRuns
import NoraInterviewer.Lifecycle

namespace NoraInterviewer

open ObjectRuns

/-- What the loop matches. -/
def RetentionRequest.takes (request : RetentionRequest) (cutoff : Int) (session : StoredSession) :
    Bool :=
  request.passesCandidate session && !(request.completedOnly && session.completedAt.isNone) &&
    decide (((retentionMatch session).ageTimestamp : Int) ≤ cutoff)

/-- What the loop skips as active. -/
def RetentionRequest.skips (request : RetentionRequest) (session : StoredSession) : Bool :=
  request.passesCandidate session && (request.completedOnly && session.completedAt.isNone)

/-- What a request is for: the sessions of its candidate, completed ones if it says so, that are
old enough. -/
def RetentionRequest.wants (request : RetentionRequest) (cutoff : Int) (session : StoredSession) :
    Bool :=
  request.passesCandidate session && (!request.completedOnly || session.status = .completed) &&
    decide (((retentionMatch session).ageTimestamp : Int) ≤ cutoff)

def RetentionRequest.preview (request : RetentionRequest) : RetentionRequest :=
  { request with dryRun := true }

def RetentionRequest.forReal (request : RetentionRequest) : RetentionRequest :=
  { request with dryRun := false }

section

variable [CanonicalDigest]

section

variable (manager : RetentionManager) (call : ArtifactCall) {request : RetentionRequest}
  {cutoff : Int} {session : StoredSession} (rest : List StoredSession) (lists : RetentionLists)
  (world : RetentionWorld)

omit [CanonicalDigest] in
theorem takes_cases (h : request.takes cutoff session = true) :
    request.passesCandidate session = true ∧
      (request.completedOnly && session.completedAt.isNone) = false ∧
      ¬cutoff < ((retentionMatch session).ageTimestamp : Int) := by
  simp only [RetentionRequest.takes, Bool.and_eq_true, Bool.not_eq_true', decide_eq_true_eq] at h
  exact ⟨h.1.1, h.1.2, Int.not_lt.mpr h.2⟩

omit [CanonicalDigest] in
theorem skips_untaken (h : request.skips session = true) : request.takes cutoff session = false := by
  simp only [RetentionRequest.skips, Bool.and_eq_true] at h
  simp only [RetentionRequest.takes, h, Bool.and_true, Bool.not_true, Bool.and_false,
    Bool.false_and]

theorem scan_skip (h : request.skips session = true) :
    manager.scan call request cutoff (session :: rest) lists world = manager.scan call request
      cutoff rest { lists with skippedActive := lists.skippedActive ++ [session.id] } world := by
  simp only [RetentionRequest.skips, Bool.and_eq_true] at h
  simp only [RetentionManager.scan, h, Bool.not_true, Bool.false_eq_true, if_false, Bool.and_self,
    if_true]

theorem scan_pass (hs : request.skips session = false) (ht : request.takes cutoff session = false) :
    manager.scan call request cutoff (session :: rest) lists world =
      manager.scan call request cutoff rest lists world := by
  simp only [RetentionRequest.skips, RetentionRequest.takes] at hs ht
  simp only [RetentionManager.scan]
  cases hp : request.passesCandidate session with
  | false => rfl
  | true =>
    rw [hp, Bool.true_and] at hs
    rw [hp, hs, Bool.not_false, Bool.true_and, Bool.true_and, decide_eq_false_iff_not,
      Int.not_le] at ht
    simp only [hs, ht, Bool.not_true, Bool.false_eq_true, if_false, if_true]

theorem scan_take (ht : request.takes cutoff session = true) (hdry : request.dryRun = true) :
    manager.scan call request cutoff (session :: rest) lists world = manager.scan call request
      cutoff rest { lists with matched := lists.matched ++ [retentionMatch session] } world := by
  obtain ⟨hp, hc, hage⟩ := takes_cases ht
  simp only [RetentionManager.scan, hp, hc, hage, hdry, Bool.not_true, Bool.false_eq_true, if_false,
    if_true]

theorem scan_stop (ht : request.takes cutoff session = true) (hreal : request.dryRun = false)
    {e : PyError} {world' : RetentionWorld}
    (hr : manager.remove call session.id world = (.error e, world')) :
    manager.scan call request cutoff (session :: rest) lists world = (.error e, world') := by
  obtain ⟨hp, hc, hage⟩ := takes_cases ht
  simp only [RetentionManager.scan, hp, hc, hage, hreal, hr, Bool.not_true, Bool.false_eq_true,
    if_false]

theorem scan_remove (ht : request.takes cutoff session = true) (hreal : request.dryRun = false)
    {world' : RetentionWorld} (hr : manager.remove call session.id world = (.ok true, world')) :
    manager.scan call request cutoff (session :: rest) lists world = manager.scan call request
      cutoff rest { lists with
        matched := lists.matched ++ [retentionMatch session]
        deleted := lists.deleted ++ [session.id] } world' := by
  obtain ⟨hp, hc, hage⟩ := takes_cases ht
  simp only [RetentionManager.scan, hp, hc, hage, hreal, hr, Bool.not_true, Bool.false_eq_true,
    if_false, if_true]

end

/-- The loop over a listing, when nothing is removed. -/
theorem scan_preview (manager : RetentionManager) (call : ArtifactCall) {request : RetentionRequest}
    (hdry : request.dryRun = true) (cutoff : Int) (listing : List StoredSession)
    (lists : RetentionLists) (world : RetentionWorld) :
    manager.scan call request cutoff listing lists world = (.ok {
      matched := lists.matched ++ (listing.filter (request.takes cutoff)).map retentionMatch
      deleted := lists.deleted
      skippedActive := lists.skippedActive ++ (listing.filter request.skips).map (·.id) }, world) := by
  induction listing generalizing lists with
  | nil => simp only [RetentionManager.scan, List.filter_nil, List.map_nil, List.append_nil]
  | cons session rest ih =>
    cases hs : request.skips session with
    | true =>
      rw [scan_skip manager call rest lists world hs, ih]
      simp only [List.filter_cons, hs, skips_untaken hs, if_true, Bool.false_eq_true, if_false,
        List.map_cons, List.append_assoc, List.singleton_append]
    | false =>
      cases ht : request.takes cutoff session with
      | true =>
        rw [scan_take manager call rest lists world ht hdry, ih]
        simp only [List.filter_cons, hs, ht, if_true, Bool.false_eq_true, if_false,
          List.map_cons, List.append_assoc, List.singleton_append]
      | false =>
        rw [scan_pass manager call rest lists world hs ht, ih]
        simp only [List.filter_cons, hs, ht, Bool.false_eq_true, if_false]

/-- What a run has left of the store it started with, once it has come to the sessions of `ids`. -/
structure Retained (start world : RetentionWorld) (ids : List String) : Prop where
  others : world.sessions.filter (fun session => session.id ∉ ids) =
    start.sessions.filter fun session => session.id ∉ ids
  ids : (world.sessions.map (·.id)).Sublist (start.sessions.map (·.id))
  objects : Erodes start.objects world.objects
  gone : ∀ session ∈ start.sessions, (∀ kept ∈ world.sessions, kept.id ≠ session.id) →
    ∀ artifact ∈ session.live, world.objects artifact.storageKey = none

omit [CanonicalDigest] in
theorem Retained.refl (world : RetentionWorld) : Retained world world [] :=
  ⟨rfl, .refl _, .refl _, fun session hs hgone => absurd rfl (hgone session hs)⟩

omit [CanonicalDigest] in
theorem Retained.more {start world : RetentionWorld} {ids : List String}
    (h : Retained start world ids) (others : List String) : Retained start world (ids ++ others) := by
  refine ⟨?_, h.ids, h.objects, h.gone⟩
  have hsplit : ∀ sessions : List StoredSession,
      sessions.filter (fun session => session.id ∉ ids ++ others) =
        (sessions.filter fun session => session.id ∉ ids).filter
          fun session => session.id ∉ others := by
    intro sessions
    rw [List.filter_filter]
    refine List.filter_congr fun session _ => ?_
    simp only [List.mem_append, not_or, Bool.decide_and, Bool.and_comm]
  rw [hsplit, hsplit, h.others]

omit [CanonicalDigest] in
/-- One more session is come to. -/
theorem Retained.taken {start world world' : RetentionWorld} {ids : List String}
    (h : Retained start world ids) (hn : (start.sessions.map (·.id)).Nodup)
    {session : StoredSession} (hm : session ∈ start.sessions) (hid : session.id ∉ ids)
    (ht : Taken world world' session.id) : Retained start world' (ids ++ [session.id]) := by
  have hsplit : ∀ sessions : List StoredSession,
      sessions.filter (fun other => other.id ∉ ids ++ [session.id]) =
        (sessions.filter fun other => other.id ≠ session.id).filter fun other => other.id ∉ ids := by
    intro sessions
    rw [List.filter_filter]
    refine List.filter_congr fun other _ => ?_
    simp only [List.mem_append, List.mem_singleton, not_or, Bool.decide_and, ne_eq]
  refine ⟨?_, ht.ids.trans h.ids, h.objects.trans ht.objects, ?_⟩
  · rw [hsplit, ht.others, ← hsplit]
    exact (h.more [session.id]).others
  · intro first hf hgone artifact ha
    by_cases hfirst : first.id = session.id
    · obtain rfl := List.inj_on_of_nodup_map hn hf hm hfirst
      have hkept : first ∈ world.sessions := List.mem_of_mem_filter
        (h.others ▸ List.mem_filter.mpr ⟨hf, decide_eq_true hid⟩)
      exact ht.gone hgone first hkept rfl artifact ha
    · refine ht.objects.none (h.gone first hf ?_ artifact ha)
      intro kept hk heq
      have hstays : kept ∈ world'.sessions := List.mem_of_mem_filter
        (ht.others ▸ List.mem_filter.mpr ⟨hk, decide_eq_true (heq ▸ hfirst)⟩)
      exact hgone kept hstays heq

/-- The loop over a listing, when it removes what it matches. -/
theorem scan_real {manager : RetentionManager} {service : ArtifactService}
    (hs : manager.artifactService = some service) (call : ArtifactCall) {request : RetentionRequest}
    (hreal : request.dryRun = false) (cutoff : Int) {start : RetentionWorld}
    (hn : (start.sessions.map (·.id)).Nodup) (listing : List StoredSession) (lists : RetentionLists)
    (world : RetentionWorld) (ids : List String) (h : Retained start world ids)
    (hlisted : ∀ session ∈ listing, session ∈ start.sessions ∧ session.id ∉ ids)
    (hdistinct : (listing.map (·.id)).Nodup) :
    Retained start (manager.scan call request cutoff listing lists world).2
        (ids ++ (listing.filter (request.takes cutoff)).map (·.id)) ∧
      ∀ lists', (manager.scan call request cutoff listing lists world).1 = .ok lists' →
        (∀ session ∈ world.sessions, session.id ∉ ids) →
        lists'.matched = lists.matched ++ (listing.filter (request.takes cutoff)).map retentionMatch ∧
        lists'.deleted = lists.deleted ++ (listing.filter (request.takes cutoff)).map (·.id) ∧
        ∀ session ∈ (manager.scan call request cutoff listing lists world).2.sessions,
          session.id ∉ ids ++ (listing.filter (request.takes cutoff)).map (·.id) := by
  induction listing generalizing lists world ids with
  | nil =>
    simp only [RetentionManager.scan, List.filter_nil, List.map_nil, List.append_nil]
    refine ⟨h, fun lists' hl hout => ?_⟩
    cases hl
    exact ⟨rfl, rfl, hout⟩
  | cons session rest ih =>
    obtain ⟨hfresh, hdistinct⟩ := List.nodup_cons.mp hdistinct
    obtain ⟨⟨hm, hid⟩, hrest⟩ := List.forall_mem_cons.mp hlisted
    cases hskips : request.skips session with
    | true =>
      rw [scan_skip manager call rest lists world hskips]
      simp only [List.filter_cons, skips_untaken hskips, Bool.false_eq_true, if_false]
      exact ih _ world ids h hrest hdistinct
    | false =>
      cases htakes : request.takes cutoff session with
      | false =>
        rw [scan_pass manager call rest lists world hskips htakes]
        simp only [List.filter_cons, htakes, Bool.false_eq_true, if_false]
        exact ih _ world ids h hrest hdistinct
      | true =>
        have hkept : session ∈ world.sessions := List.mem_of_mem_filter
          (h.others ▸ List.mem_filter.mpr ⟨hm, decide_eq_true hid⟩)
        obtain ⟨ht, hok⟩ := remove_taken hs call (h.ids.nodup hn) hkept
        obtain ⟨⟨result, world'⟩, hr⟩ : ∃ r, manager.remove call session.id world = r := ⟨_, rfl⟩
        rw [hr] at ht hok
        have htaken := h.taken hn hm hid ht
        have hids : ids ++ (List.filter (request.takes cutoff) (session :: rest)).map (·.id) =
            ids ++ [session.id] ++ (rest.filter (request.takes cutoff)).map (·.id) := by
          simp only [List.filter_cons, htakes, if_true, List.map_cons, List.append_assoc,
            List.singleton_append]
        cases result with
        | error e =>
          rw [scan_stop manager call rest lists world htakes hreal hr, hids]
          exact ⟨htaken.more _, fun _ hl => by cases hl⟩
        | ok removed =>
          obtain ⟨rfl, hgone⟩ := hok removed rfl
          rw [scan_remove manager call rest lists world htakes hreal hr, hids]
          obtain ⟨hretained, hends⟩ := ih { lists with
              matched := lists.matched ++ [retentionMatch session]
              deleted := lists.deleted ++ [session.id] } world' (ids ++ [session.id]) htaken
            (fun other ho => ⟨(hrest other ho).1, by
              simp only [List.mem_append, List.mem_singleton, not_or]
              exact ⟨(hrest other ho).2, fun he => hfresh (List.mem_map.mpr ⟨other, ho, he⟩)⟩⟩) hdistinct
          refine ⟨hretained, fun lists' hl hout => ?_⟩
          obtain ⟨hmatched, hdeleted, hleft⟩ := hends lists' hl fun kept hk => by
            obtain ⟨before, hb, he⟩ := List.mem_map.mp (ht.ids.subset (List.mem_map_of_mem hk))
            simp only [List.mem_append, List.mem_singleton, not_or]
            exact ⟨he ▸ hout before hb, hgone kept hk⟩
          refine ⟨?_, ?_, hleft⟩
          · simp only [hmatched, List.filter_cons, htakes, if_true, List.map_cons,
              List.append_assoc, List.singleton_append]
          · simp only [hdeleted, List.filter_cons, htakes, if_true, List.map_cons,
              List.append_assoc, List.singleton_append]

/-- The two stores after so many rounds of the loop. -/
def RetentionManager.after (manager : RetentionManager) (call : ArtifactCall)
    (request : RetentionRequest) (now : DateTime) (world : RetentionWorld) (rounds : Nat) :
    RetentionWorld :=
  (manager.scan call request (request.cutoff now) (world.sessions.take rounds) {} world).2

/-- The dry run changes nothing and reports what the request is for. -/
structure Previews (manager : RetentionManager) (call : ArtifactCall) (request : RetentionRequest)
    (now : DateTime) (world : RetentionWorld) (report : RetentionReport) : Prop where
  unchanged : manager.run call request.preview now world = (.ok report, world)
  matched : report.matched =
    (world.sessions.filter (request.wants (request.cutoff now))).map retentionMatch
  skipped : ∀ session ∈ world.sessions, session.id ∈ report.skippedActiveSessionIds →
    session.active

/-- The real run takes the sessions of the report away and nothing else, each after the objects of
its live artifacts. -/
structure Fulfils (manager : RetentionManager) (call : ArtifactCall) (request : RetentionRequest)
    (now : DateTime) (world : RetentionWorld) (report : RetentionReport) : Prop where
  deleted : ∀ real left, manager.run call request.forReal now world = (.ok real, left) →
    real.matched = report.matched ∧
    real.deletedSessionIds = report.matched.map (·.sessionId) ∧
    left.sessions = world.sessions.filter fun session =>
      session.id ∉ report.matched.map (·.sessionId)
  others : ∀ rounds, (manager.after call request.forReal now world rounds).sessions.filter
      (fun session => session.id ∉ report.matched.map (·.sessionId)) =
    world.sessions.filter fun session => session.id ∉ report.matched.map (·.sessionId)
  known : ∀ rounds, ((manager.after call request.forReal now world rounds).sessions.map
    (·.id)).Sublist (world.sessions.map (·.id))
  gone : ∀ rounds, ∀ session ∈ world.sessions,
    (∀ kept ∈ (manager.after call request.forReal now world rounds).sessions,
      kept.id ≠ session.id) →
    ∀ artifact ∈ session.live,
      (manager.after call request.forReal now world rounds).objects artifact.storageKey = none

def RetentionExact (manager : RetentionManager) (call : ArtifactCall) (request : RetentionRequest)
    (now : DateTime) (world : RetentionWorld) : Prop :=
  ∃ report, Previews manager call request now world report ∧
    Fulfils manager call request now world report

omit [CanonicalDigest] in
/-- The completion time tells, of the sessions that a request for completed ones comes to, the
active from the completed. -/
def RetentionRequest.Discerns (request : RetentionRequest) (cutoff : Int)
    (sessions : List StoredSession) : Prop :=
  request.completedOnly = true → ∀ session ∈ sessions, request.passesCandidate session = true →
    (session.completedAt = none → session.active) ∧
    ∀ completedAt, session.completedAt = some completedAt → (completedAt : Int) ≤ cutoff →
      session.status = .completed

/-- What the dry run reports, as its loop fills it. -/
theorem run_preview (manager : RetentionManager) (call : ArtifactCall) (request : RetentionRequest)
    (now : DateTime) (world : RetentionWorld) :
    manager.run call request.preview now world = (.ok {
      cutoff := request.cutoff now
      dryRun := true
      completedOnly := request.completedOnly
      scannedSessions := world.sessions.length
      matched := (world.sessions.filter (request.takes (request.cutoff now))).map retentionMatch
      deletedSessionIds := []
      skippedActiveSessionIds := (world.sessions.filter request.skips).map (·.id) }, world) := by
  simp only [RetentionManager.run]
  have hscan := scan_preview manager call (show request.preview.dryRun = true from rfl)
    (request.preview.cutoff now) world.sessions {} world
  rw [hscan]
  rfl

omit [CanonicalDigest] in
theorem map_sessionId (sessions : List StoredSession) :
    (sessions.map retentionMatch).map (·.sessionId) = sessions.map (·.id) := by
  rw [List.map_map]
  rfl

section

variable (service : ArtifactService) (backend : Backend) (call : ArtifactCall)
  (request : RetentionRequest) (now : DateTime) {world : RetentionWorld}
  (hn : (world.sessions.map (·.id)).Nodup)

include hn

theorem after_retained (rounds : Nat) : Retained world
    (RetentionManager.after ⟨some service, backend⟩ call request.forReal now world rounds)
    ((world.sessions.filter (request.takes (request.cutoff now))).map (·.id)) := by
  obtain ⟨hretained, -⟩ := scan_real
    (show (RetentionManager.mk (some service) backend).artifactService = some service from rfl) call
    (show request.forReal.dryRun = false from rfl) (request.cutoff now) hn
    (world.sessions.take rounds) {} world [] (.refl world) (fun session h => ⟨List.mem_of_mem_take h, List.not_mem_nil⟩)
    ((List.take_sublist _ _).map _ |>.nodup hn)
  have hmore := hretained.more
    (((world.sessions.drop rounds).filter (request.takes (request.cutoff now))).map (·.id))
  rw [List.nil_append] at hmore
  have hids : (world.sessions.filter (request.takes (request.cutoff now))).map (·.id) =
      ((world.sessions.take rounds).filter (request.takes (request.cutoff now))).map (·.id) ++
        ((world.sessions.drop rounds).filter (request.takes (request.cutoff now))).map (·.id) := by
    rw [← List.map_append, ← List.filter_append, List.take_append_drop]
  rw [hids]
  exact hmore

/-- Whatever a dry run reports, the real run keeps to it. -/
theorem fulfils_preview {report : RetentionReport} {left : RetentionWorld}
    (hr : RetentionManager.run ⟨some service, backend⟩ call request.preview now world =
      (.ok report, left)) :
    Fulfils ⟨some service, backend⟩ call request now world report := by
  rw [run_preview] at hr
  cases hr
  refine ⟨?_, ?_, fun rounds => (after_retained service backend call request now hn rounds).ids,
    fun rounds => (after_retained service backend call request now hn rounds).gone⟩
  · intro real left hreal
    obtain ⟨hretained, hends⟩ := scan_real
      (show (RetentionManager.mk (some service) backend).artifactService = some service from rfl)
      call (show request.forReal.dryRun = false from rfl) (request.cutoff now) hn world.sessions {}
      world [] (.refl world) (fun session h => ⟨h, List.not_mem_nil⟩) hn
    simp only [RetentionManager.run, Prod.mk.injEq] at hreal
    obtain ⟨hl, rfl⟩ := hreal
    obtain ⟨lists, hlists, rfl⟩ := ExceptRules.map_ok hl
    obtain ⟨hmatched, hdeleted, hleft⟩ := hends lists hlists fun _ _ => List.not_mem_nil
    dsimp only
    rw [map_sessionId]
    refine ⟨hmatched, hdeleted, Eq.trans ?_ hretained.others⟩
    exact (List.filter_eq_self.mpr fun session hs => decide_eq_true (hleft session hs)).symm
  · intro rounds
    dsimp only
    rw [map_sessionId]
    exact (after_retained service backend call request now hn rounds).others

end

omit [CanonicalDigest] in
theorem takes_iff (request : RetentionRequest) (cutoff : Int) (session : StoredSession) :
    request.takes cutoff session = true ↔ request.passesCandidate session = true ∧
      (request.completedOnly = true → session.completedAt ≠ none) ∧
      ((retentionMatch session).ageTimestamp : Int) ≤ cutoff := by
  simp only [RetentionRequest.takes, Bool.and_eq_true, Bool.not_eq_true', Bool.and_eq_false_imp,
    decide_eq_true_eq, and_assoc, Option.isNone_eq_false_iff, Option.isSome_iff_ne_none]

omit [CanonicalDigest] in
theorem wants_iff (request : RetentionRequest) (cutoff : Int) (session : StoredSession) :
    request.wants cutoff session = true ↔ request.passesCandidate session = true ∧
      (request.completedOnly = true → session.status = .completed) ∧
      ((retentionMatch session).ageTimestamp : Int) ≤ cutoff := by
  simp only [RetentionRequest.wants, Bool.and_eq_true, Bool.or_eq_true, Bool.not_eq_true',
    decide_eq_true_eq, and_assoc]
  cases request.completedOnly with
  | false => simp
  | true => simp

omit [CanonicalDigest] in
theorem skips_iff (request : RetentionRequest) (session : StoredSession) :
    request.skips session = true ↔ request.passesCandidate session = true ∧
      request.completedOnly = true ∧ session.completedAt = none := by
  simp only [RetentionRequest.skips, Bool.and_eq_true, Option.isNone_iff_eq_none]

omit [CanonicalDigest] in
/-- A request that tells the active from the completed matches what it is for. -/
theorem takes_eq_wants {request : RetentionRequest} {cutoff : Int} {sessions : List StoredSession}
    (h : request.Discerns cutoff sessions) {session : StoredSession} (hm : session ∈ sessions) :
    request.takes cutoff session = request.wants cutoff session := by
  rw [Bool.eq_iff_iff, takes_iff, wants_iff]
  refine and_congr_right fun hp => ?_
  constructor
  · rintro ⟨hc, hage⟩
    refine ⟨fun honly => ?_, hage⟩
    obtain ⟨completedAt, hat⟩ := Option.ne_none_iff_exists'.mp (hc honly)
    refine (h honly session hm hp).2 completedAt hat ?_
    simpa only [retentionMatch, hat, Option.getD_some] using hage
  · rintro ⟨hc, hage⟩
    refine ⟨fun honly hnone => ?_, hage⟩
    exact ((h honly session hm hp).1 hnone).1 (hc honly)

/-- The dry run reports what the request is for just when the completion time tells the active
from the completed. -/
theorem previews_iff (manager : RetentionManager) (call : ArtifactCall) (request : RetentionRequest)
    (now : DateTime) {world : RetentionWorld} (hn : (world.sessions.map (·.id)).Nodup) :
    (∃ report, Previews manager call request now world report) ↔
      request.Discerns (request.cutoff now) world.sessions := by
  have hunique : ∀ session ∈ world.sessions, ∀ other ∈ world.sessions, other.id = session.id →
      other = session := fun session hs other ho => List.inj_on_of_nodup_map hn ho hs
  constructor
  · rintro ⟨report, hrun, hmatched, hskipped⟩ honly session hs hp
    rw [run_preview] at hrun
    cases hrun
    refine ⟨fun hnone => ?_, fun completedAt hat hage => ?_⟩
    · exact hskipped session hs (List.mem_map_of_mem
        (List.mem_filter.mpr ⟨hs, (skips_iff _ _).mpr ⟨hp, honly, hnone⟩⟩))
    · have htakes : request.takes (request.cutoff now) session = true := by
        refine (takes_iff _ _ _).mpr ⟨hp, fun _ hnone => ?_, ?_⟩
        · rw [hat] at hnone
          cases hnone
        · simpa only [retentionMatch, hat, Option.getD_some] using hage
      have hin : retentionMatch session ∈ (world.sessions.filter
          (request.wants (request.cutoff now))).map retentionMatch := by
        rw [← hmatched]
        exact List.mem_map_of_mem (List.mem_filter.mpr ⟨hs, htakes⟩)
      obtain ⟨other, ho, he⟩ := List.mem_map.mp hin
      obtain ⟨ho, hwants⟩ := List.mem_filter.mp ho
      obtain rfl := hunique session hs other ho (congrArg RetentionMatch.sessionId he)
      exact ((wants_iff _ _ _).mp hwants).2.1 honly
  · intro h
    refine ⟨_, run_preview manager call request now world, ?_, fun session hs hin => ?_⟩
    · exact congrArg _ (List.filter_congr fun session hs => takes_eq_wants h hs)
    · obtain ⟨other, ho, he⟩ := List.mem_map.mp hin
      obtain ⟨ho, hskips⟩ := List.mem_filter.mp ho
      obtain rfl := hunique session hs other ho he
      obtain ⟨hp, honly, hnone⟩ := (skips_iff _ _).mp hskips
      exact (h honly other hs hp).1 hnone

omit [CanonicalDigest] in
/-- Among sessions as the service stores them, the cancelled ones are not told apart. -/
theorem discerns_iff (request : RetentionRequest) (cutoff : Int) {sessions : List StoredSession}
    (hlife : ∀ session ∈ sessions, Lifecycle session.toInterviewSession) :
    request.Discerns cutoff sessions ↔ (request.completedOnly = true → ∀ session ∈ sessions,
      request.passesCandidate session = true → session.status ≠ .cancelled) := by
  refine forall_congr' fun honly => forall₂_congr fun session hs => forall_congr' fun hp => ?_
  have hcompleted := (hlife session hs).completedAt
  constructor
  · rintro ⟨hactive, -⟩ hcancelled
    cases hat : session.completedAt with
    | none => exact (hactive hat).2 hcancelled
    | some completedAt =>
      rw [hat, hcancelled] at hcompleted
      cases hcompleted.mp rfl
  · intro h
    refine ⟨fun hnone => ⟨fun hc => ?_, h⟩, fun completedAt hat _ => ?_⟩
    · rw [hnone] at hcompleted
      cases hcompleted.mpr hc
    · exact hcompleted.mp (by rw [hat]; rfl)

/-- A retention run is exact just when the completion time tells the active sessions it comes to
from the completed: for sessions as the service stores them, when none of them is cancelled. -/
theorem retention_exact_iff (service : ArtifactService) (backend : Backend) (call : ArtifactCall)
    (request : RetentionRequest) (now : DateTime) (world : RetentionWorld)
    (hn : (world.sessions.map (·.id)).Nodup) :
    (RetentionExact ⟨some service, backend⟩ call request now world ↔
      request.Discerns (request.cutoff now) world.sessions) ∧
    ((∀ session ∈ world.sessions, Lifecycle session.toInterviewSession) →
      (RetentionExact ⟨some service, backend⟩ call request now world ↔
        (request.completedOnly = true → ∀ session ∈ world.sessions,
          request.passesCandidate session = true → session.status ≠ .cancelled))) := by
  have hexact : RetentionExact ⟨some service, backend⟩ call request now world ↔
      request.Discerns (request.cutoff now) world.sessions := by
    refine Iff.trans ?_ (previews_iff ⟨some service, backend⟩ call request now hn)
    refine exists_congr fun report => and_iff_left_of_imp fun h => ?_
    exact fulfils_preview service backend call request now hn h.unchanged
  exact ⟨hexact, fun hlife => hexact.trans (discerns_iff request _ hlife)⟩

end

section Runs

attribute [local instance] checksumDigest

/-- The request with every default. -/
def plainRetention : RetentionRequest where
  bounds := ⟨by decide, by decide, fun _ h => by cases h⟩

def notesArtifact : ArtifactRecord where
  id := "notes"
  storageKey := "unscoped/session/notes"
  kind := "notes"
  mediaType := "text/plain"
  sizeBytes := 1
  sha256 := "digest"
  createdAt := 0
  createdBy := "recruiter"

/-- One stored session with one live artifact, ninety days after the Epoch. -/
def oneSession (session : InterviewSession) : RetentionWorld where
  sessions := [{ toInterviewSession := session, artifacts := [notesArtifact] }]
  objects key := if key = "unscoped/session/notes" then some [0] else none

/-- A completed session is previewed and taken away. -/
theorem retention_exact_completed : ∃ session past,
    History .memory (fun _ _ _ => True) (session :: past) ∧ session.status = .completed ∧
    plainRetention.takes 0 { toInterviewSession := session } = true ∧
    RetentionExact ⟨some localArtifacts, .memory⟩ plainArtifactCall plainRetention
      (90 * 86400000000) (oneSession session) := by
  have hrun : (jobRun plainJob .memory [(plainCall closeDecision, .start),
      (plainCall closeDecision, .answer "I built a queue." [])]).any fun versions =>
        versions.head?.any fun session => session.status = .completed ∧
          plainRetention.takes 0 { toInterviewSession := session } = true := by
    decide +kernel
  obtain ⟨session, past, hhistory, hcheck⟩ := jobRun_last (fun _ _ => True) (fun _ _ => trivial) hrun
  obtain ⟨hcompleted, htakes⟩ := of_decide_eq_true hcheck
  have hhistory := hhistory.mono fun _ _ _ _ => trivial
  refine ⟨session, past, hhistory, hcompleted, htakes, ?_⟩
  refine ((retention_exact_iff localArtifacts .memory plainArtifactCall plainRetention
    (90 * 86400000000) (oneSession session) (List.nodup_singleton _)).2 ?_).mpr ?_
  · intro stored hs
    cases List.mem_singleton.mp hs
    exact hhistory.lifecycle session List.mem_cons_self
  · intro _ stored hs _ hcancelled
    cases List.mem_singleton.mp hs
    rw [hcompleted] at hcancelled
    cases hcancelled

/-- A cancelled session is reported as one that is still active. -/
theorem retention_inexact_cancelled : ∃ session past,
    History .memory (fun _ _ _ => True) (session :: past) ∧ session.status = .cancelled ∧
    ¬RetentionExact ⟨some localArtifacts, .memory⟩ plainArtifactCall plainRetention
      (90 * 86400000000) (oneSession session) := by
  have hrun : (jobRun plainJob .memory [(plainCall closeDecision, .start),
      (plainCall closeDecision, .cancelSession { reason := "withdrawn" })]).any fun versions =>
        versions.head?.any fun session =>
          session.status = .cancelled ∧ session.completedAt = none := by
    decide +kernel
  obtain ⟨session, past, hhistory, hcheck⟩ := jobRun_last (fun _ _ => True) (fun _ _ => trivial) hrun
  obtain ⟨hcancelled, hnone⟩ := of_decide_eq_true hcheck
  refine ⟨session, past, hhistory.mono fun _ _ _ _ => trivial, hcancelled, ?_⟩
  rintro ⟨report, hpreviews, -⟩
  have hn : ((oneSession session).sessions.map (·.id)).Nodup := List.nodup_singleton _
  have hdiscerns := (previews_iff ⟨some localArtifacts, .memory⟩ plainArtifactCall plainRetention
    (90 * 86400000000) hn).mp ⟨report, hpreviews⟩
  exact ((hdiscerns rfl _ (List.mem_singleton_self _) rfl).1 hnone).2 hcancelled

end Runs

end NoraInterviewer
