import NoraInterviewer.Stores

namespace NoraInterviewer

open ExceptRules Tables SectionedPuts

/-- One of the stores, with the programs that its `put_session` runs, and what it keeps true of
its record of a session. -/
structure SessionStore where
  State : Type
  getSession : State → String → Option InterviewSession
  keeps : String → State → Prop
  puts : Put State InterviewSession StoreError → Prop

/-- The store as the clients of session `id` see it. -/
def SessionStore.access (store : SessionStore) (id : String) : Access store.State InterviewSession where
  read state := store.getSession state id
  version := InterviewSession.version
  mine session := session.id = id
  keeps := store.keeps id

/-- The columns of a row say what its payload says. -/
def SessionRow.Consistent {codecs : Codecs} (row : SessionRow codecs.session.Payload) : Prop :=
  (codecs.session.parse row.payload).id = row.id ∧
    (codecs.session.parse row.payload).version = row.version

def Database.Consistent {codecs : Codecs} (id : String) (db : Database codecs) : Prop :=
  ∀ row, db.sessions.select id = some row → row.Consistent

def memoryStore : SessionStore where
  State := InMemoryStore
  getSession := InMemoryStore.getSession
  keeps id store := ∀ session, store.getSession id = some session → session.id = id
  puts put := put = InMemoryStore.put

def sqliteStore (codecs : Codecs) : SessionStore where
  State := Database codecs
  getSession := Database.getSession
  keeps := Database.Consistent
  puts put := ∃ now, put = SqliteStore.put now

def postgresStore (codecs : Codecs) : SessionStore where
  State := Database codecs
  getSession := Database.getSession
  keeps := Database.Consistent
  puts put := ∃ now, put = PostgresStore.put now

theorem json_copy_withVersion (session : InterviewSession) (version : Nat) :
    (Backend.json.copy (session.withVersion version)).id = session.id ∧
      (Backend.json.copy (session.withVersion version)).version = version :=
  ⟨rfl, rfl⟩

theorem memory_put_lawful {id : String} {session : InterviewSession} (hid : session.id = id) :
    InMemoryStore.put.Lawful (memoryStore.access id) session := by
  intro store store' old session' _ hread hrun
  have hlookup : store.sessions.lookup session.id = some old := by
    rw [hid]
    exact hread
  unfold InMemoryStore.putSession at hrun
  simp only [hlookup] at hrun
  split at hrun
  next => cases hrun
  next hversion =>
    cases hrun
    have hself : (Dict.set session.id (session.withVersion (session.version + 1)) store.sessions).lookup
        id = some (session.withVersion (session.version + 1)) := by
      rw [← hid]
      exact Dict.lookup_set_self _ _ _
    refine ⟨not_not.mp hversion, fun other hother => ?_, ⟨_, hself, rfl⟩, rfl, hid⟩
    cases hself.symm.trans hother
    exact hid

variable {codecs : Codecs}

theorem nextRow_consistent (now : DateTime) (session : InterviewSession) :
    (Database.nextRow now session : SessionRow codecs.session.Payload).Consistent := by
  simp only [SessionRow.Consistent, Database.nextRow, codecs.session.parse_dump]
  exact json_copy_withVersion session _

/-- The conditional update goes through on a row of the expected version only, and it replaces
that row. -/
theorem updateSession_some {db db' : Database codecs} {row : SessionRow codecs.session.Payload}
    {expectedVersion : Nat} (h : db.updateSession row expectedVersion = some db') :
    db'.jobs = db.jobs ∧ db'.rubricDrafts = db.rubricDrafts ∧
      (∃ old, db.sessions.select row.id = some old ∧ old.version = expectedVersion) ∧
      ∀ id, db'.sessions.select id = if id = row.id then some row else db.sessions.select id := by
  unfold Database.updateSession at h
  simp only at h
  split at h
  next => cases h
  next hcount =>
    cases h
    rw [Table.count_eq] at hcount
    cases hs : db.sessions.select row.id with
    | none => simp [hs] at hcount
    | some old =>
      have hversion : old.version = expectedVersion := by
        by_contra hne
        simp [hs, hne] at hcount
      refine ⟨rfl, rfl, ⟨old, rfl, hversion⟩, fun id => ?_⟩
      rw [Table.select_update]
      by_cases hid : id = row.id
      · have hold : old.id = row.id := (Table.select_eq_some.mp hs).2
        simp [hid, hs, hversion, hold]
      · simp [hid]

theorem updateSession_none {db : Database codecs} {row : SessionRow codecs.session.Payload}
    {expectedVersion : Nat} :
    db.updateSession row expectedVersion = none ↔
      ∀ old, db.sessions.select row.id = some old → old.version ≠ expectedVersion := by
  unfold Database.updateSession
  simp only [Table.count_eq]
  cases hs : db.sessions.select row.id with
  | none => simp
  | some old => by_cases hv : old.version = expectedVersion <;> simp [hv]

/-- What a put of a row over the one it finds has to establish. -/
theorem database_commit {id : String} {session : InterviewSession} (hid : session.id = id)
    (now : DateTime) {db db' : Database codecs} {old : InterviewSession}
    (hkeeps : db.Consistent id) (hread : db.getSession id = some old)
    (h : db.updateSession (Database.nextRow now session) session.version = some db') :
    old.version = session.version ∧ db'.Consistent id ∧
      ∃ new, db'.getSession id = some new ∧ new.version = session.version + 1 := by
  obtain ⟨_, _, ⟨row, hrow, hversion⟩, hselect⟩ := updateSession_some h
  have hid' : (Database.nextRow now session : SessionRow codecs.session.Payload).id = id := hid
  rw [hid'] at hrow
  have hold : codecs.session.parse row.payload = old := by
    have hread' : (db.sessions.select id).map _ = some old := hread
    rw [hrow] at hread'
    exact Option.some.inj hread'
  have hnew : db'.sessions.select id = some (Database.nextRow now session) := by
    rw [hselect, if_pos hid'.symm]
  refine ⟨?_, fun row' hrow' => ?_, _, congrArg (Option.map _) hnew, (nextRow_consistent now session).2⟩
  · rw [← hold, (hkeeps row hrow).2, hversion]
  · cases hnew.symm.trans hrow'
    exact nextRow_consistent now session

theorem putSessionSync_ok {db db' : Database codecs} {row old : SessionRow codecs.session.Payload}
    {expectedVersion : Nat} (hs : db.sessions.select row.id = some old)
    (h : SqliteStore.putSessionSync db row expectedVersion = .ok db') :
    db.updateSession row expectedVersion = some db' := by
  unfold SqliteStore.putSessionSync at h
  simp only [hs] at h
  split at h
  next => cases h
  next hupdate =>
    cases h
    exact hupdate

theorem putSessionTransaction_ok {db db' : Database codecs}
    {row old : SessionRow codecs.session.Payload} {expectedVersion : Nat}
    (hs : db.sessions.select row.id = some old)
    (h : PostgresStore.putSessionTransaction db row expectedVersion = .ok db') :
    db.updateSession row expectedVersion = some db' := by
  unfold PostgresStore.putSessionTransaction at h
  split at h
  next =>
    have hexists : db.sessions.insert row = none := Table.insert_eq_none.mpr (by rw [hs]; rfl)
    rw [hexists] at h
    cases h
  next =>
    split at h
    next => cases h
    next hupdate =>
      cases h
      exact hupdate

theorem exists_row {id : String} {db : Database codecs} {session : InterviewSession}
    (h : db.getSession id = some session) :
    ∃ row, db.sessions.select id = some row := by
  obtain ⟨row, hrow, _⟩ := Option.map_eq_some_iff.mp h
  exact ⟨row, hrow⟩

theorem sqlite_put_lawful (now : DateTime) {id : String} {session : InterviewSession}
    (hid : session.id = id) :
    (SqliteStore.put now).Lawful ((sqliteStore codecs).access id) session := by
  refine ⟨rfl, ?_⟩
  intro db db' old session' hkeeps hread hrun
  obtain ⟨_, hput, he⟩ := map_ok hrun
  cases he
  obtain ⟨row, hrow⟩ := exists_row hread
  have hupdate := putSessionSync_ok (hid ▸ hrow) hput
  obtain ⟨hversion, hkeeps', hnew⟩ := database_commit hid now hkeeps hread hupdate
  exact ⟨hversion, hkeeps', hnew, rfl, hid⟩

theorem postgres_put_lawful (now : DateTime) {id : String} {session : InterviewSession}
    (hid : session.id = id) :
    (PostgresStore.put now).Lawful ((postgresStore codecs).access id) session := by
  refine ⟨rfl, rfl, ?_⟩
  intro db db' old session' hkeeps hread hrun
  obtain ⟨_, hput, he⟩ := map_ok hrun
  cases he
  obtain ⟨row, hrow⟩ := exists_row hread
  have hupdate := putSessionTransaction_ok (hid ▸ hrow) hput
  obtain ⟨hversion, hkeeps', hnew⟩ := database_commit hid now hkeeps hread hupdate
  exact ⟨hversion, hkeeps', hnew, rfl, hid⟩

/-- What the clients of a session need of a store. -/
theorem store_lawful {store : SessionStore}
    (hstore : store ∈ [memoryStore, sqliteStore codecs, postgresStore codecs]) (id : String) :
    (∀ put, store.puts put → ∀ session : InterviewSession, session.id = id →
      put.Lawful (store.access id) session) ∧
    ∀ state session, store.keeps id state → store.getSession state id = some session →
      session.id = id := by
  have hread : ∀ (db : Database codecs) (session : InterviewSession), db.Consistent id →
      db.getSession id = some session → session.id = id := by
    intro db session hkeeps hs
    obtain ⟨row, hrow, rfl⟩ := Option.map_eq_some_iff.mp hs
    exact (hkeeps row hrow).1.trans (Table.select_eq_some.mp hrow).2
  simp only [List.mem_cons, List.not_mem_nil, or_false] at hstore
  rcases hstore with rfl | rfl | rfl
  · refine ⟨?_, fun state session hkeeps hs => hkeeps session hs⟩
    rintro _ rfl session hid
    exact memory_put_lawful hid
  · refine ⟨?_, hread⟩
    rintro _ ⟨now, rfl⟩ session hid
    exact sqlite_put_lawful now hid
  · refine ⟨?_, hread⟩
    rintro _ ⟨now, rfl⟩ session hid
    exact postgres_put_lawful now hid

/-- Every state that clients of one of the stores can reach from a stored session: the puts that
went through are a chain of versions, and one that raises changes neither the store nor its
writer's copy. -/
theorem no_lost_update {store : SessionStore}
    (hstore : store ∈ [memoryStore, sqliteStore codecs, postgresStore codecs]) {id : String}
    {state : store.State} (hkeeps : store.keeps id state) {first : InterviewSession}
    (hfirst : store.getSession state id = some first) {ι : Type} [DecidableEq ι]
    {system : System ι store.State InterviewSession StoreError}
    (hr : Reachable (store.access id) store.puts (System.start state) system) :
    (∃ current, store.getSession system.store id = some current ∧
      Serial (store.access id) first system.commits current) ∧
    ∀ i next, Step (store.access id) store.puts system (.raised i) next →
      next.store = system.store ∧ next.commits = system.commits ∧ ∃ base called rest,
        system.clients i = .putting base called called rest ∧
        next.clients i = .holding base called := by
  obtain ⟨hputs, hread⟩ := store_lawful hstore id
  have hreached := hr.good hputs hread (good_start hkeeps hfirst)
  exact ⟨hreached.serial, fun i next hs => hreached.raised hs⟩

def plainSession : InterviewSession where
  id := "session-0"
  version := 1
  createdAt := 0
  jobId := "job"
  candidateRef := "candidate"
  locale := "en"

def plainStore : InMemoryStore where
  sessions := [("session-0", plainSession)]

/-- Payloads that are the models themselves. -/
def plainCodecs : Codecs where
  job := ⟨JobSpec, id, id, fun _ => rfl⟩
  draft := ⟨RubricDraft, id, id, fun _ => rfl⟩
  session := ⟨InterviewSession, id, Backend.json.copy, fun _ => rfl⟩

/-- Two clients read the session, and both of them put it back. -/
theorem no_lost_update_race :
    ∃ system : System Bool InMemoryStore InterviewSession StoreError,
      Reachable (memoryStore.access "session-0") memoryStore.puts (System.start plainStore) system ∧
      system.commits.length = 1 ∧
      (∃ current, system.store.getSession "session-0" = some current ∧
        Serial (memoryStore.access "session-0") plainSession system.commits current) := by
  have hmemory : memoryStore ∈ [memoryStore, sqliteStore plainCodecs, postgresStore plainCodecs] :=
    List.mem_cons_self
  have hkeeps : memoryStore.keeps "session-0" plainStore := by
    intro session hs
    cases hs
    rfl
  have h0 : Reachable (memoryStore.access "session-0") memoryStore.puts
      (System.start plainStore : System Bool _ _ _) _ := .refl
  have h1 := h0.step (.get (i := true) (Or.inl rfl) rfl)
  have h2 := h1.step (.get (i := false) (Or.inl rfl) rfl)
  have h3 := h2.step (.call (i := true) rfl rfl)
  have h4 := h3.step (.commit (i := true) rfl rfl rfl)
  have h5 := h4.step (.call (i := false) rfl rfl)
  have h6 := h5.step (.refuse (i := false) rfl rfl)
  exact ⟨_, h6, rfl, (no_lost_update hmemory hkeeps rfl h6).1⟩

end NoraInterviewer
