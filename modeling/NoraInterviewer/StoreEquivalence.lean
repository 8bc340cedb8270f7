import NoraInterviewer.StoreContents
import NoraInterviewer.Execution

namespace NoraInterviewer

open ExceptRules Tables SectionedPuts Simulation

/-- Drafts are put as drafts, and approved ones as approved, as `RubricWorkflowService` does. -/
def StoreCall.Issued : StoreCall → Prop
  | .putRubricDraft draft => draft.activationStatus = .draftOnly
  | .approveRubricDraft _ approvedDraft _ => approvedDraft.activationStatus = .approved
  | _ => True

/-- What the dicts of `InMemoryStore` hold. -/
structure InMemoryStore.Holds (store : InMemoryStore) (contents : Contents) : Prop where
  jobs : ∀ id, store.getJob id = contents.jobs id
  rubricDrafts : ∀ id, store.getRubricDraft id = contents.rubricDrafts id
  sessions : ∀ id, (store.getSession id).map InterviewSession.plain = contents.sessions id
  keys : (store.sessions.map Prod.fst).Nodup
  named : ∀ id session, store.getSession id = some session → session.id = id

/-- What the tables of a SQL store hold. -/
structure Database.Holds {codecs : Codecs} (db : Database codecs) (contents : Contents) : Prop where
  jobs : ∀ id, db.getJob id = contents.jobs id
  rubricDrafts : ∀ id, db.getRubricDraft id = contents.rubricDrafts id
  approvals : ∀ id row, db.rubricDrafts.select id = some row →
    (row.approvedJobId = none ↔ (codecs.draft.parse row.payload).activationStatus = .draftOnly)
  sessions : ∀ id, (db.getSession id).map InterviewSession.plain = contents.sessions id
  consistent : ∀ id, db.Consistent id
  positive : ∀ id row, db.sessions.select id = some row → 0 < row.version

/-- A call that may raise carries over as soon as what it does when it does not does. -/
theorem settle_gives {S : Type} {holds : S → Contents → Prop} {state : S} {contents : Contents}
    {x : Except StoreError S} {y : Except Failure Contents} (h : holds state contents)
    (hok : ∀ state', x = .ok state' → ∃ contents', y = .ok contents' ∧ holds state' contents')
    (herror : ∀ e, x = .error e → y = .error e.failure) :
    holds (settle state x).1 (contents.settle y).1 ∧
      (settle state x).2.Gives (contents.settle y).2 := by
  cases hx : x with
  | ok state' =>
    obtain ⟨contents', rfl, hholds⟩ := hok state' hx
    exact ⟨hholds, .done⟩
  | error e =>
    rw [herror e hx]
    exact ⟨h, .raised rfl⟩

section Memory

variable {store : InMemoryStore} {contents : Contents}

theorem InMemoryStore.Holds.putJob (h : store.Holds contents) (job : JobSpec) :
    (store.putJob job).Holds (contents.setJob job) := by
  refine ⟨fun id => ?_, h.rubricDrafts, h.sessions, h.keys, h.named⟩
  rw [Contents.setJob_jobs, ← h.jobs]
  exact Dict.lookup_set _ _ _ _

theorem InMemoryStore.Holds.setDraft (h : store.Holds contents) (draftId : String)
    (draft : RubricDraft) :
    { store with rubricDrafts := Dict.set draftId draft store.rubricDrafts }.Holds
      (contents.setDraft draftId draft) := by
  refine ⟨h.jobs, fun id => ?_, h.sessions, h.keys, h.named⟩
  rw [Contents.setDraft_rubricDrafts, ← h.rubricDrafts]
  exact Dict.lookup_set _ _ _ _

theorem InMemoryStore.Holds.putRubricDraft (h : store.Holds contents) (draft : RubricDraft) :
    (settle store (store.putRubricDraft draft)).1.Holds
        (contents.settle (contents.putRubricDraft draft)).1 ∧
      (settle store (store.putRubricDraft draft)).2.Gives
        (contents.settle (contents.putRubricDraft draft)).2 := by
  have hfound : store.rubricDrafts.lookup draft.id = contents.rubricDrafts draft.id :=
    h.rubricDrafts draft.id
  refine settle_gives h (fun store' hput => ?_) fun e hput => ?_
  · unfold InMemoryStore.putRubricDraft at hput
    obtain ⟨hnew, hput⟩ := ite_error_ok hput
    cases hput
    refine ⟨_, ?_, h.setDraft draft.id draft⟩
    rw [Contents.putRubricDraft, ← hfound, if_neg hnew]
  · unfold InMemoryStore.putRubricDraft at hput
    split at hput
    next hold =>
      cases hput
      rw [Contents.putRubricDraft, ← hfound, if_pos hold]
      rfl
    next => cases hput

theorem InMemoryStore.Holds.approveRubricDraft (h : store.Holds contents) (draftId : String)
    (approvedDraft : RubricDraft) (job : JobSpec) :
    (settle store (store.approveRubricDraft draftId approvedDraft job)).1.Holds
        (contents.settle (contents.approveRubricDraft draftId approvedDraft job)).1 ∧
      (settle store (store.approveRubricDraft draftId approvedDraft job)).2.Gives
        (contents.settle (contents.approveRubricDraft draftId approvedDraft job)).2 := by
  have hdraft : store.rubricDrafts.lookup draftId = contents.rubricDrafts draftId :=
    h.rubricDrafts draftId
  have hjob : store.jobs.lookup job.id = contents.jobs job.id := h.jobs job.id
  unfold InMemoryStore.approveRubricDraft Contents.approveRubricDraft
  rw [hdraft, hjob]
  cases contents.rubricDrafts draftId with
  | none => exact ⟨h, .raised rfl⟩
  | some current =>
    simp only
    split
    next => exact ⟨h, .raised rfl⟩
    next =>
      split
      next => exact ⟨h, .raised rfl⟩
      next => exact ⟨(h.putJob job).setDraft draftId approvedDraft, .done⟩

theorem InMemoryStore.Holds.setSession (h : store.Holds contents) (session : InterviewSession) :
    { store with sessions := Dict.set session.id session store.sessions }.Holds
      (contents.setSession session.id (some session.plain)) := by
  have hlookup : ∀ id, (Dict.set session.id session store.sessions).lookup id =
      if id = session.id then some session else store.sessions.lookup id :=
    fun id => Dict.lookup_set _ _ _ _
  refine ⟨h.jobs, h.rubricDrafts, fun id => ?_, Dict.keys_set_nodup h.keys _ _, fun id other ho => ?_⟩
  · rw [Contents.setSession_sessions, ← h.sessions, InMemoryStore.getSession, hlookup]
    split <;> rfl
  · rw [InMemoryStore.getSession, hlookup] at ho
    split at ho
    next hid =>
      cases ho
      exact hid.symm
    next => exact h.named id other ho

theorem InMemoryStore.Holds.deleteSession (h : store.Holds contents) (sessionId : String) :
    (store.deleteSession sessionId).1.Holds (contents.setSession sessionId none) := by
  have hlookup : ∀ id, List.lookup id (store.sessions.filter fun entry => entry.1 ≠ sessionId) =
      if id = sessionId then none else store.sessions.lookup id :=
    fun id => Dict.lookup_filter_ne _ _ _
  refine ⟨h.jobs, h.rubricDrafts, fun id => ?_, h.keys.sublist (List.filter_sublist.map _),
    fun id other ho => ?_⟩
  · rw [Contents.setSession_sessions, ← h.sessions, InMemoryStore.getSession,
      InMemoryStore.deleteSession, hlookup]
    split <;> rfl
  · rw [InMemoryStore.getSession, InMemoryStore.deleteSession, hlookup] at ho
    split at ho
    next => cases ho
    next => exact h.named id other ho

theorem InMemoryStore.Holds.accepts (h : store.Holds contents) (session : InterviewSession) :
    contents.accepts session ↔
      (store.sessions.lookup session.id).elim 0 InterviewSession.version = session.version := by
  rw [Contents.accepts, ← h.sessions, InMemoryStore.getSession]
  cases store.sessions.lookup session.id <;> rfl

/-- The check under the lock, in one equation. -/
theorem memory_putSession_eq (store : InMemoryStore) (session : InterviewSession) :
    (∃ e, store.putSession session = .error e ∧ e.failure = .conflict ∧
      (store.sessions.lookup session.id).elim 0 InterviewSession.version ≠ session.version) ∨
    (store.sessions.lookup session.id).elim 0 InterviewSession.version = session.version ∧
      store.putSession session = .ok (
        { store with
          sessions := Dict.set session.id (session.withVersion (session.version + 1)) store.sessions },
        session.withVersion (session.version + 1)) := by
  unfold InMemoryStore.putSession
  cases store.sessions.lookup session.id with
  | none =>
    by_cases hv : session.version = 0
    · exact Or.inr ⟨hv.symm, by simp [hv]⟩
    · exact Or.inl ⟨.newSessionVersion session.id, by simp [hv], rfl, Ne.symm hv⟩
  | some existing =>
    by_cases hv : existing.version = session.version
    · exact Or.inr ⟨hv, by simp [hv]⟩
    · exact Or.inl ⟨_, if_pos hv, rfl, hv⟩

theorem InMemoryStore.Holds.putSession (h : store.Holds contents) (session : InterviewSession) :
    (putAlone InMemoryStore.put store session).1.Holds (contents.putSession session).1 ∧
      (putAlone InMemoryStore.put store session).2.Gives (contents.putSession session).2 := by
  simp only [putAlone, InMemoryStore.put, Put.alone, Contents.putSession]
  rcases memory_putSession_eq store session with ⟨e, hput, he, hne⟩ | ⟨heq, hput⟩
  · rw [hput, if_neg (mt (h.accepts session).mp hne), ← he]
    exact ⟨h, .put _ rfl⟩
  · rw [hput, if_pos ((h.accepts session).mpr heq)]
    exact ⟨h.setSession (session.withVersion (session.version + 1)), .put _ rfl⟩

theorem InMemoryStore.Holds.listed (h : store.Holds contents) :
    (store.listSessions.map InterviewSession.plain).Nodup ∧
      ∀ session, session ∈ store.listSessions.map InterviewSession.plain ↔
        ∃ id, contents.sessions id = some session := by
  have hnamed : ∀ entry ∈ store.sessions, entry.2.id = entry.1 := fun entry hm =>
    h.named entry.1 entry.2 ((Dict.mem_iff_lookup h.keys _ _).mp hm)
  constructor
  · refine List.Nodup.of_map InterviewSession.id ?_
    have hids : (store.listSessions.map InterviewSession.plain).map InterviewSession.id =
        store.sessions.map Prod.fst := by
      simp only [InMemoryStore.listSessions, List.map_map]
      exact List.map_congr_left fun entry hm => hnamed entry hm
    rw [hids]
    exact h.keys
  · intro session
    simp only [InMemoryStore.listSessions, List.mem_map, ← h.sessions, Option.map_eq_some_iff]
    constructor
    · rintro ⟨_, ⟨entry, hm, rfl⟩, rfl⟩
      exact ⟨entry.1, entry.2, (Dict.mem_iff_lookup h.keys _ _).mp hm, rfl⟩
    · rintro ⟨id, other, hlookup, rfl⟩
      exact ⟨other, ⟨(id, other), (Dict.mem_iff_lookup h.keys _ _).mpr hlookup, rfl⟩, rfl⟩

/-- `InMemoryStore` refines the abstract store. -/
def memoryRefinement :
    Refinement memoryMachine contentsMachine id StoreCall.Issued Reply.Gives where
  rel store contents := InMemoryStore.Holds store contents
  step store contents call _ h := by
    cases call with
    | putJob job => exact ⟨h.putJob job, .done⟩
    | getJob jobId => exact ⟨h, .job (h.jobs jobId)⟩
    | putRubricDraft draft => exact h.putRubricDraft draft
    | getRubricDraft draftId => exact ⟨h, .draft (h.rubricDrafts draftId)⟩
    | approveRubricDraft draftId approvedDraft job => exact h.approveRubricDraft draftId approvedDraft job
    | putSession session => exact h.putSession session
    | getSession sessionId => exact ⟨h, .session (h.sessions sessionId)⟩
    | listSessions => exact ⟨h, .listing h.listed.1 h.listed.2⟩
    | deleteSession sessionId =>
      refine ⟨h.deleteSession sessionId, ?_⟩
      have hfound : (store.sessions.lookup sessionId).isSome = (contents.sessions sessionId).isSome := by
        rw [← h.sessions, Option.isSome_map]
        rfl
      exact .deleted hfound

end Memory

section Sql

variable {codecs : Codecs} {db : Database codecs} {contents : Contents}

theorem Database.Holds.putJob (h : db.Holds contents) (now : DateTime) (job : JobSpec) :
    (db.putJob now job).Holds (contents.setJob job) := by
  refine ⟨fun id => ?_, h.rubricDrafts, h.approvals, h.sessions, h.consistent, h.positive⟩
  rw [Contents.setJob_jobs, ← h.jobs, Database.getJob, Database.putJob, Table.select_upsert]
  split
  next hid =>
    have hparse : codecs.job.parse (codecs.job.dump job) = job := codecs.job.parse_dump job
    cases db.jobs.select id <;> simp [hparse]
  next => rfl

/-- A fresh job row. -/
theorem Database.Holds.insertJob (h : db.Holds contents) (now : DateTime) {job : JobSpec}
    {jobs : Table String (JobRow codecs.job.Payload) JobRow.id}
    (hi : db.jobs.insert ⟨job.id, codecs.job.dump job, now⟩ = some jobs) :
    { db with jobs := jobs }.Holds (contents.setJob job) := by
  refine ⟨fun id => ?_, h.rubricDrafts, h.approvals, h.sessions, h.consistent, h.positive⟩
  rw [Contents.setJob_jobs, ← h.jobs, Database.getJob, Table.select_insert hi]
  split
  next => exact congrArg some (codecs.job.parse_dump job)
  next => rfl

/-- A draft row whose approval column says what its payload says. -/
theorem Database.Holds.setDraft (h : db.Holds contents) {draftId : String} {draft : RubricDraft}
    {row : DraftRow codecs.draft.Payload}
    {rubricDrafts : Table String (DraftRow codecs.draft.Payload) DraftRow.id}
    (hs : ∀ id, rubricDrafts.select id =
      if id = draftId then some row else db.rubricDrafts.select id)
    (hp : row.payload = codecs.draft.dump draft)
    (ha : row.approvedJobId = none ↔ draft.activationStatus = .draftOnly) :
    { db with rubricDrafts := rubricDrafts }.Holds (contents.setDraft draftId draft) := by
  have hparse : codecs.draft.parse row.payload = draft := by
    rw [hp]
    exact codecs.draft.parse_dump draft
  refine ⟨h.jobs, fun id => ?_, fun id other ho => ?_, h.sessions, h.consistent, h.positive⟩
  · rw [Contents.setDraft_rubricDrafts, ← h.rubricDrafts, Database.getRubricDraft, hs]
    split
    next => exact congrArg some hparse
    next => rfl
  · rw [hs] at ho
    split at ho
    next =>
      cases ho
      rw [hparse]
      exact ha
    next => exact h.approvals id other ho

theorem Database.Holds.putRubricDraft (h : db.Holds contents) (now : DateTime) {draft : RubricDraft}
    (hd : draft.activationStatus = .draftOnly) :
    (settle db (db.putRubricDraft now draft)).1.Holds
        (contents.settle (contents.putRubricDraft draft)).1 ∧
      (settle db (db.putRubricDraft now draft)).2.Gives
        (contents.settle (contents.putRubricDraft draft)).2 := by
  have hfound : (contents.rubricDrafts draft.id).isSome = (db.rubricDrafts.select draft.id).isSome := by
    rw [← h.rubricDrafts, Database.getRubricDraft, Option.isSome_map]
  unfold Database.putRubricDraft Contents.putRubricDraft
  rw [hfound]
  cases hi : db.rubricDrafts.insert ⟨draft.id, none, codecs.draft.dump draft, now⟩ with
  | none =>
    rw [if_pos (Table.insert_eq_none.mp hi)]
    exact ⟨h, .raised rfl⟩
  | some rubricDrafts =>
    have hnew : ¬(db.rubricDrafts.select draft.id).isSome = true := fun hsome => by
      rw [Table.insert_eq_none.mpr hsome] at hi
      cases hi
    rw [if_neg hnew]
    exact ⟨h.setDraft (Table.select_insert hi) rfl (iff_of_true rfl hd), .done⟩

theorem Database.Holds.approveRubricDraft (h : db.Holds contents) (now : DateTime)
    (draftId : String) {approvedDraft : RubricDraft} (job : JobSpec)
    (hd : approvedDraft.activationStatus = .approved) :
    (settle db (db.approveRubricDraft now draftId approvedDraft job)).1.Holds
        (contents.settle (contents.approveRubricDraft draftId approvedDraft job)).1 ∧
      (settle db (db.approveRubricDraft now draftId approvedDraft job)).2.Gives
        (contents.settle (contents.approveRubricDraft draftId approvedDraft job)).2 := by
  have hjob : (contents.jobs job.id).isSome = (db.jobs.select job.id).isSome := by
    rw [← h.jobs, Database.getJob, Option.isSome_map]
  unfold Database.approveRubricDraft Contents.approveRubricDraft
  rw [← h.rubricDrafts, Database.getRubricDraft, hjob]
  cases hrow : db.rubricDrafts.select draftId with
  | none => exact ⟨h, .raised rfl⟩
  | some row =>
    have happroval := h.approvals draftId row hrow
    simp only [Option.map_some]
    by_cases hopen : row.approvedJobId = none
    · rw [if_neg (not_not.mpr hopen), if_neg (not_not.mpr (happroval.mp hopen))]
      cases hi : db.jobs.insert ⟨job.id, codecs.job.dump job, now⟩ with
      | none =>
        rw [if_pos (Table.insert_eq_none.mp hi)]
        exact ⟨h, .raised rfl⟩
      | some jobs =>
        have hnew : ¬(db.jobs.select job.id).isSome = true := fun hsome => by
          rw [Table.insert_eq_none.mpr hsome] at hi
          cases hi
        have hcount : db.rubricDrafts.count draftId
            (fun row => decide (row.approvedJobId = none)) = 1 := by
          rw [Table.count_eq, hrow]
          simp [hopen]
        simp only [hcount, ne_eq, not_true, if_false]
        rw [if_neg hnew]
        refine ⟨(h.insertJob now hi).setDraft (fun id => ?_)
          (Eq.refl (DraftRow.mk row.id (some job.id) (codecs.draft.dump approvedDraft) now).payload)
          (by simp [hd]), .done⟩
        rw [Table.select_update]
        by_cases hid : id = draftId
        · simp [hid, hrow, hopen]
        · simp [hid]
    · rw [if_pos hopen, if_pos (mt happroval.mpr hopen)]
      exact ⟨h, .raised rfl⟩

theorem Database.Holds.setSession (h : db.Holds contents) (now : DateTime)
    (session : InterviewSession) {db' : Database codecs} (hj : db'.jobs = db.jobs)
    (hd : db'.rubricDrafts = db.rubricDrafts)
    (hs : ∀ id, db'.sessions.select id = if id = session.id
      then some (Database.nextRow now session) else db.sessions.select id) :
    db'.Holds (contents.setSession session.id
      (some (session.withVersion (session.version + 1)).plain)) := by
  refine ⟨fun id => ?_, fun id => ?_, fun id row hrow => ?_, fun id => ?_, fun id row hrow => ?_,
    fun id row hrow => ?_⟩
  · rw [Database.getJob, hj]
    exact h.jobs id
  · rw [Database.getRubricDraft, hd]
    exact h.rubricDrafts id
  · rw [hd] at hrow
    exact h.approvals id row hrow
  · rw [Contents.setSession_sessions, ← h.sessions, Database.getSession, hs]
    split
    next => exact congrArg (fun stored => some stored.plain) (codecs.session.parse_dump _)
    next => rfl
  · rw [hs] at hrow
    split at hrow
    next =>
      cases hrow
      exact nextRow_consistent now session
    next => exact h.consistent id row hrow
  · rw [hs] at hrow
    split at hrow
    next =>
      cases hrow
      exact Nat.succ_pos _
    next => exact h.positive id row hrow

theorem Database.Holds.deleteSession (h : db.Holds contents) (sessionId : String) :
    (db.deleteSession sessionId).1.Holds (contents.setSession sessionId none) := by
  have hs : ∀ id, (db.sessions.delete sessionId).select id =
      if id = sessionId then none else db.sessions.select id :=
    Table.select_delete db.sessions sessionId
  have hold : ∀ id row, (db.sessions.delete sessionId).select id = some row →
      db.sessions.select id = some row := by
    intro id row hrow
    rw [hs] at hrow
    split at hrow
    next => cases hrow
    next => exact hrow
  refine ⟨h.jobs, h.rubricDrafts, h.approvals, fun id => ?_,
    fun id row hrow => h.consistent id row (hold id row hrow),
    fun id row hrow => h.positive id row (hold id row hrow)⟩
  rw [Contents.setSession_sessions, ← h.sessions, Database.getSession, Database.deleteSession, hs]
  split <;> rfl

/-- A session is known by the version column of its row. -/
theorem Database.Holds.accepts (h : db.Holds contents) (session : InterviewSession) :
    contents.accepts session ↔
      (db.sessions.select session.id).elim 0 SessionRow.version = session.version := by
  rw [Contents.accepts, ← h.sessions, Database.getSession]
  cases hrow : db.sessions.select session.id with
  | none => exact Iff.rfl
  | some row =>
    have hversion := (h.consistent session.id row hrow).2
    simp only [Option.map_some, Option.elim_some, ← hversion]
    exact Iff.rfl

/-- What the transaction of `put_session` comes to in both SQL stores. -/
def Database.PutsSession (transaction : Except StoreError (Database codecs)) (db : Database codecs)
    (now : DateTime) (session : InterviewSession) : Prop :=
  (∃ e, transaction = .error e ∧ e.failure = .conflict ∧
    (db.sessions.select session.id).elim 0 SessionRow.version ≠ session.version) ∨
  ∃ db', transaction = .ok db' ∧
    (db.sessions.select session.id).elim 0 SessionRow.version = session.version ∧
    db'.jobs = db.jobs ∧ db'.rubricDrafts = db.rubricDrafts ∧
    ∀ id, db'.sessions.select id = if id = session.id
      then some (Database.nextRow now session) else db.sessions.select id

theorem Database.PutsSession.insert {now : DateTime} {session : InterviewSession}
    {sessions : Table String (SessionRow codecs.session.Payload) SessionRow.id}
    (hnew : session.version = 0)
    (hi : db.sessions.insert (Database.nextRow now session) = some sessions) :
    Database.PutsSession (.ok { db with sessions := sessions }) db now session := by
  have hnone : db.sessions.select session.id = none := by
    by_contra hsome
    rw [Table.insert_eq_none.mpr (Option.isSome_iff_ne_none.mpr hsome)] at hi
    cases hi
  refine Or.inr ⟨_, rfl, ?_, rfl, rfl, Table.select_insert hi⟩
  rw [hnone, hnew]
  rfl

theorem Database.PutsSession.update {now : DateTime} {session : InterviewSession}
    {db' : Database codecs}
    (hu : db.updateSession (Database.nextRow now session) session.version = some db') :
    Database.PutsSession (.ok db') db now session := by
  obtain ⟨hj, hd, ⟨old, hold, hversion⟩, hs⟩ := updateSession_some hu
  have hrow : db.sessions.select session.id = some old := hold
  refine Or.inr ⟨_, rfl, ?_, hj, hd, hs⟩
  rw [hrow]
  exact hversion

theorem sqlite_putsSession (db : Database codecs) (now : DateTime) (session : InterviewSession) :
    Database.PutsSession
      (SqliteStore.putSessionSync db (Database.nextRow now session) session.version) db now session := by
  have hid : (Database.nextRow now session : SessionRow codecs.session.Payload).id = session.id := rfl
  unfold SqliteStore.putSessionSync
  rw [hid]
  cases hrow : db.sessions.select session.id with
  | none =>
    simp only
    split
    next hversion =>
      refine Or.inl ⟨_, rfl, rfl, ?_⟩
      rw [hrow]
      exact Ne.symm hversion
    next hversion =>
      cases hi : db.sessions.insert (Database.nextRow now session) with
      | none =>
        have hexists := Table.insert_eq_none.mp hi
        rw [hid, hrow] at hexists
        cases hexists
      | some sessions => exact .insert (not_not.mp hversion) hi
  | some old =>
    simp only
    cases hu : db.updateSession (Database.nextRow now session) session.version with
    | none =>
      refine Or.inl ⟨_, rfl, rfl, ?_⟩
      rw [hrow]
      exact updateSession_none.mp hu old hrow
    | some db' => exact .update hu

theorem Database.Holds.postgres_putsSession (h : db.Holds contents) (now : DateTime)
    (session : InterviewSession) :
    Database.PutsSession
      (PostgresStore.putSessionTransaction db (Database.nextRow now session) session.version)
      db now session := by
  have hid : (Database.nextRow now session : SessionRow codecs.session.Payload).id = session.id := rfl
  unfold PostgresStore.putSessionTransaction
  split
  next hversion =>
    cases hi : db.sessions.insert (Database.nextRow now session) with
    | none =>
      -- a row is there, and no row has version 0
      obtain ⟨old, hold⟩ := Option.isSome_iff_exists.mp (Table.insert_eq_none.mp hi)
      have hpositive := h.positive session.id old hold
      refine Or.inl ⟨_, rfl, rfl, ?_⟩
      rw [hid] at hold
      rw [hold, hversion]
      exact Nat.ne_of_gt hpositive
    | some sessions => exact .insert hversion hi
  next hversion =>
    cases hu : db.updateSession (Database.nextRow now session) session.version with
    | none =>
      refine Or.inl ⟨_, rfl, rfl, ?_⟩
      cases hrow : db.sessions.select session.id with
      | none => exact Ne.symm hversion
      | some old => exact updateSession_none.mp hu old hrow
    | some db' => exact .update hu

/-- `put_session` after its transaction. -/
theorem Database.Holds.putSession (h : db.Holds contents) {now : DateTime}
    {session : InterviewSession} {transaction : Except StoreError (Database codecs)}
    (ht : Database.PutsSession transaction db now session)
    {put : Put (Database codecs) InterviewSession StoreError}
    (hok : ∀ db', transaction = .ok db' →
      put.alone db session = (db', session.withVersion (session.version + 1), none))
    (herror : ∀ e, transaction = .error e → put.alone db session = (db, session, some e)) :
    (putAlone put db session).1.Holds (contents.putSession session).1 ∧
      (putAlone put db session).2.Gives (contents.putSession session).2 := by
  simp only [putAlone, Contents.putSession]
  rcases ht with ⟨e, he, hconflict, hne⟩ | ⟨db', hdb', heq, hj, hd, hs⟩
  · rw [herror e he, if_neg (mt (h.accepts session).mp hne), ← hconflict]
    exact ⟨h, .put _ rfl⟩
  · rw [hok db' hdb', if_pos ((h.accepts session).mpr heq)]
    exact ⟨h.setSession now session hj hd hs, .put _ rfl⟩

theorem Database.Holds.sqlitePut (h : db.Holds contents) (now : DateTime)
    (session : InterviewSession) :
    (putAlone (SqliteStore.put now) db session).1.Holds (contents.putSession session).1 ∧
      (putAlone (SqliteStore.put now) db session).2.Gives (contents.putSession session).2 := by
  refine h.putSession (sqlite_putsSession db now session) (fun db' hput => ?_) fun e hput => ?_
  · simp only [SqliteStore.put, Put.alone, id, hput, Except.map]
  · simp only [SqliteStore.put, Put.alone, id, hput, Except.map]

theorem Database.Holds.postgresPut (h : db.Holds contents) (now : DateTime)
    (session : InterviewSession) :
    (putAlone (PostgresStore.put now) db session).1.Holds (contents.putSession session).1 ∧
      (putAlone (PostgresStore.put now) db session).2.Gives (contents.putSession session).2 := by
  refine h.putSession (h.postgres_putsSession now session) (fun db' hput => ?_) fun e hput => ?_
  · simp only [PostgresStore.put, Put.alone, id, hput, Except.map]
  · simp only [PostgresStore.put, Put.alone, id, hput, Except.map]

theorem Database.Holds.listed (h : db.Holds contents) :
    (db.listSessions.map InterviewSession.plain).Nodup ∧
      ∀ session, session ∈ db.listSessions.map InterviewSession.plain ↔
        ∃ id, contents.sessions id = some session := by
  have hperm : (db.listSessions.map InterviewSession.plain).Perm
      (db.sessions.rows.map fun row => (codecs.session.parse row.payload).plain) := by
    have hsort := (List.mergeSort_perm db.sessions.rows SessionRow.before).map
      fun row => (codecs.session.parse row.payload).plain
    rw [Database.listSessions, List.map_map]
    exact hsort
  have hids : ∀ row ∈ db.sessions.rows, (codecs.session.parse row.payload).plain.id = row.id :=
    fun row hm => (h.consistent row.id row (Table.select_eq_some.mpr ⟨hm, rfl⟩)).1
  constructor
  · refine hperm.nodup_iff.mpr (List.Nodup.of_map InterviewSession.id ?_)
    have hmap : (db.sessions.rows.map fun row => (codecs.session.parse row.payload).plain).map
        InterviewSession.id = db.sessions.rows.map SessionRow.id := by
      rw [List.map_map]
      exact List.map_congr_left hids
    rw [hmap]
    exact db.sessions.nodup
  · intro session
    simp only [hperm.mem_iff, List.mem_map, ← h.sessions, Database.getSession, Option.map_map,
      Option.map_eq_some_iff, Table.select_eq_some]
    constructor
    · rintro ⟨row, hm, rfl⟩
      exact ⟨row.id, row, ⟨hm, rfl⟩, rfl⟩
    · rintro ⟨id, row, ⟨hm, _⟩, hrow⟩
      exact ⟨row, hm, hrow⟩

/-- A store over tables refines the abstract store as soon as its `put_session` does. -/
def databaseRefinement (codecs : Codecs)
    (put : DateTime → Put (Database codecs) InterviewSession StoreError)
    (hput : ∀ db contents, Database.Holds db contents → ∀ now session,
      (putAlone (put now) db session).1.Holds (contents.putSession session).1 ∧
        (putAlone (put now) db session).2.Gives (contents.putSession session).2) :
    Refinement ⟨Database codecs, fun db (call : TimedCall) => db.step put call.1 call.2⟩
      contentsMachine Prod.snd StoreCall.Issued Reply.Gives where
  rel db contents := Database.Holds db contents
  step db contents call hissued h := by
    obtain ⟨now, call⟩ := call
    cases call with
    | putJob job => exact ⟨h.putJob now job, .done⟩
    | getJob jobId => exact ⟨h, .job (h.jobs jobId)⟩
    | putRubricDraft draft => exact h.putRubricDraft now hissued
    | getRubricDraft draftId => exact ⟨h, .draft (h.rubricDrafts draftId)⟩
    | approveRubricDraft draftId approvedDraft job => exact h.approveRubricDraft now draftId job hissued
    | putSession session => exact hput db contents h now session
    | getSession sessionId => exact ⟨h, .session (h.sessions sessionId)⟩
    | listSessions => exact ⟨h, .listing h.listed.1 h.listed.2⟩
    | deleteSession sessionId =>
      refine ⟨h.deleteSession sessionId, ?_⟩
      have hfound : (contents.sessions sessionId).isSome = (db.sessions.select sessionId).isSome := by
        rw [← h.sessions, Option.isSome_map, Database.getSession, Option.isSome_map]
      refine .deleted ?_
      rw [hfound, Table.count_eq]
      cases db.sessions.select sessionId <;> rfl

end Sql

variable {codecs codecs' : Codecs}

/-- A dict store and a table store that hold the same, up to the order of the listing. -/
structure InMemoryStore.SameAs (store : InMemoryStore) (db : Database codecs) : Prop where
  jobs : ∀ id, store.getJob id = db.getJob id
  rubricDrafts : ∀ id, store.getRubricDraft id = db.getRubricDraft id
  sessions : ∀ id,
    (store.getSession id).map InterviewSession.plain = (db.getSession id).map InterviewSession.plain
  listing :
    (store.listSessions.map InterviewSession.plain).Perm (db.listSessions.map InterviewSession.plain)

theorem InMemoryStore.Holds.sameAs {store : InMemoryStore} {db : Database codecs}
    {contents : Contents} (h : store.Holds contents) (h' : db.Holds contents) : store.SameAs db where
  jobs id := (h.jobs id).trans (h'.jobs id).symm
  rubricDrafts id := (h.rubricDrafts id).trans (h'.rubricDrafts id).symm
  sessions id := (h.sessions id).trans (h'.sessions id).symm
  listing := (List.perm_ext_iff_of_nodup h.listed.1 h'.listed.1).mpr fun session =>
    (h.listed.2 session).trans (h'.listed.2 session).symm

def Contents.empty : Contents := ⟨fun _ => none, fun _ => none, fun _ => none⟩

theorem InMemoryStore.holds_empty : ({} : InMemoryStore).Holds .empty where
  jobs _ := rfl
  rubricDrafts _ := rfl
  sessions _ := rfl
  keys := List.nodup_nil
  named _ _ h := nomatch h

theorem Database.holds_empty : ({} : Database codecs).Holds .empty where
  jobs _ := rfl
  rubricDrafts _ := rfl
  approvals _ _ h := nomatch h
  sessions _ := rfl
  consistent _ _ h := nomatch h
  positive _ _ h := nomatch h

/-- The same calls on three fresh stores, whatever their clocks say: the replies agree one by one,
and the stores hold the same afterwards. -/
theorem stores_agree {calls : List StoreCall} (hissued : ∀ call ∈ calls, call.Issued)
    {sqliteCalls postgresCalls : List TimedCall} (hsqlite : sqliteCalls.map Prod.snd = calls)
    (hpostgres : postgresCalls.map Prod.snd = calls) :
    let memory := memoryMachine.run ({} : InMemoryStore) calls
    let sqlite := (sqliteMachine codecs).run ({} : Database codecs) sqliteCalls
    let postgres := (postgresMachine codecs').run ({} : Database codecs') postgresCalls
    List.Forall₂ Reply.Agree memory.2 sqlite.2 ∧ List.Forall₂ Reply.Agree memory.2 postgres.2 ∧
      List.Forall₂ Reply.Agree sqlite.2 postgres.2 ∧
      InMemoryStore.SameAs memory.1 sqlite.1 ∧ InMemoryStore.SameAs memory.1 postgres.1 := by
  intro memory sqlite postgres
  have hmemory : ∀ call ∈ calls.map id, call.Issued := by
    rw [List.map_id]
    exact hissued
  obtain ⟨hm, hmr⟩ := memoryRefinement.run hmemory InMemoryStore.holds_empty
  obtain ⟨hs, hsr⟩ := (databaseRefinement codecs SqliteStore.put fun _ _ h => h.sqlitePut).run
    (hsqlite ▸ hissued) Database.holds_empty
  obtain ⟨hp, hpr⟩ := (databaseRefinement codecs' PostgresStore.put fun _ _ h => h.postgresPut).run
    (hpostgres ▸ hissued) Database.holds_empty
  rw [List.map_id] at hm hmr
  rw [hsqlite] at hs hsr
  rw [hpostgres] at hp hpr
  have hagree : ∀ reply reply' answer, Reply.Gives reply answer → Reply.Gives reply' answer →
      reply.Agree reply' := fun _ _ _ h h' => h.agree h'
  exact ⟨forall₂_agree hagree hmr hsr, forall₂_agree hagree hmr hpr, forall₂_agree hagree hsr hpr,
    InMemoryStore.Holds.sameAs hm hs, InMemoryStore.Holds.sameAs hm hp⟩

def plainCompetency (id : String) : RubricDraftCompetency where
  id := id
  description := "Systems design"
  anchorQuestion := "Tell me about a system that you designed."
  rationale := "The role builds systems."
  observableEvidence := []

def plainDraft : RubricDraft where
  id := "draft"
  createdAt := 0
  title := "Engineer"
  jobDescription := "Builds things"
  locale := "en"
  competencies := [plainCompetency "systems", plainCompetency "storage", plainCompetency "networks"]
  maxQuestions := 8
  anchorRatio := 2 / 5
  drafterId := "drafter"
  ranges := by decide +kernel
  competency_ids_nodup := by decide
  approval := unapproved_draft

def approvedDraft : RubricDraft :=
  { plainDraft with
    activationStatus := .approved
    approvedJobId := some "job"
    approvedBy := some "admin"
    approvedAt := some 1
    approval := by decide }

/-- A session is put twice from version 0 and once after its deletion, and a draft is approved
twice. -/
def storeCalls : List StoreCall :=
  let fresh := plainSession.withVersion 0
  [.putSession fresh, .putSession fresh, .getSession "session-0", .listSessions,
    .deleteSession "session-0", .putSession plainSession, .putRubricDraft plainDraft,
    .approveRubricDraft "draft" approvedDraft plainJob,
    .approveRubricDraft "draft" approvedDraft plainJob, .getJob "job"]

theorem stores_agree_storeCalls :
    let memory := memoryMachine.run ({} : InMemoryStore) storeCalls
    let sqlite := (sqliteMachine plainCodecs).run ({} : Database plainCodecs)
      (storeCalls.map fun call => (1, call))
    let postgres := (postgresMachine plainCodecs).run ({} : Database plainCodecs)
      (storeCalls.map fun call => (2, call))
    List.Forall₂ Reply.Agree memory.2 sqlite.2 ∧ List.Forall₂ Reply.Agree memory.2 postgres.2 ∧
      List.Forall₂ Reply.Agree sqlite.2 postgres.2 ∧
      InMemoryStore.SameAs memory.1 sqlite.1 ∧ InMemoryStore.SameAs memory.1 postgres.1 := by
  have hissued : ∀ call ∈ storeCalls, call.Issued := by
    simp [storeCalls, StoreCall.Issued, plainDraft, approvedDraft]
  exact stores_agree hissued (by simp) (by simp)

end NoraInterviewer
