import NoraInterviewer.EvidenceFrame
import NoraInterviewer.Dossiers

namespace NoraInterviewer

open ExceptRules

def Json.iterates (value : Json) : Bool := (iterate value).toBool

/-- The audit of an ensemble has lists of competencies and of failures. -/
def auditReadable (audit : Dict Json) : Bool :=
  match audit.lookup "kind" with
  | some (.str "evidence_judge_ensemble") =>
    ((audit.lookup "competencies").getD (.arr [])).iterates &&
      ((audit.lookup "failures").getD (.arr [])).iterates
  | _ => true

def EvidenceJudgeRun.fail (run : EvidenceJudgeRun) (e : PyError) : EvidenceJudgeRun :=
  { run with errorType := some e.className, error := some (truncate 2000 e.message) }

variable {α β : Type}

theorem Judging.bind_of_ok {m : Judging α} {f : α → Judging β} {work work' : JudgeWork} {a : α}
    (h : m work = .ok a work') : (m >>= f) work = f a work' := by
  change EStateM.bind m f work = f a work'
  rw [EStateM.bind, h]

theorem Judging.bind_of_error {m : Judging α} {f : α → Judging β} {work work' : JudgeWork}
    {e : PyError} (h : m work = .error e work') : (m >>= f) work = .error e work' := by
  change EStateM.bind m f work = .error e work'
  rw [EStateM.bind, h]

theorem Judging.modify_bind (g : JudgeWork → JudgeWork) (f : PUnit → Judging β) (work : JudgeWork) :
    (modify g >>= f) work = f ⟨⟩ (g work) :=
  rfl

variable [CanonicalDigest]

/-- `append_event` does not complain about the log. -/
def Appendable (events : List InterviewEvent) : Prop := ∃ result, sealEventChain events = .ok result

theorem Sealed.appendable {events : List InterviewEvent} (h : Sealed events) : Appendable events :=
  ⟨_, sealEventChain_of_linked h.linked⟩

theorem Appendable.append {session : InterviewSession} (h : Appendable session.events)
    (call : Ambient) (type : EventType) (turn : Option Turn) (payload : Dict Json) :
    ∃ events, appendEvent call session type turn payload = .ok { session with events := events } ∧
      Appendable events := by
  obtain ⟨result, hresult⟩ := h
  have hok : ∃ session', appendEvent call session type turn payload = .ok session' := by
    rw [appendEvent, hresult]
    exact ⟨_, rfl⟩
  obtain ⟨session', hs⟩ := hok
  obtain ⟨events, rfl, _, hl, _⟩ := appendEvent_ok hs
  exact ⟨events, hs, _, sealEventChain_of_linked hl⟩

theorem not_appendable_append {session : InterviewSession} (h : ¬Appendable session.events)
    (call : Ambient) (type : EventType) (turn : Option Turn) (payload : Dict Json) :
    ∃ e, appendEvent call session type turn payload = .error e := by
  cases hs : sealEventChain session.events with
  | ok result => exact absurd ⟨result, hs⟩ h
  | error e =>
    rw [appendEvent, hs]
    exact ⟨e, rfl⟩

def JudgeWork.logged (work : JudgeWork) (events : List InterviewEvent) : JudgeWork :=
  { work with session := { work.session with events := events } }

/-- The step only writes to the log. -/
def OnlyLogs (m : Judging Unit) (work : JudgeWork) : Prop :=
  ∃ events, m work = .ok () (work.logged events) ∧ Appendable events

theorem onlyLogs_pure {work : JudgeWork} (h : Appendable work.session.events) :
    OnlyLogs (pure ()) work :=
  ⟨work.session.events, rfl, h⟩

theorem onlyLogs_event {work : JudgeWork} (h : Appendable work.session.events) (call : Ambient)
    (type : EventType) (turn : Option Turn) (payload : Dict Json) :
    OnlyLogs (Judging.onSession fun session => appendEvent call session type turn payload) work := by
  obtain ⟨events, he, happ⟩ := h.append call type turn payload
  refine ⟨events, ?_, happ⟩
  simp only [Judging.onSession, he]
  rfl

theorem OnlyLogs.bind {m n : Judging Unit} {work : JudgeWork} (hm : OnlyLogs m work)
    (hn : ∀ events, Appendable events → OnlyLogs n (work.logged events)) :
    OnlyLogs (m >>= fun _ => n) work := by
  obtain ⟨first, hfirst, happ⟩ := hm
  obtain ⟨second, hsecond, happ'⟩ := hn first happ
  refine ⟨second, ?_, happ'⟩
  rw [Judging.bind_of_ok hfirst, hsecond]
  rfl

theorem OnlyLogs.attempt {f : α → Judging Unit} {a : α} {work : JudgeWork}
    (h : OnlyLogs (f a) work) : OnlyLogs (Judging.attempt (.ok a) >>= f) work :=
  h

theorem OnlyLogs.get {f : JudgeWork → Judging Unit} {work : JudgeWork}
    (h : OnlyLogs (f work) work) : OnlyLogs (MonadState.get >>= f) work :=
  h

theorem recordSuperseded_logs (call : Ambient) (answer : Turn) (runId : String)
    (items : List EvidenceItem) {work : JudgeWork} (h : Appendable work.session.events) :
    OnlyLogs (recordSuperseded call answer runId items) work := by
  induction items generalizing work with
  | nil => exact onlyLogs_pure h
  | cons item rest ih => exact (onlyLogs_event h _ _ _ _).bind fun events happ => ih happ

theorem supersedePrior_logs (call : Ambient) (answer : Turn) (supersedeExisting : Bool)
    {work : JudgeWork} (h : Appendable work.session.events) :
    ∃ events, supersedePrior call answer supersedeExisting work = .ok () { work with
        session := { work.session with
          evidenceGraph := priorGraph supersedeExisting answer.id work.session.evidenceGraph
          events := events } } ∧
      Appendable events := by
  cases supersedeExisting with
  | false => exact ⟨work.session.events, rfl, h⟩
  | true =>
    have hwork : Appendable (work.supersede answer.id).session.events := h
    obtain ⟨events, he, happ⟩ := recordSuperseded_logs call answer work.run.id
      (supersedeSemanticEvidenceForTurn work.session answer.id).2 hwork
    exact ⟨events, he, happ⟩

omit [CanonicalDigest] in
theorem Json.iterates_ok {value : Json} (h : value.iterates = true) :
    ∃ items, iterate value = .ok items := by
  unfold Json.iterates at h
  cases hi : iterate value with
  | ok items => exact ⟨items, rfl⟩
  | error e =>
    rw [hi] at h
    cases h

omit [CanonicalDigest] in
theorem Json.not_iterates {value : Json} (h : value.iterates = false) :
    iterate value = .error (.typeError "object is not iterable") := by
  cases value <;> first | rfl | cases h

theorem recordDisagreement_logs (call : Ambient) (judgeId : String) (question answer : Turn)
    {audit : Dict Json} (hc : ((audit.lookup "competencies").getD (.arr [])).iterates = true)
    (hf : ((audit.lookup "failures").getD (.arr [])).iterates = true) {work : JudgeWork}
    (h : Appendable work.session.events) :
    OnlyLogs (recordDisagreement call judgeId question answer audit) work := by
  obtain ⟨competencies, hcompetencies⟩ := Json.iterates_ok hc
  obtain ⟨failures, hfailures⟩ := Json.iterates_ok hf
  unfold recordDisagreement
  rw [hcompetencies, hfailures]
  refine OnlyLogs.attempt (OnlyLogs.attempt (OnlyLogs.get ?_))
  split
  next => exact onlyLogs_pure h
  next => exact onlyLogs_event h _ _ _ _

theorem recordDisagreement_raises (call : Ambient) (judgeId : String) (question answer : Turn)
    {audit : Dict Json} (work : JudgeWork)
    (h : (((audit.lookup "competencies").getD (.arr [])).iterates &&
      ((audit.lookup "failures").getD (.arr [])).iterates) = false) :
    recordDisagreement call judgeId question answer audit work =
      .error (.raised (.typeError "object is not iterable")) work := by
  unfold recordDisagreement
  cases hc : ((audit.lookup "competencies").getD (.arr [])).iterates with
  | false =>
    rw [Json.not_iterates hc]
    rfl
  | true =>
    rw [hc, Bool.true_and] at h
    obtain ⟨competencies, hcompetencies⟩ := Json.iterates_ok hc
    rw [hcompetencies, Json.not_iterates h]
    rfl

theorem recordEnsemble_logs (call : Ambient) (judgeId : String) (question answer : Turn)
    {audit : Dict Json} (hr : auditReadable audit = true) {work : JudgeWork}
    (h : Appendable work.session.events) :
    OnlyLogs (recordEnsemble call judgeId question answer audit) work := by
  unfold auditReadable at hr
  unfold recordEnsemble
  split
  next hkind =>
    rw [hkind] at hr
    obtain ⟨hc, hf⟩ := Bool.and_eq_true_iff.mp hr
    exact recordDisagreement_logs call judgeId question answer hc hf h
  next => exact onlyLogs_pure h

theorem recordEnsemble_raises (call : Ambient) (judgeId : String) (question answer : Turn)
    {audit : Dict Json} (hr : auditReadable audit = false) (work : JudgeWork) :
    recordEnsemble call judgeId question answer audit work =
      .error (.raised (.typeError "object is not iterable")) work := by
  unfold auditReadable at hr
  split at hr
  next hkind =>
    unfold recordEnsemble
    rw [hkind]
    exact recordDisagreement_raises call judgeId question answer work hr
  next => cases hr

/-- The work after some observations were applied. -/
def JudgeWork.placed (work : JudgeWork) (call : Ambient) (observations : List EvidenceObservation)
    (events : List InterviewEvent) : JudgeWork where
  session := { work.session with
    evidenceGraph := (placeAll call work.session.evidenceGraph observations).1, events := events }
  run := { work.run with observationIds :=
    work.run.observationIds ++ (placeAll call work.session.evidenceGraph observations).2 }

theorem observeOne_places (call : Ambient) (job : JobSpec) (answer : Turn)
    {observation : EvidenceObservation} {work : JudgeWork} (h : Appendable work.session.events)
    (ha : Accepts work.session.turns job observation) :
    ∃ events, observeOne call job answer observation work =
        .ok () (work.placed call [observation] events) ∧ Appendable events := by
  unfold observeOne
  rw [applyObservation_of_accepts call ha]
  let observed : JudgeWork := work.placed call [observation] work.session.events
  have happ : Appendable observed.session.events := h
  exact onlyLogs_event happ call .evidenceObserved (some answer) _

theorem observeAll_places (call : Ambient) (job : JobSpec) (answer : Turn)
    {placed : List EvidenceObservation} (rest : List EvidenceObservation) {work : JudgeWork}
    (h : Appendable work.session.events)
    (ha : ∀ observation ∈ placed, Accepts work.session.turns job observation) :
    ∃ events, observeAll call job answer (placed ++ rest) work =
        observeAll call job answer rest (work.placed call placed events) ∧ Appendable events := by
  induction placed generalizing work with
  | nil =>
    refine ⟨work.session.events, ?_, h⟩
    simp [JudgeWork.placed, placeAll]
  | cons observation others ih =>
    obtain ⟨hfirst, hothers⟩ := List.forall_mem_cons.mp ha
    obtain ⟨first, he, happ⟩ := observeOne_places call job answer h hfirst
    have hplaced : Appendable (work.placed call [observation] first).session.events := happ
    obtain ⟨events, hrest, happ'⟩ := ih hplaced hothers
    refine ⟨events, ?_, happ'⟩
    rw [List.cons_append, observeAll, Judging.bind_of_ok he, hrest]
    simp [JudgeWork.placed, placeAll]

theorem recordRun_keeps (call : Ambient) (answer : Turn) {work : JudgeWork}
    (h : Appendable work.session.events) :
    ∃ events, recordRun call answer work = .ok () (work.keepRun.logged events) ∧
      Appendable events := by
  have hkept : Appendable work.keepRun.session.events := h
  exact onlyLogs_event hkept call .evidenceJudgeRunRecorded (some answer) _

theorem recordFailure_keeps (call : Call) (question answer : Turn) (competencyIds : List String)
    (e : PyError) {work : JudgeWork} (h : Appendable work.session.events) :
    ∃ events, recordFailure call question answer competencyIds e work =
        .ok () (JudgeWork.logged (JudgeWork.keepRun { work with run := work.run.fail e }) events) ∧
      Appendable events := by
  have hkept : Appendable (JudgeWork.keepRun { work with run := work.run.fail e }).session.events := h
  refine OnlyLogs.bind (onlyLogs_event hkept call.toAmbient .evidenceJudgeFailed (some answer) _)
    fun events happ => ?_
  exact onlyLogs_event happ call.toAmbient .evidenceJudgeRunRecorded (some answer) _

/-- How far a judging step got. -/
def stopped : EStateM.Result PyError JudgeWork α → JudgeWork
  | .ok _ work => work
  | .error _ work => work

/-- A log that does not verify stays as it is. -/
def Silent (m : Judging α) : Prop :=
  ∀ work : JudgeWork, ¬Appendable work.session.events →
    (stopped (m work)).session.events = work.session.events

theorem Silent.bind {m : Judging α} {f : α → Judging β} (hm : Silent m) (hf : ∀ a, Silent (f a)) :
    Silent (m >>= f) := by
  intro work hw
  have h := hm work hw
  cases hx : m work with
  | error e mid =>
    rw [hx] at h
    rw [Judging.bind_of_error hx]
    exact h
  | ok a mid =>
    rw [hx] at h
    have hmid : mid.session.events = work.session.events := h
    rw [Judging.bind_of_ok hx, hf a mid (hmid ▸ hw), hmid]

theorem silent_pure (a : α) : Silent (pure a : Judging α) :=
  fun _ _ => rfl

theorem silent_get : Silent (MonadState.get : Judging JudgeWork) :=
  fun _ _ => rfl

theorem silent_modify {g : JudgeWork → JudgeWork}
    (hg : ∀ work, (g work).session.events = work.session.events) :
    Silent (modify g : Judging PUnit) :=
  fun work _ => hg work

theorem silent_attempt (x : Except Raised α) : Silent (Judging.attempt x) := by
  intro work _
  cases x with
  | ok a => rfl
  | error e => rfl

theorem event_raises (call : Ambient) (type : EventType) (turn : Option Turn) (payload : Dict Json)
    {work : JudgeWork} (hw : ¬Appendable work.session.events) :
    ∃ e, Judging.onSession (fun session => appendEvent call session type turn payload) work =
      .error e work := by
  obtain ⟨e, he⟩ := not_appendable_append hw call type turn payload
  refine ⟨e, ?_⟩
  simp only [Judging.onSession, he]

theorem silent_event (call : Ambient) (type : EventType) (turn : Option Turn)
    (payload : Dict Json) :
    Silent (Judging.onSession fun session => appendEvent call session type turn payload) := by
  intro work hw
  obtain ⟨e, he⟩ := event_raises call type turn payload hw
  rw [he]
  rfl

theorem recordSuperseded_silent (call : Ambient) (answer : Turn) (runId : String)
    (items : List EvidenceItem) : Silent (recordSuperseded call answer runId items) := by
  induction items with
  | nil => exact silent_pure ()
  | cons item rest ih => exact (silent_event call _ _ _).bind fun _ => ih

theorem supersedePrior_silent (call : Ambient) (answer : Turn) (supersedeExisting : Bool) :
    Silent (supersedePrior call answer supersedeExisting) := by
  cases supersedeExisting with
  | false => exact silent_pure ()
  | true =>
    refine silent_get.bind fun work => Silent.bind (silent_modify fun _ => rfl) fun _ => ?_
    exact recordSuperseded_silent call answer _ _

theorem recordEnsemble_silent (call : Ambient) (judgeId : String) (question answer : Turn)
    (audit : Dict Json) : Silent (recordEnsemble call judgeId question answer audit) := by
  unfold recordEnsemble
  split
  next =>
    refine (silent_attempt _).bind fun competencies => (silent_attempt _).bind fun failures => ?_
    refine silent_get.bind fun work => ?_
    split
    next => exact silent_pure ()
    next => exact silent_event call _ _ _
  next => exact silent_pure ()

theorem observeAll_silent (call : Ambient) (job : JobSpec) (answer : Turn)
    (observations : List EvidenceObservation) :
    Silent (observeAll call job answer observations) := by
  induction observations with
  | nil => exact silent_pure ()
  | cons observation rest ih =>
    refine Silent.bind (fun work hw => ?_) fun _ => ih
    unfold observeOne
    cases happly : applyObservation call work.session job observation with
    | error e => rfl
    | ok result =>
      obtain ⟨session, item⟩ := result
      obtain ⟨_, rfl, _⟩ := applyObservation_ok happly
      exact silent_event call _ _ _ _ hw

/-- The step raises where the log does not verify, and leaves it so. -/
def Fails (m : Judging α) : Prop :=
  ∀ work : JudgeWork, ¬Appendable work.session.events →
    ∃ e mid, m work = .error e mid ∧ mid.session.events = work.session.events

theorem Silent.fails {m : Judging α} {f : α → Judging β} (hm : Silent m) (hf : ∀ a, Fails (f a)) :
    Fails (m >>= f) := by
  intro work hw
  have h := hm work hw
  cases hx : m work with
  | error e mid =>
    rw [hx] at h
    exact ⟨e, mid, Judging.bind_of_error hx, h⟩
  | ok a mid =>
    rw [hx] at h
    have hmid : mid.session.events = work.session.events := h
    obtain ⟨e, last, hlast, hevents⟩ := hf a mid (hmid ▸ hw)
    exact ⟨e, last, (Judging.bind_of_ok hx).trans hlast, hevents.trans hmid⟩

theorem fails_event (call : Ambient) (type : EventType) (turn : Option Turn)
    (payload : Dict Json) :
    Fails (Judging.onSession fun session => appendEvent call session type turn payload) := by
  intro work hw
  obtain ⟨e, he⟩ := event_raises call type turn payload hw
  exact ⟨e, work, he, rfl⟩

end NoraInterviewer
