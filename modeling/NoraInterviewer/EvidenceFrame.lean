import NoraInterviewer.Judging

namespace NoraInterviewer

open ExceptRules

def EventType.aboutEvidence : EventType → Bool
  | .evidenceObserved | .evidenceJudgeFailed | .evidenceJudgeDisagreement
  | .evidenceJudgeRunRecorded | .evidenceSuperseded => true
  | _ => false

variable [CanonicalDigest]

/-- What evidence recording does to a session: it writes the graph and the list of judge
runs, and the log gains evidence entries only. -/
def RecordsEvidence (session session' : InterviewSession) : Prop :=
  ∃ graph runs events entries, session' = { session with
      evidenceGraph := graph, evidenceJudgeRuns := runs, events := events } ∧
    Grows session.events events entries ∧ ∀ entry ∈ entries, entry.type.aboutEvidence = true

theorem RecordsEvidence.refl (session : InterviewSession) : RecordsEvidence session session :=
  ⟨_, _, _, [], rfl, Grows.refl _, by simp⟩

theorem RecordsEvidence.trans {a b c : InterviewSession} (hab : RecordsEvidence a b)
    (hbc : RecordsEvidence b c) : RecordsEvidence a c := by
  obtain ⟨_, _, _, first, rfl, hg, hf⟩ := hab
  obtain ⟨graph, runs, events, second, rfl, hg', hs⟩ := hbc
  refine ⟨graph, runs, events, first ++ second, rfl, hg.trans hg', fun entry he => ?_⟩
  rcases List.mem_append.mp he with he | he
  · exact hf entry he
  · exact hs entry he

theorem RecordsEvidence.writes (session : InterviewSession) (graph : Dict CompetencyEvidence)
    (runs : List EvidenceJudgeRun) :
    RecordsEvidence session { session with evidenceGraph := graph, evidenceJudgeRuns := runs } :=
  ⟨_, _, _, [], rfl, Grows.refl _, by simp⟩

theorem RecordsEvidence.refusal {session session' : InterviewSession} {e : PyError}
    (h : RecordsEvidence session session') (he : Refusal session'.events e) :
    Refusal session.events e := by
  obtain ⟨_, _, _, _, rfl, hg, _⟩ := h
  exact hg.refusal he

/-- A fallible step that only records evidence. -/
abbrev EvidenceOnly {α : Type} (session : InterviewSession) (x : Except PyError α)
    (after : α → InterviewSession) : Prop :=
  Meets x (fun result => RecordsEvidence session (after result)) (Refusal session.events)

theorem evidenceEvent_meets (call : Ambient) (session : InterviewSession) {type : EventType}
    (ht : type.aboutEvidence = true) (turn : Option Turn) (payload : Dict Json) :
    EvidenceOnly session (appendEvent call session type turn payload) id := by
  refine (appendEvent_meets call session type turn payload).imp fun session' h => ?_
  obtain ⟨events, rfl, hg⟩ := h
  refine ⟨_, _, events, _, rfl, hg, fun entry he => ?_⟩
  rw [List.mem_singleton.mp he]
  exact ht

/-- What comes after a recording step may record more. -/
theorem RecordsEvidence.then {α : Type} {session mid : InterviewSession} {x : Except PyError α}
    {after : α → InterviewSession} (h : RecordsEvidence session mid) (hx : EvidenceOnly mid x after) :
    EvidenceOnly session x after :=
  Meets.weaken (Meets.imp hx fun _ hr => h.trans hr) fun _ he => h.refusal he

/-- However far a judging step got, it has only recorded evidence, and what it raised is
no complaint about a sealed log. -/
def JudgeWork.Recorded {α : Type} (work : JudgeWork) : EStateM.Result PyError JudgeWork α → Prop
  | .ok _ work' => RecordsEvidence work.session work'.session
  | .error e work' =>
    RecordsEvidence work.session work'.session ∧ Refusal work.session.events e

def RecordsOnly {α : Type} (m : Judging α) : Prop :=
  ∀ work : JudgeWork, work.Recorded (m work)

variable {α β : Type}

theorem RecordsEvidence.recorded {work mid : JudgeWork} {result : EStateM.Result PyError JudgeWork α}
    (h : RecordsEvidence work.session mid.session) (hr : mid.Recorded result) :
    work.Recorded result := by
  cases result with
  | ok a work' => exact h.trans hr
  | error e work' => exact ⟨h.trans hr.1, h.refusal hr.2⟩

theorem RecordsOnly.bind {m : Judging α} {f : α → Judging β} (hm : RecordsOnly m)
    (hf : ∀ a, RecordsOnly (f a)) : RecordsOnly (m >>= f) := by
  intro work
  have h := hm work
  change work.Recorded (EStateM.bind m f work)
  unfold EStateM.bind
  cases hw : m work with
  | error e work' =>
    rw [hw] at h
    exact h
  | ok a work' =>
    rw [hw] at h
    have hmid : RecordsEvidence work.session work'.session := h
    exact hmid.recorded (hf a work')

theorem recordsOnly_pure (a : α) : RecordsOnly (pure a : Judging α) :=
  fun work => RecordsEvidence.refl work.session

theorem recordsOnly_get : RecordsOnly (get : Judging JudgeWork) :=
  fun work => RecordsEvidence.refl work.session

theorem recordsOnly_modify {f : JudgeWork → JudgeWork}
    (hf : ∀ work, RecordsEvidence work.session (f work).session) :
    RecordsOnly (modify f : Judging PUnit) :=
  hf

theorem recordsOnly_attempt (x : Except Raised α) : RecordsOnly (Judging.attempt x) := by
  intro work
  cases x with
  | ok a => exact RecordsEvidence.refl work.session
  | error e => exact ⟨RecordsEvidence.refl work.session, fun _ => rfl⟩

theorem recordsOnly_event (call : Ambient) {type : EventType} (ht : type.aboutEvidence = true)
    (turn : Option Turn) (payload : Dict Json) :
    RecordsOnly (Judging.onSession fun session => appendEvent call session type turn payload) := by
  intro work
  have h := evidenceEvent_meets call work.session ht turn payload
  simp only [Judging.onSession]
  cases hw : appendEvent call work.session type turn payload with
  | ok session => exact h.of_ok hw
  | error e => exact ⟨RecordsEvidence.refl work.session, h.of_error hw⟩

theorem recordsOnly_ite {c : Prop} [Decidable c] {m n : Judging α} (hm : RecordsOnly m)
    (hn : RecordsOnly n) : RecordsOnly (if c then m else n) := by
  by_cases hc : c
  · rw [if_pos hc]
    exact hm
  · rw [if_neg hc]
    exact hn

theorem recordSuperseded_recordsOnly (call : Ambient) (answer : Turn) (runId : String)
    (items : List EvidenceItem) : RecordsOnly (recordSuperseded call answer runId items) := by
  induction items with
  | nil => exact recordsOnly_pure ()
  | cons item rest ih => exact (recordsOnly_event call rfl _ _).bind fun _ => ih

theorem supersedePrior_recordsOnly (call : Ambient) (answer : Turn) (supersedeExisting : Bool) :
    RecordsOnly (supersedePrior call answer supersedeExisting) := by
  refine recordsOnly_ite (recordsOnly_get.bind fun work => ?_) (recordsOnly_pure ())
  refine (recordsOnly_modify fun work => ?_).bind fun _ => recordSuperseded_recordsOnly call answer _ _
  exact RecordsEvidence.writes work.session _ work.session.evidenceJudgeRuns

theorem recordDisagreement_recordsOnly (call : Ambient) (judgeId : String) (question answer : Turn)
    (audit : Dict Json) : RecordsOnly (recordDisagreement call judgeId question answer audit) := by
  refine (recordsOnly_attempt _).bind fun competencies => ?_
  refine (recordsOnly_attempt _).bind fun failures => ?_
  refine recordsOnly_get.bind fun work => ?_
  exact recordsOnly_ite (recordsOnly_pure ()) (recordsOnly_event call rfl _ _)

theorem recordEnsemble_recordsOnly (call : Ambient) (judgeId : String) (question answer : Turn)
    (audit : Dict Json) : RecordsOnly (recordEnsemble call judgeId question answer audit) := by
  unfold recordEnsemble
  split
  next => exact recordDisagreement_recordsOnly call judgeId question answer audit
  next => exact recordsOnly_pure ()

omit [CanonicalDigest] in
/-- An observation writes the graph alone. -/
theorem applyObservation_meets (call : Ambient) (session : InterviewSession) (job : JobSpec)
    (observation : EvidenceObservation) :
    Meets (applyObservation call session job observation)
      (fun result => ∃ graph, result.1 = { session with evidenceGraph := graph })
      (fun e => e.isAuditChain = false) := by
  unfold applyObservation
  refine Meets.ite (fun _ => rfl) fun _ => ?_
  split
  next => exact rfl
  next =>
    refine Meets.ite (fun _ => rfl) fun _ => Meets.ite (fun _ => rfl) fun _ => ?_
    exact ⟨_, rfl⟩

theorem observeOne_recordsOnly (call : Ambient) (job : JobSpec) (answer : Turn)
    (observation : EvidenceObservation) : RecordsOnly (observeOne call job answer observation) := by
  intro work
  have h := applyObservation_meets call work.session job observation
  unfold observeOne
  cases hw : applyObservation call work.session job observation with
  | error e => exact ⟨RecordsEvidence.refl work.session, fun _ => h.of_error hw⟩
  | ok result =>
    obtain ⟨session, item⟩ := result
    obtain ⟨graph, rfl⟩ := h.of_ok hw
    have hgraph := RecordsEvidence.writes work.session graph work.session.evidenceJudgeRuns
    exact RecordsEvidence.recorded hgraph (recordsOnly_event call rfl (some answer)
      (observedPayload item observation work.run.id) ⟨{ work.session with evidenceGraph := graph }, _⟩)

theorem observeAll_recordsOnly (call : Ambient) (job : JobSpec) (answer : Turn)
    (observations : List EvidenceObservation) :
    RecordsOnly (observeAll call job answer observations) := by
  induction observations with
  | nil => exact recordsOnly_pure ()
  | cons observation rest ih =>
    exact (observeOne_recordsOnly call job answer observation).bind fun _ => ih

theorem keepRun_recordsOnly : RecordsOnly (modify JudgeWork.keepRun : Judging PUnit) :=
  recordsOnly_modify fun work => RecordsEvidence.writes work.session work.session.evidenceGraph _

theorem recordRun_recordsOnly (call : Ambient) (answer : Turn) :
    RecordsOnly (recordRun call answer) :=
  keepRun_recordsOnly.bind fun _ => recordsOnly_get.bind fun _ => recordsOnly_event call rfl _ _

theorem judgeAttempt_recordsOnly (call : Call) (job : JobSpec) (question answer : Turn)
    (competencyIds : List String) (supersedeExisting : Bool) :
    RecordsOnly (judgeAttempt call job question answer competencyIds supersedeExisting) := by
  refine (recordsOnly_attempt _).bind fun response => ?_
  refine (recordsOnly_attempt _).bind fun observations => ?_
  refine (supersedePrior_recordsOnly _ answer supersedeExisting).bind fun _ => ?_
  refine RecordsOnly.bind (recordsOnly_modify fun work => ?_) fun _ => ?_
  · exact RecordsEvidence.refl work.session
  refine (recordEnsemble_recordsOnly _ _ question answer _).bind fun _ => ?_
  refine recordsOnly_get.bind fun work => ?_
  exact (observeAll_recordsOnly _ job answer _).bind fun _ => recordRun_recordsOnly _ answer

theorem recordFailure_recordsOnly (call : Call) (question answer : Turn)
    (competencyIds : List String) (e : PyError) :
    RecordsOnly (recordFailure call question answer competencyIds e) := by
  refine RecordsOnly.bind (recordsOnly_modify fun work => ?_) fun _ => ?_
  · exact RecordsEvidence.refl work.session
  refine keepRun_recordsOnly.bind fun _ => recordsOnly_get.bind fun work => ?_
  exact (recordsOnly_event _ rfl _ _).bind fun _ => recordsOnly_event _ rfl _ _

theorem judgeRun_recordsOnly (call : Call) (job : JobSpec) (question answer : Turn)
    (competencyIds : List String) (supersedeExisting : Bool) :
    RecordsOnly (judgeRun call job question answer competencyIds supersedeExisting) := by
  intro work
  have h := judgeAttempt_recordsOnly call job question answer competencyIds supersedeExisting work
  unfold judgeRun
  cases hw : judgeAttempt call job question answer competencyIds supersedeExisting work with
  | ok a work' =>
    rw [hw] at h
    exact h
  | error e work' =>
    rw [hw] at h
    simp only
    split
    next => exact RecordsEvidence.recorded h.1 (recordFailure_recordsOnly call question answer _ e work')
    next => exact h

theorem afterRun_meets {work : JudgeWork} {result : EStateM.Result PyError JudgeWork Unit}
    (h : work.Recorded result) : EvidenceOnly work.session (afterRun result) Prod.fst := by
  cases result with
  | ok a work' => exact h
  | error e work' => exact h.2

theorem judgeCandidateEvidence_meets (call : Call) (session : InterviewSession) (job : JobSpec)
    (question answer : Turn) (supersedeExisting : Bool) (supersedesRunId : Option String) :
    EvidenceOnly session (judgeCandidateEvidence call session job question answer supersedeExisting
      supersedesRunId) Prod.fst := by
  unfold judgeCandidateEvidence
  refine Meets.ite (fun _ => RecordsEvidence.refl session) fun _ => ?_
  refine Meets.ite (fun _ => RecordsEvidence.refl session) fun _ => ?_
  refine Meets.ite (fun _ _ => rfl) fun _ => ?_
  exact afterRun_meets (judgeRun_recordsOnly call job question answer _ supersedeExisting _)

end NoraInterviewer
