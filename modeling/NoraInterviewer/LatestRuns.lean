import NoraInterviewer.ReviewReports

/-! The latest judge run of each answer: the greatest `created_at`, and of the runs with it the
one recorded first. -/

namespace NoraInterviewer

def IsLatestRun (runs : List EvidenceJudgeRun) (run : EvidenceJudgeRun) : Prop :=
  ∃ before after, runs = before ++ run :: after ∧
    (∀ other ∈ before, other.answerTurnId = run.answerTurnId → other.createdAt < run.createdAt) ∧
    ∀ other ∈ after, other.answerTurnId = run.answerTurnId → other.createdAt ≤ run.createdAt

theorem IsLatestRun.mem {runs : List EvidenceJudgeRun} {run : EvidenceJudgeRun}
    (h : IsLatestRun runs run) : run ∈ runs := by
  obtain ⟨before, after, rfl, -, -⟩ := h
  simp

theorem IsLatestRun.le {runs : List EvidenceJudgeRun} {run other : EvidenceJudgeRun}
    (h : IsLatestRun runs run) (hm : other ∈ runs) (ha : other.answerTurnId = run.answerTurnId) :
    other.createdAt ≤ run.createdAt := by
  obtain ⟨before, after, rfl, hbefore, hafter⟩ := h
  rcases List.mem_append.mp hm with hm | hm
  · exact (hbefore other hm ha).le
  · rcases List.mem_cons.mp hm with rfl | hm
    · exact le_rfl
    · exact hafter other hm ha

/-- An answer has no two latest runs. -/
theorem IsLatestRun.unique {runs : List EvidenceJudgeRun} {run other : EvidenceJudgeRun}
    (h : IsLatestRun runs run) (ho : IsLatestRun runs other)
    (ha : run.answerTurnId = other.answerTurnId) : run = other := by
  have hle := h.le ho.mem ha.symm
  have hge := ho.le h.mem ha
  obtain ⟨before, after, rfl, hbefore, -⟩ := h
  obtain ⟨before', after', heq, hbefore', -⟩ := ho
  rcases List.append_eq_append_iff.mp heq with ⟨middle, hb, hr⟩ | ⟨middle, hb, hr⟩
  · cases middle with
    | nil => exact (List.cons.inj hr).1
    | cons first rest =>
      have hfirst : run = first := (List.cons.inj hr).1
      exact absurd (hbefore' run (by simp [hb, hfirst]) ha) (not_lt.mpr hle)
  · cases middle with
    | nil => exact (List.cons.inj hr).1.symm
    | cons first rest =>
      have hfirst : other = first := (List.cons.inj hr).1
      exact absurd (hbefore other (by simp [hb, hfirst]) ha.symm) (not_lt.mpr hge)

/-- A run recorded later that is of another answer, or not of a later time. -/
theorem IsLatestRun.snoc {runs : List EvidenceJudgeRun} {run added : EvidenceJudgeRun}
    (h : IsLatestRun runs run)
    (hadded : added.answerTurnId = run.answerTurnId → added.createdAt ≤ run.createdAt) :
    IsLatestRun (runs ++ [added]) run := by
  obtain ⟨before, after, rfl, hbefore, hafter⟩ := h
  refine ⟨before, after ++ [added], by simp, hbefore, fun other ho ha => ?_⟩
  rcases List.mem_append.mp ho with ho | ho
  · exact hafter other ho ha
  · obtain rfl := List.mem_singleton.mp ho
    exact hadded ha

theorem isLatestRun_added {runs : List EvidenceJudgeRun} {added : EvidenceJudgeRun}
    (h : ∀ other ∈ runs, other.answerTurnId = added.answerTurnId →
      other.createdAt < added.createdAt) : IsLatestRun (runs ++ [added]) added :=
  ⟨runs, [], rfl, h, fun other ho _ => by cases ho⟩

/-- What `latest_run_by_answer` holds of the runs so far. -/
structure Latests (runs : List EvidenceJudgeRun) (latest : Dict EvidenceJudgeRun) : Prop where
  keys_nodup : (latest.map Prod.fst).Nodup
  found : ∀ answer run, latest.lookup answer = some run →
    IsLatestRun runs run ∧ run.answerTurnId = answer
  missing : ∀ answer, latest.lookup answer = none → ∀ run ∈ runs, run.answerTurnId ≠ answer

/-- A run that becomes the latest of its answer. -/
theorem Latests.replace {runs : List EvidenceJudgeRun} {latest : Dict EvidenceJudgeRun}
    (h : Latests runs latest) {added : EvidenceJudgeRun}
    (hlater : ∀ other ∈ runs, other.answerTurnId = added.answerTurnId →
      other.createdAt < added.createdAt) :
    Latests (runs ++ [added]) (Dict.set added.answerTurnId added latest) where
  keys_nodup := Dict.keys_set_nodup h.keys_nodup _ _
  found := by
    intro answer run hrun
    rw [Dict.lookup_set] at hrun
    split at hrun
    next ha =>
      cases hrun
      exact ⟨isLatestRun_added hlater, ha.symm⟩
    next ha =>
      obtain ⟨hlatest, hanswer⟩ := h.found answer run hrun
      exact ⟨hlatest.snoc fun he => absurd (hanswer.symm.trans he.symm) ha, hanswer⟩
  missing := by
    intro answer hnone run hrun
    rw [Dict.lookup_set] at hnone
    split at hnone
    next => cases hnone
    next ha =>
      rcases List.mem_append.mp hrun with hrun | hrun
      · exact h.missing answer hnone run hrun
      · obtain rfl := List.mem_singleton.mp hrun
        exact fun he => ha he.symm

/-- A run that is not later than the latest of its answer. -/
theorem Latests.keep {runs : List EvidenceJudgeRun} {latest : Dict EvidenceJudgeRun}
    (h : Latests runs latest) {added current : EvidenceJudgeRun}
    (hcurrent : latest.lookup added.answerTurnId = some current)
    (hle : added.createdAt ≤ current.createdAt) : Latests (runs ++ [added]) latest where
  keys_nodup := h.keys_nodup
  found := by
    intro answer run hrun
    obtain ⟨hlatest, hanswer⟩ := h.found answer run hrun
    refine ⟨hlatest.snoc fun he => ?_, hanswer⟩
    rw [he, hanswer, hrun] at hcurrent
    cases hcurrent
    exact hle
  missing := by
    intro answer hnone run hrun
    rcases List.mem_append.mp hrun with hrun | hrun
    · exact h.missing answer hnone run hrun
    · obtain rfl := List.mem_singleton.mp hrun
      rintro rfl
      rw [hcurrent] at hnone
      cases hnone

theorem latestRunByAnswer_latests (runs : List EvidenceJudgeRun) :
    Latests runs (latestRunByAnswer runs) := by
  induction runs using List.reverseRecOn with
  | nil =>
    exact { keys_nodup := List.nodup_nil
            found := fun _ _ h => by cases h
            missing := fun _ _ _ h => by cases h }
  | append_singleton runs added ih =>
    unfold latestRunByAnswer at ih ⊢
    rw [List.foldl_append, List.foldl_cons, List.foldl_nil]
    split
    next hnone =>
      exact ih.replace fun other ho ha => absurd ha (ih.missing _ hnone other ho)
    next current hcurrent =>
      obtain ⟨hlatest, hanswer⟩ := ih.found _ _ hcurrent
      split
      next hlt =>
        exact ih.replace fun other ho ha =>
          lt_of_le_of_lt (hlatest.le ho (ha.trans hanswer.symm)) hlt
      next hle => exact ih.keep hcurrent (not_lt.mp hle)

theorem Latests.value {runs : List EvidenceJudgeRun} {latest : Dict EvidenceJudgeRun}
    (h : Latests runs latest) {run : EvidenceJudgeRun} :
    run ∈ latest.map Prod.snd ↔ IsLatestRun runs run := by
  constructor
  · intro hm
    obtain ⟨⟨answer, run⟩, hentry, rfl⟩ := List.mem_map.mp hm
    exact (h.found answer run ((Dict.mem_iff_lookup h.keys_nodup _ _).mp hentry)).1
  · intro hrun
    cases hlookup : latest.lookup run.answerTurnId with
    | none => exact absurd rfl (h.missing _ hlookup run hrun.mem)
    | some found =>
      obtain ⟨hfound, hanswer⟩ := h.found _ _ hlookup
      obtain rfl := hfound.unique hrun hanswer
      exact List.mem_map.mpr ⟨_, (Dict.mem_iff_lookup h.keys_nodup _ _).mpr hlookup, rfl⟩

theorem Latests.answers {runs : List EvidenceJudgeRun} {latest : Dict EvidenceJudgeRun}
    (h : Latests runs latest) :
    (latest.map Prod.snd).map EvidenceJudgeRun.answerTurnId = latest.map Prod.fst := by
  rw [List.map_map]
  refine List.map_congr_left fun entry hm => ?_
  exact (h.found entry.1 entry.2 ((Dict.mem_iff_lookup h.keys_nodup _ _).mp hm)).2

/-- The report shows the latest run of every answer that has runs, and no other run. -/
theorem mem_latestRuns {session : InterviewSession} {run : EvidenceJudgeRun} :
    run ∈ latestRuns session ↔ IsLatestRun session.evidenceJudgeRuns run := by
  unfold latestRuns
  rw [List.mem_mergeSort]
  exact (latestRunByAnswer_latests session.evidenceJudgeRuns).value

theorem latestRuns_answers_nodup (session : InterviewSession) :
    ((latestRuns session).map EvidenceJudgeRun.answerTurnId).Nodup := by
  have h := latestRunByAnswer_latests session.evidenceJudgeRuns
  have hperm := List.mergeSort_perm ((latestRunByAnswer session.evidenceJudgeRuns).map Prod.snd)
    fun a b => decide (b.createdAt ≤ a.createdAt)
  refine (hperm.map EvidenceJudgeRun.answerTurnId).nodup_iff.mpr ?_
  rw [h.answers]
  exact h.keys_nodup

end NoraInterviewer
