import NoraInterviewer.RubricWorkflow

/-! What the calls of the rubric clients leave behind, and how it agrees with the store. -/

namespace NoraInterviewer

open ClientRuns ExceptRules

variable {ι : Type}

/-- A call of a rubric client, and the store's reply. -/
abbrev RubricEvent (ι : Type) := Event ι StoreCall Reply

/-- An approval that the store took. -/
structure Approval where
  draftId : String
  draft : RubricDraft
  job : JobSpec

def approvalOf : RubricEvent ι → Option Approval
  | ⟨_, .approveRubricDraft draftId draft job, .done⟩ => some ⟨draftId, draft, job⟩
  | _ => none

def approvals (events : List (RubricEvent ι)) : List Approval := events.filterMap approvalOf

/-- The job that a call has put into the store. -/
def writtenJob : RubricEvent ι → Option JobSpec
  | ⟨_, .putJob job, .done⟩ => some job
  | ⟨_, .approveRubricDraft _ _ job, .done⟩ => some job
  | _ => none

/-- The job that was put last under the id. -/
def lastJob (events : List (RubricEvent ι)) (id : String) : Option JobSpec :=
  (events.filterMap writtenJob).reverse.find? fun job => job.id = id

/-- The draft has been put as it is. -/
def Drafted (events : List (RubricEvent ι)) (draft : RubricDraft) : Prop :=
  ∃ i, ⟨i, .putRubricDraft draft, .done⟩ ∈ events

/-- How the calls so far agree with the drafts and the jobs of the store. -/
structure RubricBooks (contents : Contents) (events : List (RubricEvent ι)) : Prop where
  drafted : ∀ draft, Drafted events draft →
    draft.activationStatus = .draftOnly ∧ (contents.rubricDrafts draft.id).isSome
  drafted_unique : ∀ draft other, Drafted events draft → Drafted events other →
    draft.id = other.id → draft = other
  pending : ∀ id draft, contents.rubricDrafts id = some draft → draft.activationStatus = .draftOnly →
    draft.id = id ∧ Drafted events draft ∧ id ∉ (approvals events).map Approval.draftId
  accounted : ∀ id draft, contents.rubricDrafts id = some draft →
    draft.activationStatus = .approved → ∃ job, ⟨id, draft, job⟩ ∈ approvals events
  lasting : ∀ approval ∈ approvals events,
    contents.rubricDrafts approval.draftId = some approval.draft ∧
      approval.draft.activationStatus = .approved
  drafts_once : ((approvals events).map Approval.draftId).Nodup
  jobs_once : ((approvals events).map fun approval => approval.job.id).Nodup
  jobs_kept : ∀ approval ∈ approvals events, (contents.jobs approval.job.id).isSome
  jobs : ∀ id, contents.jobs id = lastJob events id

theorem RubricBooks.empty : RubricBooks Contents.empty ([] : List (RubricEvent ι)) where
  drafted _ h := by obtain ⟨_, h⟩ := h; cases h
  drafted_unique _ _ h := by obtain ⟨_, h⟩ := h; cases h
  pending _ _ h := by cases h
  accounted _ _ h := by cases h
  lasting _ h := by cases h
  drafts_once := List.nodup_nil
  jobs_once := List.nodup_nil
  jobs_kept _ h := by cases h
  jobs _ := rfl

theorem Drafted.mono {events : List (RubricEvent ι)} {draft : RubricDraft} (h : Drafted events draft)
    (event : RubricEvent ι) : Drafted (events ++ [event]) draft := by
  obtain ⟨i, hm⟩ := h
  exact ⟨i, List.mem_append_left _ hm⟩

theorem drafted_snoc {events : List (RubricEvent ι)} {event : RubricEvent ι} {draft : RubricDraft} :
    Drafted (events ++ [event]) draft ↔
      Drafted events draft ∨ ∃ i, event = ⟨i, .putRubricDraft draft, .done⟩ := by
  constructor
  · rintro ⟨i, hm⟩
    rcases List.mem_append.mp hm with hm | hm
    · exact Or.inl ⟨i, hm⟩
    · exact Or.inr ⟨i, (List.mem_singleton.mp hm).symm⟩
  · rintro (h | ⟨i, rfl⟩)
    · exact h.mono event
    · exact ⟨i, List.mem_append_right _ (List.mem_singleton_self _)⟩

theorem approvals_snoc (events : List (RubricEvent ι)) (event : RubricEvent ι) :
    approvals (events ++ [event]) = approvals events ++ (approvalOf event).toList := by
  rw [approvals, List.filterMap_append]
  cases ha : approvalOf event with
  | none => simp [approvals, ha]
  | some approval => simp [approvals, ha]

theorem lastJob_snoc (events : List (RubricEvent ι)) (event : RubricEvent ι) (id : String) :
    lastJob (events ++ [event]) id =
      if (writtenJob event).any fun job => job.id = id then writtenJob event
      else lastJob events id := by
  rw [lastJob, List.filterMap_append]
  cases hw : writtenJob event with
  | none =>
    have hnone : [event].filterMap writtenJob = [] := by simp [hw]
    rw [hnone, List.append_nil]
    rfl
  | some job =>
    have hsome : [event].filterMap writtenJob = [job] := by simp [hw]
    rw [hsome, List.reverse_append, List.reverse_singleton, List.singleton_append, List.find?_cons]
    by_cases hid : job.id = id
    · simp [hid]
    · simp [hid, lastJob]

/-- A call that puts nothing leaves the books as they are. -/
theorem RubricBooks.quiet {contents : Contents} {events : List (RubricEvent ι)}
    (h : RubricBooks contents events) {event : RubricEvent ι} (hw : event.output ≠ .done) :
    RubricBooks contents (events ++ [event]) := by
  obtain ⟨i, input, output⟩ := event
  have happroval : approvals (events ++ [⟨i, input, output⟩]) = approvals events := by
    rw [approvals_snoc]
    cases ha : approvalOf (⟨i, input, output⟩ : RubricEvent ι) with
    | none => exact List.append_nil _
    | some approval =>
      unfold approvalOf at ha
      split at ha
      next he =>
        cases he
        exact absurd rfl hw
      next => cases ha
  have hjob : writtenJob (⟨i, input, output⟩ : RubricEvent ι) = none := by
    unfold writtenJob
    split
    next he =>
      cases he
      exact absurd rfl hw
    next he =>
      cases he
      exact absurd rfl hw
    next => rfl
  have hdrafted : ∀ draft, Drafted (events ++ [⟨i, input, output⟩]) draft ↔ Drafted events draft := by
    intro draft
    rw [drafted_snoc]
    refine or_iff_left ?_
    rintro ⟨j, he⟩
    cases he
    exact hw rfl
  have hlast : ∀ id, lastJob (events ++ [⟨i, input, output⟩]) id = lastJob events id := by
    intro id
    rw [lastJob_snoc, hjob]
    rfl
  refine ⟨?_, ?_, ?_, ?_, ?_, ?_, ?_, ?_, ?_⟩
  · simpa only [hdrafted] using h.drafted
  · simpa only [hdrafted] using h.drafted_unique
  · simpa only [hdrafted, happroval] using h.pending
  · simpa only [happroval] using h.accounted
  · simpa only [happroval] using h.lasting
  · rw [happroval]
    exact h.drafts_once
  · rw [happroval]
    exact h.jobs_once
  · rw [happroval]
    exact h.jobs_kept
  · simpa only [hlast] using h.jobs

theorem RubricBooks.putDraft {contents : Contents} {events : List (RubricEvent ι)}
    (h : RubricBooks contents events) {i : ι} {draft : RubricDraft}
    (hopen : draft.activationStatus = .draftOnly) (hnew : contents.rubricDrafts draft.id = none) :
    RubricBooks (contents.setDraft draft.id draft)
      (events ++ [⟨i, .putRubricDraft draft, .done⟩]) := by
  have happroval : approvals (events ++ [⟨i, .putRubricDraft draft, .done⟩]) = approvals events := by
    rw [approvals_snoc]
    exact List.append_nil _
  have hdrafted : ∀ other, Drafted (events ++ [⟨i, .putRubricDraft draft, .done⟩]) other →
      Drafted events other ∧ other.id ≠ draft.id ∨ other = draft := by
    intro other ho
    rcases drafted_snoc.mp ho with ho | ⟨j, he⟩
    · refine Or.inl ⟨ho, fun hid => ?_⟩
      have hsome := (h.drafted other ho).2
      rw [hid, hnew] at hsome
      cases hsome
    · cases he
      exact Or.inr rfl
  have hunapproved : draft.id ∉ (approvals events).map Approval.draftId := by
    intro hm
    obtain ⟨approval, hm, hid⟩ := List.mem_map.mp hm
    have hstored := (h.lasting approval hm).1
    rw [hid, hnew] at hstored
    cases hstored
  refine ⟨?_, ?_, ?_, ?_, ?_, ?_, ?_, ?_, ?_⟩
  · intro other ho
    rw [Contents.setDraft_rubricDrafts]
    rcases hdrafted other ho with ⟨ho, hne⟩ | rfl
    · rw [if_neg hne]
      exact h.drafted other ho
    · rw [if_pos rfl]
      exact ⟨hopen, rfl⟩
  · intro other other' ho ho' hid
    rcases hdrafted other ho with ⟨ho, hne⟩ | rfl
    · rcases hdrafted other' ho' with ⟨ho', _⟩ | rfl
      · exact h.drafted_unique other other' ho ho' hid
      · exact absurd hid hne
    · rcases hdrafted other' ho' with ⟨_, hne⟩ | rfl
      · exact absurd hid.symm hne
      · rfl
  · intro id other ho hstatus
    rw [happroval]
    rw [Contents.setDraft_rubricDrafts] at ho
    split at ho
    next hid =>
      cases ho
      exact ⟨hid.symm, drafted_snoc.mpr (Or.inr ⟨i, rfl⟩), hid ▸ hunapproved⟩
    next =>
      obtain ⟨hid, hd, hn⟩ := h.pending id other ho hstatus
      exact ⟨hid, hd.mono _, hn⟩
  · intro id other ho hstatus
    rw [happroval]
    rw [Contents.setDraft_rubricDrafts] at ho
    split at ho
    next =>
      cases ho
      rw [hopen] at hstatus
      cases hstatus
    next => exact h.accounted id other ho hstatus
  · intro approval hm
    rw [happroval] at hm
    have hne : approval.draftId ≠ draft.id := fun hid =>
      hunapproved (hid ▸ List.mem_map_of_mem hm)
    rw [Contents.setDraft_rubricDrafts, if_neg hne]
    exact h.lasting approval hm
  · rw [happroval]
    exact h.drafts_once
  · rw [happroval]
    exact h.jobs_once
  · rw [happroval]
    exact h.jobs_kept
  · intro id
    rw [lastJob_snoc]
    exact h.jobs id

theorem Contents.setJob_lastJob {contents : Contents} {events : List (RubricEvent ι)}
    (h : ∀ id, contents.jobs id = lastJob events id) {event : RubricEvent ι} {job : JobSpec}
    (hw : writtenJob event = some job) (id : String) :
    (contents.setJob job).jobs id = lastJob (events ++ [event]) id := by
  rw [setJob_jobs, lastJob_snoc, hw, h id]
  by_cases hid : id = job.id
  · simp [hid]
  · have hne : ¬job.id = id := fun he => hid he.symm
    simp [hid, hne]

theorem RubricBooks.putJob {contents : Contents} {events : List (RubricEvent ι)}
    (h : RubricBooks contents events) {i : ι} (job : JobSpec) :
    RubricBooks (contents.setJob job) (events ++ [⟨i, .putJob job, .done⟩]) := by
  have happroval : approvals (events ++ [⟨i, .putJob job, .done⟩]) = approvals events := by
    rw [approvals_snoc]
    exact List.append_nil _
  have hdrafted : ∀ draft, Drafted (events ++ [⟨i, .putJob job, .done⟩]) draft ↔
      Drafted events draft := by
    intro draft
    rw [drafted_snoc]
    refine or_iff_left ?_
    rintro ⟨j, he⟩
    cases he
  have hkeep : (contents.setJob job).rubricDrafts = contents.rubricDrafts := rfl
  refine ⟨?_, ?_, ?_, ?_, ?_, ?_, ?_, ?_, ?_⟩
  · simpa only [hdrafted, hkeep] using h.drafted
  · simpa only [hdrafted] using h.drafted_unique
  · simpa only [hdrafted, happroval, hkeep] using h.pending
  · simpa only [happroval, hkeep] using h.accounted
  · simpa only [happroval, hkeep] using h.lasting
  · rw [happroval]
    exact h.drafts_once
  · rw [happroval]
    exact h.jobs_once
  · intro approval hm
    rw [happroval] at hm
    rw [Contents.setJob_jobs]
    split
    next => rfl
    next => exact h.jobs_kept approval hm
  · exact fun id => Contents.setJob_lastJob h.jobs rfl id

theorem RubricBooks.approve {contents : Contents} {events : List (RubricEvent ι)}
    (h : RubricBooks contents events) {i : ι} {draftId : String} {current draft : RubricDraft}
    {job : JobSpec} (hcurrent : contents.rubricDrafts draftId = some current)
    (hopen : current.activationStatus = .draftOnly) (hnew : contents.jobs job.id = none)
    (happroved : draft.activationStatus = .approved) :
    RubricBooks ((contents.setJob job).setDraft draftId draft)
      (events ++ [⟨i, .approveRubricDraft draftId draft job, .done⟩]) := by
  have happroval : approvals (events ++ [⟨i, .approveRubricDraft draftId draft job, .done⟩]) =
      approvals events ++ [⟨draftId, draft, job⟩] := approvals_snoc events _
  have hdrafted : ∀ other, Drafted (events ++ [⟨i, .approveRubricDraft draftId draft job, .done⟩])
      other ↔ Drafted events other := by
    intro other
    rw [drafted_snoc]
    refine or_iff_left ?_
    rintro ⟨j, he⟩
    cases he
  obtain ⟨_, _, hunapproved⟩ := h.pending draftId current hcurrent hopen
  have hdrafts : ∀ id, ((contents.setJob job).setDraft draftId draft).rubricDrafts id =
      if id = draftId then some draft else contents.rubricDrafts id :=
    fun id => Contents.setDraft_rubricDrafts _ _ _ _
  refine ⟨?_, ?_, ?_, ?_, ?_, ?_, ?_, ?_, ?_⟩
  · intro other ho
    obtain ⟨hstatus, hsome⟩ := h.drafted other ((hdrafted other).mp ho)
    refine ⟨hstatus, ?_⟩
    rw [hdrafts]
    split
    next => rfl
    next => exact hsome
  · simpa only [hdrafted] using h.drafted_unique
  · intro id other ho hstatus
    rw [hdrafts] at ho
    split at ho
    next =>
      cases ho
      rw [happroved] at hstatus
      cases hstatus
    next hid =>
      obtain ⟨heq, hd, hn⟩ := h.pending id other ho hstatus
      refine ⟨heq, hd.mono _, ?_⟩
      rw [happroval, List.map_append, List.mem_append, List.map_singleton, List.mem_singleton]
      exact not_or.mpr ⟨hn, hid⟩
  · intro id other ho hstatus
    rw [happroval]
    rw [hdrafts] at ho
    split at ho
    next hid =>
      cases ho
      exact ⟨job, List.mem_append_right _ (hid ▸ List.mem_singleton_self _)⟩
    next =>
      obtain ⟨other', hm⟩ := h.accounted id other ho hstatus
      exact ⟨other', List.mem_append_left _ hm⟩
  · intro approval hm
    rw [happroval] at hm
    rw [hdrafts]
    rcases List.mem_append.mp hm with hm | hm
    · have hne : approval.draftId ≠ draftId := fun hid =>
        hunapproved (hid ▸ List.mem_map_of_mem hm)
      rw [if_neg hne]
      exact h.lasting approval hm
    · cases List.mem_singleton.mp hm
      exact ⟨if_pos rfl, happroved⟩
  · rw [happroval, List.map_append]
    exact h.drafts_once.append (List.nodup_singleton _)
      (List.disjoint_singleton.mpr hunapproved)
  · rw [happroval, List.map_append]
    refine h.jobs_once.append (List.nodup_singleton _) (List.disjoint_singleton.mpr fun hm => ?_)
    obtain ⟨approval, hm, hid⟩ := List.mem_map.mp hm
    have hkept := h.jobs_kept approval hm
    rw [hid, hnew] at hkept
    cases hkept
  · intro approval hm
    rw [happroval] at hm
    change ((contents.setJob job).jobs approval.job.id).isSome = true
    rw [Contents.setJob_jobs]
    rcases List.mem_append.mp hm with hm | hm
    · split
      next => rfl
      next => exact h.jobs_kept approval hm
    · cases List.mem_singleton.mp hm
      rw [if_pos rfl]
      rfl
  · exact fun id => Contents.setJob_lastJob h.jobs rfl id

end NoraInterviewer
