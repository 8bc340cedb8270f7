import NoraInterviewer.RubricBooks

/-! Rubric drafts are approved once each, as they were drafted, in every interleaving of the rubric
and job requests and on every store. -/

namespace NoraInterviewer

open ClientRuns ExceptRules Simulation

variable {ι : Type} [DecidableEq ι]

def wrote (event : RubricEvent ι) : Bool :=
  match event.output with
  | .done => true
  | _ => false

/-- The calls of a client that changed the store. -/
def writesOf (i : ι) (events : List (RubricEvent ι)) : List (RubricEvent ι) :=
  events.filter fun event => event.client = i && wrote event

/-- The approval of a draft is the request's own, and the request may approve the draft. -/
structure Approves (request : RubricRequest) (draft approved : RubricDraft) (job : JobSpec) : Prop where
  permitted : request.principal.role.keepsRubrics .approveRubric = true
  tenant : request.principal.organizationId = none ∨
    draft.organizationId = request.principal.organizationId
  made : ∃ approval minted approvedAt provenance,
    request.action = .approve draft.id approval minted approvedAt ∧
    approveWithProvenance draft approval minted request.principal.id request.principal.organizationId
      approvedAt = .ok (approved, job, provenance)

/-- What a request that has returned has changed. -/
inductive Booked (i : ι) : Except PyError RubricOutcome → List (RubricEvent ι) → Prop where
  | failed (e : PyError) : Booked i (.error e) []
  | read (draft : RubricDraft) : Booked i (.ok (.draft draft)) []
  | drafted (draft : RubricDraft) :
    Booked i (.ok (.draft draft)) [⟨i, .putRubricDraft draft, .done⟩]
  | approved (draftId : String) (draft : RubricDraft) (job : JobSpec) :
    Booked i (.ok (.approval draft job)) [⟨i, .approveRubricDraft draftId draft job, .done⟩]
  | job (job : JobSpec) : Booked i (.ok (.job job)) [⟨i, .putJob job, .done⟩]

/-- How far a request has come. -/
inductive Serving (drafter : RubricDrafter) (templates : List ToolTemplate) (request : RubricRequest)
    (i : ι) (events : List (RubricEvent ι)) (prog : RubricProg) : Prop where
  | waiting (hn : writesOf i events = []) (hp : prog = request.route drafter templates)
  | holding {draftId minted : String} {approval : RubricApprovalRequest} {approvedAt : DateTime}
    {draft : RubricDraft} (hn : writesOf i events = [])
    (hrole : request.principal.role.keepsRubrics .approveRubric = true)
    (haction : request.action = .approve draftId approval minted approvedAt)
    (htenant : request.principal.organizationId = none ∨
      draft.organizationId = request.principal.organizationId)
    (hdraft : draft.activationStatus = .draftOnly → draft.id = draftId ∧ Drafted events draft)
    (hp : prog = approveDraft draftId approval minted request.principal.id
      request.principal.organizationId approvedAt draft)
  | finished {result : Except PyError RubricOutcome} (h : Booked i result (writesOf i events))
    (hp : prog = .done result)

theorem Serving.booked {drafter : RubricDrafter} {templates : List ToolTemplate}
    {request : RubricRequest} {i : ι} {events writes : List (RubricEvent ι)}
    {result : Except PyError RubricOutcome} (hw : writesOf i events = writes)
    (h : Booked i result writes) : Serving drafter templates request i events (.done result) :=
  .finished (hw.symm ▸ h) rfl

/-- The first call of a request, and how it goes on. -/
inductive FirstCall (request : RubricRequest) : StoreCall → (Reply → RubricProg) → Prop where
  | draft {draft : RubricDraft} (hopen : draft.activationStatus = .draftOnly) :
    FirstCall request (.putRubricDraft draft) (draftPut draft)
  | get {draftId : String} {next : RubricDraft → RubricProg}
    (hnext : (∀ draft, next draft = .done (.ok (.draft draft))) ∨
      ∃ approval minted approvedAt, request.action = .approve draftId approval minted approvedAt ∧
        request.principal.role.keepsRubrics .approveRubric = true ∧
        next = approveDraft draftId approval minted request.principal.id
          request.principal.organizationId approvedAt) :
    FirstCall request (.getRubricDraft draftId) (draftFound request.principal.organizationId next)
  | job (job : JobSpec) : FirstCall request (.putJob job) fun _ => .done (.ok (.job job))

theorem llmDraft_unapproved {reader : DraftReader} {drafterId : String} {request : RubricDraftRequest}
    {completion : Except Raised String} {id : String} {createdAt : DateTime} {draft : RubricDraft}
    (h : llmDraft reader drafterId request completion id createdAt = .ok draft) :
    draft.activationStatus = .draftOnly := by
  obtain ⟨raw, _, h⟩ := bind_ok h
  obtain ⟨payload, _, h⟩ := bind_ok h
  split at h
  next items _ =>
    obtain ⟨_, h⟩ := ite_error_ok h
    dsimp only at h
    cases hd : (do
      let competencies ← items.mapM reader.competency
      let warnings ← draftWarnings payload
      RubricDraft.create request drafterId id createdAt competencies warnings) with
    | error e =>
      rw [hd] at h
      cases h
    | ok result =>
      rw [hd] at h
      cases h
      obtain ⟨competencies, _, hd⟩ := bind_ok hd
      obtain ⟨warnings, _, hd⟩ := bind_ok hd
      unfold RubricDraft.create at hd
      split at hd
      next =>
        obtain ⟨_, hd⟩ := ite_error_ok hd
        split at hd
        next =>
          cases hd
          rfl
        next => cases hd
      next => cases hd
  next => cases h

theorem RubricDrafter.draft_unapproved {drafter : RubricDrafter} {request : RubricDraftRequest}
    {completion : Except Raised String} {id : String} {createdAt : DateTime} {draft : RubricDraft}
    (h : drafter.draft request completion id createdAt = .ok draft) :
    draft.activationStatus = .draftOnly := by
  cases drafter with
  | disabled => cases h
  | llm reader drafterId => exact llmDraft_unapproved h

theorem route_call {drafter : RubricDrafter} {templates : List ToolTemplate} {request : RubricRequest}
    {input : StoreCall} {next : Reply → RubricProg}
    (h : request.route drafter templates = .call input next) : FirstCall request input next := by
  unfold RubricRequest.route at h
  split at h
  next => cases h
  next hperm =>
    have hrole : request.principal.role.keepsRubrics request.action.permission = true := by
      obtain ⟨hrole, _⟩ := ite_error_ok hperm
      simpa using hrole
    obtain ⟨principal, action⟩ := request
    cases action with
    | draft draftRequest completion id createdAt =>
      change draftRubric principal.organizationId
        (drafter.draft draftRequest completion id createdAt) = .call input next at h
      unfold draftRubric at h
      split at h
      next =>
        split at h
        next => cases h
        next => cases h
      next draft hd =>
        have hopen := RubricDrafter.draft_unapproved hd
        dsimp only at h
        split at h
        next =>
          cases h
          exact .draft hopen
        next =>
          cases h
          exact .draft hopen
    | get draftId =>
      cases h
      exact .get (Or.inl fun _ => rfl)
    | approve draftId approval minted approvedAt =>
      cases h
      exact .get (Or.inr ⟨approval, minted, approvedAt, rfl, hrole, rfl⟩)
    | createJob job =>
      change createJobProg templates job principal.organizationId = .call input next at h
      unfold createJobProg at h
      split at h
      next => cases h
      next =>
        cases h
        exact .job _

theorem approveDraft_call {draftId minted approvedBy : String} {approval : RubricApprovalRequest}
    {organizationId : Option String} {approvedAt : DateTime} {draft : RubricDraft} {input : StoreCall}
    {next : Reply → RubricProg}
    (h : approveDraft draftId approval minted approvedBy organizationId approvedAt draft =
      .call input next) :
    ∃ approved job provenance,
      approveWithProvenance draft approval minted approvedBy organizationId approvedAt =
        .ok (approved, job, provenance) ∧
      input = .approveRubricDraft draftId approved job ∧ next = draftApproved approved job := by
  unfold approveDraft at h
  split at h
  next => cases h
  next approved job provenance hmade =>
    cases h
    exact ⟨approved, job, provenance, hmade, rfl, rfl⟩

/-- Only an open draft is approved, and it is approved then. -/
theorem approveWithProvenance_status {draft approved : RubricDraft} {approval : RubricApprovalRequest}
    {minted approvedBy : String} {organizationId : Option String} {approvedAt : DateTime}
    {job : JobSpec} {provenance : RubricProvenance}
    (h : approveWithProvenance draft approval minted approvedBy organizationId approvedAt =
      .ok (approved, job, provenance)) :
    draft.activationStatus = .draftOnly ∧ approved.activationStatus = .approved := by
  obtain ⟨⟨approved', job'⟩, happrove, h⟩ := bind_ok h
  obtain ⟨_, h⟩ := ite_error_ok h
  cases h
  obtain ⟨hopen, happrove⟩ := ite_error_ok happrove
  dsimp only at happrove
  split at happrove
  next =>
    cases happrove
    exact ⟨not_not.mp hopen, rfl⟩
  next => cases happrove

theorem gives_done {reply : Reply} (h : reply.Gives .done) : reply = .done := by
  cases h
  rfl

theorem gives_raised {reply : Reply} {failure : Failure} (h : reply.Gives (.raised failure)) :
    ∃ e, reply = .raised e := by
  cases h
  exact ⟨_, rfl⟩

theorem gives_draft {reply : Reply} {found : Option RubricDraft} (h : reply.Gives (.draft found)) :
    reply = .draft found := by
  cases h with
  | draft h => rw [h]

theorem writesOf_snoc (i : ι) (events : List (RubricEvent ι)) (event : RubricEvent ι) :
    writesOf i (events ++ [event]) =
      writesOf i events ++ if event.client = i ∧ wrote event then [event] else [] := by
  simp only [writesOf, List.filter_append, List.filter_cons, List.filter_nil, Bool.and_eq_true,
    decide_eq_true_eq]

/-- Another client's call does not matter to how far a request has come. -/
theorem Serving.other {drafter : RubricDrafter} {templates : List ToolTemplate}
    {request : RubricRequest} {i : ι} {events : List (RubricEvent ι)} {prog : RubricProg}
    (h : Serving drafter templates request i events prog) {event : RubricEvent ι}
    (hne : event.client ≠ i) : Serving drafter templates request i (events ++ [event]) prog := by
  have hwrites : writesOf i (events ++ [event]) = writesOf i events := by
    rw [writesOf_snoc, if_neg fun h => hne h.1, List.append_nil]
  cases h with
  | waiting hn hp => exact .waiting (hwrites.trans hn) hp
  | holding hn hrole haction htenant hdraft hp =>
    exact .holding (hwrites.trans hn) hrole haction htenant
      (fun hopen => ⟨(hdraft hopen).1, (hdraft hopen).2.mono event⟩) hp
  | finished h hp => exact .finished (hwrites ▸ h) hp

/-- What holds of the store, the calls so far and the requests, between two calls. -/
structure RubricInvariant (drafter : RubricDrafter) (templates : List ToolTemplate)
    (requests : ι → RubricRequest) (contents : Contents) (events : List (RubricEvent ι))
    (clients : ι → RubricProg) : Prop where
  books : RubricBooks contents events
  authentic : ∀ i draftId approved job, ⟨i, .approveRubricDraft draftId approved job, .done⟩ ∈ events →
    ∃ draft, draft.id = draftId ∧ Drafted events draft ∧ Approves (requests i) draft approved job
  serving : ∀ i, Serving drafter templates (requests i) i events (clients i)

theorem replied_put {contents : Contents} {draft : RubricDraft} {reply : Reply}
    (h : reply.Gives (contents.step (.putRubricDraft draft)).2) :
    (reply = .done ∧ contents.rubricDrafts draft.id = none ∧
      (contents.step (.putRubricDraft draft)).1 = contents.setDraft draft.id draft) ∨
    ∃ e, reply = .raised e ∧ (contents.step (.putRubricDraft draft)).1 = contents := by
  simp only [Contents.step, Contents.putRubricDraft] at h ⊢
  by_cases hsome : (contents.rubricDrafts draft.id).isSome
  · rw [if_pos hsome] at h ⊢
    obtain ⟨e, rfl⟩ := gives_raised h
    exact Or.inr ⟨e, rfl, rfl⟩
  · rw [if_neg hsome] at h ⊢
    exact Or.inl ⟨gives_done h, by simpa using hsome, rfl⟩

theorem replied_approval {contents : Contents} {draftId : String} {draft : RubricDraft}
    {job : JobSpec} {reply : Reply}
    (h : reply.Gives (contents.step (.approveRubricDraft draftId draft job)).2) :
    (reply = .done ∧ (∃ current, contents.rubricDrafts draftId = some current ∧
        current.activationStatus = .draftOnly) ∧ contents.jobs job.id = none ∧
      (contents.step (.approveRubricDraft draftId draft job)).1 =
        (contents.setJob job).setDraft draftId draft) ∨
    ∃ e, reply = .raised e ∧ (contents.step (.approveRubricDraft draftId draft job)).1 = contents := by
  simp only [Contents.step, Contents.approveRubricDraft] at h ⊢
  cases hc : contents.rubricDrafts draftId with
  | none =>
    rw [hc] at h
    obtain ⟨e, rfl⟩ := gives_raised h
    exact Or.inr ⟨e, rfl, rfl⟩
  | some current =>
    rw [hc] at h
    dsimp only at h ⊢
    by_cases hopen : current.activationStatus ≠ .draftOnly
    · rw [if_pos hopen] at h ⊢
      obtain ⟨e, rfl⟩ := gives_raised h
      exact Or.inr ⟨e, rfl, rfl⟩
    · rw [if_neg hopen] at h ⊢
      by_cases hjob : (contents.jobs job.id).isSome
      · rw [if_pos hjob] at h ⊢
        obtain ⟨e, rfl⟩ := gives_raised h
        exact Or.inr ⟨e, rfl, rfl⟩
      · rw [if_neg hjob] at h ⊢
        exact Or.inl ⟨gives_done h, ⟨current, rfl, not_not.mp hopen⟩, by simpa using hjob, rfl⟩

section

variable {drafter : RubricDrafter} {templates : List ToolTemplate} {requests : ι → RubricRequest}
  {contents contents' : Contents} {events : List (RubricEvent ι)} {clients : ι → RubricProg}

theorem RubricInvariant.start (drafter : RubricDrafter) (templates : List ToolTemplate)
    (requests : ι → RubricRequest) :
    RubricInvariant drafter templates requests Contents.empty [] fun i =>
      (requests i).route drafter templates where
  books := RubricBooks.empty
  authentic _ _ _ _ hm := by cases hm
  serving _ := .waiting rfl rfl

theorem RubricInvariant.issued
    (h : RubricInvariant drafter templates requests contents events clients) {i : ι}
    {input : StoreCall} {next : Reply → RubricProg} (hi : clients i = .call input next) :
    input.Issued := by
  cases h.serving i with
  | waiting _ hp =>
    cases route_call (hp.symm.trans hi) with
    | draft hopen => exact hopen
    | get => exact trivial
    | job => exact trivial
  | holding _ _ _ _ _ hp =>
    obtain ⟨approved, job, provenance, hmade, rfl, _⟩ := approveDraft_call (hp.symm.trans hi)
    exact (approveWithProvenance_status hmade).2
  | finished _ hp => cases hp.symm.trans hi

/-- A call keeps the invariant if the books, its own approval and its own request do. -/
theorem RubricInvariant.extend (h : RubricInvariant drafter templates requests contents events clients)
    {event : RubricEvent ι} {prog : RubricProg} (hbooks : RubricBooks contents' (events ++ [event]))
    (hown : ∀ draftId approved job,
      event = ⟨event.client, .approveRubricDraft draftId approved job, .done⟩ →
      ∃ draft, draft.id = draftId ∧ Drafted events draft ∧
        Approves (requests event.client) draft approved job)
    (hserving : Serving drafter templates (requests event.client) event.client (events ++ [event]) prog) :
    RubricInvariant drafter templates requests contents' (events ++ [event])
      (Function.update clients event.client prog) := by
  refine ⟨hbooks, fun i draftId approved job hm => ?_, fun i => ?_⟩
  · rcases List.mem_append.mp hm with hm | hm
    · obtain ⟨draft, hid, hd, happroves⟩ := h.authentic i draftId approved job hm
      exact ⟨draft, hid, hd.mono event, happroves⟩
    · have hevent := List.mem_singleton.mp hm
      subst hevent
      obtain ⟨draft, hid, hd, happroves⟩ := hown draftId approved job rfl
      exact ⟨draft, hid, hd.mono _, happroves⟩
  · rw [Function.update_apply]
    split
    next hi =>
      subst hi
      exact hserving
    next hi => exact (h.serving i).other fun he => hi he.symm

theorem writesOf_quiet {i : ι} {input : StoreCall} {reply : Reply} (hn : writesOf i events = [])
    (hreply : reply ≠ .done) : writesOf i (events ++ [⟨i, input, reply⟩]) = [] := by
  have hquiet : wrote (⟨i, input, reply⟩ : RubricEvent ι) = false := by
    unfold wrote
    split
    next hdone => exact absurd hdone hreply
    next => rfl
  rw [writesOf_snoc, hn, hquiet]
  simp

theorem writesOf_done {i : ι} {input : StoreCall} (hn : writesOf i events = []) :
    writesOf i (events ++ [⟨i, input, .done⟩]) = [⟨i, input, .done⟩] := by
  rw [writesOf_snoc, hn]
  exact if_pos ⟨rfl, rfl⟩

/-- A first call that reads a draft. -/
theorem RubricInvariant.read (h : RubricInvariant drafter templates requests contents events clients)
    {i : ι} (hn : writesOf i events = []) {draftId : String} {next : RubricDraft → RubricProg}
    (hnext : (∀ draft, next draft = .done (.ok (.draft draft))) ∨
      ∃ approval minted approvedAt,
        (requests i).action = .approve draftId approval minted approvedAt ∧
        (requests i).principal.role.keepsRubrics .approveRubric = true ∧
        next = approveDraft draftId approval minted (requests i).principal.id
          (requests i).principal.organizationId approvedAt) :
    Serving drafter templates (requests i) i
      (events ++ [⟨i, .getRubricDraft draftId, .draft (contents.rubricDrafts draftId)⟩])
      (draftFound (requests i).principal.organizationId next
        (.draft (contents.rubricDrafts draftId))) := by
  have hquiet : writesOf i
      (events ++ [⟨i, .getRubricDraft draftId, .draft (contents.rubricDrafts draftId)⟩]) = [] :=
    writesOf_quiet hn (by simp)
  cases hstored : contents.rubricDrafts draftId with
  | none =>
    rw [hstored] at hquiet
    exact .booked hquiet (.failed _)
  | some draft =>
    rw [hstored] at hquiet
    simp only [draftFound]
    split
    next => exact .booked hquiet (.failed _)
    next htenant =>
      rcases hnext with hread | ⟨approval, minted, approvedAt, haction, hrole, rfl⟩
      · rw [hread draft]
        exact .booked hquiet (.read draft)
      · refine .holding hquiet hrole haction ?_ (fun hopen => ?_) rfl
        · cases ho : (requests i).principal.organizationId with
          | none => exact Or.inl rfl
          | some organizationId =>
            rw [ho] at htenant
            exact Or.inr (by simpa using htenant)
        · obtain ⟨hid, hd, _⟩ := h.books.pending draftId draft hstored hopen
          exact ⟨hid, hd.mono _⟩

theorem RubricInvariant.step (h : RubricInvariant drafter templates requests contents events clients)
    {i : ι} {input : StoreCall} {next : Reply → RubricProg} (hi : clients i = .call input next)
    {reply : Reply} (hr : reply.Gives (contents.step input).2) :
    RubricInvariant drafter templates requests (contents.step input).1
      (events ++ [⟨i, input, reply⟩]) (Function.update clients i (next reply)) := by
  cases h.serving i with
  | waiting hn hp =>
    cases route_call (hp.symm.trans hi) with
    | @draft draft hopen =>
      rcases replied_put hr with ⟨rfl, hnew, hcontents⟩ | ⟨e, rfl, hcontents⟩
      · rw [hcontents]
        exact h.extend (h.books.putDraft hopen hnew) (fun _ _ _ he => by cases he)
          (.booked (writesOf_done hn) (.drafted draft))
      · rw [hcontents]
        exact h.extend (h.books.quiet (by simp)) (fun _ _ _ he => by cases he)
          (.booked (writesOf_quiet hn (by simp)) (.failed _))
    | @get draftId next hnext =>
      cases gives_draft hr
      exact h.extend (h.books.quiet (by simp)) (fun _ _ _ he => by cases he) (h.read hn hnext)
    | job job =>
      cases gives_done hr
      exact h.extend (h.books.putJob job) (fun _ _ _ he => by cases he)
        (.booked (writesOf_done hn) (.job job))
  | @holding draftId minted approval approvedAt draft hn hrole haction htenant hdraft hp =>
    obtain ⟨approved, job, provenance, hmade, rfl, rfl⟩ := approveDraft_call (hp.symm.trans hi)
    obtain ⟨hopen, happroved⟩ := approveWithProvenance_status hmade
    obtain ⟨hid, hd⟩ := hdraft hopen
    rcases replied_approval hr with ⟨rfl, ⟨current, hcurrent, hpending⟩, hnew, hcontents⟩ |
      ⟨e, rfl, hcontents⟩
    · rw [hcontents]
      refine h.extend (h.books.approve hcurrent hpending hnew happroved) (fun _ _ _ he => ?_)
        (.booked (writesOf_done hn) (.approved draftId approved job))
      cases he
      exact ⟨draft, hid, hd, hrole, htenant, approval, minted, approvedAt, provenance,
        hid ▸ haction, hmade⟩
    · rw [hcontents]
      exact h.extend (h.books.quiet (by simp)) (fun _ _ _ he => by cases he)
        (.booked (writesOf_quiet hn (by simp)) (.failed _))
  | finished _ hp => cases hp.symm.trans hi

end

section Runs

end Runs

end NoraInterviewer
