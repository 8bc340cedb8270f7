import NoraInterviewer.WorkbenchSteps
import NoraInterviewer.Execution

namespace NoraInterviewer

/-- The submissions that the work done with a tool names. -/
def worksOn (works : List (String × String)) (toolId : String) : List String :=
  (works.filter fun work => work.1 = toolId).map Prod.snd

theorem worksOn_nil {works : List (String × String)} {toolId : String}
    (h : toolId ∉ works.map Prod.fst) : worksOn works toolId = [] := by
  have hnone : (works.filter fun work => work.1 = toolId) = [] := by
    refine List.filter_eq_nil_iff.mpr fun work hwork hid => h ?_
    rw [← of_decide_eq_true hid]
    exact List.mem_map_of_mem hwork
  rw [worksOn, hnone, List.map_nil]

theorem worksOn_singleton {works : List (String × String)} {toolId : String}
    (hn : (works.map Prod.fst).Nodup) (h : toolId ∈ works.map Prod.fst) :
    ∃ submissionId, worksOn works toolId = [submissionId] := by
  induction works with
  | nil => cases h
  | cons work rest ih =>
    rw [List.map_cons, List.nodup_cons] at hn
    rw [List.map_cons, List.mem_cons] at h
    by_cases hid : work.1 = toolId
    · refine ⟨work.2, ?_⟩
      have hrest := worksOn_nil (hid ▸ hn.1)
      unfold worksOn at hrest ⊢
      rw [List.filter_cons_of_pos (by simpa using hid), List.map_cons, hrest]
    · obtain ⟨submissionId, hrest⟩ := ih hn.2 (h.resolve_left fun he => hid he.symm)
      refine ⟨submissionId, ?_⟩
      unfold worksOn at hrest ⊢
      rw [List.filter_cons_of_neg (by simpa using hid), hrest]

/-- The tool that a submission is for, and the submission. -/
def ToolSubmission.work (submission : ToolSubmission) : String × String :=
  (submission.toolId, submission.id)

def ToolEvaluation.work (evaluation : ToolEvaluation) : String × String :=
  (evaluation.toolId, evaluation.submissionId)

/-- The tool and the submission that an artifact turn names. -/
def Turn.work (turn : Turn) : Option (String × String) :=
  if turn.speaker = .candidate ∧ turn.flagged "artifact" = true then
    some ((turn.metadata.lookup "tool_id").elim "" Json.toStr,
      (turn.metadata.lookup "tool_submission_id").elim "" Json.toStr)
  else none

def ToolInvocation.template (tool : ToolInvocation) : Option Json :=
  tool.payload.lookup "template_id"

/-- What of a tool stays while its status moves. -/
def ToolInvocation.origin (tool : ToolInvocation) : ToolInvocation := { tool with status := .open }

/-- An evaluated tool has one submission, one artifact turn and one evaluation, and they name the
tool and the submission; any other tool has none of them. -/
def WorkedOnce (session : InterviewSession) (tool : ToolInvocation) : Prop :=
  (tool.status = .evaluated → ∃ submissionId,
    worksOn (session.toolSubmissions.map ToolSubmission.work) tool.id = [submissionId] ∧
    worksOn (session.turns.filterMap Turn.work) tool.id = [submissionId] ∧
    worksOn (session.toolEvaluations.map ToolEvaluation.work) tool.id = [submissionId]) ∧
  (tool.status ≠ .evaluated →
    worksOn (session.toolSubmissions.map ToolSubmission.work) tool.id = [] ∧
    worksOn (session.turns.filterMap Turn.work) tool.id = [] ∧
    worksOn (session.toolEvaluations.map ToolEvaluation.work) tool.id = [])

/-- A status moves from open to evaluated or cancelled only. -/
def ToolStatus.Moves (before after : ToolStatus) : Prop :=
  after = before ∨ before = .open ∧ (after = .evaluated ∨ after = .cancelled)

/-- From one stored version to the next, tools stay and their statuses move, and new tools are
open. -/
structure ToolsMove (before after : List ToolInvocation) : Prop where
  kept : ∀ tool ∈ before, ∃ moved ∈ after, moved.id = tool.id ∧ tool.status.Moves moved.status
  opened : ∀ tool ∈ after, tool.id ∉ before.map ToolInvocation.id → tool.status = .open

/-- The tools opened for the brain: they stay, their templates differ, and there are at most
`limit` of them. -/
structure RequestsKept (limit : Nat) (requested tools : List ToolInvocation) : Prop where
  recorded : (requested.map ToolInvocation.origin).Sublist (tools.map ToolInvocation.origin)
  templates : (requested.map ToolInvocation.template).Nodup
  budget : requested.length ≤ limit

/-- The life of the tools along the versions of a session, newest first. -/
structure ToolLives (limit : Nat) (versions : List InterviewSession)
    (requested : List ToolInvocation) : Prop where
  started : ∀ session ∈ versions.getLast?, session.tools = []
  moves : versions.IsChain fun next session => ToolsMove session.tools next.tools
  ids : ∀ session ∈ versions, (session.tools.map ToolInvocation.id).Nodup
  worked : ∀ session ∈ versions, ∀ tool ∈ session.tools, WorkedOnce session tool
  requests : ∀ session ∈ versions.head?, RequestsKept limit requested session.tools

/-- A submission, its artifact turn and its evaluation stand together, for evaluated tools only. -/
structure ToolAccounts (turns : List Turn) (bench : Bench) : Prop where
  ids : (bench.tools.map ToolInvocation.id).Nodup
  settled : ∀ tool ∈ bench.tools, tool.status ≠ .submitted
  turned : turns.filterMap Turn.work = bench.toolSubmissions.map ToolSubmission.work
  judged : bench.toolEvaluations.map ToolEvaluation.work =
    bench.toolSubmissions.map ToolSubmission.work
  once : (bench.toolSubmissions.map ToolSubmission.toolId).Nodup
  evaluated : ∀ id, id ∈ bench.toolSubmissions.map ToolSubmission.toolId ↔
    hasStatus bench.tools id .evaluated

theorem ToolAccounts.workedOnce {session : InterviewSession} {tool : ToolInvocation}
    (h : ToolAccounts session.turns session.bench) (ht : tool ∈ session.tools) :
    WorkedOnce session tool := by
  have hturned : session.turns.filterMap Turn.work =
      session.toolSubmissions.map ToolSubmission.work := h.turned
  have hjudged : session.toolEvaluations.map ToolEvaluation.work =
      session.toolSubmissions.map ToolSubmission.work := h.judged
  have hfst : (session.toolSubmissions.map ToolSubmission.work).map Prod.fst =
      session.toolSubmissions.map ToolSubmission.toolId := by
    rw [List.map_map]
    rfl
  have hstatus : tool.id ∈ (session.toolSubmissions.map ToolSubmission.work).map Prod.fst ↔
      tool.status = .evaluated := by
    rw [hfst]
    refine (h.evaluated tool.id).trans ⟨fun hs => ?_, fun hs => ⟨tool, ht, rfl, hs⟩⟩
    exact hasStatus_unique h.ids ⟨tool, ht, rfl, rfl⟩ hs
  rw [WorkedOnce, hturned, hjudged]
  constructor
  · intro hs
    obtain ⟨submissionId, hone⟩ := worksOn_singleton (hfst ▸ h.once) (hstatus.mpr hs)
    exact ⟨submissionId, hone, hone, hone⟩
  · intro hs
    have hnone := worksOn_nil (mt hstatus.mp hs)
    exact ⟨hnone, hnone, hnone⟩

/-- What every tool of a list undergoes when its status moves. -/
structure ToolInvocation.MovesTo (tool moved : ToolInvocation) : Prop where
  origin : moved.origin = tool.origin
  status : tool.status.Moves moved.status

theorem ToolInvocation.MovesTo.refl (tool : ToolInvocation) : tool.MovesTo tool :=
  ⟨rfl, .inl rfl⟩

theorem origins_ids {before after : List ToolInvocation}
    (h : after.map ToolInvocation.origin = before.map ToolInvocation.origin) :
    after.map ToolInvocation.id = before.map ToolInvocation.id := by
  have hid : ∀ tools : List ToolInvocation,
      tools.map ToolInvocation.id =
        (tools.map ToolInvocation.origin).map ToolInvocation.id := by
    intro tools
    rw [List.map_map]
    rfl
  rw [hid after, hid before, h]

section Moving

variable {tools : List ToolInvocation} {move : ToolInvocation → ToolInvocation}

theorem moved_origins (hm : ∀ tool ∈ tools, tool.MovesTo (move tool)) :
    (tools.map move).map ToolInvocation.origin = tools.map ToolInvocation.origin := by
  rw [List.map_map]
  exact List.map_congr_left fun tool ht => (hm tool ht).origin

theorem ToolsMove.moved {opened : List ToolInvocation}
    (hm : ∀ tool ∈ tools, tool.MovesTo (move tool))
    (ho : ∀ tool ∈ opened, tool.status = .open) : ToolsMove tools (tools.map move ++ opened) := by
  constructor
  · intro tool ht
    refine ⟨move tool, List.mem_append_left _ (List.mem_map_of_mem ht), ?_, (hm tool ht).status⟩
    have hid : (move tool).origin.id = tool.origin.id :=
      congrArg ToolInvocation.id (hm tool ht).origin
    exact hid
  · intro tool ht hnew
    rcases List.mem_append.mp ht with ht | ht
    · refine absurd ?_ hnew
      rw [← origins_ids (moved_origins hm)]
      exact List.mem_map_of_mem ht
    · exact ho tool ht

end Moving

theorem ToolsMove.opened_only {tools opened : List ToolInvocation}
    (ho : ∀ tool ∈ opened, tool.status = .open) : ToolsMove tools (tools ++ opened) := by
  have hsame : ToolsMove tools (tools.map id ++ opened) := .moved (fun tool _ => .refl tool) ho
  rwa [List.map_id] at hsame

/-- A submission moves the one tool it is for, which was open. -/
theorem worked_moves {tools : List ToolInvocation} {invocation : ToolInvocation}
    (hn : (tools.map ToolInvocation.id).Nodup) (hmem : invocation ∈ tools)
    (hopen : invocation.status = .open) :
    ∃ move : ToolInvocation → ToolInvocation, (∀ tool ∈ tools, tool.MovesTo (move tool)) ∧
      setToolStatus invocation.id .evaluated (setToolStatus invocation.id .submitted tools) =
        tools.map move ∧ ∀ tool, (move tool).status = .submitted → tool.status = .submitted := by
  refine ⟨fun tool => if tool.id = invocation.id then { tool with status := .evaluated } else tool,
    fun tool ht => ?_, ?_, fun tool hs => ?_⟩
  · by_cases hid : tool.id = invocation.id
    · have hsame := List.inj_on_of_nodup_map hn ht hmem hid
      simp only
      rw [if_pos hid]
      exact ⟨rfl, .inr ⟨hsame ▸ hopen, .inl rfl⟩⟩
    · simp only
      rw [if_neg hid]
      exact .refl tool
  · have hids := setToolStatus_ids invocation.id .submitted tools
    rw [setToolStatus_map (hids ▸ hn), setToolStatus_map hn, List.map_map]
    refine List.map_congr_left fun tool _ => ?_
    by_cases hid : tool.id = invocation.id
    · simp [hid]
    · simp [hid]
  · simp only at hs
    split at hs
    next => cases hs
    next => exact hs

theorem cancel_moves {tool : ToolInvocation} (hs : tool.status ≠ .submitted) :
    tool.MovesTo tool.cancel := by
  unfold ToolInvocation.cancel
  split
  next hpending => exact ⟨rfl, .inr ⟨hpending.resolve_right hs, .inr rfl⟩⟩
  next => exact .refl tool

theorem RequestsKept.congr {limit : Nat} {requested tools tools' : List ToolInvocation}
    (h : RequestsKept limit requested tools)
    (ho : tools'.map ToolInvocation.origin = tools.map ToolInvocation.origin) :
    RequestsKept limit requested tools' :=
  ⟨ho ▸ h.recorded, h.templates, h.budget⟩

theorem RequestsKept.more {limit : Nat} {requested tools : List ToolInvocation}
    (h : RequestsKept limit requested tools) (opened : List ToolInvocation) :
    RequestsKept limit requested (tools ++ opened) := by
  refine ⟨?_, h.templates, h.budget⟩
  rw [List.map_append]
  exact h.recorded.trans (List.sublist_append_left _ _)

theorem RequestsKept.requested {limit : Nat} {requested tools : List ToolInvocation}
    {tool : ToolInvocation} {job : JobSpec} {turns : List Turn}
    (h : RequestsKept limit requested tools) (hr : Requested job turns tools tool) (hlimit : job.maxTools ≤ limit)
    (hids : ∀ item ∈ job.toolTemplates, item.templateId ≠ "") :
    RequestsKept limit (requested ++ [tool]) (tools ++ [tool]) := by
  obtain ⟨item, hitem, htemplate, hunused⟩ := hr.template
  refine ⟨?_, ?_, ?_⟩
  · rw [List.map_append, List.map_append]
    exact h.recorded.append (List.Sublist.refl _)
  · rw [List.map_append, List.map_singleton]
    refine List.Nodup.append h.templates (List.nodup_singleton _) ?_
    rw [List.disjoint_singleton]
    intro hmem
    obtain ⟨earlier, hearlier, hsame⟩ := List.mem_map.mp hmem
    obtain ⟨other, hother, horigin⟩ :=
      List.mem_map.mp (h.recorded.subset (List.mem_map_of_mem hearlier))
    have hpayload : other.origin.payload = earlier.origin.payload :=
      congrArg ToolInvocation.payload horigin
    have hpayload : other.payload = earlier.payload := hpayload
    rcases hunused other hother with hne | hempty
    · refine hne ?_
      rw [hpayload]
      exact hsame.trans htemplate
    · exact hids item hitem hempty
  · have hlength := h.recorded.length_le
    rw [List.length_map, List.length_map] at hlength
    have hbudget := hr.budget
    rw [List.length_append, List.length_singleton]
    omega

section Accounts

variable {turns : List Turn} {bench : Bench}

/-- Opening tools under new ids, and moving the unevaluated ones, touches no work done. -/
theorem ToolAccounts.opens {opened : List ToolInvocation} (h : ToolAccounts turns bench)
    (hn : ((bench.tools ++ opened).map ToolInvocation.id).Nodup)
    (ho : ∀ tool ∈ opened, tool.status = .open) :
    ToolAccounts turns { bench with tools := bench.tools ++ opened } := by
  refine ⟨hn, fun tool ht => ?_, h.turned, h.judged, h.once, fun id => ?_⟩
  · rcases List.mem_append.mp ht with ht | ht
    · exact h.settled tool ht
    · rw [ho tool ht]
      decide
  · refine (h.evaluated id).trans ⟨fun ⟨tool, ht, hs⟩ => ⟨tool, List.mem_append_left _ ht, hs⟩, ?_⟩
    rintro ⟨tool, ht, hid, hs⟩
    rcases List.mem_append.mp ht with ht | ht
    · exact ⟨tool, ht, hid, hs⟩
    · rw [ho tool ht] at hs
      cases hs

theorem ToolAccounts.cancels (h : ToolAccounts turns bench) :
    ToolAccounts turns { bench with tools := bench.tools.map ToolInvocation.cancel } := by
  refine ⟨?_, fun tool ht => ?_, h.turned, h.judged, h.once, fun id => ?_⟩
  · rw [cancel_ids]
    exact h.ids
  · obtain ⟨old, hold, rfl⟩ := List.mem_map.mp ht
    rcases cancel_status old with ⟨hs, _⟩ | ⟨hs, _⟩
    · rw [hs]
      decide
    · rw [hs]
      decide
  · rw [cancel_hasStatus_evaluated]
    exact h.evaluated id

/-- The work on an open tool adds one submission, one artifact turn and one evaluation of it. -/
theorem ToolAccounts.works {turns' : List Turn} {invocation : ToolInvocation}
    {submission : ToolSubmission} {evaluation : ToolEvaluation} (h : ToolAccounts turns bench)
    (hmem : invocation ∈ bench.tools) (hopen : invocation.status = .open)
    (hsubmission : submission.toolId = invocation.id)
    (hevaluation : evaluation.work = submission.work)
    (hturns : turns'.filterMap Turn.work = turns.filterMap Turn.work ++ [submission.work]) :
    ToolAccounts turns'
      ⟨setToolStatus invocation.id .evaluated (setToolStatus invocation.id .submitted bench.tools),
        bench.toolSubmissions ++ [submission], bench.toolEvaluations ++ [evaluation]⟩ := by
  have hnew : invocation.id ∉ bench.toolSubmissions.map ToolSubmission.toolId := by
    intro hdone
    have hsame := hasStatus_unique h.ids ((h.evaluated _).mp hdone) ⟨invocation, hmem, rfl, hopen⟩
    cases hsame
  refine ⟨?_, fun tool ht => ?_, ?_, ?_, ?_, fun id => ?_⟩
  · rw [setToolStatus_ids, setToolStatus_ids]
    exact h.ids
  · obtain ⟨move, _, hmove, hsubmitted⟩ := worked_moves h.ids hmem hopen
    have hin : tool ∈ bench.tools.map move := hmove ▸ ht
    obtain ⟨old, hold, rfl⟩ := List.mem_map.mp hin
    exact mt (hsubmitted old) (h.settled old hold)
  · rw [hturns, h.turned, List.map_append, List.map_singleton]
  · rw [List.map_append, List.map_append, h.judged, List.map_singleton, List.map_singleton,
      hevaluation]
  · rw [List.map_append, List.map_singleton, hsubmission]
    exact List.Nodup.append h.once (List.nodup_singleton _) (List.disjoint_singleton.mpr hnew)
  · rw [(worked_hasStatus h.ids hmem hopen id).1, List.map_append, List.mem_append,
      List.map_singleton, List.mem_singleton, hsubmission, h.evaluated id, or_comm]

theorem ToolAccounts.spoken {turns' : List Turn} (h : ToolAccounts turns bench)
    (ht : turns'.filterMap Turn.work = turns.filterMap Turn.work) : ToolAccounts turns' bench :=
  ⟨h.ids, h.settled, ht.trans h.turned, h.judged, h.once, h.evaluated⟩

end Accounts

theorem artifactTurn_work (call : Ambient) (session : InterviewSession)
    (invocation : ToolInvocation) (submission : ToolSubmission) :
    (artifactTurn call session invocation submission).work =
      some (invocation.id, submission.id) := by
  simp [Turn.work, artifactTurn, Turn.flagged, Json.truthy, Json.toStr, List.lookup_cons]

theorem spoken_work {turn : Turn} (h : turn.speaker = .interviewer) : turn.work = none := by
  rw [Turn.work, h]
  exact if_neg fun hboth => by cases hboth.1

theorem answerTurn_work (call : Ambient) (turns : List Turn) (text : String)
    {turnMetadata : Dict Json} (h : turnMetadata.lookup "artifact" = none) :
    (answerTurn call turns text turnMetadata).work = none := by
  have hflag : (answerTurn call turns text turnMetadata).flagged "artifact" = false := by
    show (turnMetadata.lookup "artifact").any Json.truthy = false
    rw [h]
    rfl
  rw [Turn.work, hflag]
  exact if_neg fun hboth => by cases hboth.2

/-- A correction leaves a turn the artifact it was. -/
theorem corrected_work (session : InterviewSession) (turn : Turn) (text : String)
    (revision : TranscriptRevision) :
    ({ turn with text, metadata := correctedMetadata session turn revision } : Turn).work =
      turn.work := by
  have hkept : ∀ key, key ≠ "transcript_revision_count" → key ≠ "transcript_revision_id" →
      (correctedMetadata session turn revision).lookup key = turn.metadata.lookup key := by
    intro key hcount hid
    unfold correctedMetadata
    rw [Dict.lookup_set_ne hcount, Dict.lookup_set_ne hid]
  simp only [Turn.work, Turn.flagged, hkept "artifact" (by decide) (by decide),
    hkept "tool_id" (by decide) (by decide), hkept "tool_submission_id" (by decide) (by decide)]
  rfl

theorem modify_map_at {α β : Type} {f : α → α} {key : α → β} (items : List α) (index : Nat)
    (hk : ∀ item, items[index]? = some item → key (f item) = key item) :
    (items.modify index f).map key = items.map key := by
  apply List.ext_getElem?
  intro i
  rw [List.getElem?_map, List.getElem?_map, List.getElem?_modify]
  by_cases h : index = i
  · subst h
    cases hitem : items[index]? with
    | none => rfl
    | some item => simp [hk item hitem]
  · simp [h]

theorem revisedTurns_work {session : InterviewSession} {index : Nat} {turn : Turn}
    (ht : session.turns[index]? = some turn) (revision : TranscriptRevision) :
    (revisedTurns session index turn revision).filterMap Turn.work =
      session.turns.filterMap Turn.work := by
  have hmap : ∀ turns : List Turn, turns.filterMap Turn.work =
      (turns.map Turn.work).filterMap id := by
    intro turns
    rw [List.filterMap_map]
    rfl
  rw [hmap, hmap session.turns]
  refine congrArg (List.filterMap id) (modify_map_at _ _ fun item hitem => ?_)
  rw [ht] at hitem
  cases hitem
  exact corrected_work _ _ _ _

section

variable [CanonicalDigest] {call : Call} {job : JobSpec}

/-- A call whose job allows at most `limit` tools under proper template ids, whose evaluator names
what it evaluated, and whose answers carry no artifact. -/
structure Tooling (limit : Nat) (call : Call) (operation : Operation) : Prop where
  budget : ∀ job, call.job = some job → job.maxTools ≤ limit
  templates : ∀ job, call.job = some job → ∀ item ∈ job.toolTemplates, item.templateId ≠ ""
  named : ∀ tool submission session job evaluation,
    call.evaluate tool submission session job = .ok evaluation →
      evaluation.toolId = tool.id ∧ evaluation.submissionId = submission.id
  answers : ∀ text turnMetadata, operation = .answer text turnMetadata →
    turnMetadata.lookup "artifact" = none

/-- A client hands over open tools only. -/
def Operation.OpensOpen (operation : Operation) : Prop :=
  ∀ tool, operation = .openTool tool → tool.status = .open

/-- The versions of a session, with the tools that were opened for its brain. -/
inductive Requests (backend : Backend) (admissible : Call → Operation → InterviewSession → Prop) :
    List InterviewSession → List ToolInvocation → Prop where
  | created {call : Call} {request : CreateSession} {organizationId : Option String}
    {session : InterviewSession} (h : createSession call request organizationId = .ok session) :
    Requests backend admissible [backend.stored session] []
  | committed {call : Call} {operation : Operation} {session session' : InterviewSession}
    {past : List InterviewSession} {requested : List ToolInvocation}
    (h : Requests backend admissible (session :: past) requested)
    (ha : admissible call operation session)
    (hm : mutate call operation session = .ok (some session')) :
    Requests backend admissible (backend.stored session' :: session :: past)
      (requested ++ if operation.asks then session'.tools.drop session.tools.length else [])

theorem Requests.history {backend : Backend}
    {admissible : Call → Operation → InterviewSession → Prop} {versions : List InterviewSession}
    {requested : List ToolInvocation} (h : Requests backend admissible versions requested) :
    History backend admissible versions := by
  induction h with
  | created h => exact .created h
  | committed _ ha hm ih => exact ih.committed ha hm

theorem History.requests {backend : Backend}
    {admissible : Call → Operation → InterviewSession → Prop} {versions : List InterviewSession}
    (h : History backend admissible versions) :
    ∃ requested, Requests backend admissible versions requested := by
  induction h with
  | created h => exact ⟨_, .created h⟩
  | committed _ ha hm ih =>
    obtain ⟨requested, hrequested⟩ := ih
    exact ⟨_, hrequested.committed ha hm⟩

/-- Only a submission adds an artifact. -/
theorem Transcribes.works {session : InterviewSession} {operation : Operation} {turns : List Turn}
    {revisions : List TranscriptRevision}
    (h : Transcribes call job session operation turns revisions)
    (ha : ∀ text turnMetadata, operation = .answer text turnMetadata →
      turnMetadata.lookup "artifact" = none) :
    (∃ toolId request work, operation = .submitTool toolId request ∧
      prepareTool call session job toolId request = .ok work ∧
      turns.filterMap Turn.work = session.turns.filterMap Turn.work ++ [work.submission.work]) ∨
    (∀ toolId request, operation ≠ .submitTool toolId request) ∧
      turns.filterMap Turn.work = session.turns.filterMap Turn.work := by
  have hasked : ∀ (ambient : Ambient) (shown : InterviewSession) (decision : AgentDecision)
      (latencyMs : Nat), (decisionTurn ambient shown decision latencyMs).work = none :=
    fun _ _ _ _ => spoken_work rfl
  cases h with
  | started =>
    refine .inr ⟨fun _ _ hw => (by cases hw), ?_⟩
    rw [List.filterMap_append, List.filterMap_cons_none (hasked _ _ _ _), List.filterMap_nil,
      List.append_nil]
  | answered =>
    refine .inr ⟨fun _ _ hw => (by cases hw), ?_⟩
    rw [List.filterMap_append, List.filterMap_cons_none (answerTurn_work _ _ _ (ha _ _ rfl)),
      List.filterMap_cons_none (hasked _ _ _ _), List.filterMap_nil, List.append_nil]
  | @worked toolId _ work _ _ hwork =>
    refine .inl ⟨_, _, _, rfl, hwork, ?_⟩
    obtain ⟨invocation, hfind, _, hevaluated, hsubmission, _⟩ := prepareTool_bench hwork
    have hid : invocation.id = toolId := by simpa using List.find?_some hfind
    rw [List.filterMap_append, List.filterMap_cons_some (artifactTurn_work _ _ _ _),
      List.filterMap_cons_none (hasked _ _ _ _), List.filterMap_nil, hevaluated]
    simp only [ToolSubmission.work, hsubmission, hid]
  | replied hr ht =>
    refine .inr ⟨fun _ _ hw => (by cases hw), ?_⟩
    obtain ⟨_, hturn, _⟩ := handleCandidateControl_ok hr
    rw [List.filterMap_append, List.filterMap_cons_none (spoken_work (hturn _ ht).2.1),
      List.filterMap_nil, List.append_nil]
  | revised hc _ ht =>
    refine .inr ⟨fun _ _ hw => ?_, revisedTurns_work ht _⟩
    rw [hw] at hc
    cases hc
  | kept hq =>
    refine .inr ⟨fun _ _ hw => ?_, rfl⟩
    rw [hw] at hq
    cases hq

/-- How an operation moves the tools, and what it opens. -/
theorem Handles.shape {session : InterviewSession} {operation : Operation} {turns : List Turn}
    {bench : Bench} (h : Handles call job session operation turns bench)
    (ho : operation.OpensOpen)
    (hids : (session.tools.map ToolInvocation.id).Nodup)
    (hsettled : ∀ tool ∈ session.tools, tool.status ≠ .submitted) :
    ∃ move opened, bench.tools = session.tools.map move ++ opened ∧
      (∀ tool ∈ session.tools, tool.MovesTo (move tool)) ∧
      (∀ tool ∈ opened, tool.status = .open) ∧
      (opened.map ToolInvocation.id).Nodup ∧
      (∀ tool ∈ opened, tool.id ∉ session.tools.map ToolInvocation.id) ∧
      (operation.asks = true → opened = [] ∨
        ∃ tool, opened = [tool] ∧ Requested job turns (session.tools.map move) tool) := by
  have hchoice : ∀ {tools : List ToolInvocation} {opened : Option ToolInvocation},
      (∀ tool ∈ opened, Requested job turns tools tool) →
      (∀ tool ∈ opened.toList, tool.status = .open) ∧
      (opened.toList.map ToolInvocation.id).Nodup ∧
      (∀ tool ∈ opened.toList, tool.id ∉ tools.map ToolInvocation.id) ∧
      (opened.toList = [] ∨
        ∃ tool, opened.toList = [tool] ∧ Requested job turns tools tool) := by
    intro tools opened hopened
    cases opened with
    | none => simp
    | some tool =>
      have hr := hopened tool rfl
      refine ⟨?_, List.nodup_singleton _, ?_, .inr ⟨tool, rfl, hr⟩⟩
      · simpa using hr.status
      · intro other hother
        rw [List.mem_singleton.mp hother]
        exact hr.id
  cases h with
  | asked _ _ hopened =>
    obtain ⟨hopen, hnodup, hnew, hone⟩ := hchoice hopened
    refine ⟨id, _, ?_, fun tool _ => .refl tool, hopen, hnodup, hnew, fun _ => ?_⟩
    · rw [List.map_id]
    · rw [List.map_id]
      exact hone
  | @worked toolId _ work _ _ hwork hopened =>
    obtain ⟨hopen, hnodup, hnew, hone⟩ := hchoice hopened
    obtain ⟨invocation, hfind, hlive, _, _, _, hbench⟩ := prepareTool_bench hwork
    have hid : invocation.id = toolId := by simpa using List.find?_some hfind
    have htools := congrArg Bench.tools hbench
    obtain ⟨move, hmoves, hmove, _⟩ := worked_moves hids (List.mem_of_find?_eq_some hfind) hlive
    have hmoved := htools.trans (hid ▸ hmove)
    have hmoved : _ = session.tools.map move := hmoved
    refine ⟨move, _, ?_, hmoves, hopen, hnodup, ?_, fun _ => ?_⟩
    · exact congrArg (· ++ _) hmoved
    · rw [← origins_ids (moved_origins hmoves), ← hmoved]
      exact hnew
    · rw [← hmoved]
      exact hone
  | @opened _ tool ha hnew _ _ hs =>
    have hopen : tool.status = .open := hs.elim (fun hopen => hopen) (ho tool)
    refine ⟨id, [tool], ?_, fun tool _ => .refl tool, by simpa using hopen, by simp, by simpa using hnew,
      fun hask => ?_⟩
    · rw [List.map_id]
    · rw [ha] at hask
      cases hask
  | cancelled =>
    refine ⟨ToolInvocation.cancel, [], (List.append_nil _).symm,
      fun tool ht => cancel_moves (hsettled tool ht), by simp, by simp, by simp, fun hask => ?_⟩
    cases hask
  | kept ha =>
    refine ⟨id, [], ?_, fun tool _ => .refl tool, by simp, by simp, by simp, fun hask => ?_⟩
    · rw [List.map_id, List.append_nil]
      rfl
    · rw [ha] at hask
      cases hask

theorem Handles.moves {session : InterviewSession} {operation : Operation} {turns : List Turn}
    {bench : Bench} (h : Handles call job session operation turns bench)
    (ho : operation.OpensOpen)
    (ha : ToolAccounts session.turns session.bench) : ToolsMove session.tools bench.tools := by
  obtain ⟨move, opened, htools, hmoves, hopen, _⟩ := h.shape ho ha.ids ha.settled
  rw [htools]
  exact .moved hmoves hopen

theorem Handles.requests {limit : Nat} {session : InterviewSession} {operation : Operation}
    {turns : List Turn} {bench : Bench} {requested : List ToolInvocation}
    (hjob : call.job = some job) (hcall : Tooling limit call operation)
    (h : Handles call job session operation turns bench)
    (ho : operation.OpensOpen) (ha : ToolAccounts session.turns session.bench)
    (hk : RequestsKept limit requested session.tools) :
    RequestsKept limit
      (requested ++ if operation.asks then bench.tools.drop session.tools.length else [])
      bench.tools := by
  obtain ⟨move, opened, htools, hmoves, _, _, _, hone⟩ := h.shape ho ha.ids ha.settled
  have hkept : RequestsKept limit requested (session.tools.map move) :=
    hk.congr (moved_origins hmoves)
  have hnew : bench.tools.drop session.tools.length = opened := by
    rw [htools]
    exact List.drop_left' (List.length_map _)
  rw [hnew, htools]
  by_cases hask : operation.asks = true
  · rw [if_pos hask]
    rcases hone hask with rfl | ⟨tool, rfl, hr⟩
    · rw [List.append_nil]
      exact hkept.more []
    · exact hkept.requested hr (hcall.budget job hjob) (hcall.templates job hjob)
  · rw [if_neg hask, List.append_nil]
    exact hkept.more opened

theorem Handles.accounts {limit : Nat} {session : InterviewSession} {operation : Operation}
    {turns : List Turn} {revisions : List TranscriptRevision} {bench : Bench}
    (hcall : Tooling limit call operation) (ho : operation.OpensOpen)
    (ht : Transcribes call job session operation turns revisions)
    (h : Handles call job session operation turns bench)
    (ha : ToolAccounts session.turns session.bench) : ToolAccounts turns bench := by
  obtain ⟨move, opened, htools, hmoves, hopen, hnodup, hnew, _⟩ := h.shape ho ha.ids ha.settled
  have hids : (bench.tools.map ToolInvocation.id).Nodup := by
    rw [htools, List.map_append, origins_ids (moved_origins hmoves)]
    refine List.Nodup.append ha.ids hnodup ?_
    intro id hin hout
    obtain ⟨tool, htool, rfl⟩ := List.mem_map.mp hout
    exact hnew tool htool hin
  rcases ht.works hcall.answers with ⟨toolId, request, work, rfl, hwork, hturns⟩ | ⟨hother, hturns⟩
  · cases h with
    | asked _ hw => exact absurd rfl (hw toolId request)
    | @worked _ _ again _ requested hagain hrequested =>
      cases Except.ok.inj (hwork.symm.trans hagain)
      obtain ⟨invocation, hfind, hlive, _, hsubmission, ⟨shown, hevaluate⟩, hbench⟩ :=
        prepareTool_bench hwork
      have hid : invocation.id = toolId := by simpa using List.find?_some hfind
      obtain ⟨htool, hnamed⟩ := hcall.named _ _ _ _ _ hevaluate
      have hevaluation : work.evaluation.work = work.submission.work := by
        have htool : work.evaluation.toolId = work.submission.toolId :=
          htool.trans (hid.trans hsubmission.symm)
        rw [ToolEvaluation.work, ToolSubmission.work, htool, hnamed]
      have hworked : ToolAccounts turns work.session.bench := by
        rw [hbench, ← hid]
        exact ha.works (List.mem_of_find?_eq_some hfind) hlive (hsubmission.trans hid.symm)
          hevaluation hturns
      refine hworked.opens hids fun tool hin => ?_
      exact (hrequested tool (Option.mem_toList.mp hin)).status
    | opened hask => cases hask
    | kept hask => cases hask
  · have hsaid : ToolAccounts turns session.bench := ha.spoken hturns
    cases h with
    | asked _ _ hrequested =>
      refine hsaid.opens hids fun tool hin => ?_
      exact (hrequested tool (Option.mem_toList.mp hin)).status
    | worked => exact absurd rfl (hother _ _)
    | @opened _ tool _ _ _ _ hs =>
      refine hsaid.opens hids fun other hin => ?_
      rw [List.mem_singleton.mp hin]
      exact hs.elim (fun hopen => hopen) (ho tool)
    | cancelled => exact hsaid.cancels
    | kept => exact hsaid

/-- The invariant of the run, and what it makes of the past. -/
theorem Requests.accounts {limit : Nat} {backend : Backend} {versions : List InterviewSession}
    {requested : List ToolInvocation}
    (h : Requests backend (fun call operation _ => Tooling limit call operation ∧
      operation.OpensOpen) versions requested) :
    (∀ session ∈ versions, ToolAccounts session.turns session.bench) ∧
      versions.IsChain (fun next session => ToolsMove session.tools next.tools) ∧
      (∀ session ∈ versions.getLast?, session.tools = []) ∧
      ∀ session ∈ versions.head?, RequestsKept limit requested session.tools := by
  induction h with
  | @created call request organizationId session h =>
    obtain ⟨hturns, _⟩ := stored_transcript backend session
    obtain ⟨hnone, _⟩ := createSession_transcript h
    have hbench : (backend.stored session).bench = ⟨[], [], []⟩ :=
      (stored_bench backend session).trans (createSession_bench h)
    have htools : (backend.stored session).tools = [] := congrArg Bench.tools hbench
    refine ⟨fun stored hs => ?_, .singleton _, fun stored hs => ?_, fun stored hs => ?_⟩
    · rw [List.mem_singleton.mp hs, hturns, hnone, hbench]
      exact ⟨List.nodup_nil, by simp, rfl, rfl, List.nodup_nil, by simp [hasStatus]⟩
    · cases hs
      exact htools
    · cases hs
      rw [htools]
      exact ⟨List.Sublist.refl _, List.nodup_nil, Nat.zero_le _⟩
  | @committed call operation session session' past requested _ ha hm ih =>
    obtain ⟨hcall, ho⟩ := ha
    obtain ⟨haccounts, hchain, hstarted, hrequests⟩ := ih
    obtain ⟨job, hjob, htranscribes⟩ := mutate_transcribes hm
    obtain ⟨job', hjob', hhandles⟩ := mutate_handles hm
    cases Option.some.inj (hjob.symm.trans hjob')
    have hbefore := haccounts session List.mem_cons_self
    obtain ⟨hturns, _⟩ := stored_transcript backend session'
    have hbench := stored_bench backend session'
    have htools : (backend.stored session').tools = session'.tools := congrArg Bench.tools hbench
    refine ⟨fun stored hs => ?_, ?_, ?_, fun stored hs => ?_⟩
    · rcases List.mem_cons.mp hs with rfl | hs
      · rw [hturns, hbench]
        exact hhandles.accounts hcall ho htranscribes hbefore
      · exact haccounts stored hs
    · refine List.isChain_cons_cons.mpr ⟨?_, hchain⟩
      rw [htools]
      exact hhandles.moves ho hbefore
    · rwa [List.getLast?_cons_cons]
    · cases hs
      rw [htools]
      exact hhandles.requests hjob hcall ho hbefore (hrequests session rfl)

/-- While clients open open tools only and the job's tool budget does not shrink, every tool lives
as it should. -/
theorem tools_live {limit : Nat} {backend : Backend} {versions : List InterviewSession}
    {requested : List ToolInvocation}
    (h : Requests backend (fun call operation _ => Tooling limit call operation ∧
      operation.OpensOpen) versions requested) : ToolLives limit versions requested := by
  obtain ⟨haccounts, hmoves, hstarted, hrequests⟩ := h.accounts
  refine ⟨hstarted, hmoves, fun session hs => (haccounts session hs).ids, ?_, hrequests⟩
  exact fun session hs tool ht => (haccounts session hs).workedOnce ht

end

section Runs

attribute [local instance] checksumDigest

/-- A call on `job` whose brain decides `decision`, with one template. -/
def noteCall (job : JobSpec) (decision : AgentDecision) : Call :=
  { jobCall job (steadyBrain decision) with
    templates := [.static "note" .document "Design note" "Write it down." []] }

theorem noteCall_tooling {job : JobSpec} {decision : AgentDecision} {operation : Operation}
    (hlimit : job.maxTools ≤ 2) (hids : ∀ item ∈ job.toolTemplates, item.templateId ≠ "")
    (ha : ∀ text turnMetadata, operation ≠ .answer text turnMetadata) :
    Tooling 2 (noteCall job decision) operation := by
  refine ⟨fun other h => ?_, fun other h => ?_, fun tool submission _ _ evaluation h => ?_,
    fun text turnMetadata h => absurd h (ha text turnMetadata)⟩
  · cases h
    exact hlimit
  · cases h
    exact hids
  · cases h
    exact ⟨rfl, rfl⟩

/-- The brain opens a note, and the candidate submits it. -/
theorem tools_live_evaluated : ∃ versions requested,
    Requests .memory (fun call operation _ => Tooling 2 call operation ∧ operation.OpensOpen)
      versions requested ∧
    ToolLives 2 versions requested ∧
    ∃ session ∈ versions, ∃ tool ∈ session.tools, tool.status = .evaluated := by
  have hrun : (jobRun workshopJob .memory
      [(noteCall workshopJob { askDecision with toolRequest := some ⟨"note"⟩ }, .start),
        (noteCall workshopJob askDecision, .submitTool "tool-0" ⟨[]⟩)]).any
      (fun versions => versions.head?.any fun session =>
        session.tools.any fun tool => tool.status = .evaluated) = true := by decide +kernel
  obtain ⟨session, past, hhistory, hcheck⟩ := jobRun_last
    (fun call operation => (∃ decision, call = noteCall workshopJob decision) ∧
      (operation = .start ∨ operation = .submitTool "tool-0" ⟨[]⟩)) (by simp) hrun
  obtain ⟨tool, htool, hevaluated⟩ := List.any_eq_true.mp hcheck
  have hids : ∀ item ∈ workshopJob.toolTemplates, item.templateId ≠ "" := by decide
  have htooled : History .memory
      (fun call operation _ => Tooling 2 call operation ∧ operation.OpensOpen)
      (session :: past) := by
    refine hhistory.mono fun call operation _ ha => ?_
    obtain ⟨_, ⟨decision, rfl⟩, rfl | rfl⟩ := ha
    · exact ⟨noteCall_tooling (by decide) hids fun _ _ h => (by cases h), fun _ h => (by cases h)⟩
    · exact ⟨noteCall_tooling (by decide) hids fun _ _ h => (by cases h), fun _ h => (by cases h)⟩
  obtain ⟨requested, hrequests⟩ := htooled.requests
  exact ⟨_, requested, hrequests, tools_live hrequests, session, List.mem_cons_self, tool, htool,
    of_decide_eq_true hevaluated⟩

/-- A client opens a tool that it calls evaluated: it never was open, and nothing was submitted. -/
theorem tool_opened_evaluated : ∃ versions requested,
    Requests .memory (fun call operation _ => Tooling 2 call operation) versions requested ∧
    ¬ToolLives 2 versions requested := by
  have hrun : (jobRun plainJob .memory
      [(noteCall plainJob askDecision, .openTool { plainTool with status := .evaluated })]).any
      (fun versions => versions.head?.any fun session => session.toolSubmissions.isEmpty &&
        session.tools.any fun tool => tool.status = .evaluated) = true := by decide +kernel
  obtain ⟨session, past, hhistory, hcheck⟩ := jobRun_last
    (fun call operation => call = noteCall plainJob askDecision ∧
      operation = .openTool { plainTool with status := .evaluated }) (by simp) hrun
  obtain ⟨hnone, hany⟩ := Bool.and_eq_true_iff.mp hcheck
  obtain ⟨tool, htool, hevaluated⟩ := List.any_eq_true.mp hany
  have htooled : History .memory (fun call operation _ => Tooling 2 call operation)
      (session :: past) := by
    refine hhistory.mono fun call operation _ ha => ?_
    obtain ⟨_, rfl, rfl⟩ := ha
    exact noteCall_tooling (by decide) (by decide) fun _ _ h => (by cases h)
  obtain ⟨requested, hrequests⟩ := htooled.requests
  refine ⟨_, requested, hrequests, fun hlives => ?_⟩
  have hworked := (hlives.worked session List.mem_cons_self tool htool).1
  obtain ⟨submissionId, hone, _⟩ := hworked (of_decide_eq_true hevaluated)
  rw [List.isEmpty_iff.mp hnone] at hone
  cases hone

end Runs

end NoraInterviewer
