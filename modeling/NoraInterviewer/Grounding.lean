import NoraInterviewer.EvidenceItems
import NoraInterviewer.Execution

namespace NoraInterviewer

/-- A non-empty quote stands in the text that its turn has now. -/
def QuoteStands (turns : List Turn) (item : EvidenceItem) : Prop :=
  ∀ quote, item.quote = some quote → quote ≠ "" →
    ∃ turn, turns.find? (fun turn => turn.id = item.turnId) = some turn ∧
      isSubstring quote turn.text = true

/-- A correction leaves the quotes of the turn in place that no judge brought in. -/
def KeepsQuotes (operation : Operation) (session : InterviewSession) : Prop :=
  ∀ turnId text, operation.correction session = some (turnId, text) →
    ∀ item ∈ evidenceItems session.evidenceGraph, item.turnId = turnId → item.active = true →
      startsWith item.source "semantic_judge:" = false →
      ∀ quote, item.quote = some quote → quote ≠ "" → isSubstring quote text = true

def Dossier.QuotesStand (dossier : Dossier) : Prop :=
  ∀ item ∈ evidenceItems dossier.graph, item.active = true → QuoteStands dossier.turns item

theorem QuoteStands.append {turns : List Turn} {item : EvidenceItem} (h : QuoteStands turns item)
    (added : List Turn) : QuoteStands (turns ++ added) item := by
  intro quote hq hne
  obtain ⟨turn, hfind, hsub⟩ := h quote hq hne
  refine ⟨turn, ?_, hsub⟩
  rw [List.find?_append, hfind]
  rfl

theorem QuoteStands.of_quote_none {turns : List Turn} {item : EvidenceItem} (h : item.quote = none) :
    QuoteStands turns item := by
  intro quote hq
  rw [h] at hq
  cases hq

theorem Accepts.grounds {turns : List Turn} {job : JobSpec} {observation : EvidenceObservation}
    (h : Accepts turns job observation) (call : Ambient) (graph : Dict CompetencyEvidence) :
    QuoteStands turns (observedItem call graph observation) := by
  intro quote hq _
  obtain ⟨turn, hfind, hquote⟩ := h.grounded
  exact ⟨turn, hfind, hquote quote hq⟩

theorem retire_active {turnId : String} {item : EvidenceItem} (h : (retire turnId item).active = true) :
    retire turnId item = item ∧ item.semanticOf turnId = false := by
  unfold retire at h ⊢
  by_cases hs : item.semanticOf turnId = true
  · rw [if_pos hs] at h
    cases h
  · exact ⟨if_neg hs, by simpa using hs⟩

/-- Replacing the first turn with an id, under that id, shows in the lookups of it alone. -/
theorem find?_modify_first {f : Turn → Turn} (hf : ∀ turn, (f turn).id = turn.id) (turns : List Turn)
    (own id : String) :
    (turns.modify (turns.findIdx fun turn => turn.id = own) f).find? (fun turn => turn.id = id) =
      if own = id then (turns.find? fun turn => turn.id = id).map f
      else turns.find? fun turn => turn.id = id := by
  induction turns with
  | nil => simp
  | cons turn rest ih =>
    by_cases hown : turn.id = own
    · rw [List.findIdx_cons, decide_eq_true hown]
      by_cases hid : own = id
      · have hturn : turn.id = id := hown.trans hid
        simp [hf, hid, hturn]
      · have hturn : ¬turn.id = id := fun h => hid (hown.symm.trans h)
        simp [hf, hid, hturn]
    · rw [List.findIdx_cons, decide_eq_false hown]
      by_cases hid : turn.id = id
      · have hne : ¬own = id := fun h => hown (hid.trans h.symm)
        simp [hid, hne]
      · simpa [hid] using ih

theorem modify_ids {f : Turn → Turn} (hf : ∀ turn, (f turn).id = turn.id) (turns : List Turn)
    (position : Nat) : (turns.modify position f).map Turn.id = turns.map Turn.id := by
  refine List.ext_getElem? fun n => ?_
  rw [List.getElem?_map, List.getElem?_map, List.getElem?_modify]
  cases turns[n]? with
  | none => rfl
  | some turn =>
    by_cases hn : position = n
    · simp [hn, hf]
    · simp [hn]

variable {call : Call} {job : JobSpec} {operation : Operation} {start : InterviewSession}
  {dossier dossier' : Dossier}

theorem Dossier.QuotesStand.judged {question answer : Turn} {supersedeExisting : Bool}
    {run run' : EvidenceJudgeRun} {graph : Dict CompetencyEvidence} (h : dossier.QuotesStand)
    (hnew : run.observationIds = [])
    (ho : JudgeOutcome call job dossier question answer supersedeExisting run graph run') :
    Dossier.QuotesStand { dossier with graph, runs := dossier.runs ++ [run'] } := by
  obtain ⟨superseding, placed, hplaced⟩ := ho.placed hnew
  intro item hitem hactive
  have hitem' : item ∈ evidenceItems graph := hitem
  rw [hplaced.graph_eq] at hitem'
  rcases (placeAll_grown _ _ _).mem.mp hitem' with hold | hnew
  · cases superseding with
    | false => exact h item hold hactive
    | true =>
      have hretired : item ∈ evidenceItems (supersedeGraph answer.id dossier.graph) := hold
      rw [evidenceItems_supersedeGraph] at hretired
      obtain ⟨before, hbefore, rfl⟩ := List.mem_map.mp hretired
      obtain ⟨hsame, _⟩ := retire_active hactive
      rw [hsame] at hactive ⊢
      exact h before hbefore hactive
  · obtain ⟨observation, hobservation, before, rfl⟩ := mem_placedItems hnew
    exact (hplaced.accepted observation hobservation).grounds call.toAmbient before

theorem Dossier.QuotesStand.revised {index : Nat} {turn : Turn} {text : String}
    {metadata : Dict Json} {revisions : List TranscriptRevision} (h : dossier.QuotesStand)
    (hkeeps : KeepsQuotes operation start) (hd : dossier = start.dossier)
    (hc : operation.correction start = some (turn.id, text))
    (hi : index = dossier.turns.findIdx fun other => other.id = turn.id) :
    Dossier.QuotesStand { dossier with
      turns := dossier.turns.modify index fun turn => { turn with text, metadata }
      revisions := revisions
      graph := supersedeGraph turn.id dossier.graph } := by
  intro item hitem hactive quote hq hne
  have hretired : item ∈ (evidenceItems dossier.graph).map (retire turn.id) := by
    rw [← evidenceItems_supersedeGraph]
    exact hitem
  obtain ⟨before, hbefore, rfl⟩ := List.mem_map.mp hretired
  obtain ⟨hsame, hhuman⟩ := retire_active hactive
  rw [hsame] at hactive hq ⊢
  obtain ⟨found, hfound, hsub⟩ := h before hbefore hactive quote hq hne
  have hlookup := find?_modify_first (f := fun turn => { turn with text, metadata }) (fun _ => rfl)
    dossier.turns turn.id before.turnId
  rw [hfound, ← hi] at hlookup
  simp only
  rw [hlookup]
  by_cases hown : turn.id = before.turnId
  · have hsource : startsWith before.source "semantic_judge:" = false := by
      simpa [EvidenceItem.semanticOf, hactive, hown] using hhuman
    rw [if_pos hown]
    refine ⟨_, rfl, ?_⟩
    subst hd
    exact hkeeps _ _ hc before hbefore hown.symm hactive hsource quote hq hne
  · rw [if_neg hown]
    exact ⟨found, rfl, hsub⟩

/-- Every step keeps the active quotes grounded, if a correction keeps those it has to. -/
theorem Dossier.QuotesStand.step (hkeeps : KeepsQuotes operation start) (h : dossier.QuotesStand)
    (hstep : DossierStep call job operation start dossier dossier') : dossier'.QuotesStand := by
  cases hstep with
  | turned hid => exact fun item hitem hactive => (h item hitem hactive).append _
  | claimed competencyIds ha =>
    intro item hitem hactive
    rcases (recordClaims_grown _ _ _ _ _).mem.mp hitem with hold | hnew
    · exact h item hold hactive
    · exact QuoteStands.of_quote_none (recordClaims_claimed _ _ _ _ _ item hnew).quote
  | observed ho ha hfirst =>
    intro item hitem hactive
    rcases (place_grown _ _ _).mem.mp hitem with hold | hnew
    · exact h item hold hactive
    · rw [List.mem_singleton.mp hnew]
      exact ha.grounds call.toAmbient dossier.graph
  | judged hj ha ho => exact h.judged rfl ho
  | revised hc hd ht hi hr ho => exact h.revised hkeeps hd hc hi

section

variable [CanonicalDigest]

/-- In a run whose corrections keep the quotes that no judge brought in, every active quote stands
in the text its turn has now. -/
theorem active_quotes_grounded {backend : Backend} {versions : List InterviewSession}
    (h : History backend (fun _ operation session => KeepsQuotes operation session) versions) :
    ∀ session ∈ versions, ∀ item ∈ evidenceItems session.evidenceGraph, item.active = true →
      QuoteStands session.turns item := by
  refine h.dossier_invariant (P := Dossier.QuotesStand) ?_ ?_
  · intro job item hitem
    have hnone : item ∈ evidenceItems (initializeEvidence job []) := hitem
    rw [evidenceItems_initializeEvidence] at hnone
    cases hnone
  · intro call job operation start dossier _ hkeeps hstart hrun
    exact hrun.invariant (P := Dossier.QuotesStand) (fun h hstep => h.step hkeeps hstep) hstart

end

section Runs

attribute [local instance] checksumDigest

def keepsQuotes (operation : Operation) (session : InterviewSession) : Bool :=
  (operation.correction session).all fun correction =>
    (evidenceItems session.evidenceGraph).all fun item =>
      item.turnId ≠ correction.1 || !item.active || startsWith item.source "semantic_judge:" ||
        item.quote.all fun quote => isSubstring quote correction.2

theorem keepsQuotes_sound {operation : Operation} {session : InterviewSession}
    (h : keepsQuotes operation session = true) : KeepsQuotes operation session := by
  intro turnId text hc item hitem hturn hactive hsource quote hq _
  unfold keepsQuotes at h
  rw [hc, Option.all_some, List.all_eq_true] at h
  have hkept := h item hitem
  simpa [hturn, hactive, hsource, hq] using hkept

/-- A reviewer quotes the first answer. -/
def queueQuoted : EvidenceObservation where
  competencyId := "systems"
  turnId := "turn-1"
  state := .demonstrated
  confidence := UnitScore.one
  quote := some "queue"
  note := "names a structure"

/-- The first answer, the reviewer's quote of it, and then its correction. -/
def correctedCalls (text : String) : List (Call × Operation) := [
  (plainCall askDecision, .start),
  (plainCall askDecision, .answer "I built a queue." []),
  (plainCall askDecision, .observeEvidence queueQuoted),
  (plainCall askDecision, .correctTranscript { turnId := "turn-1", correctedText := text })]

theorem active_quotes_grounded_corrected :
    ∃ session : InterviewSession, session.transcriptRevisions ≠ [] ∧
      (∃ item ∈ evidenceItems session.evidenceGraph, item.quote = some "queue") ∧
      ∀ item ∈ evidenceItems session.evidenceGraph, item.active = true →
        QuoteStands session.turns item := by
  have hrun : (checkedRun keepsQuotes plainJob .json (correctedCalls "I built a small queue.")).any
      (fun versions => versions.head?.any fun session =>
        !session.transcriptRevisions.isEmpty &&
          (evidenceItems session.evidenceGraph).any fun item => item.quote = some "queue") = true := by
    decide +kernel
  obtain ⟨session, past, hhistory, hcheck⟩ :=
    checkedRun_last (fun _ _ => True) (fun _ _ => trivial) hrun
  rw [Bool.and_eq_true, Bool.not_eq_true', List.any_eq_true] at hcheck
  obtain ⟨hrevised, item, hitem, hquote⟩ := hcheck
  refine ⟨session, fun h => ?_, ⟨item, hitem, of_decide_eq_true hquote⟩, ?_⟩
  · rw [h] at hrevised
    cases hrevised
  · exact active_quotes_grounded (hhistory.mono fun _ _ _ h => keepsQuotes_sound h.2) session
      List.mem_cons_self

/-- The correction takes the quoted word away, and the reviewer's item stays active. -/
theorem active_quote_outlives_text :
    ¬∀ (backend : Backend) (versions : List InterviewSession),
      History backend (fun _ _ _ => True) versions → ∀ session ∈ versions,
        ∀ item ∈ evidenceItems session.evidenceGraph, item.active = true →
          QuoteStands session.turns item := by
  intro hclaim
  have hrun : (jobRun plainJob .json (correctedCalls "I built a log.")).any (fun versions =>
      versions.head?.any fun session => (evidenceItems session.evidenceGraph).any fun item =>
        item.active && decide (item.quote = some "queue") &&
          (session.turns.find? fun turn => turn.id = item.turnId).all fun turn =>
            !isSubstring "queue" turn.text) = true := by
    decide +kernel
  obtain ⟨session, past, hhistory, hcheck⟩ := jobRun_last (fun _ _ => True) (fun _ _ => trivial) hrun
  obtain ⟨item, hitem, hcheck⟩ := List.any_eq_true.mp hcheck
  rw [Bool.and_eq_true, Bool.and_eq_true] at hcheck
  obtain ⟨⟨hactive, hquote⟩, hstale⟩ := hcheck
  have hgrounded := hclaim .json _ (hhistory.mono fun _ _ _ _ => trivial) session
    List.mem_cons_self item hitem hactive "queue" (of_decide_eq_true hquote) (by decide)
  obtain ⟨turn, hfind, hsub⟩ := hgrounded
  rw [hfind, Option.all_some, hsub] at hstale
  cases hstale

end Runs

end NoraInterviewer
