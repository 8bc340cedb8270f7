import NoraInterviewer.Transcripts
import NoraInterviewer.ControlTargets

namespace NoraInterviewer

/-- Each revision starts from the text that the one before it left. -/
def Chained : String → List TranscriptRevision → String → Prop
  | first, [], last => first = last
  | first, revision :: rest, last =>
    revision.originalText = first ∧ Chained revision.correctedText rest last

theorem Chained.concat {first last : String} {revisions : List TranscriptRevision}
    {revision : TranscriptRevision} (h : Chained first revisions last)
    (ho : revision.originalText = last) :
    Chained first (revisions ++ [revision]) revision.correctedText := by
  induction revisions generalizing first with
  | nil =>
    have hfirst : first = last := h
    exact ⟨ho.trans hfirst.symm, rfl⟩
  | cons head rest ih => exact ⟨h.1, ih h.2⟩

def revisionsOf (revisions : List TranscriptRevision) (turnId : String) :
    List TranscriptRevision :=
  revisions.filter fun revision => revision.turnId = turnId

/-- `turn.metadata.get("transcript_revision_count", 0)`. -/
def Turn.revisionCount (turn : Turn) : Json :=
  (turn.metadata.lookup "transcript_revision_count").getD (.nat 0)

/-- The operation adds a candidate turn with the text. -/
def Operation.Says (session : InterviewSession) (text : String) : Operation → Prop
  | .answer given _ => text = given
  | .submitTool toolId _ => ∃ tool, session.tools.find? (fun tool => tool.id = toolId) = some tool ∧
    text = s!"[{tool.kind.value} artifact submitted]"
  | _ => False

/-- An answer does not come with a count of its own revisions. -/
def Operation.Uncounted : Operation → Prop
  | .answer _ turnMetadata => turnMetadata.lookup "transcript_revision_count" = none
  | _ => True

/-- Every candidate turn can be traced back to what `said` has of it. -/
structure WordsKept (said : String → String → Prop) (turns : List Turn)
    (revisions : List TranscriptRevision) : Prop where
  known : ∀ revision ∈ revisions, revision.turnId ∈ turns.map Turn.id
  kept : ∀ turn ∈ turns, turn.speaker = .candidate → ∃ text, said turn.id text ∧
    Chained text (revisionsOf revisions turn.id) turn.text ∧
    turn.revisionCount = .nat (revisionsOf revisions turn.id).length

namespace WordsKept

variable {said said' : String → String → Prop} {turns : List Turn}
  {revisions : List TranscriptRevision}

theorem imp (h : WordsKept said turns revisions)
    (hsaid : ∀ id text, said id text → said' id text) : WordsKept said' turns revisions := by
  refine ⟨h.known, fun turn hturn hspeaker => ?_⟩
  obtain ⟨text, hfirst, hchain⟩ := h.kept turn hturn hspeaker
  exact ⟨text, hsaid _ _ hfirst, hchain⟩

theorem revisionsOf_new (h : WordsKept said turns revisions) {id : String}
    (hnew : id ∉ turns.map Turn.id) : revisionsOf revisions id = [] := by
  apply List.filter_eq_nil_iff.mpr
  intro revision hrevision hid
  have hknown := h.known revision hrevision
  rw [of_decide_eq_true hid] at hknown
  exact hnew hknown

theorem append (h : WordsKept said turns revisions) {turn : Turn}
    (hnew : turn.id ∉ turns.map Turn.id) (hsaid : turn.speaker = .candidate →
      said turn.id turn.text ∧ turn.revisionCount = .nat 0) :
    WordsKept said (turns ++ [turn]) revisions := by
  refine ⟨fun revision hrevision => ?_, fun other hother hspeaker => ?_⟩
  · rw [List.map_append]
    exact List.mem_append_left _ (h.known revision hrevision)
  · rcases List.mem_append.mp hother with hold | hlast
    · exact h.kept other hold hspeaker
    · cases List.mem_singleton.mp hlast
      obtain ⟨hfirst, hcount⟩ := hsaid hspeaker
      refine ⟨turn.text, hfirst, ?_⟩
      rw [h.revisionsOf_new hnew]
      exact ⟨rfl, hcount⟩

theorem question (h : WordsKept said turns revisions) {turn : Turn}
    (hnew : turn.id ∉ turns.map Turn.id) (hspeaker : turn.speaker = .interviewer) :
    WordsKept said (turns ++ [turn]) revisions := by
  refine h.append hnew fun hcandidate => ?_
  rw [hspeaker] at hcandidate
  cases hcandidate

theorem exchange (h : WordsKept said turns revisions) {turn question : Turn}
    (hnew : turn.id ∉ turns.map Turn.id) (hnext : question.id ∉ turns.map Turn.id)
    (hne : turn.id ≠ question.id) (hspeaker : question.speaker = .interviewer)
    (hsaid : said turn.id turn.text) (hcount : turn.revisionCount = .nat 0) :
    WordsKept said (turns ++ [turn, question]) revisions := by
  have happend : turns ++ [turn, question] = (turns ++ [turn]) ++ [question] := by simp
  rw [happend]
  apply (h.append hnew fun _ => ⟨hsaid, hcount⟩).question _ hspeaker
  rw [List.map_append, List.map_singleton, List.mem_append, List.mem_singleton]
  rintro (hold | hsame)
  · exact hnext hold
  · exact hne hsame.symm

/-- A revision of one turn leaves the chains of the others alone, and lengthens its own. -/
theorem revise {session : InterviewSession}
    (h : WordsKept said session.turns session.transcriptRevisions)
    (hids : (session.turns.map Turn.id).Nodup) {index : Nat} {turn : Turn}
    {revision : TranscriptRevision} (ht : session.turns[index]? = some turn)
    (hs : turn.speaker = .candidate) (hr : revision.turnId = turn.id)
    (ho : revision.originalText = turn.text) :
    WordsKept said (revisedTurns session index turn revision)
      (session.transcriptRevisions ++ [revision]) := by
  have hmem : turn ∈ session.turns := List.mem_of_getElem? ht
  constructor
  · intro other hother
    rw [revisedTurns_map _ _ _ _ Turn.id fun _ _ _ => rfl]
    rcases List.mem_append.mp hother with hold | hlast
    · exact h.known other hold
    · rw [List.mem_singleton.mp hlast, hr]
      exact List.mem_map_of_mem hmem
  · intro other hother hspeaker
    obtain ⟨n, hn⟩ := List.mem_iff_getElem?.mp hother
    rw [revisedTurns, List.getElem?_modify] at hn
    by_cases hindex : index = n
    · rw [← hindex, ht] at hn
      simp only [↓reduceIte, Option.map_eq_map, Option.map_some, Option.some.injEq] at hn
      obtain ⟨text, hfirst, hchain, _⟩ := h.kept turn hmem hs
      have hmine : revisionsOf (session.transcriptRevisions ++ [revision]) turn.id =
          revisionsOf session.transcriptRevisions turn.id ++ [revision] := by
        simp [revisionsOf, hr]
      rw [← hn]
      refine ⟨text, hfirst, ?_, ?_⟩
      · rw [hmine]
        exact hchain.concat ho
      · rw [Turn.revisionCount, correctedMetadata, Dict.lookup_set_self, Option.getD_some,
          List.countP_eq_length_filter]
        rfl
    · simp only [hindex, ↓reduceIte, id_map'] at hn
      have hold : other ∈ session.turns := List.mem_of_getElem? hn
      have hne : revision.turnId ≠ other.id := by
        intro hid
        have hsame : turn = other :=
          List.inj_on_of_nodup_map hids hmem hold (hr.symm.trans hid)
        rw [← hsame] at hn
        obtain ⟨hlt, _⟩ := List.getElem?_eq_some_iff.mp ht
        exact hindex ((List.getElem?_inj hlt hids.of_map).mp (ht.trans hn.symm))
      have htheirs : revisionsOf (session.transcriptRevisions ++ [revision]) other.id =
          revisionsOf session.transcriptRevisions other.id := by
        simp [revisionsOf, hne]
      rw [htheirs]
      exact h.kept other hold hspeaker

end WordsKept

section

variable [CanonicalDigest] {call : Call} {job : JobSpec} {session : InterviewSession}
  {operation : Operation} {turns : List Turn} {revisions : List TranscriptRevision}

theorem WordsKept.step {said said' : String → String → Prop}
    (h : Transcribes call job session operation turns revisions)
    (hfresh : FreshTurnIds call.toAmbient session) (hown : operation.Uncounted)
    (hids : (session.turns.map Turn.id).Nodup)
    (hk : WordsKept said session.turns session.transcriptRevisions)
    (hsaid : ∀ id text, said id text → said' id text)
    (hnew : ∀ turn ∈ turns, turn.id ∉ session.turns.map Turn.id →
      operation.Says session turn.text → said' turn.id turn.text) :
    WordsKept said' turns revisions := by
  have hk := hk.imp hsaid
  cases h with
  | @started shown decision covered latencyMs hshown hs hd =>
    have hturns : shown.turns = session.turns := congrArg Conduct.turns hshown
    refine hk.question ?_ rfl
    show call.uuid .turn shown.turns.length ∉ _
    rw [hturns]
    exact hfresh.first
  | @answered text turnMetadata shown decision covered latencyMs hshown hd =>
    have hturns : shown.turns =
        session.turns ++ [answerTurn call.toAmbient session.turns text turnMetadata] :=
      congrArg Conduct.turns (prepareAnswer_conduct hshown).2
    have hid : (decisionTurn call.toAmbient shown decision latencyMs).id =
        call.uuid .turn (session.turns.length + 1) := by
      show call.uuid .turn shown.turns.length = _
      rw [hturns, List.length_append, List.length_singleton]
    have hcount : (answerTurn call.toAmbient session.turns text turnMetadata).revisionCount =
        .nat 0 := by
      show (turnMetadata.lookup "transcript_revision_count").getD (.nat 0) = _
      rw [show turnMetadata.lookup "transcript_revision_count" = none from hown]
      rfl
    have hsays : Operation.Says session
        (answerTurn call.toAmbient session.turns text turnMetadata).text
        (.answer text turnMetadata) := rfl
    apply hk.exchange hfresh.first _ _ rfl (hnew _ (by simp) hfresh.first hsays) hcount
    · rw [hid]
      exact hfresh.second
    · rw [hid]
      exact hfresh.apart
  | @worked toolId request work decision covered hwork hd =>
    obtain ⟨_, ⟨invocation, hfind, _, hinvocation⟩, hturns, _⟩ := prepareTool_transcript hwork
    have hid : (decisionTurn call.toAmbient work.session decision call.latencyMs).id =
        call.uuid .turn (session.turns.length + 1) := by
      show call.uuid .turn work.session.turns.length = _
      rw [hturns, List.length_append, List.length_singleton]
    have hsays : Operation.Says session
        (artifactTurn call.toAmbient session work.invocation work.submission).text
        (.submitTool toolId request) := by
      refine ⟨invocation, hfind, ?_⟩
      rw [hinvocation]
      rfl
    apply hk.exchange hfresh.first _ _ rfl (hnew _ (by simp) hfresh.first hsays) _
    · rw [hid]
      exact hfresh.second
    · rw [hid]
      exact hfresh.apart
    · simp [Turn.revisionCount, artifactTurn, List.lookup_cons]
  | replied hr ht =>
    obtain ⟨_, hturn, _⟩ := handleCandidateControl_ok hr
    obtain ⟨hid, hspeaker, _⟩ := hturn _ ht
    refine hk.question ?_ hspeaker
    rw [hid]
    exact hfresh.first
  | revised _ _ ht hs => exact hk.revise hids ht hs rfl rfl
  | kept => exact hk

/-- A turn that the operation does not correct stays as it is. -/
theorem Transcribes.keeps (h : Transcribes call job session operation turns revisions) {n : Nat}
    {turn : Turn} (hn : session.turns[n]? = some turn)
    (hother : ∀ text, operation.correction session ≠ some (turn.id, text)) :
    turns[n]? = some turn := by
  obtain ⟨hlt, _⟩ := List.getElem?_eq_some_iff.mp hn
  have hadded : ∀ more, (session.turns ++ more)[n]? = some turn := by
    intro more
    rw [List.getElem?_append_left hlt]
    exact hn
  cases h with
  | started => exact hadded _
  | answered => exact hadded _
  | worked => exact hadded _
  | replied => exact hadded _
  | @revised _ request index found hc hi ht hs =>
    rw [revisedTurns, List.getElem?_modify, hn]
    have hindex : index ≠ n := by
      rintro rfl
      cases ht.symm.trans hn
      have hfind : session.turns.find? (fun turn => turn.id = request.turnId) = some turn := by
        rw [List.find?_eq_getElem?_findIdx, ← hi]
        exact hn
      have hid : turn.id = request.turnId := by simpa using List.find?_some hfind
      rw [← hid] at hc
      exact hother _ hc
    simp [hindex]
  | kept => exact hn

theorem Transcribes.prefix (h : Transcribes call job session operation turns revisions) :
    session.transcriptRevisions <+: revisions := by
  cases h with
  | revised => exact List.prefix_append _ _
  | _ => exact List.prefix_refl _

end

section

variable [CanonicalDigest] {backend : Backend}

/-- The turn came into the store with the text, which the candidate gave then. -/
def FirstSaid (backend : Backend) (versions : List InterviewSession) (turnId text : String) :
    Prop :=
  ∃ call operation before after past, backend.stored after :: before :: past <:+ versions ∧
    mutate call operation before = .ok (some after) ∧ turnId ∉ before.turns.map Turn.id ∧
    (∃ turn ∈ after.turns, turn.id = turnId ∧ turn.text = text) ∧ operation.Says before text

/-- The answers of the service's callers, with fresh turn ids. -/
def Answers (call : Call) (operation : Operation) (session : InterviewSession) : Prop :=
  FreshTurnIds call.toAmbient session ∧ operation.Uncounted

theorem History.wordsKept {versions : List InterviewSession} (h : History backend Answers versions) :
    ∀ session ∈ versions.head?, WordsKept (FirstSaid backend versions) session.turns
      session.transcriptRevisions := by
  induction h with
  | @created call request organizationId session h =>
    intro stored hs
    obtain ⟨hturns, hrevisions⟩ := stored_transcript backend session
    obtain ⟨hnone, hclear⟩ := createSession_transcript h
    cases Option.mem_some.mp hs
    rw [hturns, hrevisions, hnone, hclear]
    exact ⟨by simp, by simp⟩
  | @committed call operation session session' past h ha hm ih =>
    intro stored hs
    obtain ⟨hturns, hrevisions⟩ := stored_transcript backend session'
    obtain ⟨job, _, htranscribes⟩ := mutate_transcribes hm
    have hids : (session.turns.map Turn.id).Nodup :=
      h.turnIds_nodup (fun _ _ _ ha => ha.1) session List.mem_cons_self
    cases Option.mem_some.mp hs
    rw [hturns, hrevisions]
    apply WordsKept.step htranscribes ha.1 ha.2 hids (ih session rfl)
    · rintro id text ⟨call, operation, before, after, earlier, hsuffix, hsaid⟩
      exact ⟨call, operation, before, after, earlier, hsuffix.trans (List.suffix_cons _ _), hsaid⟩
    · intro turn hturn hnew hsays
      exact ⟨call, operation, session, session', past, List.suffix_refl _, hm, hnew,
        ⟨turn, hturn, rfl, rfl⟩, hsays⟩

theorem History.revisions_prefix {admissible : Call → Operation → InterviewSession → Prop}
    {versions : List InterviewSession} (h : History backend admissible versions) :
    versions.Pairwise fun later earlier =>
      earlier.transcriptRevisions <+: later.transcriptRevisions := by
  refine h.pairwise List.IsPrefix.trans ?_
  intro call operation session session' hm
  obtain ⟨job, _, htranscribes⟩ := mutate_transcribes hm
  rw [(stored_transcript backend session').2]
  exact htranscribes.prefix

/-- What a candidate first said leads, revision by revision, to what the turn says now; revisions
only come to the end, and an operation changes no turn that it does not correct. -/
theorem original_words_recoverable {session : InterviewSession} {past : List InterviewSession}
    (h : History backend Answers (session :: past)) :
    (∀ turn ∈ session.turns, turn.speaker = .candidate → ∃ text,
      FirstSaid backend (session :: past) turn.id text ∧
      Chained text (revisionsOf session.transcriptRevisions turn.id) turn.text ∧
      turn.revisionCount = .nat (revisionsOf session.transcriptRevisions turn.id).length) ∧
    (session :: past).Pairwise (fun later earlier =>
      earlier.transcriptRevisions <+: later.transcriptRevisions) ∧
    ∀ call operation session', mutate call operation session = .ok (some session') →
      ∀ (n : ℕ) (turn : Turn), session.turns[n]? = some turn →
        (∀ text, operation.correction session ≠ some (turn.id, text)) →
          session'.turns[n]? = some turn := by
  refine ⟨(h.wordsKept session rfl).kept, h.revisions_prefix, ?_⟩
  intro call operation session' hm n turn hn hother
  obtain ⟨job, _, htranscribes⟩ := mutate_transcribes hm
  exact htranscribes.keeps hn hother

end

section Runs

attribute [local instance] checksumDigest

/-- An answer that is corrected twice: on the spot and later. -/
def twiceCorrected : List (Call × Operation) := [
  (plainCall askDecision, .start),
  (plainCall askDecision, .answer "I built a queue." []),
  (plainCall askDecision, .candidateControl ⟨.correctLastAnswer, some "I built a log."⟩),
  (plainCall askDecision, .answer "It was fast." []),
  (plainCall askDecision, .correctTranscript ⟨"turn-1", "I built a log store.", none⟩)]

theorem original_words_recoverable_twice : ∃ session past turn,
    History .json Answers (session :: past) ∧ turn ∈ session.turns ∧
    turn.text = "I built a log store." ∧
    (revisionsOf session.transcriptRevisions turn.id).map TranscriptRevision.originalText =
      ["I built a queue.", "I built a log."] ∧
    ∃ text, FirstSaid .json (session :: past) turn.id text ∧
      Chained text (revisionsOf session.transcriptRevisions turn.id) turn.text := by
  have hrun : (checkedRun freshTurnIds plainJob .json twiceCorrected).any
      (fun versions => versions.head?.any fun session => (session.turns[1]?).any fun turn =>
        turn.speaker = .candidate && turn.text = "I built a log store." &&
          (revisionsOf session.transcriptRevisions turn.id).map
            TranscriptRevision.originalText = ["I built a queue.", "I built a log."]) = true := by
    decide +kernel
  obtain ⟨session, past, hhistory, hcheck⟩ := checkedRun_last
    (fun call operation => call.toAmbient = plainAmbient ∧ operation.Uncounted)
    (by simp [twiceCorrected, plainCall, jobCall, Operation.Uncounted]) hrun
  have hanswers : History .json Answers (session :: past) := hhistory.mono fun _ _ _ ha =>
    ⟨freshTurnIds_fresh And.left ha, ha.1.2.2⟩
  obtain ⟨turn, hturn, hcheck⟩ := (Option.any_eq_true _ _).mp hcheck
  simp only [Bool.and_eq_true, decide_eq_true_eq] at hcheck
  obtain ⟨⟨hspeaker, htext⟩, horiginals⟩ := hcheck
  have hmem : turn ∈ session.turns := List.mem_of_getElem? hturn
  obtain ⟨text, hfirst, hchain, _⟩ := (original_words_recoverable hanswers).1 turn hmem hspeaker
  exact ⟨session, past, turn, hanswers, hmem, htext, horiginals, text, hfirst, hchain⟩

end Runs

end NoraInterviewer
