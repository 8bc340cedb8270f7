import NoraInterviewer.VoiceRuns
import NoraInterviewer.ConductSteps
import NoraInterviewer.Lifecycle

namespace NoraInterviewer

open ExceptRules

/-- An entry that the voice accounts do not look at. -/
def LogEntry.Plain (entry : LogEntry) : Prop :=
  entry.type ≠ .voiceBargeIn ∧ entry.type ≠ .voiceTranscriptFinal

/-- The log went on with plain entries, and the transcript with more turns. -/
def Continues (session session' : InterviewSession) : Prop :=
  ∃ entries turns, session'.log = session.log ++ entries ∧
    session'.turns = session.turns ++ turns ∧ ∀ entry ∈ entries, entry.Plain

theorem Continues.refl (session : InterviewSession) : Continues session session :=
  ⟨[], [], (List.append_nil _).symm, (List.append_nil _).symm, by simp⟩

theorem Continues.trans {a b c : InterviewSession} (hab : Continues a b) (hbc : Continues b c) :
    Continues a c := by
  obtain ⟨first, turns, hlog, hturns, hfirst⟩ := hab
  obtain ⟨second, more, hlog', hturns', hsecond⟩ := hbc
  refine ⟨first ++ second, turns ++ more, ?_, ?_, fun entry hentry => ?_⟩
  · rw [hlog', hlog, List.append_assoc]
  · rw [hturns', hturns, List.append_assoc]
  · rcases List.mem_append.mp hentry with hin | hin
    · exact hfirst entry hin
    · exact hsecond entry hin

theorem plain_of_type {entry : LogEntry} {type : EventType} (h : entry.type = type)
    (hb : type ≠ .voiceBargeIn) (hf : type ≠ .voiceTranscriptFinal) : entry.Plain :=
  ⟨h ▸ hb, h ▸ hf⟩

section

variable [CanonicalDigest]

theorem Grows.continues {session session' : InterviewSession} {entries : List LogEntry}
    {turns : List Turn} (hg : Grows session.events session'.events entries)
    (ht : session'.turns = session.turns ++ turns) (hp : ∀ entry ∈ entries, entry.Plain) :
    Continues session session' :=
  ⟨entries, turns, hg.log, ht, hp⟩

theorem RecordsEvidence.continues {session session' : InterviewSession}
    (h : RecordsEvidence session session') : Continues session session' := by
  obtain ⟨graph, runs, events, entries, rfl, hg, habout⟩ := h
  have hnone : session.turns = session.turns ++ [] := (List.append_nil _).symm
  refine hg.continues hnone fun entry hentry => ?_
  have htype := habout entry hentry
  constructor
  · intro h
    rw [h] at htype
    cases htype
  · intro h
    rw [h] at htype
    cases htype

/-- An effect that corrects nothing only adds to the log and to the transcript. -/
theorem Effect.continues {policy : Policy} {session session' : InterviewSession}
    (h : Effect policy session session') (hc : ∀ shared index, ¬policy.corrects shared index) :
    Continues session session' := by
  have hnone : session.turns = session.turns ++ [] := (List.append_nil _).symm
  cases h with
  | evidence h => exact h.continues
  | covered => exact Continues.refl session
  | followups => exact Continues.refl session
  | @started decision turn first second events hs hd ht hf he hg =>
    refine hg.continues (show _ = session.turns ++ [turn] from rfl) fun entry hentry => ?_
    rcases List.mem_pair.mp hentry with rfl | rfl
    · exact plain_of_type hf (by decide) (by decide)
    · exact plain_of_type he.type (by decide) (by decide)
  | @asked decision turn entry events ha hd ht he hg =>
    refine hg.continues (show _ = session.turns ++ [turn] from rfl) fun other hother => ?_
    rw [List.mem_singleton.mp hother]
    exact plain_of_type he.type (by decide) (by decide)
  | @opened tool entry events ha hn ho he hg =>
    refine hg.continues hnone fun other hother => ?_
    rw [List.mem_singleton.mp hother]
    exact plain_of_type he.type (by decide) (by decide)
  | completed ha hd hcomp at_ he hg =>
    refine hg.continues hnone fun other hother => ?_
    rw [List.mem_singleton.mp hother]
    exact plain_of_type he (by decide) (by decide)
  | @answered turn shared entry events ha hp hi hsp he hg =>
    refine hg.continues (show _ = session.turns ++ [turn] from rfl) fun other hother => ?_
    rw [List.mem_singleton.mp hother]
    exact plain_of_type he.type (by decide) (by decide)
  | @worked tool submission evaluation turn first second third events ha hf ho hs hi hsp h1 h2 h3
      hg =>
    refine hg.continues (show _ = session.turns ++ [turn] from rfl) fun entry hentry => ?_
    simp only [List.mem_cons, List.not_mem_nil, or_false] at hentry
    rcases hentry with rfl | rfl | rfl
    · exact plain_of_type h1.type (by decide) (by decide)
    · exact plain_of_type h2.type (by decide) (by decide)
    · exact plain_of_type h3.type (by decide) (by decide)
  | controlled ha he hg =>
    refine hg.continues hnone fun other hother => ?_
    rw [List.mem_singleton.mp hother]
    exact plain_of_type he.type (by decide) (by decide)
  | @replied turn entry events ha hi hsp hf he hg =>
    refine hg.continues (show _ = session.turns ++ [turn] from rfl) fun other hother => ?_
    rw [List.mem_singleton.mp hother]
    exact plain_of_type he.type (by decide) (by decide)
  | corrected _ _ hcorrects => exact absurd hcorrects (hc _ _)
  | appealed hi he hg =>
    refine hg.continues hnone fun other hother => ?_
    rw [List.mem_singleton.mp hother]
    exact plain_of_type he.type (by decide) (by decide)
  | reviewed hi he hg =>
    refine hg.continues hnone fun other hother => ?_
    rw [List.mem_singleton.mp hother]
    simp only [List.mem_cons, List.not_mem_nil, or_false] at he
    rcases he with he | he | he
    · exact plain_of_type he (by decide) (by decide)
    · exact plain_of_type he (by decide) (by decide)
    · exact plain_of_type he (by decide) (by decide)
  | cancelled ha at_ hcancel he hg =>
    refine hg.continues hnone fun other hother => ?_
    rcases List.mem_append.mp hother with hin | hin
    · have htype := cancelled_types hcancel _ (List.mem_map_of_mem hin)
      exact plain_of_type htype (by decide) (by decide)
    · rw [List.mem_singleton.mp hin]
      exact plain_of_type he (by decide) (by decide)

theorem Effects.continues {policy : Policy} {session session' : InterviewSession}
    (h : Effects policy session session') (hc : ∀ shared index, ¬policy.corrects shared index) :
    Continues session session' := by
  induction h with
  | nil => exact Continues.refl session
  | snoc _ he ih => exact ih.trans (he.continues hc)

/-- An operation that has no turn to correct. -/
theorem mutate_continues {call : Call} {operation : Operation} {session session' : InterviewSession}
    (h : mutate call operation session = .ok (some session')) (ht : operation.target session = none) :
    Continues session session' := by
  obtain ⟨job, _, heffects⟩ := mutate_ok h
  refine heffects.continues fun shared index hcorrects => ?_
  obtain ⟨_, turnId, hturn, _⟩ := hcorrects
  rw [ht] at hturn
  cases hturn

/-- Between the two sessions a candidate turn with the text was taken. -/
structure TakesTurn (text : String) (session session' : InterviewSession) (turn : Turn)
    (entry : LogEntry) (entries : List LogEntry) (turns : List Turn) : Prop where
  log : session'.log = session.log ++ entry :: entries
  turns : session'.turns = session.turns ++ turn :: turns
  logged : entry.IsTurn .candidateTurn turn
  speaker : turn.speaker = .candidate
  text : turn.text = text
  plain : ∀ other ∈ entries, other.Plain

/-- A policy under which no turn is corrected. -/
def uncorrecting : Policy := ⟨fun _ _ => True, fun _ _ => True, fun _ => True, fun _ _ => False⟩

omit [CanonicalDigest] in
theorem TakesTurn.continues {text : String} {session session' final : InterviewSession} {turn : Turn}
    {entry : LogEntry} {entries : List LogEntry} {turns : List Turn}
    (h : TakesTurn text session session' turn entry entries turns) (hc : Continues session' final) :
    ∃ entries turns, TakesTurn text session final turn entry entries turns := by
  obtain ⟨more, added, hlog, hturns, hplain⟩ := hc
  refine ⟨entries ++ more, turns ++ added, ?_, ?_, h.logged, h.speaker, h.text, ?_⟩
  · rw [hlog, h.log, List.append_assoc, List.cons_append]
  · rw [hturns, h.turns, List.append_assoc, List.cons_append]
  · intro other hother
    rcases List.mem_append.mp hother with hin | hin
    · exact h.plain other hin
    · exact hplain other hin

theorem recordAnswerTurn_takes {call : Ambient} {session recorded : InterviewSession}
    {candidate : Turn} {text : String} {turnMetadata : Dict Json}
    (h : recordAnswerTurn call session text turnMetadata = .ok (recorded, candidate)) :
    ∃ entry, TakesTurn text session recorded candidate entry [] [] := by
  obtain ⟨logged, hlogged, h⟩ := bind_ok h
  cases h
  obtain ⟨events, rfl, hgrows⟩ := (appendEvent_meets _ _ _ _ _).of_ok hlogged
  exact ⟨_, hgrows.log, rfl, turnEntry_isTurn _ _ _, rfl, rfl, by simp⟩

theorem prepareAnswer_takes {call : Call} {session shown : InterviewSession} {job : JobSpec}
    {text : String} {turnMetadata : Dict Json}
    (h : prepareAnswer call session job text turnMetadata = .ok shown) :
    ∃ turn entry entries turns, TakesTurn text session shown turn entry entries turns := by
  unfold prepareAnswer at h
  obtain ⟨_, h⟩ := ite_error_ok h
  obtain ⟨_, h⟩ := ite_error_ok h
  obtain ⟨_, h⟩ := ite_error_ok h
  obtain ⟨⟨recorded, candidate⟩, hrecorded, h⟩ := bind_ok h
  obtain ⟨entry, htakes⟩ := recordAnswerTurn_takes hrecorded
  have hevidence := (recordAnswerEvidence_meets call recorded job _ candidate).of_ok h
  obtain ⟨entries, turns, htakes⟩ := htakes.continues hevidence.continues
  exact ⟨candidate, entry, entries, turns, htakes⟩

theorem answer_takes {call : Call} {session session' : InterviewSession} {job : JobSpec}
    {text : String} {turnMetadata : Dict Json} {step : SessionStep}
    (h : answer call session job text turnMetadata = .ok (.commit session' step)) :
    ∃ turn entry entries turns, TakesTurn text session session' turn entry entries turns := by
  obtain ⟨shown, hshown, h⟩ := bind_ok h
  obtain ⟨⟨decided, decision, latencyMs⟩, hdecided, h⟩ := bind_ok h
  obtain ⟨⟨asked, turn⟩, hasked, h⟩ := bind_ok h
  obtain ⟨⟨tooled, tool⟩, htooled, h⟩ := bind_ok h
  obtain ⟨completed, hcompleted, h⟩ := bind_ok h
  cases h
  obtain ⟨ha, _, hstance⟩ :=
    (prepareAnswer_meets uncorrecting call session job text turnMetadata).of_ok hshown
  obtain ⟨hcovered, hsame⟩ := (decideAfterAnswer_meets uncorrecting call shown job).of_ok hdecided
  have ha' : decided.active := InterviewSession.active_of_stance (hsame.trans hstance) ha
  have hpursued : Pursues uncorrecting decision decided asked :=
    (applyDecision_pursues _ ha' trivial latencyMs).of_ok hasked
  have hfollowed := hpursued.trans (countFollowup_pursues asked decision)
  have hopened := hfollowed.trans
    ((openRequestedTool_pursues call job decision (fun _ _ _ => trivial) turn.id).of_ok htooled)
  have hfinal : Effects uncorrecting decided session' :=
    (hopened.completes _ ha' trivial).of_ok hcompleted
  obtain ⟨taken, entry, entries, turns, htakes⟩ := prepareAnswer_takes hshown
  have hrest : Continues shown session' := (hcovered.trans hfinal).continues fun _ _ h => h
  obtain ⟨entries, turns, htakes⟩ := htakes.continues hrest
  exact ⟨taken, entry, entries, turns, htakes⟩

end

end NoraInterviewer
