import NoraInterviewer.VoiceLog

namespace NoraInterviewer

namespace RealtimeVoiceCoordinator

open Voicing

/-- The barge-ins of the log. -/
def bargeIns (session : InterviewSession) : List LogEntry :=
  session.log.filter fun entry => entry.type = .voiceBargeIn

/-- The log has the barge-ins that the voice counts, in the generations that they began. -/
structure BargeInsCounted (voice : VoiceSessionState) (session : InterviewSession) : Prop where
  count : (bargeIns session).length = voice.interruptionCount
  generations : ∃ generations : List Nat,
    (bargeIns session).map (fun entry => entry.payload.lookup "generation") =
      generations.map (fun generation => some (.nat generation)) ∧
    generations.Pairwise (· < ·) ∧ ∀ generation ∈ generations, generation ≤ voice.generation

/-- The log has a final transcript at `i`. -/
def FinalAt (session : InterviewSession) (i : Nat) : Prop :=
  ∃ entry, session.log[i]? = some entry ∧ entry.type = .voiceTranscriptFinal

/-- Turn `k` is the candidate's, has the words of the final transcript at `i`, and was logged after
it. -/
def Replies (session : InterviewSession) (i k : Nat) : Prop :=
  ∃ final turn later entry, session.log[i]? = some final ∧ session.turns[k]? = some turn ∧
    turn.speaker = .candidate ∧ final.payload.lookup "text" = some (.str turn.text) ∧
    i < later ∧ session.log[later]? = some entry ∧ entry.IsTurn .candidateTurn turn

/-- Each final transcript has a later candidate turn of its own, in the same order. -/
def FinalsAnswered (session : InterviewSession) : Prop :=
  ∃ reply : Nat → Nat, (∀ i, FinalAt session i → Replies session i (reply i)) ∧
    ∀ i j, FinalAt session i → FinalAt session j → i < j → reply i < reply j

theorem Replies.extends {session session' : InterviewSession} {entries : List LogEntry}
    {turns : List Turn} {i k : Nat} (h : Replies session i k)
    (hlog : session'.log = session.log ++ entries) (hturns : session'.turns = session.turns ++ turns) :
    Replies session' i k := by
  obtain ⟨final, turn, later, entry, hfinal, hturn, hspeaker, htext, hlater, hentry, his⟩ := h
  have hkept : ∀ {α : Type} {items more : List α} {item : α} {n : Nat}, items[n]? = some item →
      (items ++ more)[n]? = some item := by
    intro α items more item n hitem
    obtain ⟨hlt, _⟩ := List.getElem?_eq_some_iff.mp hitem
    rw [List.getElem?_append_left hlt]
    exact hitem
  refine ⟨final, turn, later, entry, ?_, ?_, hspeaker, htext, hlater, ?_, his⟩
  · rw [hlog]
    exact hkept hfinal
  · rw [hturns]
    exact hkept hturn
  · rw [hlog]
    exact hkept hentry

/-- A final transcript of a longer log was there before, or it is one of the new entries. -/
theorem FinalAt.of_append {session session' : InterviewSession} {entries : List LogEntry} {i : Nat}
    (h : FinalAt session' i) (hlog : session'.log = session.log ++ entries) :
    FinalAt session i ∨ session.log.length ≤ i ∧
      ∃ entry, entries[i - session.log.length]? = some entry ∧
        entry.type = .voiceTranscriptFinal := by
  obtain ⟨entry, hentry, htype⟩ := h
  rw [hlog] at hentry
  by_cases hlt : i < session.log.length
  · rw [List.getElem?_append_left hlt] at hentry
    exact .inl ⟨entry, hentry, htype⟩
  · rw [List.getElem?_append_right (by omega)] at hentry
    exact .inr ⟨by omega, entry, hentry, htype⟩

theorem FinalsAnswered.extends {session session' : InterviewSession} {entries : List LogEntry}
    {turns : List Turn} (h : FinalsAnswered session) (hlog : session'.log = session.log ++ entries)
    (hturns : session'.turns = session.turns ++ turns)
    (hfinal : ∀ entry ∈ entries, entry.type ≠ .voiceTranscriptFinal) : FinalsAnswered session' := by
  obtain ⟨reply, hreplies, hmono⟩ := h
  have hold : ∀ i, FinalAt session' i → FinalAt session i := by
    intro i hi
    refine (hi.of_append hlog).resolve_right ?_
    rintro ⟨_, entry, hentry, htype⟩
    exact hfinal entry (List.mem_of_getElem? hentry) htype
  refine ⟨reply, fun i hi => (hreplies i (hold i hi)).extends hlog hturns, ?_⟩
  exact fun i j hi hj => hmono i j (hold i hi) (hold j hj)

/-- A final transcript was written, and after it a turn with its words was taken. -/
theorem FinalsAnswered.answers {session written begun session' : InterviewSession}
    {final entry : LogEntry} {turn : Turn} {text : String} {entries : List LogEntry}
    {turns : List Turn} (h : FinalsAnswered session)
    (hlog : written.log = session.log ++ [final]) (hturns : written.turns = session.turns)
    (htext : final.payload.lookup "text" = some (.str text)) (hbegun : Continues written begun)
    (htakes : TakesTurn text begun session' turn entry entries turns) : FinalsAnswered session' := by
  obtain ⟨reply, hreplies, hmono⟩ := h
  obtain ⟨before, asked, hbefore, hasked, hplain⟩ := hbegun
  have hlogs : session'.log = session.log ++ final :: (before ++ entry :: entries) := by
    rw [htakes.log, hbefore, hlog]
    simp
  have hall : session'.turns = session.turns ++ (asked ++ turn :: turns) := by
    rw [htakes.turns, hasked, hturns, List.append_assoc]
  have hcases : ∀ i, FinalAt session' i → FinalAt session i ∨ i = session.log.length := by
    intro i hi
    refine (hi.of_append hlogs).imp_right ?_
    rintro ⟨hle, other, hother, htype⟩
    by_contra hne
    obtain ⟨n, hn⟩ : ∃ n, i - session.log.length = n + 1 := ⟨i - session.log.length - 1, by omega⟩
    rw [hn, List.getElem?_cons_succ] at hother
    rcases List.mem_append.mp (List.mem_of_getElem? hother) with hin | hin
    · exact (hplain other hin).2 htype
    · rcases List.mem_cons.mp hin with rfl | hin
      · rw [htakes.logged.type] at htype
        cases htype
      · exact (htakes.plain other hin).2 htype
  have hbound : ∀ i, FinalAt session i →
      i < session.log.length ∧ reply i < session.turns.length := by
    intro i hi
    obtain ⟨_, turn, _, _, hfinal, hturn, _⟩ := hreplies i hi
    exact ⟨(List.getElem?_eq_some_iff.mp hfinal).1, (List.getElem?_eq_some_iff.mp hturn).1⟩
  refine ⟨fun i => if i = session.log.length then session.turns.length + asked.length else reply i,
    fun i hi => ?_, fun i j hi hj hlt => ?_⟩
  · rcases hcases i hi with hi | rfl
    · simp only [if_neg (hbound i hi).1.ne]
      exact (hreplies i hi).extends hlogs hall
    · simp only [if_true]
      refine ⟨final, turn, session.log.length + (before.length + 1), entry, ?_, ?_,
        htakes.speaker, htakes.text ▸ htext, by omega, ?_, htakes.logged⟩
      · rw [hlogs]
        simp
      · rw [hall]
        simp
      · rw [hlogs]
        simp
  · rcases hcases i hi with hi | rfl
    · rcases hcases j hj with hj | rfl
      · simp only [if_neg (hbound i hi).1.ne, if_neg (hbound j hj).1.ne]
        exact hmono i j hi hj hlt
      · have hsmall := (hbound i hi).2
        simp only [if_neg (hbound i hi).1.ne, if_true]
        omega
    · rcases hcases j hj with hj | rfl
      · exact absurd (hbound j hj).1 (by omega)
      · exact absurd hlt (Nat.lt_irrefl _)

theorem bargeIns_append {session session' : InterviewSession} {entries : List LogEntry}
    (hlog : session'.log = session.log ++ entries) :
    bargeIns session' = bargeIns session ++ entries.filter fun entry => entry.type = .voiceBargeIn := by
  unfold bargeIns
  rw [hlog, List.filter_append]

/-- The entries have a barge-in exactly when one is counted, with the generation that it begins. -/
def CountsBargeIns (voice voice' : VoiceSessionState) (entries : List LogEntry) : Prop :=
  (∀ entry ∈ entries, entry.type ≠ .voiceBargeIn) ∧
      voice'.interruptionCount = voice.interruptionCount ∧ voice.generation ≤ voice'.generation ∨
    ∃ entry, (entries.filter fun entry => entry.type = .voiceBargeIn) = [entry] ∧
      entry.payload.lookup "generation" = some (.nat voice'.generation) ∧
      voice'.interruptionCount = voice.interruptionCount + 1 ∧
      voice.generation < voice'.generation

theorem BargeInsCounted.extends {voice voice' : VoiceSessionState}
    {session session' : InterviewSession} {entries : List LogEntry}
    (h : BargeInsCounted voice session) (hlog : session'.log = session.log ++ entries)
    (hc : CountsBargeIns voice voice' entries) : BargeInsCounted voice' session' := by
  obtain ⟨generations, heq, hsorted, hle⟩ := h.generations
  rcases hc with ⟨hplain, hcount, hgeneration⟩ | ⟨entry, hone, hentry, hcount, hgeneration⟩
  · have hnone : (entries.filter fun entry => entry.type = .voiceBargeIn) = [] := by
      refine List.filter_eq_nil_iff.mpr fun entry hentry => ?_
      simpa using hplain entry hentry
    have hsame : bargeIns session' = bargeIns session := by
      rw [bargeIns_append hlog, hnone, List.append_nil]
    refine ⟨?_, generations, ?_, hsorted, fun generation hin => (hle generation hin).trans hgeneration⟩
    · rw [hsame, hcount]
      exact h.count
    · rw [hsame]
      exact heq
  · have hadded : bargeIns session' = bargeIns session ++ [entry] := by
      rw [bargeIns_append hlog, hone]
    refine ⟨?_, generations ++ [voice'.generation], ?_, ?_, fun generation hin => ?_⟩
    · rw [hadded, List.length_append, List.length_singleton, h.count, hcount]
    · rw [hadded, List.map_append, List.map_append, heq, List.map_singleton, List.map_singleton,
        hentry]
    · refine List.pairwise_append.mpr ⟨hsorted, List.pairwise_singleton _ _, fun a ha b hb => ?_⟩
      rw [List.mem_singleton.mp hb]
      exact (hle a ha).trans_lt hgeneration
    · rcases List.mem_append.mp hin with hin | hin
      · exact (hle generation hin).trans hgeneration.le
      · rw [List.mem_singleton.mp hin]

theorem entry_plain {call : VoiceCall} {type : EventType} {turn : Option Turn}
    {payload : Dict Json} (hb : type ≠ .voiceBargeIn) (hf : type ≠ .voiceTranscriptFinal) :
    (entry call type turn payload).Plain :=
  ⟨hb, hf⟩

/-- What the voice counts is in the log, and the log has answers to its final transcripts. -/
structure Accounts (voice : VoiceSessionState) (session : InterviewSession) : Prop where
  bargeIns : BargeInsCounted voice session
  finals : FinalsAnswered session

theorem Accounts.continues {voice voice' : VoiceSessionState} {session session' : InterviewSession}
    (h : Accounts voice session) (hc : Continues session session')
    (hcount : voice'.interruptionCount = voice.interruptionCount)
    (hgeneration : voice.generation ≤ voice'.generation) : Accounts voice' session' := by
  obtain ⟨entries, turns, hlog, hturns, hplain⟩ := hc
  refine ⟨h.bargeIns.extends hlog (.inl ⟨fun entry hin => (hplain entry hin).1, hcount,
    hgeneration⟩), h.finals.extends hlog hturns fun entry hin => (hplain entry hin).2⟩

end RealtimeVoiceCoordinator

end NoraInterviewer
