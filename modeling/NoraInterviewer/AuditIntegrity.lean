import NoraInterviewer.Execution

namespace NoraInterviewer

open ExceptRules HashChain

section

variable [CanonicalDigest]

/-- The call does not correct a turn whose metadata dict an event payload holds too, which is
what `answer` makes of the turns it records. -/
def Unshared (_ : Call) (operation : Operation) (session : InterviewSession) : Prop :=
  ∀ turnId, operation.target session = some turnId → ¬session.sharesTurn turnId

/-- The versions of a session, latest first, form an append-only verified log, and no allowed
operation on one of them is refused with an `AuditChainError`. -/
structure AuditIntact (allowed : Call → Operation → InterviewSession → Prop)
    (versions : List InterviewSession) : Prop where
  verified : ∀ session ∈ versions, ∃ head, verifyEventChain session.events = .ok head
  numbered : ∀ session ∈ versions,
    session.events.map InterviewEvent.seq = List.range' 1 session.events.length
  appended : versions.IsChain fun next session => session.events <+: next.events
  unrefused : ∀ session ∈ versions, ∀ call operation e, allowed call operation session →
    mutate call operation session = .error e → e.isAuditChain = false

/-- An effect leaves the logged events alone, unless it corrects a turn that shares its dict. -/
theorem Effect.keeps {policy : Policy} {session session' : InterviewSession}
    (hc : ∀ shared index, policy.corrects shared index → ∀ event, (event, index) ∉ shared)
    (h : Effect policy session session') (hs : Sealed session.events) :
    session.events <+: session'.events := by
  cases h with
  | evidence h =>
    obtain ⟨_, _, _, _, rfl, hg, _⟩ := h
    exact hg.keeps hs
  | covered => exact List.prefix_refl _
  | followups => exact List.prefix_refl _
  | started _ _ _ _ _ hg => exact hg.keeps hs
  | asked _ _ _ _ hg => exact hg.keeps hs
  | opened _ _ _ _ hg => exact hg.keeps hs
  | completed _ _ _ _ _ hg => exact hg.keeps hs
  | answered _ _ _ _ _ hg => exact hg.keeps hs
  | worked _ _ _ _ _ _ _ _ _ hg => exact hg.keeps hs
  | controlled _ _ hg => exact hg.keeps hs
  | replied _ _ _ _ _ hg => exact hg.keeps hs
  | corrected _ _ hp _ _ _ _ hk => exact (hk (hc _ _ hp)).keeps hs
  | appealed _ _ hg => exact hg.keeps hs
  | reviewed _ _ hg => exact hg.keeps hs
  | cancelled _ _ _ _ hg => exact hg.keeps hs

theorem Effects.keeps {policy : Policy} {session session' : InterviewSession}
    (hc : ∀ shared index, policy.corrects shared index → ∀ event, (event, index) ∉ shared)
    (h : Effects policy session session') (hs : Sealed session.events) :
    session.events <+: session'.events := by
  induction h with
  | nil => exact List.prefix_refl _
  | snoc h he ih => exact ih.trans (he.keeps hc (h.seals hs))

theorem History.appended {backend : Backend} {versions : List InterviewSession}
    (h : History backend Unshared versions) :
    versions.IsChain fun next session => session.events <+: next.events := by
  induction h with
  | created => exact List.isChain_singleton _
  | @committed call operation session session' past h ha hm ih =>
    refine List.isChain_cons_cons.mpr ⟨?_, ih⟩
    obtain ⟨job, _, heffects⟩ := mutate_ok hm
    have hkept : session.events <+: session'.events := by
      refine heffects.keeps ?_ (h.sealed session List.mem_cons_self)
      rintro _ _ ⟨rfl, turnId, ht, rfl⟩ event hmem
      exact ha turnId ht ⟨event, hmem⟩
    cases backend with
    | memory => exact hkept
    | json => exact hkept

/-- Runs without such a correction keep an append-only verified log. -/
theorem audit_intact {backend : Backend} {versions : List InterviewSession}
    (h : History backend Unshared versions) : AuditIntact Unshared versions where
  verified session hs := ⟨_, verifyEventChain_of_linked (h.sealed session hs).linked⟩
  numbered session hs := (h.sealed session hs).contiguous
  appended := h.appended
  unrefused session hs _ _ _ ha hm := mutate_error hm ha (h.sealed session hs)

end

section Runs

attribute [local instance] checksumDigest

def answeredCalls : List (Call × Operation) := [
  (plainCall askDecision, .start),
  (plainCall askDecision, .answer "I built a queue." [])]

theorem audit_intact_answered :
    ∃ versions, jobRun plainJob .memory answeredCalls = some versions ∧ AuditIntact Unshared versions := by
  have hrun : (jobRun plainJob .memory answeredCalls).isSome = true := by decide +kernel
  obtain ⟨versions, hv⟩ := Option.isSome_iff_exists.mp hrun
  have hhistory := jobRun_history (fun _ operation => operation = .start ∨
    operation = .answer "I built a queue." []) hv (by simp [answeredCalls])
  refine ⟨versions, hv, audit_intact (hhistory.mono ?_)⟩
  rintro _ _ _ ⟨_, rfl | rfl⟩ turnId ht
  · cases ht
  · cases ht

/-- The correction of an answered turn writes into the payload of its `CANDIDATE_TURN` event,
and the event of the correction itself is then refused. -/
theorem audit_refuses_correction :
    ¬∀ versions, History .memory (Admits fun _ _ => True) versions →
      AuditIntact (fun _ _ _ => True) versions := by
  intro hclaim
  have hrun : (jobRun plainJob .memory answeredCalls).any (fun versions => versions.head?.any fun session =>
      match mutate (plainCall askDecision) (.correctTranscript {
          turnId := "turn-1", correctedText := "I built a log." }) session with
      | .error e => e.isAuditChain
      | .ok _ => false) = true := by
    decide +kernel
  obtain ⟨session, past, hhistory, hcheck⟩ := jobRun_last (fun _ _ => True) (fun _ _ => trivial) hrun
  have hintact := hclaim _ hhistory
  split at hcheck
  next e he =>
    rw [hintact.unrefused session List.mem_cons_self _ _ e trivial he] at hcheck
    cases hcheck
  next => cases hcheck

end Runs

end NoraInterviewer
