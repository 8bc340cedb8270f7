import NoraInterviewer.Operations
import NoraInterviewer.OptimisticRuns

namespace NoraInterviewer

open ExceptRules OptimisticRuns

/-- How a store copies a session: `model_copy(deep=True)` keeps what is one object one
object, a round trip through JSON does not. -/
inductive Backend where
  | memory | json
  deriving DecidableEq, Repr

def Backend.copy : Backend → InterviewSession → InterviewSession
  | memory, session => session
  | json, session => { session with sharedMetadata := [] }

/-- What `put_session` stores. -/
def Backend.stored (backend : Backend) (session : InterviewSession) : InterviewSession :=
  { backend.copy session with version := session.version + 1 }

variable [CanonicalDigest]

/-- The versions of one session that the store has held, latest first, when each commit was
an admissible call on the version before it. -/
inductive History (backend : Backend) (admissible : Call → Operation → InterviewSession → Prop) :
    List InterviewSession → Prop where
  | created {call : Call} {request : CreateSession} {organizationId : Option String}
    {session : InterviewSession} (h : createSession call request organizationId = .ok session) :
    History backend admissible [backend.stored session]
  | committed {call : Call} {operation : Operation} {session session' : InterviewSession}
    {past : List InterviewSession} (h : History backend admissible (session :: past))
    (ha : admissible call operation session)
    (hm : mutate call operation session = .ok (some session')) :
    History backend admissible (backend.stored session' :: session :: past)

variable {backend : Backend} {admissible : Call → Operation → InterviewSession → Prop}

/-- What holds of a fresh session and survives every admissible operation holds of every
version. -/
theorem History.invariant {P : InterviewSession → Prop}
    (hfresh : ∀ session, Fresh session → P session)
    (hstored : ∀ session, P session → P (backend.stored session))
    (hstep : ∀ {call : Call} {job : JobSpec} {operation : Operation} {session session' : InterviewSession},
      call.job = some job → admissible call operation session → P session →
      Effects (operation.policy call job session) session session' → P session')
    {versions : List InterviewSession} (h : History backend admissible versions) :
    ∀ session ∈ versions, P session := by
  induction h with
  | created h =>
    intro session hs
    rw [List.mem_singleton.mp hs]
    exact hstored _ (hfresh _ ((createSession_meets _ _ _).of_ok h))
  | committed _ ha hm ih =>
    intro session hs
    rcases List.mem_cons.mp hs with rfl | hs
    · obtain ⟨job, hj, heffects⟩ := mutate_ok hm
      exact hstored _ (hstep hj ha (ih _ List.mem_cons_self) heffects)
    · exact ih session hs

theorem History.mono {wider : Call → Operation → InterviewSession → Prop}
    (himp : ∀ call operation session, admissible call operation session →
      wider call operation session)
    {versions : List InterviewSession} (h : History backend admissible versions) :
    History backend wider versions := by
  induction h with
  | created h => exact .created h
  | committed _ ha hm ih => exact .committed ih (himp _ _ _ ha) hm

theorem Effects.invariant {policy : Policy} {P : InterviewSession → Prop}
    (hstep : ∀ {session session' : InterviewSession}, P session →
      Effect policy session session' → P session')
    {session session' : InterviewSession} (h : Effects policy session session')
    (hs : P session) : P session' := by
  induction h with
  | nil => exact hs
  | snoc _ he ih => exact hstep ih he

/-- Every version of a session is sealed. -/
theorem History.sealed {versions : List InterviewSession} (h : History backend admissible versions) :
    ∀ session ∈ versions, Sealed session.events := by
  refine h.invariant (P := fun session => Sealed session.events) (fun _ hf => hf.sealed) ?_ ?_
  · intro session hs
    cases backend with
    | memory => exact hs
    | json => exact hs
  · intro _ _ _ _ _ _ _ hs he
    exact he.seals hs

/-- What every operation has between the version that it loads and the one that it leaves, every
version has to all later ones. -/
theorem History.pairwise {R : InterviewSession → InterviewSession → Prop}
    {versions : List InterviewSession} (h : History backend admissible versions)
    (htrans : ∀ {a b c : InterviewSession}, R b a → R c b → R c a)
    (hstep : ∀ {call : Call} {operation : Operation} {session session' : InterviewSession},
      mutate call operation session = .ok (some session') → R (backend.stored session') session) :
    versions.Pairwise R := by
  induction h with
  | created h => exact List.pairwise_singleton _ _
  | committed _ ha hm ih =>
    refine List.pairwise_cons.mpr ⟨fun earlier hearlier => ?_, ih⟩
    rcases List.mem_cons.mp hearlier with rfl | hpast
    · exact hstep hm
    · exact htrans ((List.pairwise_cons.mp ih).1 earlier hpast) (hstep hm)

end NoraInterviewer
