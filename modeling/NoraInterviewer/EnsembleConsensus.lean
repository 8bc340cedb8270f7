import NoraInterviewer.EnsembleVotes
import NoraInterviewer.CurrentFindings

namespace NoraInterviewer

theorem EvidenceState.value_injective : Function.Injective EvidenceState.value := by
  intro a b h
  cases a <;> cases b <;> first | rfl | (revert h; decide)

/-- A finding that passes the schema has what it was built from, within the bounds of the text. -/
theorem validateFinding_iff {competencyId : String} {state : EvidenceState} {confidence : ℚ}
    {quote : Option String} {rationale : String} {finding : JudgeFinding} :
    validateFinding competencyId state confidence quote rationale = .ok finding ↔
      (finding.competencyId = competencyId ∧ finding.state = state ∧
        (finding.confidence : ℚ) = confidence ∧ finding.quote = quote ∧
        finding.rationale = rationale) ∧
      competencyId ≠ "" ∧ (∀ text ∈ quote, text.length ≤ 4000) ∧
      2 ≤ rationale.length ∧ rationale.length ≤ 2000 := by
  have hany : (quote.any fun quote => decide (4000 < quote.length)) = true ↔
      ¬∀ text ∈ quote, text.length ≤ 4000 := by
    cases quote with
    | none => simp
    | some text => simp
  constructor
  · intro h
    unfold validateFinding at h
    obtain ⟨hid, h⟩ := ExceptRules.ite_error_ok h
    split at h
    next =>
      obtain ⟨hquote, h⟩ := ExceptRules.ite_error_ok h
      obtain ⟨hrationale, h⟩ := ExceptRules.ite_error_ok h
      split at h
      next =>
        split at h
        next =>
          cases h
          rw [hany, not_not] at hquote
          exact ⟨⟨rfl, rfl, rfl, rfl, rfl⟩, hid, hquote, by omega, by omega⟩
        next => cases h
      next => cases h
    next => cases h
  · rintro ⟨⟨rfl, rfl, rfl, rfl, rfl⟩, hid, hquote, hshort, hlong⟩
    have hfits : ¬(finding.quote.any fun quote => decide (4000 < quote.length)) = true :=
      fun hc => hany.mp hc hquote
    have hrationale : ¬(finding.rationale.length < 2 ∨ 2000 < finding.rationale.length) := by
      omega
    unfold validateFinding
    rw [if_neg hid, dif_pos finding.confidence.property, if_neg hfits, if_neg hrationale,
      dif_pos finding.not_verified, dif_pos finding.quoted]

namespace EvidenceJudgeEnsemble

variable {findings : List JudgeFinding}

/-- How many of the findings are of a state, and its value among equals. -/
def standing (findings : List JudgeFinding) (state : EvidenceState) : ℕ ×ₗ String :=
  toLex (findings.countP fun finding => finding.state = state, state.value)

theorem leader_eq : leader findings =
    ((findings.map JudgeFinding.state).argmax (standing findings)).map fun state =>
      (state, findings.countP fun finding => finding.state = state) := by
  unfold leader List.argmax
  refine @List.foldl_hom _ _ _ (Option.map fun state =>
    (state, findings.countP fun finding => finding.state = state)) _ _ _ none fun best state => ?_
  cases best with
  | none => rfl
  | some ahead =>
    simp only [Option.map_some, List.argAux, standing, Prod.Lex.toLex_lt_toLex]
    split
    next => rfl
    next => rfl

/-- The leader's count is that of a state, and no state has more. -/
theorem most_votes (findings : List JudgeFinding) :
    (∃ state, (leader findings).elim 0 Prod.snd =
      findings.countP fun finding => finding.state = state) ∧
    ∀ state, (findings.countP fun finding => finding.state = state) ≤
      (leader findings).elim 0 Prod.snd := by
  rw [leader_eq]
  cases hmost : (findings.map JudgeFinding.state).argmax (standing findings) with
  | none =>
    rw [List.argmax_eq_none, List.map_eq_nil_iff] at hmost
    subst hmost
    exact ⟨⟨.unknown, rfl⟩, fun state => le_refl 0⟩
  | some ahead =>
    refine ⟨⟨ahead, rfl⟩, fun state => ?_⟩
    by_cases hmem : state ∈ findings.map JudgeFinding.state
    · have hle := List.le_of_mem_argmax hmem hmost
      rw [standing, standing, Prod.Lex.toLex_le_toLex] at hle
      rcases hle with hlt | ⟨heq, _⟩
      · exact le_of_lt hlt
      · exact le_of_eq heq
    · have hzero : (findings.countP fun finding => finding.state = state) = 0 := by
        rw [List.countP_eq_zero]
        intro finding hf hstate
        rw [decide_eq_true_eq] at hstate
        exact hmem (hstate ▸ List.mem_map_of_mem hf)
      rw [hzero]
      exact Nat.zero_le _

theorem leader_some {state : EvidenceState} {count : Nat} (h : leader findings = some (state, count)) :
    count = findings.countP fun finding => finding.state = state := by
  rw [leader_eq] at h
  obtain ⟨ahead, _, h⟩ := Option.map_eq_some_iff.mp h
  cases h
  rfl

theorem mostConfident_eq (findings : List JudgeFinding) :
    mostConfident findings = findings.argmax fun finding => finding.confidence := by
  cases findings with
  | nil => rfl
  | cons finding rest =>
    have hfold : ∀ (others : List JudgeFinding) (best : JudgeFinding),
        some (others.foldl (fun best other =>
          if best.confidence < other.confidence then other else best) best) =
        others.foldl (List.argAux fun (b c : JudgeFinding) => c.confidence < b.confidence)
          (some best) := by
      intro others
      induction others with
      | nil => exact fun best => rfl
      | cons other rest ih =>
        intro best
        rw [List.foldl_cons, List.foldl_cons, ih]
        congr 1
        simp only [List.argAux]
        split
        next => rfl
        next => rfl
    exact hfold rest finding

variable {ensemble other : EvidenceJudgeEnsemble}

theorem requiredVotes_le {count : Nat} : ensemble.requiredVotes ≤ count ↔
    ⌈ensemble.agreementThreshold * ensemble.judges.length⌉ ≤ (count : ℤ) := by
  unfold requiredVotes
  rw [Int.toNat_le, Rat.ceil_le_iff, Int.ceil_le]

/-- The votes required are more than half of the judges. -/
theorem majority_required (ensemble : EvidenceJudgeEnsemble) :
    ensemble.judges.length < 2 * ensemble.requiredVotes := by
  have hreach : ensemble.agreementThreshold * ensemble.judges.length ≤
      (ensemble.requiredVotes : ℚ) := by
    have hceil := (@requiredVotes_le ensemble _).mp le_rfl
    exact_mod_cast Int.ceil_le.mp hceil
  have hjudges : (2 : ℚ) ≤ ensemble.judges.length := by exact_mod_cast ensemble.two
  have hhalf := ensemble.threshold_range.1
  have hlt : (ensemble.judges.length : ℚ) < 2 * ensemble.requiredVotes := by nlinarith
  exact_mod_cast hlt

/-- A finding on which the counted findings settle. -/
inductive Settled (ensemble : EvidenceJudgeEnsemble) (findings : List JudgeFinding)
    (finding : JudgeFinding) : Prop where
  | agreed (source : JudgeFinding)
      (votes : ensemble.requiredVotes ≤ findings.countP fun other => other.state = finding.state)
      (source_eq : mostConfident (findings.filter fun other => other.state = finding.state) =
        some source)
      (confidence_eq : (finding.confidence : ℚ) = round4
        (((findings.filter fun other => other.state = finding.state).map
          fun other => (other.confidence : ℚ)).sum /
            (findings.filter fun other => other.state = finding.state).length))
      (quote_eq : finding.quote =
        if finding.state = .demonstrated ∨ finding.state = .contradicted then source.quote else none)
  | undecided
      (short : ∀ state, (findings.countP fun other => other.state = state) < ensemble.requiredVotes)
      (state_eq : finding.state = .insufficient)
      (confidence_eq : (finding.confidence : ℚ) =
        round4 (((leader findings).elim 0 Prod.snd : Nat) / ensemble.judges.length))
      (quote_eq : finding.quote = none)

/-- Where the leader has not votes enough, no state has. -/
theorem votes_short
    (h : (leader findings).filter (fun best => ensemble.requiredVotes ≤ best.2) = none)
    (state : EvidenceState) :
    (findings.countP fun finding => finding.state = state) < ensemble.requiredVotes := by
  have hmost := (most_votes findings).2 state
  by_contra hreached
  cases hleader : leader findings with
  | none =>
    rw [hleader] at hmost
    have hmajority := ensemble.majority_required
    simp only [Option.elim_none] at hmost
    omega
  | some best =>
    rw [hleader] at h hmost
    have hbest : ensemble.requiredVotes ≤ best.2 := le_trans (not_lt.mp hreached) hmost
    rw [Option.filter_some, if_pos (decide_eq_true hbest)] at h
    cases h

theorem consensus_settled {hearings : List Hearing} {competencyId : String}
    {decided : JudgeFinding × Json} (h : ensemble.consensus hearings competencyId = .ok decided) :
    ensemble.Settled (hearings.filterMap (Hearing.finding competencyId)) decided.1 := by
  unfold consensus at h
  simp only at h
  split at h
  next state count hmet =>
    obtain ⟨finding, hfinding, h⟩ := ExceptRules.bind_ok h
    cases h
    obtain ⟨hleader, hvotes⟩ := Option.filter_eq_some_iff.mp hmet
    rw [decide_eq_true_eq, leader_some hleader] at hvotes
    unfold consensusFinding at hfinding
    simp only at hfinding
    split at hfinding
    next => cases hfinding
    next source hsource =>
      obtain ⟨⟨_, hstate, hconfidence, hquote, _⟩, _⟩ := validateFinding_iff.mp hfinding
      subst hstate
      exact .agreed source hvotes hsource hconfidence hquote
  next hmet =>
    obtain ⟨finding, hfinding, h⟩ := ExceptRules.bind_ok h
    cases h
    obtain ⟨⟨_, hstate, hconfidence, hquote, _⟩, _⟩ := validateFinding_iff.mp hfinding
    exact .undecided (votes_short hmet) hstate hconfidence hquote

theorem two_states {state state' : EvidenceState} (hne : state ≠ state') :
    (findings.countP fun finding => finding.state = state) +
      (findings.countP fun finding => finding.state = state') ≤ findings.length := by
  induction findings with
  | nil => exact le_refl 0
  | cons finding rest ih =>
    rw [List.countP_cons, List.countP_cons, List.length_cons]
    by_cases hstate : finding.state = state
    · have hother : finding.state ≠ state' := fun hc => hne (hstate.symm.trans hc)
      simp only [hstate, hne, decide_true, decide_false]
      simp only [if_true, Bool.false_eq_true, if_false]
      omega
    · simp only [hstate, decide_false, Bool.false_eq_true, if_false]
      split
      next => omega
      next => omega

/-- No two states have votes enough. -/
theorem one_state {state state' : EvidenceState} (hfew : findings.length ≤ ensemble.judges.length)
    (h : ensemble.requiredVotes ≤ findings.countP fun finding => finding.state = state)
    (h' : ensemble.requiredVotes ≤ findings.countP fun finding => finding.state = state') :
    state = state' := by
  by_contra hne
  have htwo := @two_states findings _ _ hne
  have hmajority := ensemble.majority_required
  omega

theorem Settled.state_iff {finding : JudgeFinding} {state : EvidenceState}
    (hfew : findings.length ≤ ensemble.judges.length) (h : ensemble.Settled findings finding)
    (hstate : state ≠ .insufficient) : finding.state = state ↔
      ensemble.requiredVotes ≤ findings.countP fun other => other.state = state := by
  cases h with
  | agreed source votes =>
    constructor
    · rintro rfl
      exact votes
    · exact fun hvotes => one_state hfew votes hvotes
  | undecided short state_eq =>
    constructor
    · intro heq
      exact absurd (heq.symm.trans state_eq) hstate
    · exact fun hvotes => absurd hvotes (not_le.mpr (short state))

theorem Settled.insufficient {finding : JudgeFinding} (h : ensemble.Settled findings finding)
    (hshort : ∀ state ≠ .insufficient,
      (findings.countP fun other => other.state = state) < ensemble.requiredVotes) :
    finding.state = .insufficient := by
  cases h with
  | agreed source votes =>
    by_contra hne
    exact absurd votes (not_le.mpr (hshort _ hne))
  | undecided short state_eq => exact state_eq

theorem most_votes_perm {findings' : List JudgeFinding} (hperm : findings.Perm findings') :
    (leader findings).elim 0 Prod.snd = (leader findings').elim 0 Prod.snd := by
  obtain ⟨⟨state, hstate⟩, hmost⟩ := most_votes findings
  obtain ⟨⟨state', hstate'⟩, hmost'⟩ := most_votes findings'
  refine le_antisymm ?_ ?_
  · rw [hstate, hperm.countP_eq]
    exact hmost' state
  · rw [hstate', ← hperm.countP_eq]
    exact hmost state'

/-- The same findings in another order settle on the same state and the same confidence. -/
theorem Settled.symmetric {findings' : List JudgeFinding} {finding finding' : JudgeFinding}
    (hfew : findings.length ≤ ensemble.judges.length)
    (hjudges : other.judges.length = ensemble.judges.length)
    (hvotes : other.requiredVotes = ensemble.requiredVotes) (hperm : findings.Perm findings')
    (h : ensemble.Settled findings finding) (h' : other.Settled findings' finding') :
    finding.state = finding'.state ∧ finding.confidence = finding'.confidence := by
  cases h with
  | agreed source votes _ confidence_eq =>
    cases h' with
    | agreed source' votes' _ confidence_eq' =>
      rw [hvotes, ← hperm.countP_eq] at votes'
      have hstate := one_state hfew votes votes'
      refine ⟨hstate, Subtype.ext ?_⟩
      have hagreeing := hperm.filter fun other => other.state = finding'.state
      rw [confidence_eq, confidence_eq', hstate, hagreeing.length_eq,
        (hagreeing.map fun other => (other.confidence : ℚ)).sum_eq]
    | undecided short' =>
      have hshort := short' finding.state
      rw [hvotes, ← hperm.countP_eq] at hshort
      exact absurd votes (not_le.mpr hshort)
  | undecided short state_eq confidence_eq =>
    cases h' with
    | agreed source' votes' =>
      rw [hvotes, ← hperm.countP_eq] at votes'
      exact absurd votes' (not_le.mpr (short _))
    | undecided short' state_eq' confidence_eq' =>
      refine ⟨state_eq.trans state_eq'.symm, Subtype.ext ?_⟩
      rw [confidence_eq, confidence_eq', most_votes_perm hperm, hjudges]

theorem consensusAll_settled {hearings : List Hearing} {competencyIds : List String}
    {decided : List (JudgeFinding × Json)}
    (h : ensemble.consensusAll hearings competencyIds = .ok decided) :
    List.Forall₂ (fun competencyId finding => finding.competencyId = competencyId ∧
        ensemble.Settled (hearings.filterMap (Hearing.finding competencyId)) finding)
      competencyIds (decided.map Prod.fst) := by
  induction competencyIds generalizing decided with
  | nil =>
    cases h
    exact .nil
  | cons competencyId rest ih =>
    obtain ⟨first, hfirst, h⟩ := ExceptRules.bind_ok h
    obtain ⟨others, hothers, h⟩ := ExceptRules.bind_ok h
    cases h
    exact .cons ⟨consensus_id hfirst, consensus_settled hfirst⟩ (ih hothers)

variable {question answer : Turn} {job : JobSpec} {competencyIds : List String}

theorem evaluate_settled {response : JudgeResponse}
    (h : ensemble.evaluate question answer job competencyIds = .ok response) :
    List.Forall₂ (fun competencyId finding => finding.competencyId = competencyId ∧
        ensemble.Settled (ensemble.ballots question answer job competencyIds competencyId) finding)
      competencyIds response.findings := by
  obtain ⟨decided, hdecided, h⟩ := ExceptRules.bind_ok h
  cases h
  have hall := consensusAll_settled hdecided
  simp only [heard_ballots] at hall
  exact hall

theorem ballots_few (competencyId : String) :
    (ensemble.ballots question answer job competencyIds competencyId).length ≤
      ensemble.judges.length :=
  List.length_filterMap_le _ _

/-- A ballot is one of the findings of a judge that the answer grounds. -/
theorem ballot_heard {competencyId : String} {judge : EvidenceJudge} {finding : JudgeFinding}
    (h : ballot question answer job competencyIds competencyId judge = some finding) :
    ∃ response, judge.evaluate question answer job competencyIds = .ok response ∧
      finding ∈ response.findings ∧ finding.GroundedIn answer := by
  unfold ballot at h
  split at h
  next => cases h
  next response he =>
    split at h
    next hfair =>
      have hmem := List.mem_of_find?_eq_some h
      exact ⟨response, he, hmem, hfair.1 finding hmem⟩
    next => cases h

/-- What a settled finding quotes, the answer holds. -/
theorem Settled.groundedIn {competencyId : String} {finding : JudgeFinding}
    (h : ensemble.Settled (ensemble.ballots question answer job competencyIds competencyId)
      finding) : finding.GroundedIn answer := by
  intro quote hmem
  cases h with
  | agreed source votes source_eq confidence_eq quote_eq =>
    rw [quote_eq] at hmem
    split at hmem
    next hstate =>
      rw [mostConfident_eq] at source_eq
      have hsource := (List.mem_filter.mp (List.argmax_mem source_eq)).1
      obtain ⟨judge, _, hballot⟩ := List.mem_filterMap.mp hsource
      obtain ⟨_, _, _, hgrounded⟩ := ballot_heard hballot
      exact hgrounded quote hmem
    next => cases hmem
  | undecided short state_eq confidence_eq quote_eq =>
    rw [quote_eq] at hmem
    cases hmem

/-- What an ensemble's finding says of the votes on its competency. -/
structure Faithful (ensemble : EvidenceJudgeEnsemble) (question answer : Turn) (job : JobSpec)
    (competencyIds : List String) (finding : JudgeFinding) : Prop where
  exact : ∀ state ≠ .insufficient, finding.state = state ↔
    ⌈ensemble.agreementThreshold * ensemble.judges.length⌉ ≤
      (ensemble.votesFor question answer job competencyIds finding.competencyId state : ℤ)
  otherwise : (∀ state ≠ .insufficient,
    (ensemble.votesFor question answer job competencyIds finding.competencyId state : ℤ) <
      ⌈ensemble.agreementThreshold * ensemble.judges.length⌉) → finding.state = .insufficient
  grounded : finding.state = .demonstrated ∨ finding.state = .contradicted →
    ∃ quote, finding.quote = some quote ∧ quote ≠ "" ∧ quote.toList <:+: answer.text.toList

theorem Settled.faithful {finding : JudgeFinding}
    (h : ensemble.Settled
      (ensemble.ballots question answer job competencyIds finding.competencyId) finding) :
    ensemble.Faithful question answer job competencyIds finding := by
  refine ⟨fun state hstate => ?_, fun hshort => ?_, fun hstate => ?_⟩
  · rw [h.state_iff (ballots_few _) hstate, countP_ballots, requiredVotes_le]
  · refine h.insufficient fun state hstate => ?_
    have hfew := hshort state hstate
    rw [countP_ballots, ← not_le, requiredVotes_le, not_le]
    exact hfew
  · have hgiven := finding.quoted hstate
    rw [given, Option.any_eq_true] at hgiven
    obtain ⟨quote, hsome, hne⟩ := hgiven
    exact ⟨quote, hsome, of_decide_eq_true hne, of_decide_eq_true (h.groundedIn quote hsome)⟩

/-- A judge that failed, or that gave a finding ungrounded or twice, has no vote. -/
theorem no_vote {judge : EvidenceJudge} (h : (∃ e, judge.evaluate question answer job competencyIds =
      .error e) ∨ ∃ response, judge.evaluate question answer job competencyIds = .ok response ∧
        ((∃ finding ∈ response.findings, ¬finding.GroundedIn answer) ∨
          ¬(response.findings.map JudgeFinding.competencyId).Nodup)) (competencyId : String) :
    vote question answer job competencyIds competencyId judge = none := by
  unfold vote ballot
  rcases h with ⟨e, he⟩ | ⟨response, he, hunfair⟩
  · rw [he]
    rfl
  · rw [he]
    simp only
    rw [if_neg]
    · rfl
    · rintro ⟨hgrounded, hnodup, _⟩
      rcases hunfair with ⟨finding, hf, hnot⟩ | htwice
      · exact hnot (hgrounded finding hf)
      · exact htwice hnodup

theorem ballots_perm (hperm : other.judges.Perm ensemble.judges) (competencyId : String) :
    (ensemble.ballots question answer job competencyIds competencyId).Perm
      (other.ballots question answer job competencyIds competencyId) :=
  hperm.symm.filterMap _

/-- What a run of the ensemble and one of its judges in another order agree on. -/
theorem settled_symmetric {ids : List String} {findings findings' : List JudgeFinding}
    (hperm : other.judges.Perm ensemble.judges)
    (hthreshold : other.agreementThreshold = ensemble.agreementThreshold)
    (h : List.Forall₂ (fun competencyId finding => finding.competencyId = competencyId ∧
      ensemble.Settled (ensemble.ballots question answer job competencyIds competencyId) finding)
      ids findings)
    (h' : List.Forall₂ (fun competencyId finding => finding.competencyId = competencyId ∧
      other.Settled (other.ballots question answer job competencyIds competencyId) finding)
      ids findings') :
    findings'.map (fun finding => (finding.competencyId, finding.state, finding.confidence)) =
      findings.map fun finding => (finding.competencyId, finding.state, finding.confidence) := by
  induction h generalizing findings' with
  | nil =>
    cases h'
    rfl
  | cons hfirst hrest ih =>
    cases h' with
    | cons hfirst' hrest' =>
      obtain ⟨hid, hsettled⟩ := hfirst
      obtain ⟨hid', hsettled'⟩ := hfirst'
      have hvotes : other.requiredVotes = ensemble.requiredVotes := by
        rw [requiredVotes, requiredVotes, hthreshold, hperm.length_eq]
      obtain ⟨hstate, hconfidence⟩ := hsettled.symmetric (ballots_few _) hperm.length_eq hvotes
        (ballots_perm hperm _) hsettled'
      rw [List.map_cons, List.map_cons, ih hrest', hid, hid', hstate, hconfidence]

/-- Consensus is exact, grounded and symmetric. -/
theorem consensus_exact (ensemble : EvidenceJudgeEnsemble) (question answer : Turn) (job : JobSpec)
    (competencyIds : List String) (response : JudgeResponse)
    (h : ensemble.evaluate question answer job competencyIds = .ok response) :
    response.findings.map JudgeFinding.competencyId = competencyIds ∧
    (∀ finding ∈ response.findings,
      ensemble.Faithful question answer job competencyIds finding) ∧
    (∀ competencyId state state',
      ⌈ensemble.agreementThreshold * ensemble.judges.length⌉ ≤
          (ensemble.votesFor question answer job competencyIds competencyId state : ℤ) →
      ⌈ensemble.agreementThreshold * ensemble.judges.length⌉ ≤
          (ensemble.votesFor question answer job competencyIds competencyId state' : ℤ) →
      state = state') ∧
    (∀ judge ∈ ensemble.judges,
      ((∃ e, judge.evaluate question answer job competencyIds = .error e) ∨
        ∃ heard, judge.evaluate question answer job competencyIds = .ok heard ∧
          ((∃ finding ∈ heard.findings, ¬finding.GroundedIn answer) ∨
            ¬(heard.findings.map JudgeFinding.competencyId).Nodup)) →
      ∀ competencyId, vote question answer job competencyIds competencyId judge = none) ∧
    ∀ other : EvidenceJudgeEnsemble, other.judges.Perm ensemble.judges →
      other.agreementThreshold = ensemble.agreementThreshold → ∀ response',
      other.evaluate question answer job competencyIds = .ok response' →
      response'.findings.map (fun finding =>
          (finding.competencyId, finding.state, finding.confidence)) =
        response.findings.map fun finding =>
          (finding.competencyId, finding.state, finding.confidence) := by
  have hsettled := evaluate_settled h
  refine ⟨ensemble_ids h, fun finding hf => ?_, fun competencyId state state' hvotes hvotes' => ?_,
    fun judge _ hunfair => no_vote hunfair, fun other hperm hthreshold response' h' => ?_⟩
  · obtain ⟨competencyId, _, hid, hfinding⟩ := ExceptRules.forall₂_mem_right hsettled hf
    subst hid
    exact hfinding.faithful
  · rw [← requiredVotes_le, ← countP_ballots] at hvotes hvotes'
    exact one_state (ballots_few _) hvotes hvotes'
  · exact settled_symmetric hperm hthreshold hsettled (evaluate_settled h')

def firmFinding (rationale : String) : JudgeFinding where
  competencyId := "systems"
  state := .demonstrated
  confidence := UnitScore.one
  quote := some "queues"
  rationale := rationale
  not_verified := knownFinding.not_verified
  quoted := fun _ => by decide

/-- A judge that finds the same in every answer. -/
def firmJudge (judgeId rationale : String) : EvidenceJudge where
  judgeId := judgeId
  evaluate _ _ _ _ := .ok { findings := [firmFinding rationale] }

def firmPair : EvidenceJudgeEnsemble where
  judges := [firmJudge "a" "Names queues.", firmJudge "b" "Queues again."]
  agreementThreshold := 1
  two := by decide
  unique := by decide
  threshold_range := by decide +kernel

def queueQuestion : Turn := { id := "q", speaker := .interviewer, text := "How?" }

def queueAnswer : Turn := { id := "a", speaker := .candidate, text := "With queues." }

theorem consensus_exact_firm : ∃ response finding,
    firmPair.evaluate queueQuestion queueAnswer plainJob ["systems"] = .ok response ∧
    response.findings = [finding] ∧ finding.state = .demonstrated ∧
    firmPair.Faithful queueQuestion queueAnswer plainJob ["systems"] finding := by
  have hstates : ((firmPair.evaluate queueQuestion queueAnswer plainJob ["systems"]).toOption.map
      fun response => response.findings.map JudgeFinding.state) = some [.demonstrated] := by
    decide +kernel
  obtain ⟨response, hresponse, hfindings⟩ := Option.map_eq_some_iff.mp hstates
  cases he : firmPair.evaluate queueQuestion queueAnswer plainJob ["systems"] with
  | error e =>
    rw [he] at hresponse
    cases hresponse
  | ok result =>
    rw [he] at hresponse
    cases hresponse
    obtain ⟨finding, hsingle, hstate⟩ := List.map_eq_singleton_iff.mp hfindings
    have hexact := consensus_exact firmPair queueQuestion queueAnswer plainJob ["systems"] _ he
    refine ⟨response, finding, rfl, hsingle, hstate, hexact.2.1 finding ?_⟩
    rw [hsingle]
    exact List.mem_singleton_self _

end EvidenceJudgeEnsemble

end NoraInterviewer
