import NoraInterviewer.OptimisticRuns

/-! Programs that end in failure, and what they have put into the cell by then. -/

namespace OptimisticRuns

variable {ι V R : Type} [DecidableEq ι] {cas : Versioned V}

/-- The commits of one client: the value replaced and the value stored. -/
def ownCommits (i : ι) : List (Event ι V) → List (V × V)
  | [] => []
  | .committed j base value :: rest =>
    if j = i then (base, value) :: ownCommits i rest else ownCommits i rest
  | .loaded _ _ :: rest => ownCommits i rest
  | .refused _ :: rest => ownCommits i rest

theorem ownCommits_append (i : ι) (events events' : List (Event ι V)) :
    ownCommits i (events ++ events') = ownCommits i events ++ ownCommits i events' := by
  induction events with
  | nil => rfl
  | cons event rest ih =>
    cases event with
    | loaded j value => exact ih
    | refused j => exact ih
    | committed j base value =>
      by_cases hj : j = i
      · simp [ownCommits, hj, ih]
      · simp [ownCommits, hj, ih]

/-- If the others commit nothing, the cell is what the client made of it. -/
theorem Run.own_cell {s s' : State ι V R} {events : List (Event ι V)} {i : ι}
    (h : Run cas s events s') (hothers : ∀ j, j ≠ i → ownCommits j events = []) :
    (ownCommits i events = [] → s'.cell = s.cell) ∧
      ∀ base value, ownCommits i events = [(base, value)] → base = s.cell ∧ s'.cell = value := by
  induction h with
  | nil => exact ⟨fun _ => rfl, fun _ _ h => (by cases h)⟩
  | @snoc events mid final event hrun hstep ih =>
    have hbefore : ∀ j, j ≠ i → ownCommits j events = [] := by
      intro j hj
      have hnone := hothers j hj
      rw [ownCommits_append] at hnone
      exact (List.append_eq_nil_iff.mp hnone).1
    obtain ⟨hkept, hone⟩ := ih hbefore
    rw [ownCommits_append]
    cases hstep with
    | load hi =>
      simp only [ownCommits, List.append_nil]
      exact ⟨hkept, hone⟩
    | refuse hi hv =>
      simp only [ownCommits, List.append_nil]
      exact ⟨hkept, hone⟩
    | @commit j value next hi hv =>
      have hj : j = i := by
        by_contra hne
        have hnone := hothers j hne
        rw [ownCommits_append] at hnone
        simp [ownCommits] at hnone
      subst hj
      simp only [ownCommits, if_true]
      refine ⟨fun hnil => (by simp at hnil), fun base stored heq => ?_⟩
      have hlength := congrArg List.length heq
      rw [List.length_append, List.length_singleton, List.length_singleton] at hlength
      have hempty : ownCommits j events = [] := List.eq_nil_of_length_eq_zero (by omega)
      rw [hempty, List.nil_append, List.singleton_inj] at heq
      cases heq
      exact ⟨hkept hempty, rfl⟩

/-- The program does not end in failure. -/
def NeverFails (failure : R → Prop) : Prog V R → Prop
  | .done result => ¬failure result
  | .load next => ∀ value, NeverFails failure (next value)
  | .put _ next => ∀ committed, NeverFails failure (next committed)

/-- After a successful put the program does not fail; but one put, a `first` of the value loaded
last, may come before the others. `seen` holds of the values that it loads. -/
def FailsFirst (failure : R → Prop) (seen : V → Prop) :
    (V → V → Prop) → Option V → Prog V R → Prop
  | _, _, .done _ => True
  | first, _, .load next => ∀ value, seen value → FailsFirst failure seen first (some value) (next value)
  | first, last, .put value next =>
    (NeverFails failure (next true) ∨ (∃ base, last = some base ∧ first base value) ∧
      FailsFirst failure seen (fun _ _ => False) none (next true)) ∧
    FailsFirst failure seen first none (next false)

variable {failure : R → Prop} {seen : V → Prop} {first : V → V → Prop}

/-- How far a client has come: nothing is committed, or the one put that may come before the
others, or it will not fail. -/
inductive Stage (cas : Versioned V) (failure : R → Prop) (seen : V → Prop) (first : V → V → Prop)
    (history : List V) (commits : List (V × V)) : Prog V R → Prop where
  | pending {last : Option V} {prog : Prog V R} (h : FailsFirst failure seen first last prog)
    (hl : ∀ base, last = some base → base ∈ history) (hc : commits = []) :
    Stage cas failure seen first history commits prog
  | staged {last : Option V} {prog : Prog V R} {base value : V}
    (h : FailsFirst failure seen (fun _ _ => False) last prog) (hf : first base value)
    (hc : commits = [(base, cas.stored value)]) : Stage cas failure seen first history commits prog
  | settled {prog : Prog V R} (h : NeverFails failure prog) :
    Stage cas failure seen first history commits prog

theorem Stage.mono {history history' : List V} {commits : List (V × V)} {prog : Prog V R}
    (h : Stage cas failure seen first history commits prog)
    (hsub : ∀ base ∈ history, base ∈ history') :
    Stage cas failure seen first history' commits prog := by
  cases h with
  | pending h hl hc => exact .pending h (fun base hbase => hsub base (hl base hbase)) hc
  | staged h hf hc => exact .staged h hf hc
  | settled h => exact .settled h

theorem Stage.load {history : List V} {commits : List (V × V)} {next : V → Prog V R} {value : V}
    (h : Stage cas failure seen first history commits (.load next)) (hv : value ∈ history)
    (hs : seen value) : Stage cas failure seen first history commits (next value) := by
  cases h with
  | pending h hl hc =>
    refine .pending (h value hs) (fun base hbase => ?_) hc
    cases hbase
    exact hv
  | staged h hf hc => exact .staged (h value hs) hf hc
  | settled h => exact .settled (h value)

theorem Stage.refuse {history : List V} {commits : List (V × V)} {value : V} {next : Bool → Prog V R}
    (h : Stage cas failure seen first history commits (.put value next)) :
    Stage cas failure seen first history commits (next false) := by
  cases h with
  | pending h hl hc => exact .pending h.2 (fun base hbase => (by cases hbase)) hc
  | staged h hf hc => exact .staged h.2 hf hc
  | settled h => exact .settled (h false)

/-- A commit is the put that may come first, or the client does not fail after it. -/
theorem Stage.commit {history history' : List V} {commits : List (V × V)} {cell value : V}
    {next : Bool → Prog V R} (h : Stage cas failure seen first history commits (.put value next))
    (hbase : ∀ base ∈ history, first base value → base = cell) :
    Stage cas failure seen first history' (commits ++ [(cell, cas.stored value)]) (next true) := by
  cases h with
  | pending h hl hc =>
    rcases h.1 with hsettled | ⟨⟨base, hlast, hf⟩, hrest⟩
    · exact .settled hsettled
    · have hcell := hbase base (hl base hlast) hf
      rw [hcell] at hf
      exact .staged hrest hf (by rw [hc]; rfl)
  | staged h hf hc =>
    rcases h.1 with hsettled | ⟨⟨_, _, hfalse⟩, _⟩
    · exact .settled hsettled
    · exact hfalse.elim
  | settled h => exact .settled (h true)

variable {transaction : V → V → Prop} {refusal : R → Prop}

/-- However the clients interleave, each one is at one of the stages. -/
theorem Run.stage (hversion : ∀ base value, transaction base value → cas.version value = cas.version base)
    (hfirst : ∀ base value, first base value → transaction base value)
    {s s' : State ι V R} {events : List (Event ι V)} {i : ι} (h : Run cas s events s')
    (hs : Sound cas transaction refusal s)
    (hi : FailsFirst failure seen first none (s.clients i))
    (hseen : ∀ value, .loaded i value ∈ events → seen value) :
    Stage cas failure seen first (s'.cell :: s'.past) (ownCommits i events) (s'.clients i) := by
  induction h with
  | nil => exact .pending hi (fun base hbase => (by cases hbase)) rfl
  | @snoc events mid final event hrun hstep ih =>
    have hstage := ih fun value hmem => hseen value (List.mem_append_left _ hmem)
    have hsound := hrun.sound hversion hs
    rw [ownCommits_append]
    cases hstep with
    | @load j next hj =>
      simp only [ownCommits, List.append_nil]
      by_cases hown : i = j
      · subst hown
        rw [hj] at hstage
        rw [Function.update_self]
        exact hstage.load List.mem_cons_self (hseen _ (by simp))
      · rw [Function.update_of_ne hown]
        exact hstage
    | @commit j value next hj hv =>
      by_cases hown : i = j
      · subst hown
        rw [hj] at hstage
        simp only [ownCommits, if_true, Function.update_self]
        refine hstage.commit fun base hbase hf => ?_
        have hsame := hversion base value (hfirst base value hf)
        exact hsound.chained.eq_cell hversion hbase (hsame.symm.trans hv)
      · have hne : ¬j = i := fun heq => hown heq.symm
        simp only [ownCommits, if_neg hne, List.append_nil, Function.update_of_ne hown]
        exact hstage.mono fun base hbase => List.mem_cons_of_mem _ hbase
    | @refuse j value next hj hv =>
      simp only [ownCommits, List.append_nil]
      by_cases hown : i = j
      · subst hown
        rw [hj] at hstage
        rw [Function.update_self]
        exact hstage.refuse
      · rw [Function.update_of_ne hown]
        exact hstage

/-- A client that ends in failure has committed nothing, or the put that may come first. -/
theorem Run.failed (hversion : ∀ base value, transaction base value → cas.version value = cas.version base)
    (hfirst : ∀ base value, first base value → transaction base value)
    {s s' : State ι V R} {events : List (Event ι V)} {i : ι} {result : R} (h : Run cas s events s')
    (hs : Sound cas transaction refusal s)
    (hi : FailsFirst failure seen first none (s.clients i))
    (hseen : ∀ value, .loaded i value ∈ events → seen value)
    (hdone : s'.clients i = .done result) (hfail : failure result) :
    ownCommits i events = [] ∨
      ∃ base value, first base value ∧ ownCommits i events = [(base, cas.stored value)] := by
  have hstage := h.stage hversion hfirst hs hi hseen
  rw [hdone] at hstage
  cases hstage with
  | pending h hl hc => exact .inl hc
  | staged h hf hc => exact .inr ⟨_, _, hf, hc⟩
  | settled h => exact absurd hfail h

end OptimisticRuns
