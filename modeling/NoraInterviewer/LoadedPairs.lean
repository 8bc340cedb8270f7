import NoraInterviewer.GuardedRuns

/-! What the other clients do between two loads of one client. -/

namespace OptimisticRuns

variable {ι V R : Type} [DecidableEq ι] {cas : Versioned V}

/-- No client commits. -/
def Unwritten (events : List (Event ι V)) : Prop := ∀ event ∈ events, event.commits = false

/-- Every commit adds to what is measured. -/
def Growing (measure : V → ℕ) (events : List (Event ι V)) : Prop :=
  ∀ i base value, Event.committed i base value ∈ events → measure base < measure value

omit [DecidableEq ι] in
theorem Unwritten.append {events : List (Event ι V)} {event : Event ι V} :
    Unwritten (events ++ [event]) ↔ Unwritten events ∧ event.commits = false := by
  refine ⟨fun h => ⟨fun e he => h e (List.mem_append_left _ he), h event (by simp)⟩, ?_⟩
  rintro ⟨hquiet, hlast⟩ e he
  rcases List.mem_append.mp he with he | he
  · exact hquiet e he
  · rw [List.mem_singleton.mp he]
    exact hlast

theorem Run.quiet_cell {s s' : State ι V R} {events : List (Event ι V)} (h : Run cas s events s')
    (hquiet : Unwritten events) : s'.cell = s.cell := by
  induction h with
  | nil => rfl
  | snoc hrun hstep ih =>
    obtain ⟨hquiet, hlast⟩ := Unwritten.append.mp hquiet
    have hcell := ih hquiet
    cases hstep with
    | load hi => exact hcell
    | commit hi hv => cases hlast
    | refuse hi hv => exact hcell

/-- A measure that every commit adds to tells whether there was one. -/
theorem Run.growing {s s' : State ι V R} {events : List (Event ι V)} (h : Run cas s events s')
    {measure : V → ℕ} (hgrowing : Growing measure events) :
    measure s.cell ≤ measure s'.cell ∧ (¬Unwritten events → measure s.cell < measure s'.cell) := by
  induction h with
  | nil => exact ⟨le_refl _, fun hloud => absurd (fun _ he => (by cases he)) hloud⟩
  | @snoc events mid final event hrun hstep ih =>
    obtain ⟨hle, hlt⟩ := ih fun i base value he => hgrowing i base value (List.mem_append_left _ he)
    rw [Unwritten.append, not_and_or]
    cases hstep with
    | load hi =>
      refine ⟨hle, fun hloud => hlt (hloud.resolve_right ?_)⟩
      exact fun hnot => hnot rfl
    | @commit i value next hi hv =>
      have hmore := hgrowing i mid.cell (cas.stored value) (by simp)
      exact ⟨hle.trans (le_of_lt hmore), fun _ => lt_of_le_of_lt hle hmore⟩
    | refuse hi hv =>
      refine ⟨hle, fun hloud => hlt (hloud.resolve_right ?_)⟩
      exact fun hnot => hnot rfl

/-- The version tells it whatever the clients put. -/
theorem Run.growing_version {s s' : State ι V R} {events : List (Event ι V)}
    (h : Run cas s events s') : Growing cas.version events := by
  induction h with
  | nil => exact fun _ _ _ he => (by cases he)
  | @snoc events mid final event hrun hstep ih =>
    intro j base value he
    rcases List.mem_append.mp he with he | he
    · exact ih j base value he
    · have hevent := List.mem_singleton.mp he
      cases hstep with
      | load hi => cases hevent
      | @commit i put next hi hv =>
        cases hevent
        rw [cas.version_stored, hv]
        exact Nat.lt_succ_self _
      | refuse hi hv => cases hevent

theorem Run.same_version {s s' : State ι V R} {events : List (Event ι V)}
    (h : Run cas s events s') : Unwritten events ↔ cas.version s.cell = cas.version s'.cell := by
  refine ⟨fun hquiet => by rw [h.quiet_cell hquiet], fun hsame => ?_⟩
  by_contra hloud
  have hlt := (h.growing h.growing_version).2 hloud
  omega

/-- A client that is about to load still is, or it has loaded what was in the cell then. -/
theorem Run.first_load {s s' : State ι V R} {events : List (Event ι V)} (h : Run cas s events s')
    {i : ι} {next : V → Prog V R} (hi : s.clients i = .load next) :
    s'.clients i = .load next ∨ ∃ before mid after,
      events = before ++ .loaded i mid.cell :: after ∧ Run cas s before mid ∧
      Run cas { mid with clients := Function.update mid.clients i (next mid.cell) } after s' := by
  induction h with
  | nil => exact .inl hi
  | @snoc events mid final event hrun hstep ih =>
    rcases ih with hmid | ⟨before, loaded, after, rfl, hbefore, hafter⟩
    · cases hstep with
      | @load j other hj =>
        by_cases hsame : i = j
        · subst hsame
          rw [hmid] at hj
          cases hj
          exact .inr ⟨events, mid, [], rfl, hrun, .nil⟩
        · exact .inl ((Function.update_of_ne hsame _ _).trans hmid)
      | @commit j value other hj hv =>
        have hne : i ≠ j := by
          rintro rfl
          rw [hmid] at hj
          cases hj
        exact .inl ((Function.update_of_ne hne _ _).trans hmid)
      | @refuse j value other hj hv =>
        have hne : i ≠ j := by
          rintro rfl
          rw [hmid] at hj
          cases hj
        exact .inl ((Function.update_of_ne hne _ _).trans hmid)
    · refine .inr ⟨before, loaded, after ++ [event], by simp, hbefore, hafter.snoc hstep⟩

/-- A client that has come to its end has made the load that it was about to make. -/
theorem Run.loads {s s' : State ι V R} {events : List (Event ι V)} (h : Run cas s events s')
    {i : ι} {next : V → Prog V R} (hi : s.clients i = .load next) {result : R}
    (hdone : s'.clients i = .done result) :
    ∃ before mid after, events = before ++ .loaded i mid.cell :: after ∧ Run cas s before mid ∧
      Run cas { mid with clients := Function.update mid.clients i (next mid.cell) } after s' := by
  rcases h.first_load hi with hloads | hloaded
  · rw [hdone] at hloads
    cases hloads
  · exact hloaded

/-- A client that is at its end stays there. -/
theorem Run.done_stays {s s' : State ι V R} {events : List (Event ι V)} (h : Run cas s events s')
    {i : ι} {result : R} (hi : s.clients i = .done result) : s'.clients i = .done result := by
  induction h with
  | nil => exact hi
  | @snoc events mid final event hrun hstep ih =>
    have hne : ∀ {j : ι} {prog : Prog V R}, mid.clients j = prog →
        (∀ other, prog ≠ .done other) → i ≠ j := by
      rintro j prog hj hprog rfl
      rw [ih] at hj
      exact hprog result hj.symm
    cases hstep with
    | load hj =>
      exact (Function.update_of_ne (hne hj fun _ h => (by cases h)) _ _).trans ih
    | commit hj hv =>
      exact (Function.update_of_ne (hne hj fun _ h => (by cases h)) _ _).trans ih
    | refuse hj hv =>
      exact (Function.update_of_ne (hne hj fun _ h => (by cases h)) _ _).trans ih

end OptimisticRuns
