import NoraInterviewer.GuardedRuns

/-! A client commits only after its guard has let a value through that it loaded, in every
interleaving. -/

namespace OptimisticRuns

variable {ι V R : Type} [DecidableEq ι] {cas : Versioned V} {guard : V → Option R}
  {prog : Prog V R} {i : ι} {events : List (Event ι V)} {s s' : State ι V R} {event : Event ι V}

/-- How far a guarded client has come. -/
inductive Admission (guard : V → Option R) (prog : Prog V R) (i : ι) (events : List (Event ι V))
    (s : State ι V R) : Prop where
  | waiting (hn : ∀ event ∈ events, event.client ≠ i) (hi : s.clients i = prog.guarded guard)
  | admitted {value : V} (hm : .loaded i value ∈ events) (hg : guard value = none)
  | refused {value : V} {result : R} (hm : .loaded i value ∈ events)
    (hg : guard value = some result) (hi : s.clients i = .done result)
    (hn : ∀ event ∈ events, event.client = i → event.commits = false)

theorem Admission.step (h : Admission guard prog i events s) (hs : Step cas s event s') :
    Admission guard prog i (events ++ [event]) s' := by
  by_cases he : event.client = i
  · cases h with
    | waiting hn hi =>
      obtain ⟨next, hnext, rfl, rfl⟩ | ⟨_, _, hput, _⟩ | ⟨_, _, hput, _⟩ := hs.own he
      case inr.inl => cases hi.symm.trans hput
      case inr.inr => cases hi.symm.trans hput
      cases hi.symm.trans hnext
      have hm : .loaded i s.cell ∈ events ++ [.loaded i s.cell] := by simp
      cases hg : guard s.cell with
      | none => exact .admitted hm hg
      | some result =>
        refine .refused hm hg (by simp [Prog.unless, hg]) ?_
        exact own_of_snoc (fun own hown h => absurd h (hn own hown)) fun _ => rfl
    | admitted hm hg => exact .admitted (List.mem_append_left _ hm) hg
    | refused _ _ hi => exact absurd hi (hs.not_done he)
  · have hsame := hs.other_client he
    cases h with
    | waiting hn hi =>
      refine .waiting (fun own hm => ?_) (hsame.trans hi)
      rcases List.mem_append.mp hm with hm | hm
      · exact hn own hm
      · exact List.mem_singleton.mp hm ▸ he
    | admitted hm hg => exact .admitted (List.mem_append_left _ hm) hg
    | refused hm hg hi hn =>
      exact .refused (List.mem_append_left _ hm) hg (hsame.trans hi)
        (own_of_snoc hn fun h => absurd h he)

theorem Run.admission {final : State ι V R} (h : Run cas s events final)
    (hi : s.clients i = prog.guarded guard) : Admission guard prog i events final := by
  induction h with
  | nil => exact .waiting (by simp) hi
  | snoc _ hs ih => exact ih.step hs

/-- Whoever commits was let in on a value that it loaded. -/
theorem Run.admitted {final : State ι V R} (h : Run cas s events final)
    (hi : s.clients i = prog.guarded guard) (hm : event ∈ events) (he : event.client = i)
    (hc : event.commits = true) : ∃ value, .loaded i value ∈ events ∧ guard value = none := by
  cases h.admission hi with
  | waiting hn => exact absurd he (hn event hm)
  | admitted hm hg => exact ⟨_, hm, hg⟩
  | refused _ _ _ hn =>
    rw [hn event hm he] at hc
    cases hc

/-- Whoever has nothing to do does nothing. -/
theorem Run.idle {final : State ι V R} {result : R} (h : Run cas s events final)
    (hi : s.clients i = .done result) :
    final.clients i = .done result ∧ ∀ event ∈ events, event.client ≠ i := by
  induction h with
  | nil => exact ⟨hi, by simp⟩
  | snoc _ hs ih =>
    obtain ⟨hmid, hn⟩ := ih
    have hne := fun he => hs.not_done he hmid
    refine ⟨(hs.other_client hne).trans hmid, fun event hm => ?_⟩
    rcases List.mem_append.mp hm with hm | hm
    · exact hn event hm
    · exact List.mem_singleton.mp hm ▸ hne

/-- The cell is what it was where nobody commits. -/
theorem Run.unchanged {final : State ι V R} (h : Run cas s events final)
    (hn : ∀ event ∈ events, event.commits = false) : final.cell = s.cell := by
  induction h with
  | nil => rfl
  | snoc _ hs ih =>
    rw [(hs.unchanged (hn _ (by simp))).1]
    exact ih fun event hm => hn event (List.mem_append_left _ hm)

end OptimisticRuns
