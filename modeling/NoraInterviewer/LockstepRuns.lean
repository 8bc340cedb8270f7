import NoraInterviewer.GuardedRuns
import Mathlib.Data.List.Forall2

/-! Two runs side by side: computations that fail alike, and two systems of clients that one
schedule takes through related values. -/

namespace LockstepRuns

open OptimisticRuns

section Computations

variable {ε α α' β β' : Type}

/-- Both succeed, with related results, or both raise the same. -/
inductive Agree (rel : α → α' → Prop) : Except ε α → Except ε α' → Prop where
  | ok {a : α} {a' : α'} (h : rel a a') : Agree rel (.ok a) (.ok a')
  | error (e : ε) : Agree rel (.error e) (.error e)

variable {rel : α → α' → Prop} {next : β → β' → Prop}

theorem Agree.bind {x : Except ε α} {x' : Except ε α'} {f : α → Except ε β} {f' : α' → Except ε β'}
    (h : Agree rel x x') (hf : ∀ a a', rel a a' → Agree next (f a) (f' a')) :
    Agree next (x >>= f) (x' >>= f') := by
  cases h with
  | ok h => exact hf _ _ h
  | error e => exact .error e

theorem Agree.refl (x : Except ε α) : Agree Eq x x := by
  cases x with
  | ok a => exact .ok rfl
  | error e => exact .error e

/-- Either both raised, or both went through. -/
theorem Agree.or {x : Except ε α} {x' : Except ε α'} (h : Agree rel x x') :
    (∃ e, x = .error e ∧ x' = .error e) ∨ ∃ a a', x = .ok a ∧ x' = .ok a' ∧ rel a a' := by
  cases h with
  | ok h => exact .inr ⟨_, _, rfl, rfl, h⟩
  | error e => exact .inl ⟨e, rfl, rfl⟩

theorem Agree.map {x : Except ε α} {x' : Except ε α'} {f : α → β} {f' : α' → β'}
    (h : Agree rel x x') (hf : ∀ a a', rel a a' → next (f a) (f' a')) :
    Agree next (x.map f) (x'.map f') := by
  cases h with
  | ok h => exact .ok (hf _ _ h)
  | error e => exact .error e

/-- A guard that both ask, with the same answer. -/
theorem Agree.ite {c : Prop} [Decidable c] {x y : Except ε α} {x' y' : Except ε α'}
    (ht : c → Agree rel x x') (hf : ¬c → Agree rel y y') :
    Agree rel (if c then x else y) (if c then x' else y') := by
  by_cases hc : c
  · rw [if_pos hc, if_pos hc]
    exact ht hc
  · rw [if_neg hc, if_neg hc]
    exact hf hc

end Computations

variable {ι V R : Type}

/-- Two programs that make the same accesses and end alike, for as long as the values that
they load are related; the values that they put are then related too. -/
def Abreast (rel : V → V → Prop) : Prog V R → Prog V R → Prop
  | .done result, .done result' => result = result'
  | .load next, .load next' => ∀ value value', rel value value' →
      Abreast rel (next value) (next' value')
  | .put value next, .put value' next' => rel value value' ∧
      ∀ committed, Abreast rel (next committed) (next' committed)
  | _, _ => False

inductive SameEvent (rel : V → V → Prop) : Event ι V → Event ι V → Prop where
  | loaded (i : ι) {value value' : V} (h : rel value value') :
    SameEvent rel (.loaded i value) (.loaded i value')
  | committed (i : ι) {base base' value value' : V} (hb : rel base base') (h : rel value value') :
    SameEvent rel (.committed i base value) (.committed i base' value')
  | refused (i : ι) : SameEvent rel (.refused i) (.refused i)

/-- The two systems have come equally far. -/
structure Level (rel : V → V → Prop) (s s' : State ι V R) : Prop where
  cell : rel s.cell s'.cell
  past : List.Forall₂ rel s.past s'.past
  clients : ∀ i, Abreast rel (s.clients i) (s'.clients i)

variable {rel : V → V → Prop}

theorem Abreast.bind {A B : Type} {prog prog' : Prog V A} {next next' : A → Prog V B}
    (h : Abreast rel prog prog') (hn : ∀ result, Abreast rel (next result) (next' result)) :
    Abreast rel (prog.bind next) (prog'.bind next') := by
  induction prog generalizing prog' with
  | done result =>
    cases prog' with
    | done result' =>
      cases h
      exact hn result
    | load next' => cases h
    | put value' next' => cases h
  | load first ih =>
    cases prog' with
    | done result' => cases h
    | load first' => exact fun value value' hv => ih value (h value value' hv)
    | put value' first' => cases h
  | put value first ih =>
    cases prog' with
    | done result' => cases h
    | load first' => cases h
    | put value' first' => exact ⟨h.1, fun committed => ih committed (h.2 committed)⟩

/-- Guards that treat related values alike keep two programs abreast. -/
theorem Abreast.guarded {guard guard' : V → Option R} {prog prog' : Prog V R}
    (hg : ∀ value value', rel value value' → guard value = guard' value')
    (h : Abreast rel prog prog') : Abreast rel (prog.guarded guard) (prog'.guarded guard') := by
  intro value value' hv
  unfold Prog.unless
  rw [hg value value' hv]
  cases guard' value' with
  | some result => exact rfl
  | none => exact h

variable [DecidableEq ι]

theorem abreast_update {clients clients' : ι → Prog V R} (i : ι) {prog prog' : Prog V R}
    (h : ∀ j, Abreast rel (clients j) (clients' j)) (hp : Abreast rel prog prog') (j : ι) :
    Abreast rel (Function.update clients i prog j) (Function.update clients' i prog' j) := by
  by_cases hj : j = i
  · subst hj
    rw [Function.update_self, Function.update_self]
    exact hp
  · rw [Function.update_of_ne hj, Function.update_of_ne hj]
    exact h j

variable {cas : Versioned V} (hversion : ∀ value value', rel value value' →
    cas.version value = cas.version value')
  (hstored : ∀ value value', rel value value' → rel (cas.stored value) (cas.stored value'))

include hversion hstored

theorem Level.step {s t s' : State ι V R} {event : Event ι V} (h : Level rel s t)
    (hs : Step cas s event s') :
    ∃ event' t', Step cas t event' t' ∧ SameEvent rel event event' ∧ Level rel s' t' := by
  cases hs with
  | @load i next hi =>
    have hclient := h.clients i
    rw [hi] at hclient
    cases hprog : t.clients i with
    | done result => rw [hprog] at hclient; cases hclient
    | put value' next' => rw [hprog] at hclient; cases hclient
    | load next' =>
      rw [hprog] at hclient
      exact ⟨_, _, .load hprog, .loaded i h.cell,
        ⟨h.cell, h.past, abreast_update i h.clients (hclient _ _ h.cell)⟩⟩
  | @commit i value next hi hv =>
    have hclient := h.clients i
    rw [hi] at hclient
    cases hprog : t.clients i with
    | done result => rw [hprog] at hclient; cases hclient
    | load next' => rw [hprog] at hclient; cases hclient
    | put value' next' =>
      rw [hprog] at hclient
      have hv' : cas.version value' = cas.version t.cell :=
        (hversion _ _ hclient.1).symm.trans (hv.trans (hversion _ _ h.cell))
      have hvalue := hstored _ _ hclient.1
      exact ⟨_, _, .commit hprog hv', .committed i h.cell hvalue,
        ⟨hvalue, .cons h.cell h.past, abreast_update i h.clients (hclient.2 true)⟩⟩
  | @refuse i value next hi hv =>
    have hclient := h.clients i
    rw [hi] at hclient
    cases hprog : t.clients i with
    | done result => rw [hprog] at hclient; cases hclient
    | load next' => rw [hprog] at hclient; cases hclient
    | put value' next' =>
      rw [hprog] at hclient
      have hv' : cas.version value' ≠ cas.version t.cell := fun he =>
        hv ((hversion _ _ hclient.1).trans (he.trans (hversion _ _ h.cell).symm))
      exact ⟨_, _, .refuse hprog hv', .refused i,
        ⟨h.cell, h.past, abreast_update i h.clients (hclient.2 false)⟩⟩

/-- What one system does the other does too, access by access. -/
theorem Level.run {s t final : State ι V R} {events : List (Event ι V)} (h : Level rel s t)
    (hr : Run cas s events final) :
    ∃ events' final', Run cas t events' final' ∧ List.Forall₂ (SameEvent rel) events events' ∧
      Level rel final final' := by
  induction hr with
  | nil => exact ⟨[], t, .nil, .nil, h⟩
  | snoc _ hs ih =>
    obtain ⟨events', mid', hrun, hevents, hmid⟩ := ih
    obtain ⟨event', final', hstep, hevent, hfinal⟩ := hmid.step hversion hstored hs
    exact ⟨events' ++ [event'], final', .snoc hrun hstep,
      List.rel_append hevents (.cons hevent .nil), hfinal⟩

end LockstepRuns
