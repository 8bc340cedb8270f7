import NoraInterviewer.OptimisticRuns

/-! Clients each with transactions of their own: what a client commits is one of its own. -/

namespace OptimisticRuns

variable {ι V R : Type} {cas : Versioned V} {own : ι → V → V → Prop} {refusal : R → Prop}

/-- A transaction of one of the clients. -/
def Shared (own : ι → V → V → Prop) (base value : V) : Prop := ∃ i, own i base value

/-- What holds between two steps: each client is grounded in its own transactions. -/
structure Owned (cas : Versioned V) (own : ι → V → V → Prop) (refusal : R → Prop)
    (s : State ι V R) : Prop where
  chained : Chained cas (Shared own) (s.cell :: s.past)
  grounded : ∀ i, ∃ last, Grounded (own i) refusal last (s.clients i) ∧
    ∀ value, last = some value → value ∈ s.cell :: s.past

theorem Owned.sound {s : State ι V R} (h : Owned cas own refusal s) :
    Sound cas (Shared own) refusal s := by
  refine ⟨h.chained, fun i => ?_⟩
  obtain ⟨last, hg, hlast⟩ := h.grounded i
  exact ⟨last, hg.imp (fun _ _ ht => ⟨i, ht⟩) fun _ hr => hr, hlast⟩

/-- At the start no client has loaded anything. -/
theorem owned_initial {cell : V} {clients : ι → Prog V R}
    (h : ∀ i, Grounded (own i) refusal none (clients i)) :
    Owned cas own refusal { cell, past := [], clients } :=
  ⟨List.isChain_singleton _, fun i => ⟨none, h i, fun _ hv => by cases hv⟩⟩

section

variable (hversion : ∀ i base value, own i base value → cas.version value = cas.version base)

include hversion

theorem Owned.commits {s : State ι V R} (h : Owned cas own refusal s) {i : ι} {value : V}
    {next : Bool → Prog V R} (hi : s.clients i = .put value next)
    (hv : cas.version value = cas.version s.cell) :
    own i s.cell value ∧ Grounded (own i) refusal none (next true) := by
  obtain ⟨last, hg, hlast⟩ := h.grounded i
  rw [hi] at hg
  cases last with
  | none => exact hg.elim
  | some base =>
    obtain ⟨ht, hnext, -⟩ := hg
    have hbase : base = s.cell := h.chained.eq_cell (fun base value ⟨j, hj⟩ => hversion j base value hj)
      (hlast base rfl) ((hversion i base value ht).symm.trans hv)
    exact ⟨hbase ▸ ht, hnext⟩

variable [DecidableEq ι]

theorem Owned.step {s s' : State ι V R} {event : Event ι V} (h : Owned cas own refusal s)
    (hs : Step cas s event s') : Owned cas own refusal s' := by
  cases hs with
  | @load i next hi =>
    refine ⟨h.chained, fun j => ?_⟩
    by_cases hj : j = i
    · subst hj
      obtain ⟨last, hg, -⟩ := h.grounded j
      rw [hi] at hg
      have hnext : Grounded (own j) refusal (some s.cell) (next s.cell) := by
        cases last with
        | none => exact hg s.cell
        | some _ => exact hg s.cell
      refine ⟨some s.cell, by simpa using hnext, fun value hv => ?_⟩
      cases hv
      exact List.mem_cons_self
    · simpa [Function.update_of_ne hj] using h.grounded j
  | @commit i value next hi hv =>
    obtain ⟨ht, hnext⟩ := h.commits hversion hi hv
    refine ⟨List.isChain_cons_cons.mpr ⟨⟨value, ⟨i, ht⟩, rfl⟩, h.chained⟩, fun j => ?_⟩
    by_cases hj : j = i
    · subst hj
      exact ⟨none, by simpa using hnext, fun _ hv => by cases hv⟩
    · obtain ⟨last, hg, hlast⟩ := h.grounded j
      refine ⟨last, by simpa [Function.update_of_ne hj] using hg, fun v hv => ?_⟩
      exact List.mem_cons_of_mem _ (hlast v hv)
  | @refuse i value next hi _ =>
    refine ⟨h.chained, fun j => ?_⟩
    by_cases hj : j = i
    · subst hj
      obtain ⟨last, hg, -⟩ := h.grounded j
      rw [hi] at hg
      cases last with
      | none => exact hg.elim
      | some base =>
        obtain ⟨-, -, result, hdone, -⟩ := hg
        exact ⟨none, by simpa [hdone] using Grounded.done none result, fun _ hv => by cases hv⟩
    · simpa [Function.update_of_ne hj] using h.grounded j

/-- Between the value it replaces and the one it leaves, a commit is a transaction of its client. -/
def Event.Owns (cas : Versioned V) (own : ι → V → V → Prop) (P : V → Prop) : Event ι V → Prop
  | .committed i base value => P base ∧ ∃ written, own i base written ∧ value = cas.stored written
  | _ => True

/-- Every run of the clients is owned, and every commit of it replaces a value of which holds what
the transactions preserve. -/
theorem Run.owned {P : V → Prop}
    (hP : ∀ i base value, P base → own i base value → P (cas.stored value))
    {s s' : State ι V R} {events : List (Event ι V)} (h : Run cas s events s')
    (hs : Owned cas own refusal s) (hp : P s.cell) :
    Owned cas own refusal s' ∧ P s'.cell ∧ ∀ event ∈ events, event.Owns cas own P := by
  induction h with
  | nil => exact ⟨hs, hp, fun _ he => by cases he⟩
  | snoc _ hstep ih =>
    obtain ⟨howned, hcell, hevents⟩ := ih
    refine ⟨howned.step hversion hstep, ?_, fun event he => ?_⟩
    · cases hstep with
      | load hi => exact hcell
      | commit hi hv => exact hP _ _ _ hcell (howned.commits hversion hi hv).1
      | refuse hi hv => exact hcell
    · rcases List.mem_append.mp he with he | he
      · exact hevents event he
      · obtain rfl := List.mem_singleton.mp he
        cases hstep with
        | load hi => exact trivial
        | commit hi hv => exact ⟨hcell, _, (howned.commits hversion hi hv).1, rfl⟩
        | refuse hi hv => exact trivial

end

end OptimisticRuns
