import Mathlib.Logic.Function.Basic
import Mathlib.Data.List.Chain

/-! Clients that load a versioned cell, compute, and put a value back, where a put is
refused unless the cell still has the version of the value. -/

namespace OptimisticRuns

/-- How a value carries its version, and what a successful put leaves in the cell. -/
structure Versioned (V : Type) where
  version : V → Nat
  stored : V → V
  version_stored : ∀ value, version (stored value) = version value + 1

inductive Prog (V R : Type) where
  | done (result : R)
  | load (next : V → Prog V R)
  | put (value : V) (next : Bool → Prog V R)

/-- The cell, the values it held before (latest first), and what each client has yet to do. -/
structure State (ι V R : Type) where
  cell : V
  past : List V
  clients : ι → Prog V R

inductive Event (ι V : Type) where
  | loaded (client : ι) (value : V)
  | committed (client : ι) (base value : V)
  | refused (client : ι)

variable {ι V R : Type} [DecidableEq ι] (cas : Versioned V)

/-- `first`, and then what `next` makes of its result. -/
def Prog.bind {V A B : Type} : Prog V A → (A → Prog V B) → Prog V B
  | .done result, next => next result
  | .load first, next => .load fun value => (first value).bind next
  | .put value first, next => .put value fun committed => (first committed).bind next

/-- One store access of one client; what happens between two of them is the client's own. -/
inductive Step (s : State ι V R) : Event ι V → State ι V R → Prop where
  | load {i : ι} {next : V → Prog V R} (h : s.clients i = .load next) :
    Step s (.loaded i s.cell)
      { s with clients := Function.update s.clients i (next s.cell) }
  | commit {i : ι} {value : V} {next : Bool → Prog V R} (h : s.clients i = .put value next)
    (hv : cas.version value = cas.version s.cell) :
    Step s (.committed i s.cell (cas.stored value)) {
      cell := cas.stored value
      past := s.cell :: s.past
      clients := Function.update s.clients i (next true) }
  | refuse {i : ι} {value : V} {next : Bool → Prog V R} (h : s.clients i = .put value next)
    (hv : cas.version value ≠ cas.version s.cell) :
    Step s (.refused i) { s with clients := Function.update s.clients i (next false) }

/-- Any interleaving of the clients. -/
inductive Run (s : State ι V R) : List (Event ι V) → State ι V R → Prop where
  | nil : Run s [] s
  | snoc {events : List (Event ι V)} {mid final : State ι V R} {event : Event ι V}
    (h : Run s events mid) (hs : Step cas mid event final) : Run s (events ++ [event]) final

/-- The access that client `i` makes next. -/
def State.access (cas : Versioned V) (s : State ι V R) (i : ι) :
    Option (Event ι V × State ι V R) :=
  match s.clients i with
  | .done _ => none
  | .load next =>
    some (.loaded i s.cell, { s with clients := Function.update s.clients i (next s.cell) })
  | .put value next =>
    if cas.version value = cas.version s.cell then
      some (.committed i s.cell (cas.stored value), {
        cell := cas.stored value
        past := s.cell :: s.past
        clients := Function.update s.clients i (next true) })
    else some (.refused i, { s with clients := Function.update s.clients i (next false) })

/-- The clients of the list make one access each, in its order. -/
def State.schedule (cas : Versioned V) (events : List (Event ι V)) (s : State ι V R) :
    List ι → Option (List (Event ι V) × State ι V R)
  | [] => some (events, s)
  | i :: rest =>
    match s.access cas i with
    | none => none
    | some (event, s') => State.schedule cas (events ++ [event]) s' rest

theorem State.access_step {cas : Versioned V} {s s' : State ι V R} {i : ι} {event : Event ι V}
    (h : s.access cas i = some (event, s')) : Step cas s event s' := by
  unfold State.access at h
  split at h
  next => cases h
  next rest hi =>
    cases h
    exact .load hi
  next value rest hi =>
    split at h
    next hv =>
      cases h
      exact .commit hi hv
    next hv =>
      cases h
      exact .refuse hi hv

theorem Run.schedule {cas : Versioned V} {s mid final : State ι V R}
    {events events' : List (Event ι V)} {order : List ι} (h : Run cas s events mid)
    (hs : mid.schedule cas events order = some (events', final)) :
    Run cas s events' final := by
  induction order generalizing mid events with
  | nil =>
    cases hs
    exact h
  | cons i rest ih =>
    unfold State.schedule at hs
    split at hs
    next => cases hs
    next event s' he => exact ih (h.snoc (State.access_step he)) hs

/-- Every put of the program is a transaction on the value it loaded last, and a refused put
ends it. -/
def Grounded (transaction : V → V → Prop) (refusal : R → Prop) : Option V → Prog V R → Prop
  | _, .done _ => True
  | _, .load next => ∀ value, Grounded transaction refusal (some value) (next value)
  | none, .put _ _ => False
  | some base, .put value next =>
    transaction base value ∧ Grounded transaction refusal none (next true) ∧
      ∃ result, next false = .done result ∧ refusal result

variable {cas} {transaction : V → V → Prop} {refusal : R → Prop}

/-- The cell went from each value to the next by one transaction. -/
def Chained (cas : Versioned V) (transaction : V → V → Prop) (history : List V) : Prop :=
  history.IsChain fun new old => ∃ value, transaction old value ∧ new = cas.stored value

theorem Chained.imp {transaction' : V → V → Prop}
    (ht : ∀ base value, transaction base value → transaction' base value) {history : List V}
    (h : Chained cas transaction history) : Chained cas transaction' history :=
  List.IsChain.imp (fun _ _ ⟨value, hv, he⟩ => ⟨value, ht _ _ hv, he⟩) h

/-- What holds between two steps: the history is a chain of transactions, and each client is
grounded in a value of it. -/
structure Sound (cas : Versioned V) (transaction : V → V → Prop) (refusal : R → Prop)
    (s : State ι V R) : Prop where
  chained : Chained cas transaction (s.cell :: s.past)
  grounded : ∀ i, ∃ last, Grounded transaction refusal last (s.clients i) ∧
    ∀ value, last = some value → value ∈ s.cell :: s.past

section Transactions

variable (hversion : ∀ base value, transaction base value → cas.version value = cas.version base)

include hversion

theorem Chained.version_lt {cell : V} {past : List V}
    (h : Chained cas transaction (cell :: past)) :
    ∀ old ∈ past, cas.version old < cas.version cell := by
  induction past generalizing cell with
  | nil => simp
  | cons first rest ih =>
    obtain ⟨⟨value, ht, rfl⟩, hrest⟩ := List.isChain_cons_cons.mp h
    have hfirst : cas.version first < cas.version (cas.stored value) := by
      rw [cas.version_stored, hversion first value ht]
      exact Nat.lt_succ_self _
    intro old ho
    rcases List.mem_cons.mp ho with rfl | ho
    · exact hfirst
    · exact (ih hrest old ho).trans hfirst

/-- The version of a value in the history tells it from every other one. -/
theorem Chained.eq_cell {cell : V} {past : List V} (h : Chained cas transaction (cell :: past))
    {value : V} (hm : value ∈ cell :: past) (hv : cas.version value = cas.version cell) :
    value = cell := by
  rcases List.mem_cons.mp hm with rfl | hm
  · rfl
  · exact absurd hv (Nat.ne_of_lt (h.version_lt hversion value hm))

omit [DecidableEq ι] in
/-- A put that goes through is a transaction on the very value it replaces. -/
theorem Sound.commits {s : State ι V R} (h : Sound cas transaction refusal s) {i : ι} {value : V}
    {next : Bool → Prog V R} (hi : s.clients i = .put value next)
    (hv : cas.version value = cas.version s.cell) :
    transaction s.cell value ∧ Grounded transaction refusal none (next true) := by
  obtain ⟨last, hg, hlast⟩ := h.grounded i
  rw [hi] at hg
  cases last with
  | none => exact absurd hg (by simp [Grounded])
  | some base =>
    obtain ⟨ht, hnext, _⟩ := hg
    have hbase : base = s.cell := h.chained.eq_cell hversion (hlast base rfl)
      ((hversion base value ht).symm.trans hv)
    exact ⟨hbase ▸ ht, hnext⟩

theorem Sound.step {s s' : State ι V R} {event : Event ι V} (h : Sound cas transaction refusal s)
    (hs : Step cas s event s') : Sound cas transaction refusal s' := by
  cases hs with
  | @load i next hi =>
    refine ⟨h.chained, fun j => ?_⟩
    by_cases hj : j = i
    · subst hj
      obtain ⟨last, hg, _⟩ := h.grounded j
      rw [hi] at hg
      refine ⟨some s.cell, ?_, fun value hv => ?_⟩
      · simpa [Grounded] using hg s.cell
      · cases hv
        exact List.mem_cons_self
    · simpa [Function.update_of_ne hj] using h.grounded j
  | @commit i value next hi hv =>
    obtain ⟨ht, hnext⟩ := h.commits hversion hi hv
    refine ⟨List.isChain_cons_cons.mpr ⟨⟨value, ht, rfl⟩, h.chained⟩, fun j => ?_⟩
    by_cases hj : j = i
    · subst hj
      exact ⟨none, by simpa using hnext, nofun⟩
    · obtain ⟨last, hg, hlast⟩ := h.grounded j
      refine ⟨last, by simpa [Function.update_of_ne hj] using hg, fun v hv => ?_⟩
      exact List.mem_cons_of_mem _ (hlast v hv)
  | @refuse i value next hi _ =>
    refine ⟨h.chained, fun j => ?_⟩
    by_cases hj : j = i
    · subst hj
      obtain ⟨last, hg, _⟩ := h.grounded j
      rw [hi] at hg
      cases last with
      | none => exact absurd hg (by simp [Grounded])
      | some base =>
        obtain ⟨_, _, result, hdone, _⟩ := hg
        exact ⟨none, by simp [hdone, Grounded], nofun⟩
    · simpa [Function.update_of_ne hj] using h.grounded j

theorem Run.sound {s s' : State ι V R} {events : List (Event ι V)} (h : Run cas s events s')
    (hs : Sound cas transaction refusal s) : Sound cas transaction refusal s' := by
  induction h with
  | nil => exact hs
  | snoc _ hstep ih => exact ih.step hversion hstep

/-- Compare-and-swap serialises the clients: whatever survives one transaction after another
survives every interleaving. -/
theorem Run.preserves {P : List V → Prop}
    (hP : ∀ base past value, P (base :: past) → transaction base value →
      P (cas.stored value :: base :: past))
    {s s' : State ι V R} {events : List (Event ι V)} (h : Run cas s events s')
    (hs : Sound cas transaction refusal s) (hp : P (s.cell :: s.past)) :
    P (s'.cell :: s'.past) := by
  induction h with
  | nil => exact hp
  | @snoc events mid final event hrun hstep ih =>
    have hsound : Sound cas transaction refusal mid := hrun.sound hversion hs
    cases hstep with
    | load => exact ih
    | commit hi hv => exact hP _ _ _ ih (hsound.commits hversion hi hv).1
    | refuse => exact ih

/-- What survives a transaction holds of whatever the clients load. -/
theorem Run.observed {P : V → Prop}
    (hP : ∀ base value, P base → transaction base value → P (cas.stored value))
    {s s' : State ι V R} {events : List (Event ι V)} (h : Run cas s events s')
    (hs : Sound cas transaction refusal s) (hp : P s.cell) :
    P s'.cell ∧ ∀ i value, .loaded i value ∈ events → P value := by
  induction h with
  | nil => exact ⟨hp, by simp⟩
  | @snoc events mid final event hrun hstep ih =>
    obtain ⟨hcell, hseen⟩ := ih
    have hsound : Sound cas transaction refusal mid := hrun.sound hversion hs
    cases hstep with
    | load hi =>
      refine ⟨hcell, fun j value hm => ?_⟩
      rcases List.mem_append.mp hm with hm | hm
      · exact hseen j value hm
      · cases List.mem_singleton.mp hm
        exact hcell
    | commit hi hv =>
      refine ⟨hP _ _ hcell (hsound.commits hversion hi hv).1, fun j value hm => ?_⟩
      exact hseen j value (by simpa using hm)
    | refuse hi hv => exact ⟨hcell, fun j value hm => hseen j value (by simpa using hm)⟩

end Transactions

omit [DecidableEq ι] in
/-- At the start no client has loaded anything. -/
theorem sound_initial {cell : V} {past : List V} {clients : ι → Prog V R}
    (hc : Chained cas transaction (cell :: past))
    (h : ∀ i, Grounded transaction refusal none (clients i)) :
    Sound cas transaction refusal { cell, past, clients } :=
  ⟨hc, fun i => ⟨none, h i, nofun⟩⟩

theorem Grounded.done (last : Option V) (result : R) :
    Grounded transaction refusal last (.done result) := by
  cases last <;> exact trivial

theorem Grounded.imp {transaction' : V → V → Prop} {refusal' : R → Prop}
    (ht : ∀ base value, transaction base value → transaction' base value)
    (hr : ∀ result, refusal result → refusal' result) {last : Option V} {prog : Prog V R}
    (h : Grounded transaction refusal last prog) : Grounded transaction' refusal' last prog := by
  induction prog generalizing last with
  | done result => exact .done last result
  | load next ih =>
    have h' : ∀ value, Grounded transaction refusal (some value) (next value) := by
      cases last <;> exact h
    have hnext := fun value => ih value (h' value)
    cases last <;> exact hnext
  | put value next ih =>
    cases last with
    | none => exact h
    | some base =>
      obtain ⟨hbase, hnext, result, hdone, hresult⟩ := h
      exact ⟨ht _ _ hbase, ih true hnext, result, hdone, hr _ hresult⟩

/-- A program goes on grounded if what follows starts with a load, and if what follows a
refusal ends at once. -/
theorem Grounded.bind {A B : Type} {refusal : A → Prop} {refusal' : B → Prop} {last : Option V}
    {prog : Prog V A} {next : A → Prog V B} (h : Grounded transaction refusal last prog)
    (hn : ∀ last result, Grounded transaction refusal' last (next result))
    (hr : ∀ result, refusal result → ∃ result', next result = .done result' ∧ refusal' result') :
    Grounded transaction refusal' last (prog.bind next) := by
  induction prog generalizing last with
  | done result => exact hn last result
  | load first ih =>
    have h' : ∀ value, Grounded transaction refusal (some value) (first value) := by
      cases last <;> exact h
    have hnext := fun value => ih value (h' value)
    cases last <;> exact hnext
  | put value first ih =>
    cases last with
    | none => exact absurd h (by simp [Grounded])
    | some base =>
      obtain ⟨hbase, hnext, result, hdone, hresult⟩ := h
      obtain ⟨result', hnext', hresult'⟩ := hr result hresult
      refine ⟨hbase, ih true hnext, result', ?_, hresult'⟩
      simp only [hdone, Prog.bind, hnext']

/-- A load grounds what follows it, whatever was loaded before. -/
theorem Grounded.load {next : V → Prog V R}
    (h : ∀ value, Grounded transaction refusal (some value) (next value)) (last : Option V) :
    Grounded transaction refusal last (.load next) := by
  cases last <;> exact h

/-- A program that is grounded in nothing is grounded in anything. -/
theorem Grounded.of_none {prog : Prog V R} (h : Grounded transaction refusal none prog)
    (last : Option V) : Grounded transaction refusal last prog := by
  cases prog with
  | done result => exact .done last result
  | load next => exact .load h last
  | put value next => exact absurd h (by simp [Grounded])

end OptimisticRuns
