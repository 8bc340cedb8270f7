import NoraInterviewer.Simulation
import Mathlib.Logic.Function.Basic

/-! Clients that take turns at a machine, and how an invariant of the clients of a specification
carries over to the clients of what refines it. -/

namespace ClientRuns

open Simulation

variable {ι I I' O O' R : Type}

inductive Prog (I O R : Type) where
  | done (result : R)
  | call (input : I) (next : O → Prog I O R)

/-- The machine's state, and what each client has yet to do. -/
structure State (machine : Machine I' O) (ι I R : Type) where
  store : machine.State
  clients : ι → Prog I O R

structure Event (ι I O : Type) where
  client : ι
  input : I
  output : O

variable [DecidableEq ι] {machine : Machine I' O} (means : I' → I)

/-- One call of one client; what the machine is told means what the client says. -/
inductive Step (s : State machine ι I R) : Event ι I O → State machine ι I R → Prop where
  | call {i : ι} {input : I'} {next : O → Prog I O R} (h : s.clients i = .call (means input) next) :
    Step s ⟨i, means input, (machine.step s.store input).2⟩ {
      store := (machine.step s.store input).1
      clients := Function.update s.clients i (next (machine.step s.store input).2) }

/-- Any interleaving of the clients. -/
inductive Run (s : State machine ι I R) : List (Event ι I O) → State machine ι I R → Prop where
  | nil : Run s [] s
  | snoc {events : List (Event ι I O)} {mid final : State machine ι I R} {event : Event ι I O}
    (h : Run s events mid) (hs : Step means mid event final) : Run s (events ++ [event]) final

/-- The calls of a client that the machine is told as `tell`, in the order of the list. -/
def State.schedule (tell : I → I') (events : List (Event ι I O)) (s : State machine ι I R) :
    List ι → Option (List (Event ι I O) × State machine ι I R)
  | [] => some (events, s)
  | i :: rest =>
    match s.clients i with
    | .done _ => none
    | .call input next =>
      let (store, output) := machine.step s.store (tell input)
      State.schedule tell (events ++ [⟨i, input, output⟩])
        { store, clients := Function.update s.clients i (next output) } rest

theorem Run.schedule {means : I' → I} {tell : I → I'} (htell : ∀ input, means (tell input) = input)
    {s mid final : State machine ι I R} {events events' : List (Event ι I O)} {order : List ι}
    (h : Run means s events mid) (hs : mid.schedule tell events order = some (events', final)) :
    Run means s events' final := by
  induction order generalizing mid events with
  | nil =>
    cases hs
    exact h
  | cons i rest ih =>
    unfold State.schedule at hs
    split at hs
    next => cases hs
    next input next hi =>
      refine ih (h.snoc ?_) hs
      have hcall : mid.clients i = .call (means (tell input)) next := by rw [hi, htell]
      have hstep : Step means mid _ _ := .call hcall
      rw [htell] at hstep
      exact hstep

/-- What holds between the calls of the clients of a specification: it is kept by every call that
the machine admits and that is answered as the specification answers it. -/
structure Invariant (spec : Machine I O') (admits : I → Prop) (answers : O → O' → Prop)
    (P : spec.State → List (Event ι I O) → (ι → Prog I O R) → Prop) : Prop where
  admitted : ∀ abstract events clients, P abstract events clients →
    ∀ i input next, clients i = .call input next → admits input
  step : ∀ abstract events clients, P abstract events clients →
    ∀ i input next, clients i = .call input next →
    ∀ output, answers output (spec.step abstract input).2 →
      P (spec.step abstract input).1 (events ++ [⟨i, input, output⟩])
        (Function.update clients i (next output))

/-- An invariant of the clients of a specification holds of the clients of what refines it. -/
theorem Invariant.run {means : I' → I} {spec : Machine I O'} {admits : I → Prop}
    {answers : O → O' → Prop} {P : spec.State → List (Event ι I O) → (ι → Prog I O R) → Prop}
    (invariant : Invariant spec admits answers P)
    (refinement : Refinement machine spec means admits answers)
    {s final : State machine ι I R} {events : List (Event ι I O)} (h : Run means s events final)
    {abstract : spec.State} (hrel : refinement.rel s.store abstract)
    (hp : P abstract [] s.clients) :
    ∃ abstract', refinement.rel final.store abstract' ∧ P abstract' events final.clients := by
  induction h with
  | nil => exact ⟨abstract, hrel, hp⟩
  | snoc _ hs ih =>
    obtain ⟨mid, hmid, hpmid⟩ := ih
    cases hs with
    | @call i input next hi =>
      have hadmits := invariant.admitted _ _ _ hpmid i _ next hi
      obtain ⟨hnext, hanswer⟩ := refinement.step _ mid input hadmits hmid
      exact ⟨_, hnext, invariant.step _ _ _ hpmid i _ next hi _ hanswer⟩

end ClientRuns
