import NoraInterviewer.ClientRuns
import NoraInterviewer.OptimisticRuns

/-! A versioned cell as a part of a machine: clients of the cell run on the machine as they run on
the cell alone, until somebody erases it, and never again after that. -/

namespace CellViews

open Simulation
open OptimisticRuns (Versioned Grounded Sound)

variable {ι I I' O V R : Type}

/-- How a machine shows one cell: the calls that read, put and erase it, what they come to, and
the calls that leave it alone. -/
structure CellView (machine : Machine I' O) (means : I' → I) (cas : Versioned V) where
  read : I
  put : V → I
  erase : I
  elsewhere : I → Prop
  found : O → Option V
  accepted : O → Bool
  admits : V → Prop
  sound : machine.State → Prop
  peek : machine.State → Option V
  keeps : ∀ s input, sound s →
    means input = read ∨ means input = erase ∨ elsewhere (means input) ∨
      (∃ value, admits value ∧ means input = put value) → sound (machine.step s input).1
  admits_peek : ∀ s value, sound s → peek s = some value → admits value
  read_step : ∀ s input, sound s → means input = read →
    found (machine.step s input).2 = peek s ∧ peek (machine.step s input).1 = peek s
  put_step : ∀ s input value current, sound s → admits value → means input = put value →
    peek s = some current →
    if cas.version value = cas.version current then
      accepted (machine.step s input).2 = true ∧
        peek (machine.step s input).1 = some (cas.stored value)
    else accepted (machine.step s input).2 = false ∧ peek (machine.step s input).1 = some current
  put_gone : ∀ s input value, sound s → admits value → means input = put value → peek s = none →
    accepted (machine.step s input).2 = false ∧ peek (machine.step s input).1 = none
  erase_step : ∀ s input, sound s → means input = erase → peek (machine.step s input).1 = none
  frame : ∀ s input, sound s → elsewhere (means input) → peek (machine.step s input).1 = peek s

variable {machine : Machine I' O} {means : I' → I} {cas : Versioned V}

namespace CellView

variable (view : CellView machine means cas)

/-- A client of the cell, on the machine; where the cell is gone it ends with `missing`. -/
def client (missing : R) : OptimisticRuns.Prog V R → ClientRuns.Prog I O R
  | .done result => .done result
  | .load next => .call view.read fun output =>
    match view.found output with
    | some value => client missing (next value)
    | none => .done missing
  | .put value next => .call (view.put value) fun output =>
    client missing (next (view.accepted output))

/-- A client that neither puts the cell nor acts on it but by erasing it. -/
def Apart : ClientRuns.Prog I O R → Prop
  | .done _ => True
  | .call input next => (view.elsewhere input ∨ input = view.erase) ∧ ∀ output, Apart (next output)

/-- What a call of a client of the cell is there. -/
inductive Shows : ClientRuns.Event ι I O → OptimisticRuns.Event ι V → Prop where
  | loaded {i : ι} {value : V} {output : O} (h : view.found output = some value) :
    Shows ⟨i, view.read, output⟩ (.loaded i value)
  | committed {i : ι} {base value : V} {output : O} (h : view.accepted output = true) :
    Shows ⟨i, view.put value, output⟩ (.committed i base (cas.stored value))
  | refused {i : ι} {value : V} {output : O} (h : view.accepted output = false) :
    Shows ⟨i, view.put value, output⟩ (.refused i)

variable [DecidableEq ι]

/-- The cell is there, and its clients have run as on the cell alone. -/
structure Live (missing : R) (mine : ι → Bool) (start : OptimisticRuns.State ι V R)
    (events : List (ClientRuns.Event ι I O)) (s : ClientRuns.State machine ι I R)
    (cellEvents : List (OptimisticRuns.Event ι V)) (cell : OptimisticRuns.State ι V R) : Prop where
  sound : view.sound s.store
  apart : ∀ i, mine i = false → view.Apart (s.clients i)
  run : OptimisticRuns.Run cas start cellEvents cell
  shows : List.Forall₂ view.Shows (events.filter fun event => mine event.client) cellEvents
  peek : view.peek s.store = some cell.cell
  clients : ∀ i, mine i = true → s.clients i = view.client missing (cell.clients i)
  admitted : ∀ value ∈ cell.cell :: cell.past, view.admits value

/-- The cell is gone: nothing is found there, and nothing is put there. -/
structure Gone (missing : R) (transaction : V → V → Prop) (refusal : R → Prop) (mine : ι → Bool)
    (since : List (ClientRuns.Event ι I O)) (s : ClientRuns.State machine ι I R) : Prop where
  sound : view.sound s.store
  apart : ∀ i, mine i = false → view.Apart (s.clients i)
  peek : view.peek s.store = none
  clients : ∀ i, mine i = true → ∃ last prog, s.clients i = view.client missing prog ∧
    Grounded transaction refusal last prog ∧ ∀ value, last = some value → view.admits value
  unfound : ∀ event ∈ since, mine event.client = true → event.input = view.read →
    view.found event.output = none
  refused : ∀ event ∈ since, mine event.client = true → ∀ value, event.input = view.put value →
    view.accepted event.output = false

end CellView

end CellViews
