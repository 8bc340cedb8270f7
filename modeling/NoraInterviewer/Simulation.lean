import Mathlib.Data.List.Forall2

/-! Machines that answer inputs, and relations that carry the answers of one over to another. -/

namespace Simulation

structure Machine (I O : Type) where
  State : Type
  step : State → I → State × O

variable {I I' O O' : Type}

/-- The last state and the answers, in order. -/
def Machine.run (machine : Machine I O) (state : machine.State) : List I → machine.State × List O
  | [] => (state, [])
  | input :: rest =>
    let next := machine.step state input
    let last := machine.run next.1 rest
    (last.1, next.2 :: last.2)

theorem Machine.run_snoc (machine : Machine I O) (state : machine.State) (inputs : List I)
    (input : I) : (machine.run state (inputs ++ [input])).1 =
      (machine.step (machine.run state inputs).1 input).1 := by
  induction inputs generalizing state with
  | nil => rfl
  | cons first rest ih => exact ih _

/-- `machine` does what `spec` does on admitted inputs, `means` being what `spec` is told: related
states stay related, and give related answers. -/
structure Refinement (machine : Machine I O) (spec : Machine I' O') (means : I → I')
    (admits : I' → Prop) (answers : O → O' → Prop) where
  rel : machine.State → spec.State → Prop
  step : ∀ state abstract input, admits (means input) → rel state abstract →
    rel (machine.step state input).1 (spec.step abstract (means input)).1 ∧
      answers (machine.step state input).2 (spec.step abstract (means input)).2

theorem Refinement.run {machine : Machine I O} {spec : Machine I' O'} {means : I → I'}
    {admits : I' → Prop} {answers : O → O' → Prop}
    (refinement : Refinement machine spec means admits answers) {inputs : List I}
    (hinputs : ∀ input ∈ inputs.map means, admits input) {state : machine.State}
    {abstract : spec.State} (h : refinement.rel state abstract) :
    refinement.rel (machine.run state inputs).1 (spec.run abstract (inputs.map means)).1 ∧
      List.Forall₂ answers (machine.run state inputs).2 (spec.run abstract (inputs.map means)).2 := by
  induction inputs generalizing state abstract with
  | nil => exact ⟨h, .nil⟩
  | cons input rest ih =>
    obtain ⟨hnext, hanswer⟩ :=
      refinement.step state abstract input (hinputs (means input) List.mem_cons_self) h
    obtain ⟨hlast, hanswers⟩ := ih (fun input hm => hinputs input (List.mem_cons_of_mem _ hm)) hnext
    exact ⟨hlast, .cons hanswer hanswers⟩

/-- Two lists of answers to the same specification agree where their answers do. -/
theorem forall₂_agree {answers : O → O' → Prop} {answers' : O → O' → Prop} {agree : O → O → Prop}
    (h : ∀ a b c, answers a c → answers' b c → agree a b) {as bs : List O} {cs : List O'}
    (ha : List.Forall₂ answers as cs) (hb : List.Forall₂ answers' bs cs) :
    List.Forall₂ agree as bs := by
  induction ha generalizing bs with
  | nil =>
    cases hb
    exact .nil
  | cons ha _ ih =>
    cases hb with
    | cons hb hrest => exact .cons (h _ _ _ ha hb) (ih hrest)

end Simulation
