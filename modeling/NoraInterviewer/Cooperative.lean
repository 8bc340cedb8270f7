import Mathlib.Logic.Function.Basic

/-! Tasks that share a world and run one at a time, each from one await to the next. -/

namespace Cooperative

variable {World Point Call Reply : Type*}

/-- What task `n` does when it is begun, and when the await at which it is suspended replies: it is
suspended again, or it ends. -/
structure Program (World Point Call Reply : Type*) where
  enter : Nat → Call → World → World × Option Point
  resume : Nat → Point → Reply → World → World × Option Point

/-- The tasks are numbered in the order in which they were begun. -/
structure State (World Point : Type*) where
  world : World
  begun : Nat := 0
  tasks : Nat → Option Point := fun _ => none

inductive Action (Call Reply : Type*) where
  | enter (call : Call)
  | resume (task : Nat) (reply : Reply)

namespace Program

variable (program : Program World Point Call Reply)

def act (state : State World Point) : Action Call Reply → State World Point
  | .enter call =>
    let segment := program.enter state.begun call state.world
    { world := segment.1
      begun := state.begun + 1
      tasks := Function.update state.tasks state.begun segment.2 }
  | .resume task reply =>
    match state.tasks task with
    | none => state
    | some point =>
      let segment := program.resume task point reply state.world
      { state with world := segment.1, tasks := Function.update state.tasks task segment.2 }

theorem act_gone {state : State World Point} {n : Nat} {reply : Reply}
    (h : state.tasks n = none) : program.act state (.resume n reply) = state := by
  simp only [act, h]

theorem act_suspended {state : State World Point} {n : Nat} {point : Point} {reply : Reply}
    (h : state.tasks n = some point) :
    program.act state (.resume n reply) = { state with
      world := (program.resume n point reply state.world).1
      tasks := Function.update state.tasks n (program.resume n point reply state.world).2 } := by
  simp only [act, h]

/-- No task has a number that was not given out yet. -/
def Numbered (state : State World Point) : Prop :=
  ∀ n, state.begun ≤ n → state.tasks n = none

theorem Numbered.lt {state : State World Point} (h : Numbered state) {n : Nat} {point : Point}
    (hpoint : state.tasks n = some point) : n < state.begun := by
  by_contra hge
  rw [h n (Nat.not_lt.mp hge)] at hpoint
  cases hpoint

theorem Numbered.act {state : State World Point} (h : Numbered state)
    (action : Action Call Reply) : Numbered (program.act state action) := by
  intro m hm
  cases action with
  | enter call =>
    have hlater : state.begun + 1 ≤ m := hm
    have hne : m ≠ state.begun := by omega
    simp only [Program.act, Function.update_of_ne hne]
    exact h m (by omega)
  | resume n reply =>
    cases hpoint : state.tasks n with
    | none =>
      rw [program.act_gone hpoint] at hm ⊢
      exact h m hm
    | some point =>
      rw [program.act_suspended hpoint] at hm ⊢
      have hlt := h.lt hpoint
      have hne : m ≠ n := by
        rintro rfl
        exact absurd hlt (Nat.not_lt.mpr hm)
      simp only [Function.update_of_ne hne]
      exact h m hm

theorem Numbered.run {state : State World Point} (h : Numbered state)
    (actions : List (Action Call Reply)) : Numbered (actions.foldl program.act state) := by
  induction actions generalizing state with
  | nil => exact h
  | cons action rest ih => exact ih (h.act program action)

/-- A property of every state of a run, the first one included. -/
def Always (P : State World Point → Prop) : State World Point → List (Action Call Reply) → Prop
  | state, [] => P state
  | state, action :: rest => P state ∧ Always P (program.act state action) rest

/-- A condition on every step of a run. -/
def Throughout (ok : State World Point → Action Call Reply → Prop) :
    State World Point → List (Action Call Reply) → Prop
  | _, [] => True
  | state, action :: rest => ok state action ∧ Throughout ok (program.act state action) rest

/-- What is kept by every step that meets the condition holds throughout a run of such steps. -/
theorem always_of_step {P : State World Point → Prop}
    {ok : State World Point → Action Call Reply → Prop}
    (hstep : ∀ state action, P state → ok state action → P (program.act state action))
    {state : State World Point} (h : P state) (actions : List (Action Call Reply))
    (hok : program.Throughout ok state actions) : program.Always P state actions := by
  induction actions generalizing state with
  | nil => exact h
  | cons action rest ih => exact ⟨h, ih (hstep state action h hok.1) hok.2⟩

theorem Always.last {P : State World Point → Prop} {state : State World Point}
    {actions : List (Action Call Reply)} (h : program.Always P state actions) :
    P (actions.foldl program.act state) := by
  induction actions generalizing state with
  | nil => exact h
  | cons action rest ih => exact ih h.2

theorem Always.mono {P Q : State World Point → Prop} (hPQ : ∀ state, P state → Q state)
    {state : State World Point} {actions : List (Action Call Reply)}
    (h : program.Always P state actions) : program.Always Q state actions := by
  induction actions generalizing state with
  | nil => exact hPQ state h
  | cons action rest ih => exact ⟨hPQ state h.1, ih h.2⟩

/-- Of a run whose steps keep `J` each step has what `J` and the condition give it. -/
theorem throughout_of_step {J : State World Point → Prop}
    {ok Q : State World Point → Action Call Reply → Prop}
    (hkeeps : ∀ state action, J state → ok state action → J (program.act state action))
    (hstep : ∀ state action, J state → ok state action → Q state action)
    {state : State World Point} (hJ : J state) (actions : List (Action Call Reply))
    (hok : program.Throughout ok state actions) : program.Throughout Q state actions := by
  induction actions generalizing state with
  | nil => trivial
  | cons action rest ih =>
    exact ⟨hstep state action hJ hok.1, ih (hkeeps state action hJ hok.1) hok.2⟩

theorem Throughout.last {ok : State World Point → Action Call Reply → Prop}
    {state : State World Point} {actions : List (Action Call Reply)} {action : Action Call Reply}
    (h : program.Throughout ok state (actions ++ [action])) :
    ok (actions.foldl program.act state) action := by
  induction actions generalizing state with
  | nil => exact h.1
  | cons first rest ih => exact ih h.2

/-- Where a step keeps `P` exactly when it meets the condition, a run keeps `P` exactly when all its
steps do. -/
theorem always_iff_throughout {P J : State World Point → Prop}
    {ok : State World Point → Action Call Reply → Prop}
    (hkeeps : ∀ state action, J state → P state → ok state action → J (program.act state action))
    (hstep : ∀ state action, J state → P state → (P (program.act state action) ↔ ok state action))
    {state : State World Point} (hJ : J state) (hP : P state)
    (actions : List (Action Call Reply)) :
    program.Always P state actions ↔ program.Throughout ok state actions := by
  induction actions generalizing state with
  | nil => exact iff_of_true hP trivial
  | cons action rest ih =>
    have hiff := hstep state action hJ hP
    constructor
    · rintro ⟨_, hrest⟩
      have hnext : P (program.act state action) := by
        cases rest with
        | nil => exact hrest
        | cons => exact hrest.1
      have hok := hiff.mp hnext
      exact ⟨hok, (ih (hkeeps state action hJ hP hok) hnext).mp hrest⟩
    · rintro ⟨hok, hrest⟩
      exact ⟨hP, (ih (hkeeps state action hJ hP hok) (hiff.mpr hok)).mpr hrest⟩

end Program

/-- A proof outline: what holds of the world, what there is to know of a task from the point at which
it is suspended, or from its absence, and what a segment of one task may do to the world. -/
structure Outline (World Point : Type*) where
  shared : Nat → World → Prop
  knows : World → Nat → Option Point → Prop
  does : Nat → World → World → Prop

namespace Outline

variable (outline : Outline World Point)

structure Holds (state : State World Point) : Prop where
  shared : outline.shared state.begun state.world
  knows : ∀ n, outline.knows state.world n (state.tasks n)
  begun : ∀ n, state.begun ≤ n → state.tasks n = none

/-- A segment of task `n` that starts in `world`. -/
structure Segment (begun n : Nat) (world : World) (after : World × Option Point) : Prop where
  shared : outline.shared begun after.1
  does : outline.does n world after.1
  knows : outline.knows after.1 n after.2

/-- What is known of another task survives a segment. -/
def Stable : Prop :=
  ∀ n m world after point, outline.does n world after → n ≠ m → outline.knows world m point →
    outline.knows after m point

variable {outline}

theorem Holds.update {state : State World Point} (h : outline.Holds state) (hs : outline.Stable)
    {begun n : Nat} {after : World × Option Point} (hle : state.begun ≤ begun) (hn : n < begun)
    (hsegment : outline.Segment begun n state.world after) :
    outline.Holds { world := after.1, begun, tasks := Function.update state.tasks n after.2 } := by
  refine ⟨hsegment.shared, fun m => ?_, fun m hm => ?_⟩
  · simp only
    by_cases hnm : m = n
    · rw [hnm, Function.update_self]
      exact hsegment.knows
    · rw [Function.update_of_ne hnm]
      exact hs n m _ _ _ hsegment.does (Ne.symm hnm) (h.knows m)
  · simp only at hm ⊢
    have hnm : m ≠ n := by omega
    rw [Function.update_of_ne hnm]
    exact h.begun m (Nat.le_trans hle hm)

theorem Holds.lt_begun {state : State World Point} (h : outline.Holds state) {n : Nat}
    {point : Point} (hpoint : state.tasks n = some point) : n < state.begun := by
  by_contra hge
  rw [h.begun n (Nat.not_lt.mp hge)] at hpoint
  cases hpoint

/-- The steps of a program keep what its outline says, where its segments do. -/
theorem Holds.act {program : Program World Point Call Reply} {state : State World Point}
    (h : outline.Holds state) (hs : outline.Stable) {action : Action Call Reply}
    (henter : ∀ call, action = .enter call → outline.Segment (state.begun + 1) state.begun
      state.world (program.enter state.begun call state.world))
    (hresume : ∀ n reply point, action = .resume n reply → state.tasks n = some point →
      outline.Segment state.begun n state.world (program.resume n point reply state.world)) :
    outline.Holds (program.act state action) := by
  cases action with
  | enter call => exact h.update hs (Nat.le_succ _) (Nat.lt_succ_self _) (henter call rfl)
  | resume n reply =>
    cases hpoint : state.tasks n with
    | none =>
      rw [program.act_gone hpoint]
      exact h
    | some point =>
      rw [program.act_suspended hpoint]
      exact h.update hs (Nat.le_refl _) (h.lt_begun hpoint) (hresume n reply point rfl hpoint)

end Outline

end Cooperative
