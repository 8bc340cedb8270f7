import NoraInterviewer.OptimisticRuns

/-! Clients of a versioned cell and of an object store that has no transaction in common with it.
A put is refused unless the cell still has the version of the value; any call may raise, with its
work done or not. -/

namespace ObjectRuns

open OptimisticRuns

inductive Prog (V K D E R : Type) where
  | done (result : R)
  | load (next : Except E V → Prog V K D E R)
  | put (value : V) (next : Except E Unit → Prog V K D E R)
  | write (key : K) (data : D) (next : Except E Unit → Prog V K D E R)
  | fetch (key : K) (next : Except E D → Prog V K D E R)
  | erase (key : K) (next : Except E Unit → Prog V K D E R)

/-- The program, with `f` of its result. -/
def Prog.map {V K D E A B : Type} (f : A → B) : Prog V K D E A → Prog V K D E B
  | .done result => .done (f result)
  | .load next => .load fun loaded => (next loaded).map f
  | .put value next => .put value fun saved => (next saved).map f
  | .write key data next => .write key data fun written => (next written).map f
  | .fetch key next => .fetch key fun fetched => (next fetched).map f
  | .erase key next => .erase key fun erased => (next erased).map f

def Prog.result {V K D E R : Type} : Prog V K D E R → Option R
  | .done result => some result
  | _ => none

theorem Prog.done_of_result {V K D E R : Type} {prog : Prog V K D E R} {result : R}
    (h : prog.result = some result) : prog = .done result := by
  cases prog with
  | done r => exact congrArg Prog.done (Option.some.inj h)
  | load | put | write | fetch | erase => cases h

/-- What a call comes to: it works, or it raises, its work done or not. -/
inductive Fate (E : Type) where
  | works
  | raises (e : E) (done : Bool)
  deriving DecidableEq

variable {V K D E R : Type} [DecidableEq K] (cas : Versioned V)
  (conflict missing : E)

/-- What one program leaves of the cell and of the objects. -/
structure Left (V K D E : Type) where
  cell : V
  objects : K → Option D
  fates : List (Fate E)

def Fate.outcome : Fate E → Except E Unit
  | .works => .ok ()
  | .raises e _ => .error e

def Fate.worked : Fate E → Bool
  | .works => true
  | .raises _ done => done

/-- The objects, after a call that puts `content` under the key if it works. -/
def Fate.left (fate : Fate E) (key : K) (content : Option D) (objects : K → Option D) :
    K → Option D :=
  if fate.worked then Function.update objects key content else objects

/-- A call without a fate works. -/
def Left.fate (left : Left V K D E) : Fate E := left.fates.headD .works

def Left.next (left : Left V K D E) : Left V K D E := { left with fates := left.fates.tail }

/-- The program alone, its calls with the given fates. -/
def Prog.alone : Prog V K D E R → Left V K D E → R × Left V K D E
  | .done result, left => (result, left)
  | .load next, left =>
    match left.fate with
    | .raises e _ => (next (.error e)).alone left.next
    | .works => (next (.ok left.cell)).alone left.next
  | .put value next, left =>
    if cas.version value ≠ cas.version left.cell then (next (.error conflict)).alone left
    else (next left.fate.outcome).alone { left.next with
      cell := if left.fate.worked then cas.stored value else left.cell }
  | .write key data next, left =>
    (next left.fate.outcome).alone { left.next with
      objects := left.fate.left key (some data) left.objects }
  | .fetch key next, left =>
    match left.fate, left.objects key with
    | .raises e _, _ => (next (.error e)).alone left.next
    | .works, some data => (next (.ok data)).alone left.next
    | .works, none => (next (.error missing)).alone left.next
  | .erase key next, left =>
    (next left.fate.outcome).alone { left.next with
      objects := left.fate.left key none left.objects }

/-- The cells, the objects they have in common, and what each client has yet to do. -/
structure State (ι σ V K D E R : Type) where
  cells : σ → V
  objects : K → Option D
  clients : ι → Prog V K D E R

/-- A put that replaced `base`: it left `value`, and returned or raised after that. -/
structure Save (V E : Type) where
  base : V
  value : V
  outcome : Except E Unit

inductive Event (V K D E : Type) where
  | loaded (result : Except E V)
  | saved (save : Save V E)
  | unsaved (e : E)
  | wrote (key : K) (data : D) (fate : Fate E)
  | fetched (key : K) (result : Except E D)
  | erased (key : K) (fate : Fate E)

def Event.save : Event V K D E → Option (Save V E)
  | .saved save => some save
  | _ => none

/-- The key of the object that a call may change. -/
def Event.key {V K D E : Type} : Event V K D E → Option K
  | .wrote key _ _ | .erased key _ => some key
  | _ => none

variable {ι σ : Type} [DecidableEq ι] [DecidableEq σ] (home : ι → σ) (lossy : Bool)

/-- One call of one client, which has a cell of its own; any call may raise. Only a lossy store
raises after it has stored. -/
inductive Step (s : State ι σ V K D E R) (i : ι) : Event V K D E → State ι σ V K D E R → Prop where
  | load {next : Except E V → Prog V K D E R} (h : s.clients i = .load next) (result : Except E V)
    (hr : ∀ value, result = .ok value → value = s.cells (home i)) :
    Step s i (.loaded result) { s with clients := Function.update s.clients i (next result) }
  | save {value : V} {next : Except E Unit → Prog V K D E R} (h : s.clients i = .put value next)
    (hv : cas.version value = cas.version (s.cells (home i))) (outcome : Except E Unit)
    (ho : outcome = .ok () ∨ lossy = true) :
    Step s i (.saved ⟨s.cells (home i), cas.stored value, outcome⟩) { s with
      cells := Function.update s.cells (home i) (cas.stored value)
      clients := Function.update s.clients i (next outcome) }
  | unsave {value : V} {next : Except E Unit → Prog V K D E R} (h : s.clients i = .put value next)
    (e : E) :
    Step s i (.unsaved e) { s with clients := Function.update s.clients i (next (.error e)) }
  | write {key : K} {data : D} {next : Except E Unit → Prog V K D E R}
    (h : s.clients i = .write key data next) (fate : Fate E) :
    Step s i (.wrote key data fate) { s with
      objects := fate.left key (some data) s.objects
      clients := Function.update s.clients i (next fate.outcome) }
  | fetch {key : K} {next : Except E D → Prog V K D E R} (h : s.clients i = .fetch key next)
    (result : Except E D) (hr : ∀ data, result = .ok data → s.objects key = some data) :
    Step s i (.fetched key result) { s with clients := Function.update s.clients i (next result) }
  | erase {key : K} {next : Except E Unit → Prog V K D E R} (h : s.clients i = .erase key next)
    (fate : Fate E) :
    Step s i (.erased key fate) { s with
      objects := fate.left key none s.objects
      clients := Function.update s.clients i (next fate.outcome) }

/-- One step of a run, between its two states. -/
structure Move (ι σ V K D E R : Type) where
  before : State ι σ V K D E R
  client : ι
  event : Event V K D E
  after : State ι σ V K D E R

/-- Any interleaving of the clients. -/
inductive Run (s : State ι σ V K D E R) : List (Move ι σ V K D E R) → State ι σ V K D E R → Prop where
  | nil : Run s [] s
  | snoc {moves : List (Move ι σ V K D E R)} {mid final : State ι σ V K D E R} {i : ι}
    {event : Event V K D E} (h : Run s moves mid)
    (hs : Step cas home lossy mid i event final) : Run s (moves ++ [⟨mid, i, event, final⟩]) final

/-- The next call of client `i`, when it comes to `fate`. -/
def State.access (s : State ι σ V K D E R) (i : ι) (fate : Fate E) :
    Option (Event V K D E × State ι σ V K D E R) :=
  match s.clients i with
  | .done _ => none
  | .load next =>
    let result := match fate with
      | .works => Except.ok (s.cells (home i))
      | .raises e _ => .error e
    some (.loaded result, { s with clients := Function.update s.clients i (next result) })
  | .put value next =>
    match fate with
    | .works =>
      if cas.version value = cas.version (s.cells (home i)) then
        some (.saved ⟨s.cells (home i), cas.stored value, .ok ()⟩, { s with
          cells := Function.update s.cells (home i) (cas.stored value)
          clients := Function.update s.clients i (next (.ok ())) })
      else none
    | .raises e _ =>
      some (.unsaved e, { s with clients := Function.update s.clients i (next (.error e)) })
  | .write key data next =>
    some (.wrote key data fate, { s with
      objects := fate.left key (some data) s.objects
      clients := Function.update s.clients i (next fate.outcome) })
  | .fetch key next =>
    match fate, s.objects key with
    | .works, none => none
    | .works, some data => some (.fetched key (.ok data),
        { s with clients := Function.update s.clients i (next (.ok data)) })
    | .raises e _, _ => some (.fetched key (.error e),
        { s with clients := Function.update s.clients i (next (.error e)) })
  | .erase key next =>
    some (.erased key fate, { s with
      objects := fate.left key none s.objects
      clients := Function.update s.clients i (next fate.outcome) })

/-- The clients of the list make one call each, in its order and with its fates. -/
def State.schedule (moves : List (Move ι σ V K D E R)) (s : State ι σ V K D E R) :
    List (ι × Fate E) → Option (List (Move ι σ V K D E R) × State ι σ V K D E R)
  | [] => some (moves, s)
  | (i, fate) :: rest =>
    match s.access cas home i fate with
    | none => none
    | some (event, s') => State.schedule (moves ++ [⟨s, i, event, s'⟩]) s' rest

section

variable {cas home lossy}

theorem State.access_step {s s' : State ι σ V K D E R} {i : ι} {fate : Fate E}
    {event : Event V K D E} (h : s.access cas home i fate = some (event, s')) :
    Step cas home lossy s i event s' := by
  unfold State.access at h
  split at h
  next => cases h
  next next hi =>
    cases fate with
    | works =>
      cases h
      exact .load hi _ fun _ hv => (Except.ok.inj hv).symm
    | raises e _ =>
      cases h
      exact .load hi _ fun _ hv => by cases hv
  next value next hi =>
    split at h
    next =>
      split at h
      next hv =>
        cases h
        exact .save hi hv _ (.inl rfl)
      next => cases h
    next e _ =>
      cases h
      exact .unsave hi e
  next key data next hi =>
    cases h
    exact .write hi fate
  next key next hi =>
    split at h
    next => cases h
    next data ho =>
      cases h
      exact .fetch hi _ fun _ hd => ho.trans (congrArg some (Except.ok.inj hd))
    next e _ _ =>
      cases h
      exact .fetch hi _ fun _ hd => by cases hd
  next key next hi =>
    cases h
    exact .erase hi fate

theorem Step.replaces {s s' : State ι σ V K D E R} {i : ι} {save : Save V E}
    (hs : Step cas home lossy s i (.saved save) s') :
    s.cells (home i) = save.base ∧ s'.cells (home i) = save.value ∧
      (save.outcome = .ok () ∨ lossy = true) := by
  cases hs with
  | save h hv outcome ho => exact ⟨rfl, Function.update_self .., ho⟩

theorem Fate.left_of_ne {fate : Fate E} {key other : K} (h : other ≠ key) (content : Option D)
    (objects : K → Option D) : fate.left key content objects other = objects other := by
  unfold Fate.left
  split
  · exact Function.update_of_ne h _ _
  · rfl

theorem Step.untouched {s s' : State ι σ V K D E R} {i : ι} {event : Event V K D E} {key : K}
    (hs : Step cas home lossy s i event s') (hk : event.key ≠ some key) :
    s'.objects key = s.objects key := by
  cases hs with
  | write _ fate => exact Fate.left_of_ne (fun h => hk (congrArg some h.symm)) _ _
  | erase _ fate => exact Fate.left_of_ne (fun h => hk (congrArg some h.symm)) _ _
  | load | save | unsave | fetch => rfl

theorem Step.unsaved {s s' : State ι σ V K D E R} {i : ι} {event : Event V K D E}
    (hs : Step cas home lossy s i event s') (hn : event.save = none) : s'.cells = s.cells := by
  cases hs with
  | save => cases hn
  | load | unsave | write | fetch | erase => rfl

theorem Step.elsewhere {s s' : State ι σ V K D E R} {i : ι} {event : Event V K D E} {other : σ}
    (hs : Step cas home lossy s i event s') (ho : other ≠ home i) :
    s'.cells other = s.cells other := by
  cases hs with
  | save => exact Function.update_of_ne ho _ _
  | load | unsave | write | fetch | erase => rfl

theorem Run.schedule {s mid final : State ι σ V K D E R} {moves moves' : List (Move ι σ V K D E R)}
    {order : List (ι × Fate E)} (h : Run cas home lossy s moves mid)
    (hs : mid.schedule cas home moves order = some (moves', final)) :
    Run cas home lossy s moves' final := by
  induction order generalizing mid moves with
  | nil =>
    cases hs
    exact h
  | cons entry rest ih =>
    unfold State.schedule at hs
    split at hs
    next => cases hs
    next event s' he => exact ih (h.snoc (State.access_step he)) hs

end

end ObjectRuns
