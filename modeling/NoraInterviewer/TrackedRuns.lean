import NoraInterviewer.ObjectRuns

/-! Clients that keep to rules: what each may do is told by what it holds, the value it loaded
last, the object it wrote, and what it has saved. -/

namespace ObjectRuns

open OptimisticRuns

/-- What a client holds. -/
structure Track (V K D E : Type) where
  loaded : Option V := none
  wrote : Option (K × D) := none
  saves : List (Save V E) := []

/-- What a client that holds `track` may save over `base`, write and erase. -/
structure Rules (V K D E : Type) where
  puts : Track V K D E → V → V → Prop
  writes : Track V K D E → K → D → Prop
  erases : Track V K D E → K → Prop

def Track.load {V K D E : Type} (track : Track V K D E) (value : V) : Track V K D E :=
  { track with loaded := some value }

def Track.save {V K D E : Type} (track : Track V K D E) (save : Save V E) : Track V K D E :=
  { track with loaded := none, saves := track.saves ++ [save] }

def Track.write {V K D E : Type} (track : Track V K D E) (key : K) (data : D) (fate : Fate E) :
    Track V K D E :=
  if fate.worked then { track with wrote := some (key, data) } else track

def Track.erase {V K D E : Type} (track : Track V K D E) : Track V K D E :=
  { track with wrote := none }

variable {ι σ V K D E R : Type} {cas : Versioned V} {lossy : Bool}

/-- The program keeps to the rules: it saves only over the value it loaded last, and ends with what
it may end with. -/
def Prog.Keeps (cas : Versioned V) (lossy : Bool) (rules : Rules V K D E)
    (ends : Track V K D E → R → Prop) : Track V K D E → Prog V K D E R → Prop
  | track, .done result => ends track result
  | track, .load next =>
    (∀ value, Keeps cas lossy rules ends (track.load value) (next (.ok value))) ∧
      ∀ e, Keeps cas lossy rules ends track (next (.error e))
  | track, .put value next =>
    (∃ base, track.loaded = some base ∧ cas.version value = cas.version base ∧
      rules.puts track base value ∧
      ∀ outcome, (outcome = .ok () ∨ lossy = true) → Keeps cas lossy rules ends
        (track.save ⟨base, cas.stored value, outcome⟩) (next outcome)) ∧
    ∀ e, Keeps cas lossy rules ends track (next (.error e))
  | track, .write key data next => rules.writes track key data ∧
    ∀ fate : Fate E, Keeps cas lossy rules ends (track.write key data fate) (next fate.outcome)
  | track, .fetch _ next => ∀ result, Keeps cas lossy rules ends track (next result)
  | track, .erase key next => rules.erases track key ∧
    ∀ fate : Fate E, Keeps cas lossy rules ends track.erase (next fate.outcome)

theorem Prog.Keeps.map {A B : Type} {rules : Rules V K D E} {ends : Track V K D E → B → Prop}
    {f : A → B} {track : Track V K D E} {prog : Prog V K D E A}
    (h : prog.Keeps cas lossy rules (fun track result => ends track (f result)) track) :
    (prog.map f).Keeps cas lossy rules ends track := by
  induction prog generalizing track with
  | done result => exact h
  | load next ih => exact ⟨fun value => ih _ (h.1 value), fun e => ih _ (h.2 e)⟩
  | put value next ih =>
    obtain ⟨⟨base, hb, hversion, hp, hnext⟩, herror⟩ := h
    exact ⟨⟨base, hb, hversion, hp, fun outcome ho => ih _ (hnext outcome ho)⟩,
      fun e => ih _ (herror e)⟩
  | write key data next ih => exact ⟨h.1, fun fate => ih _ (h.2 fate)⟩
  | fetch key next ih => exact fun result => ih _ (h result)
  | erase key next ih => exact ⟨h.1, fun fate => ih _ (h.2 fate)⟩

/-- What the client holds after one of its calls. -/
def Track.after (track : Track V K D E) : Event V K D E → Track V K D E
  | .loaded (.ok value) => track.load value
  | .saved save => track.save save
  | .wrote key data fate => track.write key data fate
  | .erased _ _ => track.erase
  | _ => track

/-- The call is one that the rules allow to a client that holds `track`. -/
def Event.Permitted (cas : Versioned V) (rules : Rules V K D E) (track : Track V K D E) :
    Event V K D E → Prop
  | .saved save => track.loaded = some save.base ∧
    ∃ value, rules.puts track save.base value ∧ save.value = cas.stored value
  | .wrote key data _ => rules.writes track key data
  | .erased key _ => rules.erases track key
  | _ => True

/-- A cell still has the loaded value, or a later one. -/
def Held (cas : Versioned V) (cell : V) (loaded : Option V) : Prop :=
  ∀ base, loaded = some base → cas.version base ≤ cas.version cell ∧
    (cas.version base = cas.version cell → base = cell)

theorem Held.later {cell value : V} {loaded : Option V} (h : Held cas cell loaded)
    (hv : cas.version value = cas.version cell) : Held cas (cas.stored value) loaded := by
  intro base hb
  have hle := (h base hb).1
  have hnext := cas.version_stored value
  exact ⟨by omega, fun he => by omega⟩

theorem held_none (cell : V) : Held cas cell none := fun _ hb => by cases hb

variable [DecidableEq ι]

/-- What a client holds after a run. -/
def trackOf (moves : List (Move ι σ V K D E R)) (i : ι) : Track V K D E :=
  moves.foldl (fun track move => if move.client = i then track.after move.event else track) {}

/-- The saves of one client. -/
def savesOf (moves : List (Move ι σ V K D E R)) (i : ι) : List (Save V E) :=
  moves.filterMap fun move => if move.client = i then move.event.save else none

theorem trackOf_snoc (moves : List (Move ι σ V K D E R)) (move : Move ι σ V K D E R) (i : ι) :
    trackOf (moves ++ [move]) i =
      if move.client = i then (trackOf moves i).after move.event else trackOf moves i := by
  simp only [trackOf, List.foldl_append, List.foldl_cons, List.foldl_nil]

theorem trackOf_saves (moves : List (Move ι σ V K D E R)) (i : ι) :
    (trackOf moves i).saves = savesOf moves i := by
  induction moves using List.reverseRecOn with
  | nil => rfl
  | append_singleton moves move ih =>
    rw [trackOf_snoc, savesOf, List.filterMap_append, ← savesOf, ← ih]
    by_cases hm : move.client = i
    · simp only [hm, if_true, List.filterMap_cons, List.filterMap_nil]
      cases move.event with
      | loaded result =>
        cases result with
        | error e => simp only [Track.after, Event.save, List.append_nil]
        | ok value => simp only [Track.after, Track.load, Event.save, List.append_nil]
      | saved save => rfl
      | unsaved e => simp only [Track.after, Event.save, List.append_nil]
      | wrote key data fate =>
        simp only [Track.after, Track.write, Event.save, List.append_nil]
        split <;> rfl
      | fetched key result => simp only [Track.after, Event.save, List.append_nil]
      | erased key fate => simp only [Track.after, Track.erase, Event.save, List.append_nil]
    · simp only [hm, if_false, List.filterMap_cons, List.filterMap_nil, List.append_nil]

theorem savesOf_mem {moves : List (Move ι σ V K D E R)} {i : ι} {save : Save V E} :
    save ∈ savesOf moves i ↔ ∃ move ∈ moves, move.client = i ∧ move.event = .saved save := by
  unfold savesOf
  rw [List.mem_filterMap]
  refine exists_congr fun move => and_congr_right fun _ => ?_
  by_cases hi : move.client = i
  · simp only [hi, if_true, true_and]
    cases move.event with
    | saved other =>
      simp only [Event.save, Option.some.injEq, Event.saved.injEq]
    | loaded | unsaved | wrote | fetched | erased =>
      simp only [Event.save, reduceCtorEq]
  · simp only [hi, if_false, reduceCtorEq, false_and]

variable [DecidableEq K] [DecidableEq σ] {home : ι → σ}

theorem Step.permitted {rules : Rules V K D E} {ends : Track V K D E → R → Prop}
    {track : Track V K D E} {s s' : State ι σ V K D E R} {i : ι} {event : Event V K D E}
    (hk : (s.clients i).Keeps cas lossy rules ends track)
    (hh : Held cas (s.cells (home i)) track.loaded) (hs : Step cas home lossy s i event s') :
    event.Permitted cas rules track ∧
      (s'.clients i).Keeps cas lossy rules ends (track.after event) := by
  cases hs with
  | load h result hr =>
    rw [h] at hk
    dsimp only
    rw [Function.update_self]
    cases result with
    | ok value => exact ⟨trivial, hk.1 value⟩
    | error e => exact ⟨trivial, hk.2 e⟩
  | save h hv outcome ho =>
    rw [h] at hk
    dsimp only
    rw [Function.update_self]
    obtain ⟨⟨base, hb, hversion, hp, hnext⟩, -⟩ := hk
    obtain rfl := (hh base hb).2 (hversion.symm.trans hv)
    exact ⟨⟨hb, _, hp, rfl⟩, hnext outcome ho⟩
  | unsave h e =>
    rw [h] at hk
    dsimp only
    rw [Function.update_self]
    exact ⟨trivial, hk.2 e⟩
  | write h fate =>
    rw [h] at hk
    dsimp only
    rw [Function.update_self]
    exact ⟨hk.1, hk.2 fate⟩
  | fetch h result hr =>
    rw [h] at hk
    dsimp only
    rw [Function.update_self]
    exact ⟨trivial, hk result⟩
  | erase h fate =>
    rw [h] at hk
    dsimp only
    rw [Function.update_self]
    exact ⟨hk.1, hk.2 fate⟩

theorem Step.held {track : Track V K D E} {s s' : State ι σ V K D E R} {i : ι}
    {event : Event V K D E} (hh : Held cas (s.cells (home i)) track.loaded)
    (hs : Step cas home lossy s i event s') :
    Held cas (s'.cells (home i)) (track.after event).loaded := by
  cases hs with
  | load h result hr =>
    cases result with
    | ok value =>
      intro base hb
      cases hb
      rw [hr value rfl]
      exact ⟨le_rfl, fun _ => rfl⟩
    | error e => exact hh
  | save h hv outcome ho => exact held_none _
  | unsave h e => exact hh
  | @write key data next h fate =>
    have hloaded : (track.after (.wrote key data fate)).loaded = track.loaded := by
      simp only [Track.after, Track.write]
      split <;> rfl
    rw [hloaded]
    exact hh
  | fetch h result hr => exact hh
  | erase h fate => exact hh

theorem Step.others {s s' : State ι σ V K D E R} {i j : ι} {event : Event V K D E} (hj : j ≠ i)
    (hs : Step cas home lossy s i event s') : s'.clients j = s.clients j := by
  cases hs with
  | load => exact Function.update_of_ne hj _ _
  | save => exact Function.update_of_ne hj _ _
  | unsave => exact Function.update_of_ne hj _ _
  | write => exact Function.update_of_ne hj _ _
  | fetch => exact Function.update_of_ne hj _ _
  | erase => exact Function.update_of_ne hj _ _

theorem Step.held_others {loaded : Option V} {s s' : State ι σ V K D E R} {i j : ι}
    {event : Event V K D E} (hh : Held cas (s.cells (home j)) loaded)
    (hs : Step cas home lossy s i event s') : Held cas (s'.cells (home j)) loaded := by
  cases hs with
  | load => exact hh
  | save h hv outcome ho =>
    dsimp only
    by_cases hj : home j = home i
    · rw [hj] at hh ⊢
      rw [Function.update_self]
      exact hh.later hv
    · rw [Function.update_of_ne hj]
      exact hh
  | unsave => exact hh
  | write => exact hh
  | fetch => exact hh
  | erase => exact hh

/-- Every client keeps to its rules throughout. -/
theorem Run.tracked {rules : ι → Rules V K D E} {ends : ι → Track V K D E → R → Prop}
    {s final : State ι σ V K D E R} {moves : List (Move ι σ V K D E R)}
    (h : Run cas home lossy s moves final)
    (hs : ∀ i, (s.clients i).Keeps cas lossy (rules i) (ends i) {}) (i : ι) :
    (final.clients i).Keeps cas lossy (rules i) (ends i) (trackOf moves i) ∧
      Held cas (final.cells (home i)) (trackOf moves i).loaded := by
  induction h with
  | nil => exact ⟨hs i, held_none _⟩
  | @snoc moves mid final j event _ hstep ih =>
    obtain ⟨hkeeps, hheld⟩ := ih
    rw [trackOf_snoc]
    by_cases hj : j = i
    · subst hj
      rw [if_pos rfl]
      exact ⟨(hstep.permitted hkeeps hheld).2, hstep.held hheld⟩
    · rw [if_neg hj, hstep.others (Ne.symm hj)]
      exact ⟨hkeeps, hstep.held_others hheld⟩

/-- A run up to one of its moves, and the move. -/
theorem Run.split {s final : State ι σ V K D E R} {moves before after : List (Move ι σ V K D E R)}
    {move : Move ι σ V K D E R} (h : Run cas home lossy s moves final)
    (hm : moves = before ++ move :: after) : Run cas home lossy s before move.before ∧
      Step cas home lossy move.before move.client move.event move.after := by
  induction h generalizing after with
  | nil =>
    exact absurd hm.symm (List.append_ne_nil_of_right_ne_nil _ (List.cons_ne_nil _ _))
  | @snoc moves mid final j event hrun hstep ih =>
    rcases List.eq_nil_or_concat after with rfl | ⟨rest, last, rfl⟩
    · obtain ⟨rfl, hlast⟩ := List.append_inj' hm rfl
      cases hlast
      exact ⟨hrun, hstep⟩
    · rw [List.concat_eq_append, ← List.cons_append, ← List.append_assoc] at hm
      exact ih (List.append_inj' hm rfl).1

end ObjectRuns
