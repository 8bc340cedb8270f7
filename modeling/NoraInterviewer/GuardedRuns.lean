import NoraInterviewer.OptimisticRuns

/-! A client that checks a loaded value before it starts, and what the commits of other
clients between its accesses do to it. -/

namespace OptimisticRuns

variable {ι V R : Type}

def Event.client : Event ι V → ι
  | .loaded i _ => i
  | .committed i _ _ => i
  | .refused i => i

def Event.commits : Event ι V → Bool
  | .committed _ _ _ => true
  | _ => false

def Event.puts : Event ι V → Bool
  | .loaded _ _ => false
  | _ => true

/-- Another client has committed since the last access of `i`. -/
def Overtaken (i : ι) (events : List (Event ι V)) : Prop :=
  ∃ before own since, events = before ++ own :: since ∧ own.client = i ∧
    (∀ event ∈ since, event.client ≠ i) ∧ ∃ event ∈ since, event.commits = true

/-- Another client commits between two accesses of `i`. -/
def Disturbed (i : ι) (events : List (Event ι V)) : Prop :=
  ∃ before event after, events = before ++ event :: after ∧ event.client ≠ i ∧
    event.commits = true ∧ (∃ own ∈ before, own.client = i) ∧ ∃ own ∈ after, own.client = i

/-- Whenever another client has committed since the last access of `i`, the next access of `i`
is its first put. -/
def OvertakenAtFirstPut (i : ι) (events : List (Event ι V)) : Prop :=
  ∀ before own after, events = before ++ own :: after → own.client = i → Overtaken i before →
    own.puts = true ∧ ∀ event ∈ before, event.client = i → event.puts = false

/-- The first commit of `i` replaces `base`, which is all that `i` loaded before. -/
def BasedOn (i : ι) (base : V) (events : List (Event ι V)) : Prop :=
  ∃ before value after, events = before ++ .committed i base value :: after ∧
    .loaded i base ∈ before ∧ ∀ event ∈ before, event.client = i → event = .loaded i base

/-- `prog`, unless `guard` refuses the value. -/
def Prog.unless (guard : V → Option R) (prog : Prog V R) (value : V) : Prog V R :=
  match guard value with
  | some result => .done result
  | none => prog

/-- `prog`, unless `guard` refuses the value that a first load finds. -/
def Prog.guarded (guard : V → Option R) (prog : Prog V R) : Prog V R := .load (prog.unless guard)

theorem append_cons_eq_snoc {α : Type} {before after events : List α} {item last : α}
    (h : events ++ [last] = before ++ item :: after) :
    after = [] ∧ item = last ∧ before = events ∨
      ∃ rest, after = rest ++ [last] ∧ events = before ++ item :: rest := by
  rcases List.eq_nil_or_concat after with rfl | ⟨rest, last', rfl⟩
  · obtain ⟨he, hi⟩ := List.append_inj' h rfl
    exact Or.inl ⟨rfl, (List.cons.inj hi).1.symm, he.symm⟩
  · have h' : events ++ [last] = (before ++ item :: rest) ++ [last'] := by simpa using h
    obtain ⟨he, hl⟩ := List.append_inj' h' rfl
    rw [(List.cons.inj hl).1]
    exact Or.inr ⟨rest, by simp, he⟩

/-- The last access of a client that has made one. -/
theorem exists_last_access {i : ι} {events : List (Event ι V)}
    (h : ∃ event ∈ events, event.client = i) :
    ∃ before own since, events = before ++ own :: since ∧ own.client = i ∧
      ∀ event ∈ since, event.client ≠ i := by
  induction events using List.reverseRecOn with
  | nil => simp at h
  | append_singleton events last ih =>
    by_cases hlast : last.client = i
    · exact ⟨events, last, [], rfl, hlast, by simp⟩
    · obtain ⟨event, hm, hi⟩ := h
      have hold : event ∈ events := by
        rcases List.mem_append.mp hm with hm | hm
        · exact hm
        · exact absurd (List.mem_singleton.mp hm ▸ hi) hlast
      obtain ⟨before, own, since, rfl, hown, hsince⟩ := ih ⟨event, hold, hi⟩
      refine ⟨before, own, since ++ [last], by simp, hown, fun event hm => ?_⟩
      rcases List.mem_append.mp hm with hm | hm
      · exact hsince event hm
      · exact List.mem_singleton.mp hm ▸ hlast

theorem overtaken_snoc {i : ι} {events : List (Event ι V)} {event : Event ι V} :
    Overtaken i (events ++ [event]) ↔ event.client ≠ i ∧
      (Overtaken i events ∨ event.commits = true ∧ ∃ own ∈ events, own.client = i) := by
  constructor
  · rintro ⟨before, own, since, he, hown, hsince, hcommit⟩
    rcases append_cons_eq_snoc he with ⟨rfl, _, _⟩ | ⟨rest, rfl, hrest⟩
    · simp at hcommit
    · refine ⟨hsince event (by simp), ?_⟩
      obtain ⟨other, hm, hc⟩ := hcommit
      rcases List.mem_append.mp hm with hm | hm
      · exact Or.inl ⟨before, own, rest, hrest, hown,
          fun e h => hsince e (List.mem_append_left _ h), other, hm, hc⟩
      · exact Or.inr ⟨List.mem_singleton.mp hm ▸ hc, own, by rw [hrest]; simp, hown⟩
  · have hextend : ∀ before own since, events = before ++ own :: since →
        own.client = i → (∀ e ∈ since, e.client ≠ i) → event.client ≠ i →
        (∃ e ∈ since ++ [event], e.commits = true) → Overtaken i (events ++ [event]) := by
      rintro before own since rfl hown hsince hi hcommit
      refine ⟨before, own, since ++ [event], by simp, hown, fun e hm => ?_, hcommit⟩
      rcases List.mem_append.mp hm with hm | hm
      · exact hsince e hm
      · exact List.mem_singleton.mp hm ▸ hi
    rintro ⟨hi, ⟨before, own, since, he, hown, hsince, other, hm, hc⟩ | ⟨hc, hany⟩⟩
    · exact hextend before own since he hown hsince hi ⟨other, List.mem_append_left _ hm, hc⟩
    · obtain ⟨before, own, since, he, hown, hsince⟩ := exists_last_access hany
      exact hextend before own since he hown hsince hi ⟨event, by simp, hc⟩

theorem Disturbed.of_snoc {i : ι} {events : List (Event ι V)} {event : Event ι V}
    (h : Disturbed i (events ++ [event])) :
    Disturbed i events ∨ event.client = i ∧ Overtaken i events := by
  obtain ⟨before, other, after, he, hother, hc, hbefore, own, hm, hown⟩ := h
  rcases append_cons_eq_snoc he with ⟨rfl, _⟩ | ⟨rest, rfl, rfl⟩
  · simp at hm
  · by_cases hrest : ∃ own ∈ rest, own.client = i
    · exact Or.inl ⟨before, other, rest, rfl, hother, hc, hbefore, hrest⟩
    · -- the last access of `i` is in `before`
      have hnone : ∀ own ∈ rest, own.client ≠ i := fun own hm h => hrest ⟨own, hm, h⟩
      obtain ⟨first, last, since, rfl, hlast, hsince⟩ := exists_last_access hbefore
      refine Or.inr ⟨?_, first, last, since ++ other :: rest, by simp, hlast, ?_, other, by simp, hc⟩
      · rcases List.mem_append.mp hm with hm | hm
        · exact absurd hown (hnone own hm)
        · exact List.mem_singleton.mp hm ▸ hown
      · intro e hm
        rcases List.mem_append.mp hm with hm | hm
        · exact hsince e hm
        · rcases List.mem_cons.mp hm with rfl | hm
          · exact hother
          · exact hnone e hm

theorem Disturbed.exists_own {i : ι} {events : List (Event ι V)} (h : Disturbed i events) :
    ∃ own ∈ events, own.client = i := by
  obtain ⟨before, event, after, rfl, _, _, ⟨own, hm, hown⟩, _⟩ := h
  exact ⟨own, List.mem_append_left _ hm, hown⟩

theorem OvertakenAtFirstPut.of_snoc {i : ι} {events : List (Event ι V)} {event : Event ι V}
    (h : OvertakenAtFirstPut i (events ++ [event])) : OvertakenAtFirstPut i events := by
  rintro before own after rfl hown hover
  exact h before own (after ++ [event]) (by simp) hown hover

theorem OvertakenAtFirstPut.last {i : ι} {events : List (Event ι V)} {event : Event ι V}
    (h : OvertakenAtFirstPut i (events ++ [event])) (hi : event.client = i)
    (ho : Overtaken i events) :
    event.puts = true ∧ ∀ own ∈ events, own.client = i → own.puts = false :=
  h events event [] rfl hi ho

theorem OvertakenAtFirstPut.snoc {i : ι} {events : List (Event ι V)} {event : Event ι V}
    (h : OvertakenAtFirstPut i events)
    (hl : event.client = i → Overtaken i events →
      event.puts = true ∧ ∀ own ∈ events, own.client = i → own.puts = false) :
    OvertakenAtFirstPut i (events ++ [event]) := by
  intro before own after he hown hover
  rcases append_cons_eq_snoc he with ⟨_, rfl, rfl⟩ | ⟨rest, _, hrest⟩
  · exact hl hown hover
  · exact h before own rest hrest hown hover

theorem BasedOn.snoc {i : ι} {base : V} {events : List (Event ι V)} (h : BasedOn i base events)
    (event : Event ι V) : BasedOn i base (events ++ [event]) := by
  obtain ⟨before, value, after, rfl, hm, hb⟩ := h
  exact ⟨before, value, after ++ [event], by simp, hm, hb⟩

theorem BasedOn.commit_mem {i : ι} {base : V} {events : List (Event ι V)}
    (h : BasedOn i base events) : ∃ event ∈ events, event.client = i ∧ event.puts = true := by
  obtain ⟨before, value, after, rfl, _⟩ := h
  exact ⟨.committed i base value, by simp, rfl, rfl⟩

variable [DecidableEq ι] {cas : Versioned V} {transaction : V → V → Prop} {refusal : R → Prop}

omit [DecidableEq ι] in
theorem Grounded.guarded {prog : Prog V R} (h : Grounded transaction refusal none prog)
    (guard : V → Option R) : Grounded transaction refusal none (prog.guarded guard) := by
  intro value
  unfold Prog.unless
  split
  next => exact trivial
  next => exact h.of_none _

/-- How far a guarded client has come, when it was overtaken before its first put at most. -/
inductive Progress (transaction : V → V → Prop) (refusal : R → Prop) (guard : V → Option R)
    (prog : Prog V R) (i : ι) (events : List (Event ι V)) (s : State ι V R) : Prop where
  | waiting (hn : ∀ event ∈ events, event.client ≠ i) (hi : s.clients i = prog.guarded guard)
  | rejected {value : V} {result : R} (hg : guard value = some result)
    (hl : ∀ event ∈ events, event.client = i → event = .loaded i value)
    (hd : ¬Disturbed i events) (hi : s.clients i = .done result)
  | reading {base : V} {last : Option V} (hg : guard base = none)
    (hl : ∀ event ∈ events, event.client = i → event = .loaded i base)
    (hm : .loaded i base ∈ events) (hd : ¬Disturbed i events)
    (hc : ¬Overtaken i events → s.cell = base) (hp : Overtaken i events → base ∈ s.past)
    (hlast : last = none ∨ last = some base) (hi : Grounded transaction refusal last (s.clients i))
  | writing {base : V} {last : Option V} (hg : guard base = none) (hb : BasedOn i base events)
    (hd : ¬Disturbed i events) (hc : ¬Overtaken i events → last = none ∨ last = some s.cell)
    (hi : Grounded transaction refusal last (s.clients i))
  | refused {result : R} (hr : refusal result)
    (hn : ∀ event ∈ events, event.client = i → event.commits = false)
    (hi : s.clients i = .done result)

theorem Step.other_client {s s' : State ι V R} {event : Event ι V} (h : Step cas s event s') {i : ι}
    (hi : event.client ≠ i) : s'.clients i = s.clients i := by
  cases h with
  | load => exact Function.update_of_ne (Ne.symm hi) _ _
  | commit => exact Function.update_of_ne (Ne.symm hi) _ _
  | refuse => exact Function.update_of_ne (Ne.symm hi) _ _

/-- An access that is no commit leaves the cell and its past alone. -/
theorem Step.unchanged {s s' : State ι V R} {event : Event ι V} (h : Step cas s event s')
    (hc : event.commits = false) : s'.cell = s.cell ∧ s'.past = s.past := by
  cases h with
  | load => exact ⟨rfl, rfl⟩
  | commit => cases hc
  | refuse => exact ⟨rfl, rfl⟩

theorem Step.pushed {s s' : State ι V R} {event : Event ι V} (h : Step cas s event s')
    (hc : event.commits = true) : s'.past = s.cell :: s.past := by
  cases h with
  | load => cases hc
  | commit => rfl
  | refuse => cases hc

/-- What a step of `i` does is what its program does next. -/
theorem Step.own {s s' : State ι V R} {event : Event ι V} (h : Step cas s event s') {i : ι}
    (he : event.client = i) :
    (∃ next, s.clients i = .load next ∧ event = .loaded i s.cell ∧
      s' = { s with clients := Function.update s.clients i (next s.cell) }) ∨
    (∃ value next, s.clients i = .put value next ∧ cas.version value = cas.version s.cell ∧
      event = .committed i s.cell (cas.stored value) ∧
      s' = {
        cell := cas.stored value
        past := s.cell :: s.past
        clients := Function.update s.clients i (next true) }) ∨
    (∃ value next, s.clients i = .put value next ∧ cas.version value ≠ cas.version s.cell ∧
      event = .refused i ∧
      s' = { s with clients := Function.update s.clients i (next false) }) := by
  cases h with
  | load h =>
    cases he
    exact Or.inl ⟨_, h, rfl, rfl⟩
  | commit h hv =>
    cases he
    exact Or.inr (Or.inl ⟨_, _, h, hv, rfl, rfl⟩)
  | refuse h hv =>
    cases he
    exact Or.inr (Or.inr ⟨_, _, h, hv, rfl, rfl⟩)

theorem Step.not_done {s s' : State ι V R} {event : Event ι V} (h : Step cas s event s') {i : ι}
    (he : event.client = i) {result : R} : s.clients i ≠ .done result := by
  intro hi
  rcases h.own he with ⟨_, h, _⟩ | ⟨_, _, h, _⟩ | ⟨_, _, h, _⟩
  · cases hi.symm.trans h
  · cases hi.symm.trans h
  · cases hi.symm.trans h

variable {guard : V → Option R} {prog : Prog V R} {i : ι} {events : List (Event ι V)}
  {s s' : State ι V R} {event : Event ι V}

omit [DecidableEq ι] in
theorem own_of_snoc {P : Event ι V → Prop} (h : ∀ own ∈ events, own.client = i → P own)
    (he : event.client = i → P event) : ∀ own ∈ events ++ [event], own.client = i → P own := by
  intro own hm
  rcases List.mem_append.mp hm with hm | hm
  · exact h own hm
  · rw [List.mem_singleton.mp hm]
    exact he

/-- What others do leaves a client where it is, but it may be overtaken. -/
theorem Progress.step_other (h : Progress transaction refusal guard prog i events s)
    (hs : Step cas s event s') (hi : event.client ≠ i) :
    Progress transaction refusal guard prog i (events ++ [event]) s' := by
  have hsame := hs.other_client hi
  have hquiet : ¬Disturbed i events → ¬Disturbed i (events ++ [event]) := fun hd h =>
    h.of_snoc.elim hd fun h => hi h.1
  cases h with
  | waiting hn hclient =>
    refine .waiting (fun own hm => ?_) (hsame.trans hclient)
    rcases List.mem_append.mp hm with hm | hm
    · exact hn own hm
    · exact List.mem_singleton.mp hm ▸ hi
  | rejected hg hl hd hclient =>
    exact .rejected hg (own_of_snoc hl fun h => absurd h hi) (hquiet hd) (hsame.trans hclient)
  | reading hg hl hm hd hc hp hlast hclient =>
    refine .reading hg (own_of_snoc hl fun h => absurd h hi) (List.mem_append_left _ hm)
      (hquiet hd) (fun ho => ?_) (fun ho => ?_) hlast (hsame.symm ▸ hclient)
    · have hbefore : ¬Overtaken i events := fun h => ho (overtaken_snoc.mpr ⟨hi, Or.inl h⟩)
      cases hcommit : event.commits with
      | false => rw [(hs.unchanged hcommit).1, hc hbefore]
      | true => exact absurd (overtaken_snoc.mpr ⟨hi, Or.inr ⟨hcommit, _, hm, rfl⟩⟩) ho
    · cases hcommit : event.commits with
      | false =>
        rw [(hs.unchanged hcommit).2]
        refine hp ((overtaken_snoc.mp ho).2.resolve_right fun h => ?_)
        rw [hcommit] at h
        cases h.1
      | true =>
        rw [hs.pushed hcommit]
        by_cases hover : Overtaken i events
        · exact List.mem_cons_of_mem _ (hp hover)
        · rw [hc hover]
          exact List.mem_cons_self
  | writing hg hb hd hc hclient =>
    refine .writing hg (hb.snoc event) (hquiet hd) (fun ho => ?_) (hsame.symm ▸ hclient)
    have hbefore : ¬Overtaken i events := fun h => ho (overtaken_snoc.mpr ⟨hi, Or.inl h⟩)
    cases hcommit : event.commits with
    | false =>
      rw [(hs.unchanged hcommit).1]
      exact hc hbefore
    | true =>
      obtain ⟨own, hm, hown, _⟩ := hb.commit_mem
      exact absurd (overtaken_snoc.mpr ⟨hi, Or.inr ⟨hcommit, own, hm, hown⟩⟩) ho
  | refused hr hn hclient =>
    exact .refused hr (own_of_snoc hn fun h => absurd h hi) (hsame.trans hclient)

/-- The first load of a client meets its guard. -/
theorem Progress.first_load (hprog : Grounded transaction refusal none prog)
    (hn : ∀ event ∈ events, event.client ≠ i) (hi : s.clients i = prog.guarded guard)
    (hs : Step cas s event s') (he : event.client = i) :
    Progress transaction refusal guard prog i (events ++ [event]) s' := by
  obtain ⟨next, h, rfl, rfl⟩ | ⟨_, _, h, _⟩ | ⟨_, _, h, _⟩ := hs.own he
  case inr.inl => cases hi.symm.trans h
  case inr.inr => cases hi.symm.trans h
  cases hi.symm.trans h
  have hquiet : ¬Disturbed i (events ++ [.loaded i s.cell]) := by
    intro h
    rcases h.of_snoc with h | ⟨_, before, own, since, rfl, hown, _⟩
    · obtain ⟨own, hm, hown⟩ := h.exists_own
      exact hn own hm hown
    · exact hn own (by simp) hown
  have hall : ∀ own ∈ events ++ [.loaded i s.cell], own.client = i → own = .loaded i s.cell :=
    own_of_snoc (fun own hm h => absurd h (hn own hm)) fun _ => rfl
  cases hg : guard s.cell with
  | some result => exact .rejected hg hall hquiet (by simp [Prog.unless, hg])
  | none =>
    exact .reading hg hall (by simp) hquiet (fun _ => rfl) (fun h => absurd rfl (overtaken_snoc.mp h).1)
      (Or.inl rfl) (by simpa [Prog.unless, hg] using hprog)

/-- The next access of a client that has only loaded so far. -/
theorem Progress.step_reading
    (hversion : ∀ base value, transaction base value → cas.version value = cas.version base)
    (hchain : Chained cas transaction (s.cell :: s.past)) {base : V} {last : Option V}
    (hg : guard base = none) (hl : ∀ event ∈ events, event.client = i → event = .loaded i base)
    (hm : .loaded i base ∈ events) (hd : ¬Disturbed i events)
    (hc : ¬Overtaken i events → s.cell = base) (hp : Overtaken i events → base ∈ s.past)
    (hlast : last = none ∨ last = some base) (hi : Grounded transaction refusal last (s.clients i))
    (hs : Step cas s event s') (he : event.client = i)
    (hput : Overtaken i events → event.puts = true) :
    Progress transaction refusal guard prog i (events ++ [event]) s' := by
  have hfresh : ¬Overtaken i (events ++ [event]) := fun h => (overtaken_snoc.mp h).1 he
  have hquiet : ¬Overtaken i events → ¬Disturbed i (events ++ [event]) := fun ho h =>
    h.of_snoc.elim hd fun h => ho h.2
  obtain ⟨next, h, rfl, rfl⟩ | ⟨value, next, h, hv, rfl, rfl⟩ | ⟨value, next, h, hv, rfl, rfl⟩ :=
    hs.own he
  case inl =>
    -- only a put may come after the commit of another client
    have hsame : ¬Overtaken i events := fun ho => absurd (hput ho) (by simp [Event.puts])
    have hcell := hc hsame
    rw [h] at hi
    refine .reading hg (own_of_snoc hl fun _ => by rw [hcell]) (List.mem_append_left _ hm)
      (hquiet hsame) (fun _ => hcell) (fun ho => absurd ho hfresh) (Or.inr rfl) ?_
    simpa [hcell, Grounded] using hi base
  all_goals
    rw [h] at hi
    obtain rfl | rfl := hlast
    · exact absurd hi (by simp [Grounded])
    obtain ⟨ht, hnext, result, hdone, hr⟩ := hi
  case inr.inl =>
    have hsame : ¬Overtaken i events := fun ho => by
      have hlt := hchain.version_lt hversion base (hp ho)
      rw [← hv, hversion base value ht] at hlt
      exact Nat.lt_irrefl _ hlt
    rw [hc hsame] at hfresh hquiet ⊢
    exact .writing hg ⟨events, cas.stored value, [], rfl, hm, hl⟩ (hquiet hsame) (fun _ => Or.inl rfl)
      (by simpa using hnext)
  case inr.inr =>
    refine .refused hr (own_of_snoc (fun own hm h => ?_) fun _ => rfl) (by simpa using hdone)
    rw [hl own hm h]
    rfl

/-- Once it has committed on its base, a client that is not overtaken goes on unhindered. -/
theorem Progress.step_writing
    (hversion : ∀ base value, transaction base value → cas.version value = cas.version base)
    {base : V} {last : Option V} (hg : guard base = none) (hb : BasedOn i base events)
    (hd : ¬Disturbed i events) (hlast : last = none ∨ last = some s.cell)
    (hi : Grounded transaction refusal last (s.clients i)) (hs : Step cas s event s')
    (he : event.client = i) (ho : ¬Overtaken i events) :
    Progress transaction refusal guard prog i (events ++ [event]) s' := by
  have hquiet : ¬Disturbed i (events ++ [event]) := fun h => h.of_snoc.elim hd fun h => ho h.2
  obtain ⟨next, h, rfl, rfl⟩ | ⟨value, next, h, hv, rfl, rfl⟩ | ⟨value, next, h, hv, rfl, rfl⟩ :=
    hs.own he
  case inl =>
    rw [h] at hi
    exact .writing hg (hb.snoc _) hquiet (fun _ => Or.inr rfl) (by simpa [Grounded] using hi s.cell)
  all_goals
    rw [h] at hi
    obtain rfl | rfl := hlast
    · exact absurd hi (by simp [Grounded])
    obtain ⟨ht, hnext, _⟩ := hi
  case inr.inl =>
    exact .writing hg (hb.snoc _) hquiet (fun _ => Or.inl rfl) (by simpa using hnext)
  case inr.inr => exact absurd (hversion _ _ ht) hv

theorem Progress.step
    (hversion : ∀ base value, transaction base value → cas.version value = cas.version base)
    (hchain : Chained cas transaction (s.cell :: s.past)) (hprog : Grounded transaction refusal none prog)
    (h : Progress transaction refusal guard prog i events s) (hs : Step cas s event s')
    (hput : OvertakenAtFirstPut i (events ++ [event])) :
    Progress transaction refusal guard prog i (events ++ [event]) s' := by
  by_cases he : event.client = i
  · cases h with
    | waiting hn hi => exact .first_load hprog hn hi hs he
    | reading hg hl hm hd hc hp hlast hi =>
      exact .step_reading hversion hchain hg hl hm hd hc hp hlast hi hs he
        fun ho => (hput.last he ho).1
    | writing hg hb hd hc hi =>
      have ho : ¬Overtaken i events := fun ho => by
        obtain ⟨own, hm, hown, hputs⟩ := hb.commit_mem
        rw [(hput.last he ho).2 own hm hown] at hputs
        cases hputs
      exact .step_writing hversion hg hb hd (hc ho) hi hs he ho
    | rejected _ _ _ hi => exact absurd hi (hs.not_done he)
    | refused _ _ hi => exact absurd hi (hs.not_done he)
  · exact h.step_other hs he

omit [DecidableEq ι] in
theorem BasedOn.first_load {base value : V} {before after : List (Event ι V)}
    (h : BasedOn i base (before ++ .loaded i value :: after))
    (hn : ∀ event ∈ before, event.client ≠ i) : value = base := by
  obtain ⟨first, value', rest, he, _, hl⟩ := h
  have hloaded : .loaded i value ∈ first := by
    rcases List.append_eq_append_iff.mp he with ⟨mid, rfl, hmid⟩ | ⟨mid, rfl, hmid⟩
    · cases mid with
      | nil => cases hmid
      | cons head mid =>
        obtain ⟨rfl, _⟩ := List.cons.inj hmid
        simp
    · cases mid with
      | nil => cases hmid
      | cons head mid =>
        obtain ⟨rfl, _⟩ := List.cons.inj hmid
        exact absurd rfl (hn (.committed i base value') (by simp))
  have heq := hl _ hloaded rfl
  cases heq
  rfl

omit [DecidableEq ι] in
theorem BasedOn.loaded {base : V} (h : BasedOn i base events) : .loaded i base ∈ events := by
  obtain ⟨before, value, after, rfl, hm, _⟩ := h
  exact List.mem_append_left _ hm

end OptimisticRuns
