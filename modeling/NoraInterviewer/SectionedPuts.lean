import Mathlib.Logic.Function.Basic

/-! Clients that read a versioned value, change their copy and put it back, where a put runs in
sections that other clients may come between. -/

namespace SectionedPuts

/-- A put: sections of code between which it may be suspended. `quiet` ones do not touch the
store; one that does either raises or goes through as a whole. -/
inductive Put (S V E : Type) where
  | returns
  | quiet (run : V → V) (next : V → Put S V E)
  | store (run : S → V → Except E (S × V)) (next : V → Put S V E)

/-- A put that nothing comes between: the store, the writer's copy and what it raised. -/
def Put.alone {S V E : Type} (s : S) : V → Put S V E → S × V × Option E
  | value, .returns => (s, value, none)
  | value, .quiet run next => (next (run value)).alone s (run value)
  | value, .store run next =>
    match run s value with
    | .error e => (s, value, some e)
    | .ok (s', value') => (next value').alone s' value'

/-- A store of one value, as its clients see it. `mine` are the values a client may put, and
`keeps` is what the store promises of its own state. -/
structure Access (S V : Type) where
  read : S → Option V
  version : V → Nat
  mine : V → Prop
  keeps : S → Prop

/-- After the commit: the rest of the put leaves the writer's copy on the version it wrote. -/
def Put.Finishes {S V E : Type} (access : Access S V) (version : Nat) : V → Put S V E → Prop
  | value, .returns => access.version value = version ∧ access.mine value
  | value, .quiet run next => (next (run value)).Finishes access version (run value)
  | _, .store _ _ => False

/-- Before the commit: the put leaves the writer's copy alone, and if it commits it replaces
the version that the copy is based on by the next one. -/
def Put.Lawful {S V E : Type} (access : Access S V) : V → Put S V E → Prop
  | _, .returns => False
  | value, .quiet run next => run value = value ∧ (next value).Lawful access value
  | value, .store run next => ∀ s s' old value', access.keeps s → access.read s = some old →
      run s value = .ok (s', value') →
      access.version old = access.version value ∧ access.keeps s' ∧
        (∃ new, access.read s' = some new ∧ access.version new = access.version value + 1) ∧
        (next value').Finishes access (access.version value + 1) value'

/-- A client holds a copy that is based on a value it read or wrote; `called` is the copy with
which it called the put that it is in. -/
inductive Client (S V E : Type) where
  | idle
  | holding (base value : V)
  | putting (base called value : V) (rest : Put S V E)
  | finishing (written value : V) (rest : Put S V E)

structure Commit (V : Type) where
  base : V
  written : V

/-- The store, the puts that have gone through (latest first), and the clients. -/
structure System (ι S V E : Type) where
  store : S
  commits : List (Commit V)
  clients : ι → Client S V E

/-- Clients that have not read anything yet. -/
def System.start {ι S V E : Type} (store : S) : System ι S V E where
  store := store
  commits := []
  clients _ := .idle

inductive Label (ι : Type) where
  | ran (client : ι)
  | committed (client : ι)
  | raised (client : ι)

section

variable {ι S V E : Type} [DecidableEq ι] (access : Access S V) (puts : Put S V E → Prop)

/-- One section of one client. A put may raise at any section before its commit. -/
inductive Step (s : System ι S V E) : Label ι → System ι S V E → Prop where
  | get {i : ι} {value : V} (hi : s.clients i = .idle ∨ ∃ base copy, s.clients i = .holding base copy)
    (hr : access.read s.store = some value) :
    Step s (.ran i) { s with clients := Function.update s.clients i (.holding value value) }
  | change {i : ι} {base value value' : V} (hi : s.clients i = .holding base value)
    (hv : access.version value' = access.version value) (hm : access.mine value') :
    Step s (.ran i) { s with clients := Function.update s.clients i (.holding base value') }
  | call {i : ι} {base value : V} {put : Put S V E} (hi : s.clients i = .holding base value)
    (hp : puts put) :
    Step s (.ran i) { s with clients := Function.update s.clients i (.putting base value value put) }
  | quiet {i : ι} {base called value : V} {run : V → V} {next : V → Put S V E}
    (hi : s.clients i = .putting base called value (.quiet run next)) :
    Step s (.ran i) { s with
      clients := Function.update s.clients i (.putting base called (run value) (next (run value))) }
  | commit {i : ι} {base called value value' written : V} {store' : S}
    {run : S → V → Except E (S × V)} {next : V → Put S V E}
    (hi : s.clients i = .putting base called value (.store run next))
    (hrun : run s.store value = .ok (store', value')) (hr : access.read store' = some written) :
    Step s (.committed i) {
      store := store'
      commits := ⟨base, written⟩ :: s.commits
      clients := Function.update s.clients i (.finishing written value' (next value')) }
  | refuse {i : ι} {base called value : V} {e : E} {run : S → V → Except E (S × V)}
    {next : V → Put S V E} (hi : s.clients i = .putting base called value (.store run next))
    (hrun : run s.store value = .error e) :
    Step s (.raised i) { s with clients := Function.update s.clients i (.holding base value) }
  | fail {i : ι} {base called value : V} {rest : Put S V E}
    (hi : s.clients i = .putting base called value rest) :
    Step s (.raised i) { s with clients := Function.update s.clients i (.holding base value) }
  | finish {i : ι} {written value : V} {run : V → V} {next : V → Put S V E}
    (hi : s.clients i = .finishing written value (.quiet run next)) :
    Step s (.ran i) { s with
      clients := Function.update s.clients i (.finishing written (run value) (next (run value))) }
  | return_ {i : ι} {written value : V} (hi : s.clients i = .finishing written value .returns) :
    Step s (.ran i) { s with clients := Function.update s.clients i (.holding written value) }

inductive Reachable (s : System ι S V E) : System ι S V E → Prop where
  | refl : Reachable s s
  | step {mid final : System ι S V E} {label : Label ι} (h : Reachable s mid)
    (hs : Step access puts mid label final) : Reachable s final

end

variable {ι S V E : Type} [DecidableEq ι] {access : Access S V} {puts : Put S V E → Prop}

/-- The commits lead from `first` to `current`: each one is based on the very value that the
one before it wrote, and writes the next version. -/
def Serial (access : Access S V) (first : V) : List (Commit V) → V → Prop
  | [], current => current = first
  | commit :: earlier, current => current = commit.written ∧
      access.version commit.written = access.version commit.base + 1 ∧
      Serial access first earlier commit.base

def values (first : V) (commits : List (Commit V)) : List V :=
  commits.map Commit.written ++ [first]

/-- The versions grow along the commits, so a version names one value. -/
theorem Serial.eq_current {first current : V} {commits : List (Commit V)}
    (h : Serial access first commits current) :
    current ∈ values first commits ∧ ∀ value ∈ values first commits,
      access.version value ≤ access.version current ∧
        (access.version value = access.version current → value = current) := by
  induction commits generalizing current with
  | nil => simp_all [Serial, values]
  | cons commit earlier ih =>
    obtain ⟨rfl, hv, hearlier⟩ := h
    obtain ⟨_, hall⟩ := ih hearlier
    refine ⟨by simp [values], fun value hm => ?_⟩
    rcases List.mem_cons.mp hm with rfl | hm
    · exact ⟨Nat.le_refl _, fun _ => rfl⟩
    · have hle := (hall value hm).1
      exact ⟨by omega, fun he => by omega⟩

/-- What holds of a client between two sections. -/
inductive Client.Good (access : Access S V) (first : V) (commits : List (Commit V)) :
    Client S V E → Prop where
  | idle : Good access first commits .idle
  | holding {base value : V} (hb : base ∈ values first commits)
    (hv : access.version value = access.version base) (hm : access.mine value) :
    Good access first commits (.holding base value)
  | putting {base called : V} {rest : Put S V E} (hb : base ∈ values first commits)
    (hv : access.version called = access.version base) (hm : access.mine called)
    (hl : rest.Lawful access called) : Good access first commits (.putting base called called rest)
  | finishing {written value : V} {rest : Put S V E} (hb : written ∈ values first commits)
    (hf : rest.Finishes access (access.version written) value) :
    Good access first commits (.finishing written value rest)

theorem Client.Good.grow {first : V} {commits : List (Commit V)} {client : Client S V E}
    (h : client.Good access first commits) (commit : Commit V) :
    client.Good access first (commit :: commits) := by
  cases h with
  | idle => exact .idle
  | holding hb hv hm => exact .holding (List.mem_cons_of_mem _ hb) hv hm
  | putting hb hv hm hl => exact .putting (List.mem_cons_of_mem _ hb) hv hm hl
  | finishing hb hf => exact .finishing (List.mem_cons_of_mem _ hb) hf

structure Good (access : Access S V) (first : V) (s : System ι S V E) : Prop where
  keeps : access.keeps s.store
  serial : ∃ current, access.read s.store = some current ∧ Serial access first s.commits current
  clients : ∀ i, (s.clients i).Good access first s.commits

omit [DecidableEq ι] in
theorem good_start {first : V} {store : S} (hk : access.keeps store)
    (hr : access.read store = some first) :
    Good access first (System.start store : System ι S V E) :=
  ⟨hk, ⟨first, hr, rfl⟩, fun _ => .idle⟩

omit [DecidableEq ι] in
theorem Good.client {first : V} {s : System ι S V E} (h : Good access first s) {i : ι}
    {client : Client S V E} (hi : s.clients i = client) : client.Good access first s.commits :=
  hi ▸ h.clients i

/-- A step of one client that does not commit. -/
theorem Good.update {first : V} {s : System ι S V E} (h : Good access first s) {i : ι}
    {client : Client S V E} (hc : client.Good access first s.commits) :
    Good access first { s with clients := Function.update s.clients i client } := by
  refine ⟨h.keeps, h.serial, fun j => ?_⟩
  by_cases hj : j = i
  · subst hj
    simpa using hc
  · simpa [Function.update_of_ne hj] using h.clients j

/-- A commit replaces the very value that its client's copy is based on. -/
theorem Good.commit {first : V} {s : System ι S V E} (h : Good access first s) {i : ι}
    {base called value value' written : V} {store' : S} {run : S → V → Except E (S × V)}
    {next : V → Put S V E} (hi : s.clients i = .putting base called value (.store run next))
    (hrun : run s.store value = .ok (store', value')) (hr : access.read store' = some written) :
    Good access first {
      store := store'
      commits := ⟨base, written⟩ :: s.commits
      clients := Function.update s.clients i (.finishing written value' (next value')) } := by
  obtain ⟨current, hcurrent, hserial⟩ := h.serial
  cases h.client hi with
  | putting hb hv hm hl =>
    obtain ⟨hsame, hkeeps, ⟨new, hnew, hversion⟩, hfinishes⟩ := hl _ _ _ _ h.keeps hcurrent hrun
    cases hr.symm.trans hnew
    have hbase : base = current :=
      (hserial.eq_current.2 base hb).2 (hv.symm.trans hsame.symm)
    subst hbase
    refine ⟨hkeeps, ⟨written, hr, rfl, hversion.trans (by rw [hv]), hserial⟩, fun j => ?_⟩
    by_cases hj : j = i
    · subst hj
      simpa using Client.Good.finishing (by simp [values]) (hversion ▸ hfinishes)
    · simpa [Function.update_of_ne hj] using (h.clients j).grow _

theorem Good.step {first : V} {s s' : System ι S V E} {label : Label ι}
    (hputs : ∀ put, puts put → ∀ value, access.mine value → put.Lawful access value)
    (hread : ∀ s value, access.keeps s → access.read s = some value → access.mine value)
    (h : Good access first s) (hs : Step access puts s label s') : Good access first s' := by
  cases hs with
  | get _ hr =>
    obtain ⟨current, hcurrent, hserial⟩ := h.serial
    cases hr.symm.trans hcurrent
    exact h.update (.holding hserial.eq_current.1 rfl (hread _ _ h.keeps hr))
  | change hi hv hm =>
    cases h.client hi with
    | holding hb hversion _ => exact h.update (.holding hb (hv.trans hversion) hm)
  | call hi hp =>
    cases h.client hi with
    | holding hb hv hm => exact h.update (.putting hb hv hm (hputs _ hp _ hm))
  | quiet hi =>
    cases h.client hi with
    | putting hb hv hm hl =>
      obtain ⟨hsame, hnext⟩ := hl
      rw [hsame]
      exact h.update (.putting hb hv hm hnext)
  | commit hi hrun hr => exact h.commit hi hrun hr
  | refuse hi _ =>
    cases h.client hi with
    | putting hb hv hm _ => exact h.update (.holding hb hv hm)
  | fail hi =>
    cases h.client hi with
    | putting hb hv hm _ => exact h.update (.holding hb hv hm)
  | finish hi =>
    cases h.client hi with
    | finishing hb hf => exact h.update (.finishing hb hf)
  | return_ hi =>
    cases h.client hi with
    | finishing hb hf => exact h.update (.holding hb hf.1 hf.2)

/-- No interleaving of clients loses an update. -/
theorem Reachable.good {first : V} {s s' : System ι S V E}
    (hputs : ∀ put, puts put → ∀ value, access.mine value → put.Lawful access value)
    (hread : ∀ s value, access.keeps s → access.read s = some value → access.mine value)
    (h : Good access first s) (hr : Reachable access puts s s') : Good access first s' := by
  induction hr with
  | refl => exact h
  | step _ hs ih => exact ih.step hputs hread hs

/-- A put that raises leaves the store as it was, and its writer with the copy that it called
the put with. -/
theorem Good.raised {first : V} {s s' : System ι S V E} {i : ι} (h : Good access first s)
    (hs : Step access puts s (.raised i) s') :
    s'.store = s.store ∧ s'.commits = s.commits ∧ ∃ base called rest,
      s.clients i = .putting base called called rest ∧ s'.clients i = .holding base called := by
  cases hs with
  | refuse hi _ =>
    cases h.client hi with
    | putting => exact ⟨rfl, rfl, _, _, _, hi, by simp⟩
  | fail hi =>
    cases h.client hi with
    | putting => exact ⟨rfl, rfl, _, _, _, hi, by simp⟩

end SectionedPuts
