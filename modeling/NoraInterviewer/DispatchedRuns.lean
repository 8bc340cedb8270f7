import NoraInterviewer.OptimisticRuns
import Mathlib.Data.List.Nodup

/-! Clients of a versioned cell that send messages: a commit owes the messages of the entries that
it adds to the log of the cell, and its client sends them one at a time. -/

namespace DispatchedRuns

open OptimisticRuns (Versioned)

inductive Prog (V M O R : Type) where
  | done (result : R)
  | load (next : V → Prog V M O R)
  | put (value : V) (next : Bool → Prog V M O R)
  | send (message : M) (next : O → Prog V M O R)

/-- The cell, what has been sent, earliest first, and what each client has yet to do. -/
structure State (ι V M O R : Type) where
  cell : V
  sent : List M
  clients : ι → Prog V M O R

variable {ι V M O R E : Type} [DecidableEq ι] (cas : Versioned V)

/-- One access of one client, or one message of it, which may turn out in any way. -/
inductive Step (s : State ι V M O R) : State ι V M O R → Prop where
  | load {i : ι} {next : V → Prog V M O R} (h : s.clients i = .load next) :
    Step s { s with clients := Function.update s.clients i (next s.cell) }
  | commit {i : ι} {value : V} {next : Bool → Prog V M O R} (h : s.clients i = .put value next)
    (hv : cas.version value = cas.version s.cell) :
    Step s { s with
      cell := cas.stored value
      clients := Function.update s.clients i (next true) }
  | refuse {i : ι} {value : V} {next : Bool → Prog V M O R} (h : s.clients i = .put value next)
    (hv : cas.version value ≠ cas.version s.cell) :
    Step s { s with clients := Function.update s.clients i (next false) }
  | send {i : ι} {message : M} {next : O → Prog V M O R} (h : s.clients i = .send message next)
    (outcome : O) :
    Step s { s with
      sent := s.sent ++ [message]
      clients := Function.update s.clients i (next outcome) }

/-- Any interleaving of the clients. -/
inductive Run (s : State ι V M O R) : State ι V M O R → Prop where
  | nil : Run s s
  | snoc {mid final : State ι V M O R} (h : Run s mid) (hs : Step cas mid final) : Run s final

/-- What client `i` does next, where its messages turn out as `outcome`. -/
def State.act (cas : Versioned V) (outcome : O) (s : State ι V M O R) (i : ι) :
    Option (State ι V M O R) :=
  match s.clients i with
  | .done _ => none
  | .load next => some { s with clients := Function.update s.clients i (next s.cell) }
  | .put value next =>
    if cas.version value = cas.version s.cell then
      some { s with
        cell := cas.stored value
        clients := Function.update s.clients i (next true) }
    else some { s with clients := Function.update s.clients i (next false) }
  | .send message next =>
    some { s with
      sent := s.sent ++ [message]
      clients := Function.update s.clients i (next outcome) }

theorem State.act_step {cas : Versioned V} {outcome : O} {s s' : State ι V M O R} {i : ι}
    (h : s.act cas outcome i = some s') : Step cas s s' := by
  unfold State.act at h
  split at h
  next => cases h
  next next hi =>
    cases h
    exact .load hi
  next value next hi =>
    split at h
    next hv =>
      cases h
      exact .commit hi hv
    next hv =>
      cases h
      exact .refuse hi hv
  next message next hi =>
    cases h
    exact .send hi outcome

/-- The clients of the list act one after the other, in its order. -/
def State.schedule (cas : Versioned V) (outcome : O) (s : State ι V M O R) :
    List ι → Option (State ι V M O R)
  | [] => some s
  | i :: rest => (s.act cas outcome i).bind fun s' => State.schedule cas outcome s' rest

theorem Run.schedule {cas : Versioned V} {outcome : O} {s mid final : State ι V M O R}
    {order : List ι} (h : Run cas s mid) (hs : mid.schedule cas outcome order = some final) :
    Run cas s final := by
  induction order generalizing mid with
  | nil =>
    cases hs
    exact h
  | cons i rest ih =>
    obtain ⟨s', hact, hrest⟩ := Option.bind_eq_some_iff.mp hs
    exact ih (h.snoc (State.act_step hact)) hrest

/-- How a log is read from the cell, and which messages an entry asks for. -/
structure Notices (cas : Versioned V) (E M : Type) where
  valid : V → Prop
  log : V → List E
  messages : E → List M
  valid_stored : ∀ value, valid value → valid (cas.stored value)
  log_stored : ∀ value, log (cas.stored value) = log value
  log_nodup : ∀ value, valid value → (log value).Nodup
  nodup : ∀ entry, (messages entry).Nodup
  apart : ∀ {entry other : E} {message : M}, message ∈ messages entry → message ∈ messages other →
    entry = other

variable {cas} (notices : Notices cas E M)

/-- The version and the log that a client goes by. -/
def Notices.mark (value : V) : ℕ × List E := (cas.version value, notices.log value)

/-- A value is no earlier than the mark, and it has the same log when it has the same version. -/
def Notices.Fits (held : Option (ℕ × List E)) (value : V) : Prop :=
  ∀ mark, held = some mark →
    mark.1 ≤ cas.version value ∧ (mark.1 = cas.version value → mark.2 = notices.log value)

def Notices.due (entries : List E) : List M := entries.flatMap notices.messages

/-- The program sends what it owes and nothing else, before its next access: it saves only over
what it goes by, and owes the messages of what it adds. It may give up what it owes only with a
result that `strays`. -/
def Notices.Announces (strays : R → Prop) : Option (ℕ × List E) → List M → Prog V M O R → Prop
  | _, due, .done result => due = [] ∨ strays result
  | held, due, .load next => due = [] ∧ ∀ value, notices.valid value → notices.Fits held value →
    Announces strays (some (notices.mark value)) [] (next value)
  | held, due, .put value next => due = [] ∧ notices.valid value ∧
    (∃ mark, held = some mark ∧ cas.version value ≤ mark.1 ∧ (cas.version value = mark.1 →
      ∃ more, notices.log value = mark.2 ++ more ∧
        Announces strays (some (notices.mark (cas.stored value))) (notices.due more) (next true))) ∧
    Announces strays held [] (next false)
  | held, due, .send message next => ∃ rest, due = message :: rest ∧
    ∀ outcome, Announces strays held rest (next outcome)

variable {notices}

theorem Notices.fits_none (value : V) : notices.Fits none value := by
  intro mark hmark
  cases hmark

theorem Notices.fits_self (value : V) : notices.Fits (some (notices.mark value)) value := by
  intro mark hmark
  cases hmark
  exact ⟨le_refl _, fun _ => rfl⟩

/-- A mark on the cell is outdated by a commit. -/
theorem Notices.Fits.committed {held : Option (ℕ × List E)} {cell value : V}
    (h : notices.Fits held cell) (hv : cas.version value = cas.version cell) :
    notices.Fits held (cas.stored value) := by
  intro mark hmark
  have hle := (h mark hmark).1
  have hnext := cas.version_stored value
  exact ⟨by omega, fun hsame => by omega⟩

/-- What has been sent, and what the clients owe, is what the log has had since `start`. -/
structure Accounted (notices : Notices cas E M) (strays : R → Prop) (start : List E)
    (s : State ι V M O R) (held : ι → Option (ℕ × List E)) (due : ι → List M) (later : List E) :
    Prop where
  announces : ∀ i, notices.Announces strays (held i) (due i) (s.clients i)
  fits : ∀ i, notices.Fits (held i) s.cell
  valid : notices.valid s.cell
  log : notices.log s.cell = start ++ later
  sent_nodup : s.sent.Nodup
  sent_due : ∀ message ∈ s.sent, message ∈ notices.due later
  due_nodup : ∀ i, (due i).Nodup
  due_unsent : ∀ i, ∀ message ∈ due i, message ∉ s.sent
  due_apart : ∀ i j, ∀ message ∈ due i, message ∈ due j → i = j
  due_due : ∀ i, ∀ message ∈ due i, message ∈ notices.due later
  complete : ∀ message ∈ notices.due later, message ∈ s.sent ∨ ∃ i, message ∈ due i

theorem Notices.due_append (entries more : List E) :
    notices.due (entries ++ more) = notices.due entries ++ notices.due more :=
  List.flatMap_append

theorem Notices.mem_due {message : M} {entries : List E} :
    message ∈ notices.due entries ↔ ∃ entry ∈ entries, message ∈ notices.messages entry :=
  List.mem_flatMap

/-- The messages of new entries are new, and no two of them are the same. -/
theorem Notices.due_nodup {entries : List E} (h : entries.Nodup) : (notices.due entries).Nodup := by
  refine List.nodup_flatMap.mpr ⟨fun entry _ => notices.nodup entry, ?_⟩
  refine h.imp fun {entry other} hne => ?_
  intro message hentry hother
  exact hne (notices.apart hentry hother)

theorem Notices.due_disjoint {entries more : List E} (h : (entries ++ more).Nodup) {message : M}
    (he : message ∈ notices.due entries) (hm : message ∈ notices.due more) : False := by
  obtain ⟨entry, hentry, hin⟩ := notices.mem_due.mp he
  obtain ⟨other, hother, hin'⟩ := notices.mem_due.mp hm
  obtain rfl := notices.apart hin hin'
  exact (List.nodup_append'.mp h).2.2 hentry hother

section Steps

variable {strays : R → Prop} {start later : List E} {s s' : State ι V M O R}
  {held : ι → Option (ℕ × List E)} {due : ι → List M}

/-- A step that changes what one client does and goes by, but not what is owed. -/
theorem Accounted.goes_on (h : Accounted notices strays start s held due later) {i : ι}
    {mark : Option (ℕ × List E)} {prog : Prog V M O R} (hfits : notices.Fits mark s.cell)
    (hprog : notices.Announces strays mark (due i) prog) :
    Accounted notices strays start { s with clients := Function.update s.clients i prog }
      (Function.update held i mark) due later where
  announces j := by
    by_cases hj : j = i
    · subst hj
      simp only [Function.update_self]
      exact hprog
    · simp only [Function.update_of_ne hj]
      exact h.announces j
  fits j := by
    by_cases hj : j = i
    · subst hj
      rw [Function.update_self]
      exact hfits
    · rw [Function.update_of_ne hj]
      exact h.fits j
  valid := h.valid
  log := h.log
  sent_nodup := h.sent_nodup
  sent_due := h.sent_due
  due_nodup := h.due_nodup
  due_unsent := h.due_unsent
  due_apart := h.due_apart
  due_due := h.due_due
  complete := h.complete

/-- A commit owes the messages of what it adds, which nobody has owed before. -/
theorem Accounted.commits (h : Accounted notices strays start s held due later) {i : ι} {value : V}
    {next : Bool → Prog V M O R} (hi : s.clients i = .put value next)
    (hv : cas.version value = cas.version s.cell) :
    ∃ mark owed more, Accounted notices strays start
      { s with cell := cas.stored value, clients := Function.update s.clients i (next true) }
      (Function.update held i mark) (Function.update due i owed) (later ++ more) := by
  have hput := h.announces i
  rw [hi] at hput
  obtain ⟨hdue, hvalid, ⟨mark, hheld, hle, hnext⟩, _⟩ := hput
  obtain ⟨hearlier, hsame⟩ := h.fits i mark hheld
  have hversion : mark.1 = cas.version s.cell := by omega
  obtain ⟨more, hmore, hannounces⟩ := hnext (hv.trans hversion.symm)
  have hlog : notices.log (cas.stored value) = start ++ (later ++ more) := by
    rw [notices.log_stored, hmore, hsame hversion, h.log, List.append_assoc]
  have hstored : notices.valid (cas.stored value) := notices.valid_stored value hvalid
  have hnodup : (later ++ more).Nodup := by
    have hall := notices.log_nodup _ hstored
    rw [hlog] at hall
    exact (List.nodup_append'.mp hall).2.1
  have hnew : ∀ message ∈ notices.due more, message ∉ notices.due later :=
    fun message hin hold => Notices.due_disjoint hnodup hold hin
  have howed : ∀ j, ∀ message ∈ Function.update due i (notices.due more) j,
      j = i ∧ message ∈ notices.due more ∨ j ≠ i ∧ message ∈ due j := by
    intro j message hin
    by_cases hj : j = i
    · subst hj
      rw [Function.update_self] at hin
      exact .inl ⟨rfl, hin⟩
    · rw [Function.update_of_ne hj] at hin
      exact .inr ⟨hj, hin⟩
  refine ⟨some (notices.mark (cas.stored value)), notices.due more, more, ?_⟩
  constructor
  · intro j
    by_cases hj : j = i
    · subst hj
      simp only [Function.update_self]
      exact hannounces
    · simp only [Function.update_of_ne hj]
      exact h.announces j
  · intro j
    by_cases hj : j = i
    · subst hj
      rw [Function.update_self]
      exact Notices.fits_self _
    · rw [Function.update_of_ne hj]
      exact (h.fits j).committed hv
  · exact hstored
  · exact hlog
  · exact h.sent_nodup
  · intro message hin
    rw [notices.due_append]
    exact List.mem_append_left _ (h.sent_due message hin)
  · intro j
    by_cases hj : j = i
    · subst hj
      rw [Function.update_self]
      exact Notices.due_nodup (List.nodup_append'.mp hnodup).2.1
    · rw [Function.update_of_ne hj]
      exact h.due_nodup j
  · intro j message hin hsent
    rcases howed j message hin with ⟨_, hmine⟩ | ⟨_, hother⟩
    · exact hnew message hmine (h.sent_due message hsent)
    · exact h.due_unsent j message hother hsent
  · intro j k message hj hk
    rcases howed j message hj with ⟨rfl, hmine⟩ | ⟨_, hother⟩
    · rcases howed k message hk with ⟨rfl, _⟩ | ⟨_, hother⟩
      · rfl
      · exact absurd (h.due_due k message hother) (hnew message hmine)
    · rcases howed k message hk with ⟨rfl, hmine⟩ | ⟨_, hother'⟩
      · exact absurd (h.due_due j message hother) (hnew message hmine)
      · exact h.due_apart j k message hother hother'
  · intro j message hin
    rw [notices.due_append]
    rcases howed j message hin with ⟨_, hmine⟩ | ⟨_, hother⟩
    · exact List.mem_append_right _ hmine
    · exact List.mem_append_left _ (h.due_due j message hother)
  · intro message hin
    rw [notices.due_append] at hin
    rcases List.mem_append.mp hin with hold | hmine
    · rcases h.complete message hold with hsent | ⟨j, hj⟩
      · exact .inl hsent
      · have hne : j ≠ i := by
          rintro rfl
          rw [hdue] at hj
          cases hj
        exact .inr ⟨j, by rw [Function.update_of_ne hne]; exact hj⟩
    · exact .inr ⟨i, by rw [Function.update_self]; exact hmine⟩

/-- A message that is sent was owed, and is owed no more. -/
theorem Accounted.sends (h : Accounted notices strays start s held due later) {i : ι} {message : M}
    {next : O → Prog V M O R} (hi : s.clients i = .send message next) (outcome : O) :
    ∃ owed, Accounted notices strays start
      { s with
        sent := s.sent ++ [message], clients := Function.update s.clients i (next outcome) }
      held (Function.update due i owed) later := by
  have hsend := h.announces i
  rw [hi] at hsend
  obtain ⟨owed, hdue, hnext⟩ := hsend
  have hnodup := h.due_nodup i
  rw [hdue, List.nodup_cons] at hnodup
  have hfirst : message ∈ due i := by simp [hdue]
  have hkept : ∀ j, ∀ other ∈ Function.update due i owed j, other ∈ due j ∧ other ≠ message := by
    intro j other hin
    by_cases hj : j = i
    · subst hj
      rw [Function.update_self] at hin
      refine ⟨by rw [hdue]; exact List.mem_cons_of_mem _ hin, ?_⟩
      rintro rfl
      exact hnodup.1 hin
    · rw [Function.update_of_ne hj] at hin
      refine ⟨hin, ?_⟩
      rintro rfl
      exact hj (h.due_apart j i other hin hfirst)
  refine ⟨owed, ?_⟩
  constructor
  · intro j
    by_cases hj : j = i
    · subst hj
      simp only [Function.update_self]
      exact hnext outcome
    · simp only [Function.update_of_ne hj]
      exact h.announces j
  · exact h.fits
  · exact h.valid
  · exact h.log
  · refine List.nodup_append'.mpr ⟨h.sent_nodup, List.nodup_singleton _, ?_⟩
    exact List.disjoint_singleton.mpr (h.due_unsent i message hfirst)
  · intro other hin
    rcases List.mem_append.mp hin with hold | hlast
    · exact h.sent_due other hold
    · rw [List.mem_singleton.mp hlast]
      exact h.due_due i message hfirst
  · intro j
    by_cases hj : j = i
    · subst hj
      rw [Function.update_self]
      exact hnodup.2
    · rw [Function.update_of_ne hj]
      exact h.due_nodup j
  · intro j other hin hsent
    obtain ⟨howed, hne⟩ := hkept j other hin
    rcases List.mem_append.mp hsent with hold | hlast
    · exact h.due_unsent j other howed hold
    · exact hne (List.mem_singleton.mp hlast)
  · intro j k other hj hk
    exact h.due_apart j k other (hkept j other hj).1 (hkept k other hk).1
  · exact fun j other hin => h.due_due j other (hkept j other hin).1
  · intro other hin
    rcases h.complete other hin with hsent | ⟨j, hj⟩
    · exact .inl (List.mem_append_left _ hsent)
    · by_cases hji : j = i
      · subst hji
        rw [hdue] at hj
        rcases List.mem_cons.mp hj with rfl | hrest
        · exact .inl (List.mem_append_right _ List.mem_cons_self)
        · exact .inr ⟨j, by rw [Function.update_self]; exact hrest⟩
      · exact .inr ⟨j, by rw [Function.update_of_ne hji]; exact hj⟩

theorem Accounted.step (h : Accounted notices strays start s held due later) (hs : Step cas s s') :
    ∃ held' due' later', Accounted notices strays start s' held' due' later' := by
  cases hs with
  | @load i next hi =>
    have hload := h.announces i
    rw [hi] at hload
    obtain ⟨hdue, hnext⟩ := hload
    refine ⟨_, due, later, h.goes_on (Notices.fits_self s.cell) ?_⟩
    rw [hdue]
    exact hnext s.cell h.valid (h.fits i)
  | commit hi hv =>
    obtain ⟨mark, owed, more, hcommits⟩ := h.commits hi hv
    exact ⟨_, _, _, hcommits⟩
  | @refuse i value next hi hv =>
    have hput := h.announces i
    rw [hi] at hput
    obtain ⟨hdue, _, _, hnext⟩ := hput
    refine ⟨_, due, later, h.goes_on (h.fits i) ?_⟩
    rw [hdue]
    exact hnext
  | send hi outcome =>
    obtain ⟨owed, hsends⟩ := h.sends hi outcome
    exact ⟨_, _, _, hsends⟩

/-- In every interleaving the messages that have been sent are different messages of entries that
were added to the log; when all clients have come to their ends, and none of them strayed, they
are all the messages of these entries. -/
theorem Run.announces (h : Run cas s s') (hsent : s.sent = []) (hvalid : notices.valid s.cell)
    (hclients : ∀ i, notices.Announces strays none [] (s.clients i)) :
    ∃ later, notices.valid s'.cell ∧ notices.log s'.cell = notices.log s.cell ++ later ∧
      s'.sent.Nodup ∧ (∀ message ∈ s'.sent, message ∈ notices.due later) ∧
      ((∀ i, ∃ result, s'.clients i = .done result ∧ ¬strays result) →
        s'.sent.Perm (notices.due later)) := by
  have haccounted : ∃ held due later,
      Accounted notices strays (notices.log s.cell) s' held due later := by
    induction h with
    | nil =>
      refine ⟨fun _ => none, fun _ => [], [], ⟨hclients, fun _ => Notices.fits_none _, hvalid,
        (List.append_nil _).symm, ?_, ?_, fun _ => List.nodup_nil, ?_, ?_, ?_, ?_⟩⟩
      · rw [hsent]
        exact List.nodup_nil
      · simp [hsent]
      · simp
      · simp
      · simp
      · simp [Notices.due]
    | snoc _ hs ih =>
      obtain ⟨held, due, later, hmid⟩ := ih
      exact hmid.step hs
  obtain ⟨held, due, later, haccounted⟩ := haccounted
  refine ⟨later, haccounted.valid, haccounted.log, haccounted.sent_nodup, haccounted.sent_due,
    fun hdone => ?_⟩
  have hnodup : (notices.due later).Nodup := by
    have hall := notices.log_nodup _ haccounted.valid
    rw [haccounted.log] at hall
    exact Notices.due_nodup (List.nodup_append'.mp hall).2.1
  refine (List.perm_ext_iff_of_nodup haccounted.sent_nodup hnodup).mpr fun message =>
    ⟨haccounted.sent_due message, fun hin => ?_⟩
  rcases haccounted.complete message hin with hsent | ⟨i, hi⟩
  · exact hsent
  · obtain ⟨result, hclient, hstays⟩ := hdone i
    have hends := haccounted.announces i
    rw [hclient] at hends
    rcases hends with hnone | hstrays
    · rw [hnone] at hi
      cases hi
    · exact absurd hstrays hstays

end Steps

end DispatchedRuns
