import NoraInterviewer.ArtifactReads

namespace NoraInterviewer

open ExceptRules ObjectRuns OptimisticRuns

section

variable {ι σ : Type}

/-- A move that changes neither the live records of a session nor the object of one of them. -/
def Harmless (move : ArtifactMove ι σ) : Prop :=
  ∀ session, (move.after.cells session).live = (move.before.cells session).live ∧
    ∀ record ∈ (move.before.cells session).live,
      move.after.objects record.storageKey = move.before.objects record.storageKey

/-- The move takes away no object of an artifact that is live, and is no save that changes the live
artifacts and raises all the same. -/
structure Spares (move : ArtifactMove ι σ) : Prop where
  objects : ∀ key fate, move.event = .erased key fate → fate.worked = true →
    ∀ session, ∀ record ∈ (move.before.cells session).live, record.storageKey ≠ key
  saves : ∀ save e, move.event = .saved save → save.outcome = .error e →
    save.value.live = save.base.live

/-- The id that a client gives the artifact it creates. -/
def ArtifactClient.created {backend : Backend} : ArtifactClient backend → Option String
  | .service call (.create _ _ _ _) => some call.artifactId
  | _ => none

/-- `uuid4`: ids of one length, of which no two creations draw the same. -/
structure FreshIds {backend : Backend} (clients : ι → ArtifactClient backend) : Prop where
  length : ∀ i artifactId, (clients i).created = some artifactId → artifactId.length = 36
  distinct : ∀ i j artifactId, (clients i).created = some artifactId →
    (clients j).created = some artifactId → i = j

variable {backend : Backend} {clients : ι → ArtifactClient backend}

/-- The client whose creation the key belongs to. -/
def Owner (clients : ι → ArtifactClient backend) (key : String) (i : ι) : Prop :=
  ∃ artifactId, (clients i).created = some artifactId ∧ SpellsKey key artifactId

theorem Owner.unique (h : FreshIds clients) {key : String} {i j : ι} (hi : Owner clients key i)
    (hj : Owner clients key j) : i = j := by
  obtain ⟨a, ha, scope, hkey⟩ := hi
  obtain ⟨b, hb, scope', hkey'⟩ := hj
  have hlength : a.length = b.length := (h.length i a ha).trans (h.length j b hb).symm
  have hlists : scope.toList ++ a.toList = scope'.toList ++ b.toList := by
    rw [← String.toList_append, ← String.toList_append, ← hkey, ← hkey']
  obtain rfl : a = b := String.toList_inj.mp (List.append_inj' hlists (by
    rw [String.length_toList, String.length_toList, hlength])).2
  exact h.distinct i j a ha hb

theorem saves_grow (track : Track StoredSession String (List UInt8) StoreFailure)
    (event : Event StoredSession String (List UInt8) StoreFailure) (h : track.saves ≠ []) :
    (track.after event).saves ≠ [] := by
  cases event with
  | loaded result =>
    cases result with
    | ok => exact h
    | error => exact h
  | saved save => exact List.append_ne_nil_of_right_ne_nil _ (List.cons_ne_nil _ _)
  | wrote key data fate =>
    simp only [Track.after, Track.write]
    split
    · exact h
    · exact h
  | unsaved | fetched | erased => exact h

theorem forall₂_mem_left {new old : List ArtifactRecord} (h : List.Forall₂ Inherits new old)
    {record : ArtifactRecord} (hr : record ∈ new) : ∃ first ∈ old, Inherits record first := by
  induction h with
  | nil => cases hr
  | cons h _ ih =>
    rcases List.mem_cons.mp hr with rfl | hr
    · exact ⟨_, List.mem_cons_self, h⟩
    · obtain ⟨first, hf, hi⟩ := ih hr
      exact ⟨first, List.mem_cons_of_mem _ hf, hi⟩

theorem after_loaded {track : Track StoredSession String (List UInt8) StoreFailure}
    {event : Event StoredSession String (List UInt8) StoreFailure} {base : StoredSession}
    (h : (track.after event).loaded = some base) :
    track.loaded = some base ∨ event = .loaded (.ok base) := by
  cases event with
  | loaded result =>
    cases result with
    | ok value =>
      cases h
      exact .inr rfl
    | error e => exact .inl h
  | saved save => cases h
  | wrote key data fate =>
    simp only [Track.after, Track.write] at h
    split at h
    · exact .inl h
    · exact .inl h
  | unsaved | fetched | erased => exact .inl h

variable [DecidableEq ι]

/-- A record that some client has saved. -/
def Born (clients : ι → ArtifactClient backend) (moves : List (ArtifactMove ι σ))
    (record : ArtifactRecord) : Prop :=
  ∃ i, Owner clients record.storageKey i ∧ (trackOf moves i).saves ≠ []

theorem Born.later {moves : List (ArtifactMove ι σ)} {record : ArtifactRecord}
    (h : Born clients moves record) (move : ArtifactMove ι σ) :
    Born clients (moves ++ [move]) record := by
  obtain ⟨i, hi, hsaves⟩ := h
  refine ⟨i, hi, ?_⟩
  rw [trackOf_snoc]
  split
  · exact saves_grow _ _ hsaves
  · exact hsaves

variable [Sha256]

/-- The object of a record, as it was when the record was made. -/
def Describes (objects : String → Option (List UInt8)) (record : ArtifactRecord) : Prop :=
  ∃ data, objects record.storageKey = some data ∧ record.sha256 = Sha256.hexdigest data ∧
    record.sizeBytes = data.length

/-- Every live artifact of every stored session has its object. -/
def Backed (s : ArtifactState ι σ) : Prop :=
  ∀ session, ∀ record ∈ (s.cells session).live, Describes s.objects record

/-- A live artifact has its object in every state of the run, and an operation that has raised made
only harmless moves. -/
structure ArtifactsHold (moves : List (ArtifactMove ι σ)) (final : ArtifactState ι σ) : Prop where
  before : ∀ move ∈ moves, Backed move.before
  after : Backed final
  raised : ∀ i e, final.clients i = .done (.error e) → ∀ move ∈ moves, move.client = i →
    Harmless move

/-- What holds between two moves of a run that spares the objects of live artifacts. -/
structure Backing (clients : ι → ArtifactClient backend) (moves : List (ArtifactMove ι σ))
    (s : ArtifactState ι σ) : Prop where
  born : ∀ session, ∀ record ∈ (s.cells session).artifacts, Born clients moves record
  loaded : ∀ i base, (trackOf moves i).loaded = some base → ∀ record ∈ base.artifacts,
    Born clients moves record
  written : ∀ i key data, (trackOf moves i).wrote = some (key, data) →
    (trackOf moves i).saves = [] → Owner clients key i ∧ s.objects key = some data
  backed : Backed s

variable {client : ArtifactClient backend}
  {track : Track StoredSession String (List UInt8) StoreFailure}

theorem rules_writes {key : String} {data : List UInt8} (h : client.rules.writes track key data) :
    track.saves = [] ∧ ∃ artifactId, client.created = some artifactId ∧ SpellsKey key artifactId := by
  cases client with
  | other => exact h.elim
  | service call operation =>
    cases operation with
    | create => exact ⟨h.1, call.artifactId, rfl, h.2⟩
    | list | issueAccess | readToken | delete | purgeSession => exact h.elim

theorem rules_erases {key : String} (h : client.rules.erases track key) :
    (∃ artifactId, client.created = some artifactId ∧ SpellsKey key artifactId) ∨
      HasKey track key := by
  cases client with
  | other => exact h.elim
  | service call operation =>
    cases operation with
    | create => exact .inl ⟨call.artifactId, rfl, h⟩
    | delete | purgeSession => exact .inr h
    | list | issueAccess | readToken => exact h.elim

/-- A save marks artifacts deleted, or adds the record of the object that its client wrote. -/
theorem rules_puts {base value : StoredSession} (h : client.rules.puts track base value) :
    KeepsArtifacts base value ∨ track.saves = [] ∧ ∃ record data,
      track.wrote = some (record.storageKey, data) ∧ value.artifacts = base.artifacts ++ [record] ∧
      record.sha256 = Sha256.hexdigest data ∧ record.sizeBytes = data.length := by
  cases client with
  | other => exact .inl (keepsArtifacts_of_eq h)
  | service call operation =>
    cases operation with
    | create =>
      obtain ⟨hfirst, record, data, hwrote, hartifacts, -, -, hsha, hsize⟩ := h
      exact .inr ⟨hfirst, record, data, hwrote, hartifacts, hsha, hsize⟩
    | readToken =>
      obtain ⟨artifact, haccess⟩ := h
      exact .inl (keepsArtifacts_of_eq haccess.artifacts)
    | delete | purgeSession => exact .inl h
    | list | issueAccess => exact h.elim

/-- A permitted call touches the object of its own artifact, or of one that some client has
saved. -/
theorem permitted_key {moves : List (ArtifactMove ι σ)} {s : ArtifactState ι σ}
    (h : Backing clients moves s) {i : ι}
    {event : Event StoredSession String (List UInt8) StoreFailure} {key : String}
    (hp : event.Permitted backend.sessions (clients i).rules (trackOf moves i))
    (hk : event.key = some key) :
    ∃ owner, Owner clients key owner ∧ (owner = i ∨ (trackOf moves owner).saves ≠ []) := by
  cases event with
  | wrote other data fate =>
    obtain rfl := Option.some.inj hk
    exact ⟨i, (rules_writes hp).2, .inl rfl⟩
  | erased other fate =>
    obtain rfl := Option.some.inj hk
    rcases rules_erases hp with hown | ⟨base, hb, record, hr, rfl⟩
    · exact ⟨i, hown, .inl rfl⟩
    · obtain ⟨owner, hown, hsaves⟩ := h.loaded i base hb record hr
      exact ⟨owner, hown, .inr hsaves⟩
  | loaded | saved | unsaved | fetched => cases hk

variable [DecidableEq σ] {home : ι → σ} {lossy : Bool} {moves : List (ArtifactMove ι σ)}
  {s s' : ArtifactState ι σ} {i : ι}
  {event : Event StoredSession String (List UInt8) StoreFailure}

/-- A call that spares the objects of live artifacts leaves each of them as it was. -/
theorem Backing.kept (hfresh : FreshIds clients) (h : Backing clients moves s)
    (hp : event.Permitted backend.sessions (clients i).rules (trackOf moves i))
    (hs : Step backend.sessions home lossy s i event s') (hspares : Spares ⟨s, i, event, s'⟩)
    {session : σ} {record : ArtifactRecord} (hr : record ∈ (s.cells session).live) :
    s'.objects record.storageKey = s.objects record.storageKey := by
  by_cases hk : event.key = some record.storageKey
  · cases event with
    | wrote key data fate =>
      obtain ⟨hsaves, hown⟩ := rules_writes hp
      obtain rfl := Option.some.inj hk
      obtain ⟨owner, howner, hne⟩ := h.born session record (List.mem_of_mem_filter hr)
      obtain rfl := Owner.unique hfresh howner hown
      exact absurd hsaves hne
    | erased key fate =>
      obtain rfl := Option.some.inj hk
      cases hs with
      | erase hi =>
        have hidle : fate.worked ≠ true := fun hw => hspares.objects _ fate rfl hw session record hr rfl
        simp only [Fate.left, hidle, Bool.false_eq_true, if_false]
    | loaded | saved | unsaved | fetched => cases hk
  · exact hs.untouched hk

/-- An object that its client has not saved the record of is touched by no other client. -/
theorem Backing.waits (hfresh : FreshIds clients) (h : Backing clients moves s)
    (hp : event.Permitted backend.sessions (clients i).rules (trackOf moves i))
    (hs : Step backend.sessions home lossy s i event s') {j : ι} (hj : j ≠ i) {key : String}
    (hown : Owner clients key j) (hsaves : (trackOf moves j).saves = []) :
    s'.objects key = s.objects key := by
  refine hs.untouched fun hk => ?_
  obtain ⟨owner, howner, howns⟩ := permitted_key h hp hk
  obtain rfl := Owner.unique hfresh hown howner
  rcases howns with rfl | hne
  · exact hj rfl
  · exact hne hsaves

/-- The artifacts of a session after a call: as they were, some of them marked deleted, or with the
record of an object that the client wrote and has not saved before. -/
theorem cells_after
    (hp : event.Permitted backend.sessions (clients i).rules (trackOf moves i))
    (hs : Step backend.sessions home lossy s i event s') (session : σ) {record : ArtifactRecord}
    (hr : record ∈ (s'.cells session).artifacts) :
    (∃ first ∈ (s.cells session).artifacts, Inherits record first) ∨
      ∃ data, (trackOf moves i).wrote = some (record.storageKey, data) ∧
        (trackOf moves i).saves = [] ∧ event.save ≠ none ∧
        record.sha256 = Sha256.hexdigest data ∧ record.sizeBytes = data.length := by
  by_cases hsave : event.save = none
  · rw [hs.unsaved hsave] at hr
    exact .inl ⟨record, hr, .refl record⟩
  by_cases hsession : session = home i
  · cases hs with
    | save hi hv outcome ho =>
      obtain ⟨-, value, hputs, hvalue⟩ := hp
      dsimp only at hputs hvalue hr ⊢
      rw [hsession, Function.update_self, hvalue] at hr
      rcases rules_puts hputs with hkeeps | ⟨hfirst, added, data, hwrote, hartifacts, hsha, hsize⟩
      · rw [hsession]
        exact .inl (forall₂_mem_left hkeeps hr)
      · have hmem : record ∈ value.artifacts := hr
        rw [hartifacts] at hmem
        rcases List.mem_append.mp hmem with hold | hnew
        · rw [hsession]
          exact .inl ⟨record, hold, .refl record⟩
        · obtain rfl := List.mem_singleton.mp hnew
          exact .inr ⟨data, hwrote, hfirst, hsave, hsha, hsize⟩
    | load | unsave | write | fetch | erase => exact absurd rfl hsave
  · rw [hs.elsewhere hsession] at hr
    exact .inl ⟨record, hr, .refl record⟩

/-- What a client has written is there until the client saves the record of it. -/
theorem Backing.wrote (h : Backing clients moves s)
    (hp : event.Permitted backend.sessions (clients i).rules (trackOf moves i))
    (hs : Step backend.sessions home lossy s i event s') {key : String} {data : List UInt8}
    (hwrote : ((trackOf moves i).after event).wrote = some (key, data))
    (hsaves : ((trackOf moves i).after event).saves = []) :
    Owner clients key i ∧ s'.objects key = some data := by
  cases event with
  | loaded result =>
    rw [hs.untouched fun hk => by cases hk]
    cases result with
    | ok value => exact h.written i key data hwrote hsaves
    | error e => exact h.written i key data hwrote hsaves
  | saved save => exact absurd hsaves (List.append_ne_nil_of_right_ne_nil _ (List.cons_ne_nil _ _))
  | unsaved e =>
    rw [hs.untouched fun hk => by cases hk]
    exact h.written i key data hwrote hsaves
  | wrote other content fate =>
    cases hs with
    | write hi =>
      simp only [Track.after, Track.write] at hwrote hsaves
      by_cases hw : fate.worked = true
      · rw [if_pos hw] at hwrote
        cases hwrote
        refine ⟨(rules_writes hp).2, ?_⟩
        simp only [Fate.left, hw, if_true, Function.update_self]
      · rw [if_neg hw] at hwrote hsaves
        simp only [Fate.left, hw, Bool.false_eq_true, if_false]
        exact h.written i key data hwrote hsaves
  | fetched other result =>
    rw [hs.untouched fun hk => by cases hk]
    exact h.written i key data hwrote hsaves
  | erased other fate => cases hwrote

theorem Backing.step (hfresh : FreshIds clients) (h : Backing clients moves s)
    (hp : event.Permitted backend.sessions (clients i).rules (trackOf moves i))
    (hheld : ∀ value, event = .loaded (.ok value) → value = s.cells (home i))
    (hs : Step backend.sessions home lossy s i event s') (hspares : Spares ⟨s, i, event, s'⟩) :
    Backing clients (moves ++ [⟨s, i, event, s'⟩]) s' where
  born session record hr := by
    rcases cells_after hp hs session hr with ⟨first, hf, hi⟩ | ⟨data, hwrote, hsaves, hsave, -⟩
    · obtain ⟨owner, howner, hne⟩ := (h.born session first hf).later ⟨s, i, event, s'⟩
      exact ⟨owner, hi.storageKey ▸ howner, hne⟩
    · refine ⟨i, (h.written i _ data hwrote hsaves).1, ?_⟩
      rw [trackOf_snoc, if_pos rfl]
      cases event with
      | saved save => exact List.append_ne_nil_of_right_ne_nil _ (List.cons_ne_nil _ _)
      | loaded | unsaved | wrote | fetched | erased => exact absurd rfl hsave
  loaded j base hb record hr := by
    rw [trackOf_snoc] at hb
    by_cases hj : i = j
    · rw [if_pos hj] at hb
      rcases after_loaded hb with hb | rfl
      · exact (h.loaded j base hb record hr).later _
      · rw [hheld base rfl] at hr
        exact (h.born _ record hr).later _
    · rw [if_neg hj] at hb
      exact (h.loaded j base hb record hr).later _
  written j key data hwrote hsaves := by
    rw [trackOf_snoc] at hwrote hsaves
    by_cases hj : i = j
    · subst hj
      rw [if_pos rfl] at hwrote hsaves
      exact h.wrote hp hs hwrote hsaves
    · rw [if_neg hj] at hwrote hsaves
      obtain ⟨hown, hdata⟩ := h.written j key data hwrote hsaves
      exact ⟨hown, (h.waits hfresh hp hs (Ne.symm hj) hown hsaves).trans hdata⟩
  backed session record hr := by
    obtain ⟨hmem, hlive⟩ := List.mem_filter.mp hr
    rcases cells_after hp hs session hmem with ⟨first, hf, hi⟩ | ⟨data, hwrote, hsaves, hsave, hsha, hsize⟩
    · obtain rfl := hi.live (Option.isNone_iff_eq_none.mp hlive)
      have hfirst : record ∈ (s.cells session).live := List.mem_filter.mpr ⟨hf, hlive⟩
      obtain ⟨data, hobject, hdata⟩ := h.backed session record hfirst
      exact ⟨data, (h.kept hfresh hp hs hspares hfirst).trans hobject, hdata⟩
    · refine ⟨data, ?_, hsha, hsize⟩
      rw [hs.untouched]
      · exact (h.written i _ data hwrote hsaves).2
      · cases event with
        | saved save => exact fun hk => by cases hk
        | loaded | unsaved | wrote | fetched | erased => exact absurd rfl hsave

variable [CanonicalDigest] {service : ArtifactService} {cells : σ → StoredSession}
  {objects : String → Option (List UInt8)} {final : ArtifactState ι σ}

theorem run_backing (hfresh : FreshIds clients) (hempty : ∀ session, (cells session).artifacts = [])
    (h : Run backend.sessions home lossy (artifactStart service clients cells objects) moves final)
    (hspares : ∀ move ∈ moves, Spares move) : Backing clients moves final := by
  induction h with
  | nil =>
    refine ⟨fun session record hr => ?_, fun i base hb => ?_, fun i key data hw => ?_,
      fun session record hr => ?_⟩
    · rw [artifactStart, hempty session] at hr
      cases hr
    · cases hb
    · cases hw
    · rw [artifactStart, StoredSession.live, hempty session] at hr
      cases hr
  | @snoc moves mid final i event hrun hstep ih =>
    obtain ⟨hkeeps, hheld⟩ := hrun.tracked artifactStart_keeps i
    refine (ih fun move hm => hspares move (List.mem_append_left _ hm)).step hfresh
      (hstep.permitted hkeeps hheld).1 (fun value he => ?_) hstep
      (hspares _ (List.mem_append_right _ (List.mem_singleton_self _)))
    subst he
    cases hstep with
    | load hi result hr => exact hr value rfl

/-- An operation that has raised saved nothing that changed the live artifacts. -/
theorem raised_saves
    (h : Run backend.sessions home lossy (artifactStart service clients cells objects) moves final)
    (hspares : ∀ move ∈ moves, Spares move) {i : ι} {e : PyError}
    (hdone : final.clients i = .done (.error e)) {move : ArtifactMove ι σ} (hm : move ∈ moves)
    (hi : move.client = i) {save : Save StoredSession StoreFailure}
    (hsave : move.event = .saved save) : save.value.live = save.base.live := by
  cases houtcome : save.outcome with
  | error failure => exact (hspares move hm).saves save failure hsave houtcome
  | ok =>
    obtain ⟨hkeeps, -⟩ := h.tracked artifactStart_keeps i
    rw [hdone] at hkeeps
    have hmem : save ∈ (trackOf moves i).saves := by
      rw [trackOf_saves]
      exact savesOf_mem.mpr ⟨move, hm, hi, hsave⟩
    cases hclient : clients i with
    | service call operation =>
      rw [hclient] at hkeeps
      exact absurd houtcome (hkeeps.error e rfl save hmem).1
    | other prog keeps =>
      obtain ⟨before, after, hmoves⟩ := List.append_of_mem hm
      obtain ⟨hbefore, hstep⟩ := h.split hmoves
      rw [hi, hsave] at hstep
      obtain ⟨hkeeps', hheld⟩ := hbefore.tracked artifactStart_keeps i
      obtain ⟨-, value, hputs, hvalue⟩ := (hstep.permitted hkeeps' hheld).1
      rw [hclient] at hputs
      have hsame : value.artifacts = save.base.artifacts := hputs
      rw [hvalue]
      exact congrArg (List.filter _) hsame

/-- While no call takes away the object of a live artifact and no save that changes the live
artifacts raises, a live artifact always has its object, and an operation that raises changes no
live artifact. -/
theorem artifacts_hold (hfresh : FreshIds clients)
    (hempty : ∀ session, (cells session).artifacts = [])
    (h : Run backend.sessions home lossy (artifactStart service clients cells objects) moves final)
    (hspares : ∀ move ∈ moves, Spares move) : ArtifactsHold moves final := by
  have hfront : ∀ before move after, moves = before ++ move :: after →
      Backing clients before move.before ∧
        Step backend.sessions home lossy move.before move.client move.event move.after ∧
        move.event.Permitted backend.sessions (clients move.client).rules
          (trackOf before move.client) := by
    intro before move after hmoves
    obtain ⟨hbefore, hstep⟩ := h.split hmoves
    obtain ⟨hkeeps, hheld⟩ := hbefore.tracked artifactStart_keeps move.client
    refine ⟨run_backing hfresh hempty hbefore fun other ho => hspares other ?_, hstep,
      (hstep.permitted hkeeps hheld).1⟩
    rw [hmoves]
    exact List.mem_append_left _ ho
  refine ⟨fun move hm => ?_, (run_backing hfresh hempty h hspares).backed, ?_⟩
  · obtain ⟨before, after, hmoves⟩ := List.append_of_mem hm
    exact (hfront before move after hmoves).1.backed
  · intro i e hdone move hm hi session
    obtain ⟨before, after, hmoves⟩ := List.append_of_mem hm
    obtain ⟨hbacking, hstep, hp⟩ := hfront before move after hmoves
    refine ⟨?_, fun record hr => hbacking.kept hfresh hp hstep (hspares move hm) hr⟩
    by_cases hsession : session = home move.client
    · cases hsave : move.event.save with
      | none => rw [hstep.unsaved hsave]
      | some save =>
        have hevent : move.event = .saved save := by
          cases hcase : move.event with
          | saved other =>
            rw [hcase] at hsave
            cases hsave
            rfl
          | loaded | unsaved | wrote | fetched | erased =>
            rw [hcase] at hsave
            cases hsave
        have hlive := raised_saves h hspares hdone hm hi hevent
        rw [hevent] at hstep
        obtain ⟨hbase, hvalue, -⟩ := hstep.replaces
        rw [hsession, hbase, hvalue, hlive]
    · rw [hstep.elsewhere hsession]

end

section Runs

attribute [local instance] checksumDigest byteSum

theorem noteClients_created {i : Nat} {artifactId : String}
    (h : (noteClients i).created = some artifactId) :
    i = 0 ∧ artifactId = plainArtifactCall.artifactId := by
  unfold noteClients at h
  split at h
  next =>
    cases h
    exact ⟨rfl, rfl⟩
  next => cases h
  next => cases h
  next => cases h

theorem noteClients_fresh : FreshIds noteClients where
  length i artifactId h := by
    rw [(noteClients_created h).2]
    decide
  distinct i j artifactId hi hj := (noteClients_created hi).1.trans (noteClients_created hj).1.symm

/-- `Spares`, for clients of one session. -/
def sparesNotes (move : ArtifactMove Nat Unit) : Bool :=
  match move.event with
  | .erased key fate =>
    !fate.worked || (move.before.cells ()).live.all fun record => record.storageKey ≠ key
  | .saved save => save.outcome.isOk || save.value.live = save.base.live
  | _ => true

theorem sparesNotes_spares {move : ArtifactMove Nat Unit} (h : sparesNotes move = true) :
    Spares move := by
  unfold sparesNotes at h
  constructor
  · intro key fate he hw session record hr
    simp only [he, hw, Bool.not_true, Bool.false_or, List.all_eq_true, decide_eq_true_eq] at h
    exact h record hr
  · intro save e he ho
    simpa only [he, ho, Except.isOk, Except.toBool, Bool.false_or, decide_eq_true_eq] using h

/-- A note is made and read, and its deletion fails in the object store. -/
theorem artifacts_hold_undeleted : ∃ stored moves final,
    Run Backend.memory.sessions (fun _ => ()) true
      (artifactStart localArtifacts noteClients (fun _ => stored) fun _ => none) moves final ∧
    (final.cells ()).live.length = 1 ∧ ArtifactsHold moves final := by
  have hrun : (artifactSchedule noteClients [(0, .works), (0, .works), (0, .works), (1, .works),
      (1, .works), (1, .works), (2, .works), (2, .raises objectNotFound false)]).any (fun run =>
        run.2.1.all sparesNotes && decide ((run.2.2.cells ()).live.length = 1)) = true := by
    decide +kernel
  obtain ⟨⟨stored, moves, final⟩, hs, hcheck⟩ := (Option.any_eq_true _ _).mp hrun
  obtain ⟨hspares, hlive⟩ := Bool.and_eq_true_iff.mp hcheck
  obtain ⟨hempty, hr⟩ := artifactSchedule_run true hs
  exact ⟨stored, moves, final, hr, of_decide_eq_true hlive,
    artifacts_hold noteClients_fresh (fun _ => hempty) hr fun move hm =>
      sparesNotes_spares (List.all_eq_true.mp hspares move hm)⟩

/-- The interview goes on between the load and the save of a deletion: the record stays live, its
object is gone, and the deletion has raised a 409. -/
theorem artifacts_lost : ∃ stored moves final, stored.artifacts = [] ∧ FreshIds noteClients ∧
    Run Backend.memory.sessions (fun _ => ()) false
      (artifactStart localArtifacts noteClients (fun _ => stored) fun _ => none) moves final ∧
    final.clients 2 = .done (.error StoreFailure.conflict.orConflict) ∧
    ¬ArtifactsHold moves final := by
  have hrun : (artifactSchedule noteClients [(0, .works), (0, .works), (0, .works), (2, .works),
      (3, .works), (3, .works), (2, .works), (2, .raises .conflict false)]).any (fun run =>
        ((run.2.2.cells ()).live.any fun record => (run.2.2.objects record.storageKey).isNone) &&
        decide ((run.2.2.clients 2).result = some (.error StoreFailure.conflict.orConflict))) =
          true := by
    decide +kernel
  obtain ⟨⟨stored, moves, final⟩, hs, hcheck⟩ := (Option.any_eq_true _ _).mp hrun
  obtain ⟨hlost, hraised⟩ := Bool.and_eq_true_iff.mp hcheck
  obtain ⟨record, hr, hnone⟩ := List.any_eq_true.mp hlost
  obtain ⟨hempty, hrun⟩ := artifactSchedule_run false hs
  refine ⟨stored, moves, final, hempty, noteClients_fresh, hrun,
    Prog.done_of_result (of_decide_eq_true hraised), fun hold => ?_⟩
  obtain ⟨data, hdata, -⟩ := hold.after () record hr
  rw [Option.isNone_iff_eq_none.mp hnone] at hdata
  cases hdata

end Runs

end NoraInterviewer
