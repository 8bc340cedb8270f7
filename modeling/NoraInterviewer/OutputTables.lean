import NoraInterviewer.OutputSteps
import NoraInterviewer.VoiceRuns

namespace NoraInterviewer

namespace VoiceOutputBridge

open Cooperative Relation

abbrev OutputState := State OutputWorld OutputPoint

/-- Call `n` of `open` has the session reserved, or asks the provider for it. -/
def IsOpening (state : OutputState) (n : Nat) (sessionId : String) : Prop :=
  ∃ point opening, state.tasks n = some point ∧ point.opening = some opening ∧
    opening.sessionId = sessionId

/-- `_streams` has the stream, which is of the session. -/
def Registered (world : OutputWorld) (id sessionId : String) : Prop :=
  id ∈ world.streams ∧ ∃ record, world.records id = some record ∧
    record.state.sessionId = sessionId

structure Consistent (state : OutputState) : Prop where
  opening : ∀ s n, state.world.openingSessions s = some n ↔ IsOpening state n s
  inverse : ∀ s id, state.world.activeBySession s = some id ↔ Registered state.world id s
  apart : ∀ s n id, IsOpening state n s → ¬Registered state.world id s
  single : ∀ s id other, Registered state.world id s → Registered state.world other s → id = other
  alone : ∀ s n m, IsOpening state n s → IsOpening state m s → n = m
  released : ∀ id ∈ state.world.finished, id ∉ state.world.streams ∧
    ∀ s, state.world.activeBySession s ≠ some id

/-- No call ends without a release while its stream is in the tables. -/
def Releases [CanonicalDigest] (state : OutputState) : Action OutputCall AwaitReply → Prop
  | .enter _ => True
  | .resume n reply => ∀ point, state.tasks n = some point → StepLeavesNone state.world point reply

/-- The tables of the bridge agree with each other and with the records. -/
structure Tables (streamId : Nat → String) (begun : Nat) (world : OutputWorld) : Prop where
  named : ∀ id record, world.records id = some record →
    record.state.streamId = id ∧ id = streamId record.openedBy ∧ record.openedBy < begun
  inverse : ∀ s id, world.activeBySession s = some id ↔ Registered world id s
  known : ∀ id ∈ world.streams, ∃ record, world.records id = some record
  apart : ∀ s n, world.openingSessions s = some n → world.activeBySession s = none
  ended : ∀ id ∈ world.finished, ∃ record, world.records id = some record

/-- What the table of opening sessions and the records say of call `n`. -/
structure Knows (streamId : Nat → String) (world : OutputWorld) (n : Nat)
    (point : Option OutputPoint) : Prop where
  opening : ∀ s, world.openingSessions s = some n ↔
    ∃ opening, point.bind OutputPoint.opening = some opening ∧ opening.sessionId = s
  unmade : ∀ at_, point = some at_ → at_.isOpen = true → world.records (streamId n) = none

structure Does (streamId : Nat → String) (n : Nat) (world after : OutputWorld) : Prop where
  opening : ∀ s m, m ≠ n → (after.openingSessions s = some m ↔ world.openingSessions s = some m)
  records : ∀ id, id ≠ streamId n → world.records id = none → after.records id = none

def outline (streamId : Nat → String) : Outline OutputWorld OutputPoint where
  shared := Tables streamId
  knows := Knows streamId
  does := Does streamId

variable {streamId : Nat → String} {world after : OutputWorld} {begun n : Nat} {strict : Bool}

theorem outline_stable (hid : Function.Injective streamId) : (outline streamId).Stable := by
  intro n m world after point hdoes hnm hknows
  refine ⟨fun s => ?_, fun at_ hat hopen => ?_⟩
  · rw [hdoes.opening s m (Ne.symm hnm)]
    exact hknows.opening s
  · exact hdoes.records _ (fun heq => hnm (hid heq).symm) (hknows.unmade at_ hat hopen)

/-- One record, but for its flags and counts. -/
structure SameStream (record stored : OutputStream) : Prop where
  openedBy : record.openedBy = stored.openedBy
  streamId : record.state.streamId = stored.state.streamId
  sessionId : record.state.sessionId = stored.state.sessionId
  generation : record.state.generation = stored.state.generation

theorem SameStream.refl (record : OutputStream) : SameStream record record := ⟨rfl, rfl, rfl, rfl⟩

/-- The records before and after are the same streams. -/
def SameRecords (world after : OutputWorld) : Prop :=
  ∀ id, (∃ record stored, after.records id = some record ∧ world.records id = some stored ∧
    SameStream record stored) ∨ after.records id = none ∧ world.records id = none

theorem SameRecords.refl (world : OutputWorld) : SameRecords world world := by
  intro id
  cases h : world.records id with
  | none => exact .inr ⟨rfl, rfl⟩
  | some record => exact .inl ⟨record, record, rfl, rfl, .refl record⟩

theorem SameRecords.later (h : SameRecords world after) {id : String} {stored : OutputStream}
    (hstored : world.records id = some stored) :
    ∃ record, after.records id = some record ∧ SameStream record stored := by
  rcases h id with ⟨record, found, hrecord, hfound, hsame⟩ | ⟨_, hnone⟩
  · rw [hstored] at hfound
    cases hfound
    exact ⟨record, hrecord, hsame⟩
  · rw [hstored] at hnone
    cases hnone

theorem SameRecords.earlier (h : SameRecords world after) {id : String} {record : OutputStream}
    (hrecord : after.records id = some record) :
    ∃ stored, world.records id = some stored ∧ SameStream record stored := by
  rcases h id with ⟨found, stored, hfound, hstored, hsame⟩ | ⟨hnone, _⟩
  · rw [hrecord] at hfound
    cases hfound
    exact ⟨stored, hstored, hsame⟩
  · rw [hrecord] at hnone
    cases hnone

theorem SameRecords.registered_iff (h : SameRecords world after)
    (hstreams : after.streams = world.streams) (id s : String) :
    Registered after id s ↔ Registered world id s := by
  unfold Registered
  rw [hstreams]
  constructor
  · rintro ⟨hin, record, hrecord, hsession⟩
    obtain ⟨stored, hstored, hsame⟩ := h.earlier hrecord
    exact ⟨hin, stored, hstored, hsame.sessionId.symm.trans hsession⟩
  · rintro ⟨hin, stored, hstored, hsession⟩
    obtain ⟨record, hrecord, hsame⟩ := h.later hstored
    exact ⟨hin, record, hrecord, hsame.sessionId.trans hsession⟩

theorem setRecord_same {id : String} {f : TtsStreamState → TtsStreamState}
    (hf : ∀ state, (f state).streamId = state.streamId ∧ (f state).sessionId = state.sessionId ∧
      (f state).turnId = state.turnId ∧ (f state).generation = state.generation) :
    SameRecords world (setRecord world id f) := by
  intro other
  unfold setRecord
  by_cases hid : other = id
  · rw [hid]
    simp only [Function.update_self]
    cases world.records id with
    | none => exact .inr ⟨rfl, rfl⟩
    | some stored =>
      obtain ⟨hstream, hsession, _, hgeneration⟩ := hf stored.state
      exact .inl ⟨_, stored, rfl, rfl, rfl, hstream, hsession, hgeneration⟩
  · simp only [Function.update_of_ne hid]
    exact SameRecords.refl world other

theorem Change.records (h : Change strict world after) : SameRecords world after := by
  cases h with
  | record id f hf => exact setRecord_same hf
  | @close id record _ _ _ _ =>
    exact (setRecord_same fun _ => ⟨rfl, rfl, rfl, rfl⟩ :
      SameRecords world (setRecord world id fun state => { state with closed := true }))
  | finish => exact .refl world
  | voice => exact .refl world

/-- Tables that agreed agree after the records' flags and counts changed. -/
theorem Tables.same (h : Tables streamId begun world) (hr : SameRecords world after)
    (hs : after.streams = world.streams) (ha : after.activeBySession = world.activeBySession)
    (ho : after.openingSessions = world.openingSessions)
    (hf : ∀ id ∈ after.finished, ∃ record, world.records id = some record) :
    Tables streamId begun after := by
  refine ⟨fun id record hrecord => ?_, fun s id => ?_, fun id hin => ?_, fun s n hopening => ?_,
    fun id hin => ?_⟩
  · obtain ⟨stored, hstored, hsame⟩ := hr.earlier hrecord
    rw [hsame.streamId, hsame.openedBy]
    exact h.named id stored hstored
  · rw [ha, hr.registered_iff hs]
    exact h.inverse s id
  · rw [hs] at hin
    obtain ⟨stored, hstored⟩ := h.known id hin
    obtain ⟨record, hrecord, _⟩ := hr.later hstored
    exact ⟨record, hrecord⟩
  · rw [ho] at hopening
    rw [ha]
    exact h.apart s n hopening
  · obtain ⟨stored, hstored⟩ := hf id hin
    obtain ⟨record, hrecord, _⟩ := hr.later hstored
    exact ⟨record, hrecord⟩

theorem Tables.session_of {s id : String} {record : OutputStream} (h : Tables streamId begun world)
    (hactive : world.activeBySession s = some id) (hrecord : world.records id = some record) :
    record.state.sessionId = s := by
  obtain ⟨_, found, hfound, hsession⟩ := (h.inverse s id).mp hactive
  rw [hrecord] at hfound
  cases hfound
  exact hsession

/-- A release takes a stream that has a record out of both tables. -/
theorem Tables.release (h : Tables streamId begun world) {id : String} {record stored : OutputStream}
    (hstored : world.records id = some stored) (hid : record.state.streamId = id)
    (hsession : record.state.sessionId = stored.state.sessionId) :
    Tables streamId begun (release world record) := by
  have hactive : ∀ s other, (VoiceOutputBridge.release world record).activeBySession s = some other ↔
      world.activeBySession s = some other ∧ other ≠ id := by
    intro s other
    unfold VoiceOutputBridge.release
    rw [hid, hsession]
    simp only
    split
    next hheld =>
      by_cases hs : s = stored.state.sessionId
      · rw [hs, Function.update_self, hheld]
        refine iff_of_false (by simp) ?_
        rintro ⟨heq, hne⟩
        exact hne (Option.some.inj heq).symm
      · rw [Function.update_of_ne hs]
        refine (and_iff_left_of_imp fun hother heq => hs ?_).symm
        rw [heq] at hother
        exact (h.session_of hother hstored).symm
    next hfree =>
      refine (and_iff_left_of_imp fun hother heq => hfree ?_).symm
      rw [heq] at hother
      rw [h.session_of hother hstored]
      exact hother
  have hregistered : ∀ s other, Registered (VoiceOutputBridge.release world record) other s ↔
      Registered world other s ∧ other ≠ id := by
    intro s other
    unfold Registered VoiceOutputBridge.release
    rw [hid]
    simp only [List.mem_filter, decide_eq_true_eq]
    exact and_right_comm
  refine ⟨h.named, fun s other => ?_, fun other hin => ?_, fun s n hopening => ?_, h.ended⟩
  · rw [hactive, hregistered, h.inverse]
  · exact h.known other (List.mem_filter.mp hin).1
  · have hnone := h.apart s n hopening
    by_contra hsome
    obtain ⟨other, hother⟩ := Option.ne_none_iff_exists'.mp hsome
    rw [((hactive s other).mp hother).1] at hnone
    cases hnone

theorem Tables.change (h : Tables streamId begun world) (hc : Change strict world after) :
    Tables streamId begun after := by
  cases hc with
  | record id f hf => exact h.same (setRecord_same hf) rfl rfl rfl h.ended
  | @close id record stored hstored hid hsession =>
    have hsame : SameRecords world (setRecord world id fun state => { state with closed := true }) :=
      setRecord_same fun _ => ⟨rfl, rfl, rfl, rfl⟩
    have hmarked : Tables streamId begun
        (setRecord world id fun state => { state with closed := true }) :=
      h.same hsame rfl rfl rfl h.ended
    obtain ⟨closed, hclosed, hkept⟩ := hsame.later hstored
    have hreleased := hmarked.release hclosed (hid.trans (h.named id stored hstored).1)
      (hsession.trans hkept.sessionId.symm)
    refine hreleased.same (.refl _) rfl rfl rfl fun other hother => ?_
    rcases List.mem_cons.mp hother with rfl | hin
    · exact ⟨closed, hclosed⟩
    · exact hreleased.ended other hin
  | @finish id record hrecord =>
    refine h.same (.refl world) rfl rfl rfl fun other hother => ?_
    rcases List.mem_cons.mp hother with rfl | hin
    · exact ⟨record, hrecord⟩
    · exact h.ended other hin
  | voice => exact h.same (.refl world) rfl rfl rfl h.ended

theorem Change.opening (h : Change strict world after) : after.openingSessions = world.openingSessions := by
  cases h with
  | record | close | finish | voice => rfl

/-- What a segment that opens nothing keeps. -/
theorem Tables.changes (h : Tables streamId begun world)
    (hc : ReflTransGen (Change strict) world after) :
    Tables streamId begun after ∧ after.openingSessions = world.openingSessions ∧
      ∀ id, world.records id = none → after.records id = none := by
  induction hc with
  | refl => exact ⟨h, rfl, fun _ hnone => hnone⟩
  | tail _ hc ih =>
    obtain ⟨htables, hopening, hrecords⟩ := ih
    refine ⟨htables.change hc, hc.opening.trans hopening, fun id hnone => ?_⟩
    by_contra hsome
    obtain ⟨record, hrecord⟩ := Option.ne_none_iff_exists'.mp hsome
    obtain ⟨stored, hstored, _⟩ := hc.records.earlier hrecord
    rw [hrecords id hnone] at hstored
    cases hstored

theorem Tables.mono {later : Nat} (h : Tables streamId begun world) (hle : begun ≤ later) :
    Tables streamId later world :=
  ⟨fun id record hrecord => ⟨(h.named id record hrecord).1, (h.named id record hrecord).2.1,
    (h.named id record hrecord).2.2.trans_le hle⟩, h.inverse, h.known, h.apart, h.ended⟩

theorem opening_none {point : OutputPoint} (h : point.isOpen = false) : point.opening = none := by
  cases point with
  | fetching => cases h
  | _ => simpa [OutputPoint.isOpen] using h

/-- A segment that opens nothing, of a call that has nothing reserved. -/
theorem Tables.segment {segment : Segment} {point : Option OutputPoint}
    (h : Tables streamId begun world) (hc : ReflTransGen (Change strict) world segment.1)
    (hnext : ∀ next, segment.2 = some next → next.isOpen = false)
    (hknows : Knows streamId world n point) (hpoint : point.bind OutputPoint.opening = none) :
    (outline streamId).Segment begun n world segment := by
  obtain ⟨htables, hopening, hrecords⟩ := h.changes hc
  refine ⟨htables, ⟨fun s m _ => by rw [hopening], fun id _ => hrecords id⟩, fun s => ?_,
    fun at_ hat hopen => ?_⟩
  · rw [hopening, hknows.opening s, hpoint]
    cases hsegment : segment.2 with
    | none => exact Iff.rfl
    | some next => rw [Option.bind_some, opening_none (hnext next hsegment)]
  · rw [hnext at_ hat] at hopen
    cases hopen

theorem Follows.isOpen {point next : OutputPoint} (h : point.Follows next)
    (hopen : point.isOpen = false) : next.isOpen = false := by
  cases h with
  | same => exact hopen
  | settles h => exact h.isOpen
  | pulled => rfl
  | pulls => rfl

theorem Enters.isOpen {next : OutputPoint} (h : Enters world next) : next.isOpen = false := by
  cases h with
  | settles h => exact h.isOpen
  | plays => rfl
  | speaks => rfl

/-- A point of `open` at which the session is reserved. -/
theorem isOpen_of_opening {point : OutputPoint} {opening : Opening}
    (h : point.opening = some opening) : point.isOpen = true := by
  cases point with
  | fetching => rfl
  | _ => simp [OutputPoint.isOpen, h]

/-- The tables of a world whose voices changed. -/
theorem Tables.voices (h : Tables streamId begun world) (voice : String → VoiceSessionState) :
    Tables streamId begun { world with voice } :=
  h.same (.refl world) rfl rfl rfl h.ended

theorem Tables.discards (h : Tables streamId begun world) (s : String) :
    Tables streamId begun (discardOpening world s) := by
  refine ⟨h.named, h.inverse, h.known, fun other n hopening => ?_, h.ended⟩
  refine h.apart other n ?_
  by_cases hs : other = s
  · rw [hs] at hopening
    simp [discardOpening] at hopening
  · simpa only [discardOpening, Function.update_of_ne hs] using hopening

/-- The stream of a reserved session goes into both tables. -/
theorem Tables.registers (h : Tables streamId begun world) (hn : n < begun)
    {opening : Opening} (hheld : world.openingSessions opening.sessionId = some n)
    (hnew : world.records (streamId n) = none) :
    Tables streamId begun (register streamId n opening world) := by
  have hfree : world.activeBySession opening.sessionId = none := h.apart _ _ hheld
  have hold : ∀ id, id ∈ world.streams → id ≠ streamId n := by
    rintro id hin rfl
    obtain ⟨record, hrecord⟩ := h.known _ hin
    rw [hnew] at hrecord
    cases hrecord
  have hregistered : ∀ id s, Registered (register streamId n opening world) id s ↔
      Registered world id s ∨ id = streamId n ∧ s = opening.sessionId := by
    intro id s
    unfold Registered register discardOpening
    simp only [List.mem_append, List.mem_singleton]
    by_cases hid : id = streamId n
    · rw [hid, Function.update_self]
      constructor
      · rintro ⟨_, record, hrecord, hsession⟩
        cases hrecord
        exact .inr ⟨rfl, hsession.symm⟩
      · rintro (⟨hin, _⟩ | ⟨_, hsession⟩)
        · exact absurd rfl (hold _ hin)
        · exact ⟨.inr rfl, _, rfl, hsession.symm⟩
    · rw [Function.update_of_ne hid]
      simp only [hid, or_false, false_and]
  have hactive : ∀ s id, (register streamId n opening world).activeBySession s = some id ↔
      world.activeBySession s = some id ∨ id = streamId n ∧ s = opening.sessionId := by
    intro s id
    unfold register discardOpening
    by_cases hs : s = opening.sessionId
    · rw [hs, hfree]
      simp [eq_comm]
    · simp only [Function.update_of_ne hs, hs, and_false, or_false]
  refine ⟨fun id record hrecord => ?_, fun s id => ?_, fun id hin => ?_, fun s m hopening => ?_,
    fun id hin => ?_⟩
  · by_cases hid : id = streamId n
    · rw [hid] at hrecord ⊢
      simp only [register, discardOpening, Function.update_self, Option.some.injEq] at hrecord
      rw [← hrecord]
      exact ⟨rfl, rfl, hn⟩
    · simp only [register, discardOpening, Function.update_of_ne hid] at hrecord
      exact h.named id record hrecord
  · rw [hactive, hregistered, h.inverse]
  · have hregister : ∃ s, Registered (register streamId n opening world) id s := by
      rcases List.mem_append.mp hin with hin | hin
      · obtain ⟨record, hrecord⟩ := h.known id hin
        exact ⟨_, (hregistered id record.state.sessionId).mpr (.inl ⟨hin, record, hrecord, rfl⟩)⟩
      · exact ⟨_, (hregistered id opening.sessionId).mpr (.inr ⟨List.mem_singleton.mp hin, rfl⟩)⟩
    obtain ⟨s, _, record, hrecord, _⟩ := hregister
    exact ⟨record, hrecord⟩
  · have hother : s ≠ opening.sessionId := by
      rintro rfl
      simp [register, discardOpening] at hopening
    have hopened : world.openingSessions s = some m := by
      simpa only [register, discardOpening, Function.update_of_ne hother] using hopening
    simp only [register, discardOpening, Function.update_of_ne hother]
    exact h.apart s m hopened
  · obtain ⟨record, hrecord⟩ := h.ended id hin
    have hid : id ≠ streamId n := by
      rintro rfl
      rw [hnew] at hrecord
      cases hrecord
    refine ⟨record, ?_⟩
    simpa only [register, discardOpening, Function.update_of_ne hid] using hrecord

/-- With its reservation a call of `open` leaves the table of opening sessions. -/
theorem discards_opening {point : OutputPoint} {opening : Opening}
    (hpoint : point.opening = some opening) (hknows : Knows streamId world n (some point)) :
    (∀ s, Function.update world.openingSessions opening.sessionId none s ≠ some n) ∧
      ∀ s m, m ≠ n → (Function.update world.openingSessions opening.sessionId none s = some m ↔
        world.openingSessions s = some m) := by
  have hheld : ∀ s, world.openingSessions s = some n ↔ opening.sessionId = s := by
    intro s
    rw [hknows.opening s, Option.bind_some, hpoint]
    simp
  refine ⟨fun s => ?_, fun s m hm => ?_⟩
  · by_cases hs : s = opening.sessionId
    · rw [hs, Function.update_self]
      simp
    · rw [Function.update_of_ne hs]
      exact fun hopened => hs ((hheld s).mp hopened).symm
  · by_cases hs : s = opening.sessionId
    · rw [hs, Function.update_self, (hheld _).mpr rfl]
      simp [Ne.symm hm]
    · rw [Function.update_of_ne hs]

theorem Opens.segment {segment : Segment} {point : OutputPoint}
    (ho : Opens streamId n world point segment) (h : Tables streamId begun world) (hn : n < begun)
    (hopen : point.isOpen = true) (hknows : Knows streamId world n (some point)) :
    (outline streamId).Segment begun n world segment := by
  have hnew : world.records (streamId n) = none := hknows.unmade point rfl hopen
  cases ho with
  | stays => exact ⟨h, ⟨fun _ _ _ => Iff.rfl, fun _ _ => id⟩, hknows⟩
  | @waits _ next opening voice _ hpoint hnext =>
    refine ⟨h.voices voice, ⟨fun _ _ _ => Iff.rfl, fun _ _ => id⟩, fun s => ?_, fun _ _ _ => hnew⟩
    have hheld := hknows.opening s
    rw [Option.bind_some, hpoint, ← hnext] at hheld
    exact hheld
  | gone =>
    exact ⟨h, ⟨fun _ _ _ => Iff.rfl, fun _ _ => id⟩, hknows.opening,
      fun _ hat => (by cases hat)⟩
  | @reserved turnId asked opening hactive hfree hg =>
    have hnone : ∀ s, world.openingSessions s ≠ some n := by
      intro s hheld
      obtain ⟨_, hfetching, _⟩ := (hknows.opening s).mp hheld
      cases hfetching
    have hupdated : ∀ s m, Function.update world.openingSessions opening.sessionId (some n) s =
        some m ↔ s = opening.sessionId ∧ m = n ∨ world.openingSessions s = some m := by
      intro s m
      by_cases hs : s = opening.sessionId
      · rw [hs, Function.update_self, hfree]
        simp [eq_comm]
      · rw [Function.update_of_ne hs]
        simp [hs]
    refine ⟨⟨h.named, h.inverse, h.known, fun s m hopening => ?_, h.ended⟩,
      ⟨fun s m hm => ?_, fun _ _ => id⟩, fun s => ?_, fun _ _ _ => hnew⟩
    · rcases (hupdated s m).mp hopening with ⟨rfl, _⟩ | hopening
      · exact hactive
      · exact h.apart s m hopening
    · exact (hupdated s m).trans (or_iff_right fun hnew => hm hnew.2)
    · refine (hupdated s n).trans ?_
      rw [or_iff_left (hnone s)]
      constructor
      · rintro ⟨rfl, _⟩
        exact ⟨opening, rfl, rfl⟩
      · rintro ⟨_, heq, rfl⟩
        cases heq
        exact ⟨rfl, rfl⟩
  | @dropped _ opening voice _ hpoint =>
    obtain ⟨hgone, hothers⟩ := discards_opening hpoint hknows
    exact ⟨(h.voices voice).discards _, ⟨fun s m hm => hothers s m hm, fun _ _ => id⟩,
      fun s => iff_of_false (hgone s) (by simp [ends]), fun _ hat => (by cases hat)⟩
  | @registered _ opening voice _ hpoint =>
    have hheld : world.openingSessions opening.sessionId = some n :=
      (hknows.opening _).mpr ⟨opening, hpoint, rfl⟩
    obtain ⟨hgone, hothers⟩ := discards_opening hpoint hknows
    refine ⟨(h.voices voice).registers hn hheld hnew, ⟨fun s m hm => hothers s m hm,
      fun id hid hnone => ?_⟩, fun s => iff_of_false (hgone s) (by simp [ends]),
      fun _ hat => (by cases hat)⟩
    simpa only [ends, register, discardOpening, Function.update_of_ne hid] using hnone

/-- No stream of an ended call is in the tables. -/
def Released (world : OutputWorld) : Prop :=
  ∀ id ∈ world.finished, id ∉ world.streams

theorem Change.released (hc : Change true world after) (h : Tables streamId begun world)
    (hr : Released world) : Released after := by
  cases hc with
  | record => exact hr
  | @close id record stored hstored hid hsession =>
    intro other hother hin
    obtain ⟨hold, hne⟩ := List.mem_filter.mp hin
    rcases List.mem_cons.mp hother with rfl | hfinished
    · exact of_decide_eq_true hne (hid.trans (h.named other stored hstored).1).symm
    · exact hr other hfinished hold
  | @finish id record hrecord hid =>
    intro other hother
    rcases List.mem_cons.mp hother with rfl | hfinished
    · exact hid rfl
    · exact hr other hfinished
  | voice => exact hr

theorem Released.changes (hr : Released world) (h : Tables streamId begun world)
    (hc : ReflTransGen (Change true) world after) : Released after := by
  have hboth : Tables streamId begun after ∧ Released after := by
    induction hc with
    | refl => exact ⟨h, hr⟩
    | tail _ hc ih => exact ⟨ih.1.change hc, hc.released ih.1 ih.2⟩
  exact hboth.2

/-- A segment of `speech_started` touches no table. -/
theorem Speaks.tables [CanonicalDigest] {segment : Segment} {point : OutputPoint}
    (hs : Speaks n world point segment) :
    segment.1.records = world.records ∧ segment.1.streams = world.streams ∧
      segment.1.activeBySession = world.activeBySession ∧
      segment.1.openingSessions = world.openingSessions ∧
      segment.1.finished = world.finished ∧
      ∀ next, segment.2 = some next → next = point ∨ next.isOpen = false := by
  cases hs with
  | stays => exact ⟨rfl, rfl, rfl, rfl, rfl, fun next hnext => .inl (Option.some.inj hnext).symm⟩
  | raised => exact ⟨rfl, rfl, rfl, rfl, rfl, fun next hnext => (by cases hnext)⟩
  | heard => exact ⟨rfl, rfl, rfl, rfl, rfl, fun next hnext => .inr (by cases hnext; rfl)⟩
  | returned => exact ⟨rfl, rfl, rfl, rfl, rfl, fun next hnext => (by cases hnext)⟩

theorem Opens.released {segment : Segment} {point : OutputPoint}
    (ho : Opens streamId n world point segment) (h : Tables streamId begun world)
    (hnew : world.records (streamId n) = none) (hr : Released world) : Released segment.1 := by
  cases ho with
  | stays => exact hr
  | waits => exact hr
  | gone => exact hr
  | reserved => exact hr
  | dropped => exact hr
  | registered =>
    intro id hfinished hin
    rcases List.mem_append.mp hin with hin | hin
    · exact hr id hfinished hin
    · obtain ⟨record, hrecord⟩ := h.ended id hfinished
      rw [List.mem_singleton.mp hin, hnew] at hrecord
      cases hrecord

section

variable [CanonicalDigest] (providerId : String)

omit [CanonicalDigest] in
/-- A call that ends without a release, while its stream is in the tables. -/
theorem leaks_finished {id : String} (hin : id ∈ world.streams) : ¬Released (finish world id) :=
  fun hr => hr id List.mem_cons_self hin

omit [CanonicalDigest] in
theorem afterMark_leaks {id : String} {record : OutputStream} {canceller : Canceller}
    (hc : canceller ≠ .chunks) (hin : id ∈ world.streams) :
    ¬Released (afterMark id record true canceller world).1 := by
  cases canceller with
  | chunks => exact absurd rfl hc
  | cancelActive => exact leaks_finished hin
  | close => exact leaks_finished hin
  | closeAll rest => exact leaks_finished hin

omit [CanonicalDigest] in
theorem afterVoice_leaks {sessionId : String} {after : AfterVoice} {reply : AwaitReply}
    (hknown : ∀ id ∈ world.streams, ∃ record, world.records id = some record)
    (hl : ¬LeavesNone world reply.isReturned after) :
    ¬Released (afterVoice providerId streamId n sessionId after reply world).1 := by
  cases after with
  | markedCancelled id raised canceller =>
    obtain ⟨hc, hraised, hin⟩ : canceller ≠ .chunks ∧
        (raised = true ∨ reply.isReturned = false) ∧ id ∈ world.streams := by
      simpa [LeavesNone] using hl
    obtain ⟨record, hrecord⟩ := hknown id hin
    unfold afterVoice
    simp only [hrecord]
    split
    next =>
      rw [hraised.resolve_right (by simp [AwaitReply.isReturned])]
      exact afterMark_leaks hc hin
    next => exact afterMark_leaks hc hin
  | chunksCompleted id =>
    obtain ⟨hraised, hin⟩ : reply.isReturned = false ∧ id ∈ world.streams := by
      simpa [LeavesNone] using hl
    obtain ⟨record, hrecord⟩ := hknown id hin
    unfold afterVoice
    simp only [hrecord]
    split
    next => cases hraised
    next => exact leaks_finished hin
  | _ => exact absurd trivial hl

omit [CanonicalDigest] in
/-- The provider could not cancel, and the turn is not the voice's active one. -/
theorem providerCancelled_leaks {id reason : String} {record : OutputStream}
    {canceller : Canceller} {reply : AwaitReply}
    (hidle : (world.voice record.state.sessionId).activeTtsTurnId ≠ some record.state.turnId)
    (hc : canceller ≠ .chunks) (hin : id ∈ world.streams)
    (hreply : reply = .cancelled ∨ ∃ failure, reply = .raised failure) :
    ¬Released (providerCancelled id reason record canceller reply world).1 := by
  unfold providerCancelled
  rcases hreply with rfl | ⟨failure, rfl⟩
  · simp only [if_neg hidle]
    exact afterMark_leaks hc hin
  · simp only [if_neg hidle]
    exact afterMark_leaks hc hin

theorem resume_leaks {point : OutputPoint} {reply : AwaitReply}
    (hknown : ∀ id ∈ world.streams, ∃ record, world.records id = some record)
    (hl : ¬StepLeavesNone world point reply) :
    ¬Released (resume providerId streamId n point reply world).1 := by
  unfold StepLeavesNone at hl
  split at hl
  next id reason canceller failure =>
    push Not at hl
    obtain ⟨record, hrecord, hidle, hc, hin⟩ := hl
    simp only [resume, hrecord]
    exact providerCancelled_leaks hidle hc hin (.inr ⟨failure, rfl⟩)
  next id reason canceller =>
    push Not at hl
    obtain ⟨record, hrecord, hidle, hc, hin⟩ := hl
    simp only [resume, hrecord]
    exact providerCancelled_leaks hidle hc hin (.inl rfl)
  next sessionId operation after call => exact afterVoice_leaks providerId hknown hl
  next sessionId operation after session call =>
    obtain ⟨hrefused, hl⟩ := Classical.not_imp.mp hl
    have hvoiced : ¬LeavesNone (setVoice world sessionId
        (voiceSegment call session operation (world.voice sessionId)).2) false after := by
      cases after with
      | markedCancelled => exact hl
      | chunksCompleted => exact hl
      | _ => exact absurd trivial hl
    simp only [resume, voiceLoaded, hrefused, Bool.false_eq_true, if_false]
    exact afterVoice_leaks providerId hknown hvoiced
  next sessionId operation persisting after failure =>
    cases persisting with
    | false => exact afterVoice_leaks providerId hknown hl
    | true => exact afterVoice_leaks providerId hknown hl
  next sessionId operation persisting after =>
    cases persisting with
    | false => exact afterVoice_leaks providerId hknown hl
    | true => exact afterVoice_leaks providerId hknown hl
  next sessionId operation after => exact afterVoice_leaks providerId hknown hl
  next => exact absurd trivial hl

theorem enter_holds {state : OutputState} (h : (outline streamId).Holds state)
    (hid : Function.Injective streamId) (call : OutputCall) :
    (outline streamId).Segment (state.begun + 1) state.begun state.world
      (enter state.begun call state.world) := by
  have htables : Tables streamId state.begun state.world := h.shared
  have hknows : Knows streamId state.world state.begun none := by
    rw [← h.begun state.begun (Nat.le_refl _)]
    exact h.knows state.begun
  by_cases hopen : ∃ sessionId turnId locale, call = .open_ sessionId turnId locale
  · obtain ⟨sessionId, turnId, locale, rfl⟩ := hopen
    refine ⟨htables.mono (Nat.le_succ _), ⟨fun _ _ _ => Iff.rfl, fun _ _ => id⟩, hknows.opening,
      fun _ _ _ => ?_⟩
    by_contra hsome
    obtain ⟨record, hrecord⟩ := Option.ne_none_iff_exists'.mp hsome
    obtain ⟨_, hnamed, hlt⟩ := htables.named _ record hrecord
    exact absurd (hid hnamed) hlt.ne'
  · obtain ⟨hchanges, henters⟩ := enter_quiet false state.world state.begun
      fun sessionId turnId locale heq => hopen ⟨sessionId, turnId, locale, heq⟩
    exact (htables.mono (Nat.le_succ _)).segment hchanges
      (fun next hnext => (henters next hnext).isOpen) hknows rfl

theorem resume_holds {point : OutputPoint} (h : Tables streamId begun world) (hn : n < begun)
    (hknows : Knows streamId world n (some point)) (reply : AwaitReply) :
    (outline streamId).Segment begun n world
      (resume providerId streamId n point reply world) := by
  cases hopen : point.isOpen with
  | true => exact (resume_opens providerId streamId world n reply hopen).segment h hn hopen hknows
  | false =>
    cases hspeech : point.isSpeech with
    | true =>
      obtain ⟨hrecords, hstreams, hactive, hopening, hfinished, hnext⟩ :=
        (resume_speaks providerId streamId world n reply hspeech).tables
      have hsame : SameRecords world (resume providerId streamId n point reply world).1 := by
        intro id
        rw [hrecords]
        exact SameRecords.refl world id
      have hquiet : ∀ next, (resume providerId streamId n point reply world).2 = some next →
          next.isOpen = false := by
        intro next hafter
        rcases hnext next hafter with rfl | hnext
        · exact hopen
        · exact hnext
      refine ⟨h.same hsame hstreams hactive hopening (by rw [hfinished]; exact h.ended),
        ⟨fun s m _ => by rw [hopening], fun id _ hnone => by rw [hrecords]; exact hnone⟩,
        fun s => ?_, fun at_ hat hat_open => ?_⟩
      · rw [hopening, hknows.opening s, Option.bind_some, opening_none hopen]
        cases hafter : (resume providerId streamId n point reply world).2 with
        | none => exact Iff.rfl
        | some next => rw [Option.bind_some, opening_none (hquiet next hafter)]
      · rw [hquiet at_ hat] at hat_open
        cases hat_open
    | false =>
      have hquiet : Quiet false point world (resume providerId streamId n point reply world) :=
        resume_quiet providerId streamId hopen hspeech fun hstrict => (by cases hstrict)
      exact h.segment hquiet.changes
        (fun next hnext => Follows.isOpen (hquiet.follows next hnext) hopen) hknows
        (opening_none hopen)

theorem act_holds {state : OutputState} (h : (outline streamId).Holds state)
    (hid : Function.Injective streamId) (action : Action OutputCall AwaitReply) :
    (outline streamId).Holds ((program providerId streamId).act state action) := by
  refine h.act (outline_stable hid) (fun call _ => enter_holds h hid call) ?_
  rintro n reply point rfl hpoint
  have hknows : Knows streamId state.world n (some point) := by
    rw [← hpoint]
    exact h.knows n
  exact resume_holds providerId h.shared (h.lt_begun hpoint) hknows reply

/-- A step keeps the streams of ended calls out of the tables exactly when no call ends without a
release while its stream is there. -/
theorem act_released_iff {state : OutputState} (h : (outline streamId).Holds state)
    (hr : Released state.world) (action : Action OutputCall AwaitReply) :
    Released ((program providerId streamId).act state action).world ↔ Releases state action := by
  have htables : Tables streamId state.begun state.world := h.shared
  cases action with
  | enter call =>
    refine iff_of_true ?_ trivial
    by_cases hopen : ∃ sessionId turnId locale, call = .open_ sessionId turnId locale
    · obtain ⟨sessionId, turnId, locale, rfl⟩ := hopen
      exact hr
    · obtain ⟨hchanges, _⟩ := enter_quiet true state.world state.begun
        fun sessionId turnId locale heq => hopen ⟨sessionId, turnId, locale, heq⟩
      exact hr.changes htables hchanges
  | resume n reply =>
    cases hpoint : state.tasks n with
    | none =>
      rw [Program.act_gone _ hpoint]
      refine iff_of_true hr fun point hsome => ?_
      rw [hpoint] at hsome
      cases hsome
    | some point =>
      rw [Program.act_suspended _ hpoint]
      have hknows : Knows streamId state.world n (some point) := by
        rw [← hpoint]
        exact h.knows n
      constructor
      · intro hreleased other hother
        rw [hpoint] at hother
        cases hother
        by_contra hl
        exact resume_leaks providerId htables.known hl hreleased
      · intro hl
        cases hopen : point.isOpen with
        | true =>
          have hopens := resume_opens providerId streamId state.world n reply hopen
          exact hopens.released htables (hknows.unmade point rfl hopen) hr
        | false =>
          cases hspeech : point.isSpeech with
          | true =>
            obtain ⟨_, hstreams, _, _, hfinished, _⟩ :=
              (resume_speaks providerId streamId state.world n reply hspeech).tables
            intro id hid
            rw [show (program providerId streamId).resume n point reply state.world =
              resume providerId streamId n point reply state.world from rfl] at hid ⊢
            rw [hfinished] at hid
            rw [hstreams]
            exact hr id hid
          | false =>
            have hquiet : Quiet true point state.world
                (resume providerId streamId n point reply state.world) :=
              resume_quiet providerId streamId hopen hspeech fun _ => hl point hpoint
            exact hr.changes htables hquiet.changes

omit [CanonicalDigest] in
theorem consistent_iff {state : OutputState} (h : (outline streamId).Holds state) :
    Consistent state ↔ Released state.world := by
  have htables : Tables streamId state.begun state.world := h.shared
  have hopening : ∀ s n, state.world.openingSessions s = some n ↔ IsOpening state n s := by
    intro s n
    have hknows : Knows streamId state.world n (state.tasks n) := h.knows n
    rw [hknows.opening s]
    constructor
    · rintro ⟨opening, hpoint, hsession⟩
      obtain ⟨point, htask, hopening⟩ := Option.bind_eq_some_iff.mp hpoint
      exact ⟨point, opening, htask, hopening, hsession⟩
    · rintro ⟨point, opening, htask, hpoint, hsession⟩
      exact ⟨opening, by rw [htask, Option.bind_some, hpoint], hsession⟩
  constructor
  · intro hconsistent id hid
    exact (hconsistent.released id hid).1
  · intro hr
    refine ⟨hopening, htables.inverse, fun s n id hopened hregistered => ?_,
      fun s id other hone hother => ?_, fun s n m hone hother => ?_, fun id hfinished =>
        ⟨hr id hfinished, fun s hactive => ?_⟩⟩
    · have hnone := htables.apart s n ((hopening s n).mpr hopened)
      rw [(htables.inverse s id).mpr hregistered] at hnone
      cases hnone
    · have hheld := (htables.inverse s id).mpr hone
      rw [(htables.inverse s other).mpr hother] at hheld
      exact (Option.some.inj hheld).symm
    · have hheld := (hopening s n).mpr hone
      rw [(hopening s m).mpr hother] at hheld
      exact (Option.some.inj hheld).symm
    · exact hr id hfinished ((htables.inverse s id).mp hactive).1

omit [CanonicalDigest] in
theorem empty_holds : (outline streamId).Holds { world := {} } := by
  refine ⟨⟨fun id record hrecord => (by cases hrecord), fun s id => ?_, fun id hin => (by cases hin),
    fun s n hopening => (by cases hopening), fun id hin => (by cases hin)⟩, fun n => ?_, fun _ _ => rfl⟩
  · refine iff_of_false (by simp) ?_
    rintro ⟨hin, _⟩
    cases hin
  · exact ⟨fun s => iff_of_false (by simp) (by simp), fun _ hat => (by cases hat)⟩

/-- The tables are consistent throughout a run exactly when no call ends without a release while its
stream is in them. -/
theorem tables_consistent_iff (hid : Function.Injective streamId)
    (actions : List (Action OutputCall AwaitReply)) :
    (program providerId streamId).Always Consistent { world := {} } actions ↔
      (program providerId streamId).Throughout Releases { world := {} } actions := by
  have hempty : (outline streamId).Holds { world := {} } := empty_holds
  have hstart : Consistent { world := {} } :=
    (consistent_iff hempty).mpr fun id hin => (by cases hin)
  refine Program.always_iff_throughout (J := (outline streamId).Holds) _ (fun state action h _ _ =>
    act_holds providerId h hid action) (fun state action h hc => ?_) hempty hstart actions
  have hreleased := act_released_iff providerId h ((consistent_iff h).mp hc) action
  constructor
  · intro hnext
    exact hreleased.mp fun id hfinished => (hnext.released id hfinished).1
  · intro hl
    exact (consistent_iff (act_holds providerId h hid action)).mpr (hreleased.mpr hl)

end

section Runs

attribute [local instance] checksumDigest

/-- A running session with one question. -/
def askedSession : InterviewSession where
  id := "session"
  createdAt := 0
  jobId := "job"
  candidateRef := "candidate"
  locale := "en"
  status := .running
  turns := [{ id := "turn-0", speaker := .interviewer, text := "Describe a cache you built." }]

/-- The ids `s`, `ss`, `sss` and so on. -/
def spelledId (n : Nat) : String :=
  String.ofList (List.replicate (n + 1) 's')

theorem spelledId_injective : Function.Injective spelledId := by
  intro n m h
  have hlength := congrArg (fun id : String => id.toList.length) h
  simpa [spelledId] using hlength

def gets (session : InterviewSession) : AwaitReply := .session (some session) RealtimeVoiceCoordinator.plainVoice

/-- Two calls of `open` for one session; the second finds it reserved. -/
def openedTwice : List (Action OutputCall AwaitReply) := [
  .enter (.open_ "session" "turn-0" none), .resume 0 (gets askedSession),
  .enter (.open_ "session" "turn-0" none), .resume 1 (gets askedSession)]

theorem tables_consistent_twice :
    (program "tts" spelledId).Always Consistent { world := {} } openedTwice := by
  refine (tables_consistent_iff "tts" spelledId_injective openedTwice).mpr
    ⟨trivial, fun point hpoint => ?_, trivial, fun point hpoint => ?_, trivial⟩
  · cases hpoint
    trivial
  · cases hpoint
    trivial

def plainChunk : TtsAudioChunk where
  sequence := 0
  generation := 0
  audio := [0]

/-- A stream is opened and read to its end, and the write of `tts_completed` fails. -/
def lostCompletion : List (Action OutputCall AwaitReply) := [
  .enter (.open_ "session" "turn-0" none), .resume 0 (gets askedSession), .resume 0 .returned,
  .resume 0 (gets askedSession), .resume 0 .returned,
  .resume 0 (gets askedSession), .resume 0 .returned,
  .enter (.chunks (spelledId 0)), .resume 1 (.chunk plainChunk), .resume 1 .next,
  .resume 1 .exhausted, .resume 1 (gets askedSession),
  .resume 1 (.raised { typeName := "HTTPException", message := "409" })]

theorem completed_stream_kept :
    ¬(program "tts" spelledId).Always Consistent { world := {} } lostCompletion := by
  intro h
  have hlast := (Program.Always.last _ h).released (spelledId 0)
  have hkept : (spelledId 0 ∈ (lostCompletion.foldl (program "tts" spelledId).act
      { world := {} }).world.finished ∧ spelledId 0 ∈ (lostCompletion.foldl
        (program "tts" spelledId).act { world := {} }).world.streams) := by decide +kernel
  exact (hlast hkept.1).1 hkept.2

end Runs

end VoiceOutputBridge

end NoraInterviewer
