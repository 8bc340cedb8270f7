import NoraInterviewer.Execution

namespace NoraInterviewer

open ExceptRules HashChain

namespace Json

mutual

/-- What `json.dumps(value, sort_keys=True)` sees of a value: the keys of every object in order. -/
def canonical : Json → Json
  | null => null
  | bool value => bool value
  | num value => num value
  | str value => str value
  | arr items => arr (canonicalItems items)
  | obj fields => obj ((canonicalFields fields).mergeSort fun a b => a.1 ≤ b.1)

def canonicalItems : List Json → List Json
  | [] => []
  | item :: rest => canonical item :: canonicalItems rest

def canonicalFields : List (String × Json) → List (String × Json)
  | [] => []
  | (key, value) :: rest => (key, canonical value) :: canonicalFields rest

end

theorem canonicalFields_eq (fields : List (String × Json)) :
    canonicalFields fields = fields.map fun field => (field.1, canonical field.2) := by
  induction fields with
  | nil => rfl
  | cons field rest ih => rw [canonicalFields, ih, List.map_cons]

/-- Objects with the same canonical form have the same members, up to their canonical forms. -/
theorem canonical_lookup {fields fields' : List (String × Json)}
    (h : (obj fields).canonical = (obj fields').canonical)
    (hk' : (fields'.map Prod.fst).Nodup) (key : String) {value value' : Json}
    (hv : (key, value) ∈ fields) (hv' : (key, value') ∈ fields') :
    value.canonical = value'.canonical := by
  simp only [canonical, obj.injEq, canonicalFields_eq] at h
  have hsort := List.mergeSort_perm (fields.map fun field => (field.1, canonical field.2))
    (fun a b => a.1 ≤ b.1)
  rw [h] at hsort
  have hperm := hsort.symm.trans (List.mergeSort_perm _ _)
  have hmem : (key, value.canonical) ∈ fields'.map fun field => (field.1, canonical field.2) :=
    hperm.mem_iff.mp (List.mem_map.mpr ⟨_, hv, rfl⟩)
  obtain ⟨⟨key', value''⟩, hmem', he⟩ := List.mem_map.mp hmem
  obtain ⟨rfl, hc⟩ := Prod.mk.inj he
  have hl := (Dict.mem_iff_lookup hk' _ _).mp hmem'
  have hl' := (Dict.mem_iff_lookup hk' _ _).mp hv'
  rw [hl] at hl'
  cases hl'
  exact hc.symm

end Json

def EventType.all : List EventType := [
  .sessionCreated, .interviewStarted, .interviewerTurn, .candidateTurn, .candidateControl,
  .transcriptCorrected, .appealSubmitted, .appealReviewed, .evidenceObserved,
  .evidenceJudgeFailed, .evidenceJudgeDisagreement, .evidenceJudgeRunRecorded,
  .evidenceSuperseded, .integritySignal, .integrityReviewed, .reviewAssigned, .reviewStarted,
  .reviewCompleted, .reviewAssignmentCancelled, .toolOpened, .toolSubmitted, .toolEvaluated,
  .toolCancelled, .voiceSpeechStarted, .voiceTranscriptPartial, .voiceTranscriptFinal,
  .voiceResponseReady, .voiceTtsStarted, .voiceTtsCompleted, .voiceTtsCancelled,
  .voiceBargeIn, .voiceProviderFailed, .voiceTransportSelected, .voiceTransportFallback,
  .voiceVadEndpoint, .artifactCreated, .artifactAccessed, .artifactDeleted,
  .webhookDelivery, .sessionCompleted, .sessionCancelled]

theorem EventType.find_value (type : EventType) :
    EventType.all.find? (fun other => other.value = type.value) = some type := by
  cases type <;> rfl

theorem EventType.value_injective : Function.Injective EventType.value := by
  intro type other h
  have hfind := type.find_value
  rw [h, other.find_value] at hfind
  exact (Option.some.inj hfind).symm

/-- Two events say the same, their payloads up to JSON normalisation. -/
structure SameRecord (event event' : InterviewEvent) : Prop where
  seq : event.seq = event'.seq
  type : event.type = event'.type
  turnId : event.turnId = event'.turnId
  payload : (Json.obj event.payload).canonical = (Json.obj event'.payload).canonical
  createdAt : event.createdAt = event'.createdAt
  prevHash : event.prevHash = event'.prevHash

theorem Json.canonical_nat_inj {m n : Nat} (h : (Json.nat m).canonical = (Json.nat n).canonical) :
    m = n := by
  simp only [Json.nat, Json.canonical, Json.num.injEq] at h
  exact_mod_cast h

theorem Json.canonical_ofOption_inj {s t : Option String}
    (h : (Json.ofOption s).canonical = (Json.ofOption t).canonical) : s = t := by
  cases s with
  | none =>
    cases t with
    | none => rfl
    | some t => cases h
  | some s =>
    cases t with
    | none => cases h
    | some t =>
      have hst : Json.str s = Json.str t := h
      rw [Json.str.inj hst]

/-- Every field of an event other than its own hash is in the hash material. -/
theorem hashMaterial_inj {event event' : InterviewEvent} {prevHash prevHash' : Option String}
    (h : (hashMaterial event prevHash).canonical = (hashMaterial event' prevHash').canonical) :
    prevHash = prevHash' ∧ event.seq = event'.seq ∧ event.type = event'.type ∧
      event.turnId = event'.turnId ∧ event.createdAt = event'.createdAt ∧
      (Json.obj event.payload).canonical = (Json.obj event'.payload).canonical := by
  have hprev : (Json.ofOption prevHash).canonical = (Json.ofOption prevHash').canonical :=
    Json.canonical_lookup h (by simp) "prev_hash" (by simp) (by simp)
  have hseq : (Json.nat event.seq).canonical = (Json.nat event'.seq).canonical :=
    Json.canonical_lookup h (by simp) "seq" (by simp) (by simp)
  have htype : (Json.str event.type.value).canonical = (Json.str event'.type.value).canonical :=
    Json.canonical_lookup h (by simp) "type" (by simp) (by simp)
  have hturn : (Json.ofOption event.turnId).canonical = (Json.ofOption event'.turnId).canonical :=
    Json.canonical_lookup h (by simp) "turn_id" (by simp) (by simp)
  have hcreated : (Json.nat event.createdAt).canonical = (Json.nat event'.createdAt).canonical :=
    Json.canonical_lookup h (by simp) "created_at" (by simp) (by simp)
  have hpayload : (Json.obj event.payload).canonical = (Json.obj event'.payload).canonical :=
    Json.canonical_lookup h (by simp) "payload" (by simp) (by simp)
  have hvalue : event.type.value = event'.type.value := by
    simp only [Json.canonical, Json.str.injEq] at htype
    exact htype
  exact ⟨Json.canonical_ofOption_inj hprev, Json.canonical_nat_inj hseq,
    EventType.value_injective hvalue, Json.canonical_ofOption_inj hturn,
    Json.canonical_nat_inj hcreated, hpayload⟩

section

variable [CanonicalDigest]

/-- SHA-256 after the canonical JSON encoding, taken to be injective: equal hashes come from
equal hash material, up to the order of object keys. -/
def DigestInjective : Prop :=
  ∀ event event' prevHash prevHash',
    computeEventHash event prevHash = computeEventHash event' prevHash' →
      (hashMaterial event prevHash).canonical = (hashMaterial event' prevHash').canonical

theorem DigestInjective.binds (h : DigestInjective) : Binds auditLinks fun event event' =>
    event.seq = event'.seq ∧ event.type = event'.type ∧ event.turnId = event'.turnId ∧
      event.createdAt = event'.createdAt ∧
      (Json.obj event.payload).canonical = (Json.obj event'.payload).canonical :=
  fun event event' prev prev' hd => hashMaterial_inj (h event event' prev prev' hd)

/-- A list which the verifier gives a head is a chain with that head. -/
theorem verifyEventChain_some {events : List InterviewEvent} {hash : String}
    (h : verifyEventChain events = .ok (some hash)) :
    Linked auditLinks none events ∧ HashChain.head auditLinks none events = some hash := by
  rw [verifyEventChain] at h
  split at h
  next =>
    split at h
    next => exact verifyFrom_ok h
    next => cases h
  next => cases h

/-- What a history may have become: shorter or longer, other at some position, or in another
order. The hash fields of the new list are arbitrary. -/
inductive Tampered (events : List InterviewEvent) : List InterviewEvent → Prop where
  | resized {others : List InterviewEvent} (h : others.length ≠ events.length) :
      Tampered events others
  | edited {others : List InterviewEvent} {i : Nat} {event other : InterviewEvent}
      (he : events[i]? = some event) (ho : others[i]? = some other) (h : ¬SameRecord event other) :
      Tampered events others
  | reordered {others : List InterviewEvent} (hp : others.Perm events) (h : others ≠ events) :
      Tampered events others

theorem same_records (hinj : DigestInjective) {events others : List InterviewEvent}
    {hash : String} (h : verifyEventChain events = .ok (some hash))
    (h' : verifyEventChain others = .ok (some hash)) : List.Forall₂ SameRecord events others := by
  obtain ⟨hl, hh⟩ := verifyEventChain_some h
  obtain ⟨hl', hh'⟩ := verifyEventChain_some h'
  have hagree := hl.agree auditLinks hinj.binds hl' (hh.trans hh'.symm)
  refine hagree.imp ?_
  rintro event other ⟨⟨hseq, htype, hturn, hcreated, hpayload⟩, hprev, _⟩
  exact ⟨hseq, htype, hturn, hpayload, hcreated, hprev⟩

theorem Tampered.detected (hinj : DigestInjective) {events others : List InterviewEvent}
    {hash : String} (h : verifyEventChain events = .ok (some hash)) (ht : Tampered events others) :
    verifyEventChain others ≠ .ok (some hash) := by
  intro h'
  have hsame := same_records hinj h h'
  cases ht with
  | resized hlen => exact hlen hsame.length_eq.symm
  | edited he ho hne =>
    obtain ⟨hi, rfl⟩ := List.getElem?_eq_some_iff.mp he
    obtain ⟨hi', rfl⟩ := List.getElem?_eq_some_iff.mp ho
    exact hne (hsame.get hi hi')
  | reordered hperm hne =>
    obtain ⟨hl, hh⟩ := verifyEventChain_some h
    obtain ⟨hl', hh'⟩ := verifyEventChain_some h'
    exact hne (hl.eq_of_perm auditLinks hinj.binds hl' (hh.trans hh'.symm) hperm)

/-- The head hash commits to the whole history. -/
theorem head_commits (hinj : DigestInjective) {events : List InterviewEvent} {hash : String}
    (h : verifyEventChain events = .ok (some hash)) :
    (∀ others : List InterviewEvent, verifyEventChain others = .ok (some hash) →
      others.length = events.length ∧
        ∀ (i : Nat) (event other : InterviewEvent), events[i]? = some event →
          others[i]? = some other → SameRecord event other) ∧
    ∀ others : List InterviewEvent,
      Tampered events others → verifyEventChain others ≠ .ok (some hash) := by
  refine ⟨fun others h' => ?_, fun others ht => ht.detected hinj h⟩
  have hsame := same_records hinj h h'
  refine ⟨hsame.length_eq.symm, fun i event other he ho => ?_⟩
  obtain ⟨hi, rfl⟩ := List.getElem?_eq_some_iff.mp he
  obtain ⟨hi', rfl⟩ := List.getElem?_eq_some_iff.mp ho
  exact hsame.get hi hi'

end

namespace Json

mutual

/-- A code in which no value's code is the beginning of another's. -/
def code : Json → List Nat
  | null => [0]
  | bool value => [1, value.toNat]
  | num value => [2, if value.num < 0 then 1 else 0, value.num.natAbs, value.den]
  | str value => 3 :: value.toList.length :: value.toList.map Char.toNat
  | arr items => 4 :: items.length :: codeItems items
  | obj fields => 5 :: fields.length :: codeFields fields

def codeItems : List Json → List Nat
  | [] => []
  | item :: rest => code item ++ codeItems rest

def codeFields : List (String × Json) → List Nat
  | [] => []
  | (key, value) :: rest =>
    key.toList.length :: key.toList.map Char.toNat ++ (code value ++ codeFields rest)

end

theorem string_code_inj {s t : String} {u v : List Nat} (hlen : s.toList.length = t.toList.length)
    (h : s.toList.map Char.toNat ++ u = t.toList.map Char.toNat ++ v) : s = t ∧ u = v := by
  obtain ⟨hchars, huv⟩ := List.append_inj h (by simpa using hlen)
  have hinj : Function.Injective Char.toNat := fun _ _ hc => Char.toNat_inj.mp hc
  exact ⟨String.toList_injective (hinj.list_map hchars), huv⟩

theorem num_code_inj {p q : ℚ}
    (hsign : (if p.num < 0 then 1 else 0) = if q.num < 0 then 1 else 0)
    (hnum : p.num.natAbs = q.num.natAbs) (hden : p.den = q.den) : p = q := by
  refine Rat.ext ?_ hden
  split at hsign <;> split at hsign <;> omega

mutual

theorem code_inj : ∀ (a b : Json) (u v : List Nat), code a ++ u = code b ++ v → a = b ∧ u = v := by
  intro a b u v h
  cases a with
  | null =>
    cases b with
    | null => exact ⟨rfl, (List.cons.inj h).2⟩
    | _ => simp [code] at h
  | bool value =>
    cases b with
    | bool value' =>
      simp only [code, List.cons_append, List.nil_append, List.cons.injEq, true_and] at h
      cases value <;> cases value' <;> simp_all
    | _ => simp [code] at h
  | num value =>
    cases b with
    | num value' =>
      simp only [code, List.cons_append, List.nil_append, List.cons.injEq, true_and] at h
      obtain ⟨hsign, hnum, hden, huv⟩ := h
      exact ⟨by rw [num_code_inj hsign hnum hden], huv⟩
    | _ => simp [code] at h
  | str value =>
    cases b with
    | str value' =>
      simp only [code, List.cons_append, List.cons.injEq, true_and] at h
      obtain ⟨hs, huv⟩ := string_code_inj h.1 h.2
      exact ⟨by rw [hs], huv⟩
    | _ => simp [code] at h
  | arr items =>
    cases b with
    | arr items' =>
      simp only [code, List.cons_append, List.cons.injEq, true_and] at h
      obtain ⟨hi, huv⟩ := codeItems_inj items items' u v h.1 h.2
      exact ⟨by rw [hi], huv⟩
    | _ => simp [code] at h
  | obj fields =>
    cases b with
    | obj fields' =>
      simp only [code, List.cons_append, List.cons.injEq, true_and] at h
      obtain ⟨hf, huv⟩ := codeFields_inj fields fields' u v h.1 h.2
      exact ⟨by rw [hf], huv⟩
    | _ => simp [code] at h

theorem codeItems_inj : ∀ (as bs : List Json) (u v : List Nat), as.length = bs.length →
    codeItems as ++ u = codeItems bs ++ v → as = bs ∧ u = v := by
  intro as bs u v hlen h
  cases as with
  | nil =>
    cases bs with
    | nil => exact ⟨rfl, h⟩
    | cons b bs => cases hlen
  | cons a as =>
    cases bs with
    | nil => cases hlen
    | cons b bs =>
      simp only [codeItems, List.append_assoc] at h
      obtain ⟨rfl, hrest⟩ := code_inj a b _ _ h
      obtain ⟨rfl, huv⟩ := codeItems_inj as bs u v (Nat.succ.inj hlen) hrest
      exact ⟨rfl, huv⟩

theorem codeFields_inj : ∀ (as bs : List (String × Json)) (u v : List Nat),
    as.length = bs.length → codeFields as ++ u = codeFields bs ++ v → as = bs ∧ u = v := by
  intro as bs u v hlen h
  cases as with
  | nil =>
    cases bs with
    | nil => exact ⟨rfl, h⟩
    | cons b bs => cases hlen
  | cons a as =>
    cases bs with
    | nil => cases hlen
    | cons b bs =>
      obtain ⟨key, value⟩ := a
      obtain ⟨key', value'⟩ := b
      simp only [codeFields, List.cons_append, List.cons.injEq, List.append_assoc] at h
      obtain ⟨rfl, hmember⟩ := string_code_inj h.1 h.2
      obtain ⟨rfl, hrest⟩ := code_inj value value' _ _ hmember
      obtain ⟨rfl, huv⟩ := codeFields_inj as bs u v (Nat.succ.inj hlen) hrest
      exact ⟨rfl, huv⟩

end

end Json

/-- The numbers in unary, each with a mark behind it. -/
def unary (code : List Nat) : String :=
  String.ofList (code.flatMap fun n => List.replicate n '1' ++ [','])

theorem replicate_mark_inj {m n : Nat} {u v : List Char}
    (h : List.replicate m '1' ++ ',' :: u = List.replicate n '1' ++ ',' :: v) : m = n ∧ u = v := by
  induction m generalizing n with
  | zero =>
    cases n with
    | zero => exact ⟨rfl, (List.cons.inj h).2⟩
    | succ n => simp [List.replicate_succ] at h
  | succ m ih =>
    cases n with
    | zero => simp [List.replicate_succ] at h
    | succ n =>
      obtain ⟨hmn, huv⟩ := ih (List.cons.inj h).2
      exact ⟨congrArg _ hmn, huv⟩

theorem unary_injective : Function.Injective unary := by
  intro as bs h
  have hchars := String.ofList_injective h
  clear h
  induction as generalizing bs with
  | nil =>
    cases bs with
    | nil => rfl
    | cons b bs => simp at hchars
  | cons a as ih =>
    cases bs with
    | nil => simp at hchars
    | cons b bs =>
      simp only [List.flatMap_cons, List.append_assoc, List.singleton_append] at hchars
      obtain ⟨hab, hrest⟩ := replicate_mark_inj hchars
      rw [hab, ih hrest]

section Runs

/-- A digest that loses nothing. -/
@[reducible]
def losslessDigest : CanonicalDigest where
  hexdigest value := unary value.canonical.code

attribute [local instance] losslessDigest

theorem losslessDigest_injective : DigestInjective := by
  intro event event' prevHash prevHash' h
  have hcode := unary_injective h
  exact (Json.code_inj _ _ [] [] (by rw [hcode])).1

def twoEvents : List InterviewEvent := [
  { seq := 1, type := .sessionCreated, turnId := none, payload := [], createdAt := 0 },
  { seq := 2, type := .interviewStarted, turnId := none, payload := [], createdAt := 1 }]

theorem head_commits_sealed : ∃ hash,
    verifyEventChain (sealFrom none twoEvents).1 = .ok (some hash) ∧
      ∀ others, Tampered (sealFrom none twoEvents).1 others →
        verifyEventChain others ≠ .ok (some hash) := by
  obtain ⟨hl, hh⟩ := sealFrom_linked none twoEvents
  have hverified := verifyEventChain_of_linked hl
  rw [hh] at hverified
  exact ⟨_, hverified, (head_commits losslessDigest_injective hverified).2⟩

end Runs

end NoraInterviewer
