import NoraInterviewer.AccessTokens

/-! Which tokens verification accepts, and that it answers every other. -/

namespace NoraInterviewer

open JsonText

/-- A payload, or an HTTP error of authorization or of a service that is not there. -/
def TokenAnswered {α : Type} (verified : Except PyError α) : Prop :=
  (∃ payload, verified = .ok payload) ∨
    ∃ status detail values, verified = .error (.http status detail values) ∧
      (status = 401 ∨ status = 503)

theorem tokenAnswered_error {α : Type} {status : ℕ} (detail : String) (values : List String)
    (h : status = 401 ∨ status = 503) :
    TokenAnswered (.error (.http status detail values) : Except PyError α) :=
  Or.inr ⟨status, detail, values, rfl, h⟩

theorem tokenAnswered_invalid {α : Type} : TokenAnswered (.error invalidToken : Except PyError α) :=
  tokenAnswered_error _ _ (Or.inl rfl)

theorem partitionDot_join {bodyToken : List Nat} (h : 46 ∉ bodyToken) (signatureToken : List Nat) :
    partitionDot (bodyToken ++ [46] ++ signatureToken) = (bodyToken, true, signatureToken) := by
  have hall : ∀ c ∈ bodyToken, decide (c ≠ 46) = true := fun c hc =>
    decide_eq_true fun heq => h (heq ▸ hc)
  unfold partitionDot
  rw [List.append_assoc, List.takeWhile_append_of_pos hall, List.dropWhile_append_of_pos hall]
  simp

/-- A key of a dict gives the field that has it. -/
theorem lookup_of_mem {V : Type} {fields : List (List Nat × V)} (hkeys : (fields.map Prod.fst).Nodup)
    {key : List Nat} {value : V} (h : (key, value) ∈ fields) : fields.lookup key = some value := by
  obtain ⟨before, after, rfl⟩ := List.append_of_mem h
  refine List.lookup_eq_some_iff.mpr ⟨before, after, rfl, fun field hfield => ?_⟩
  rw [List.map_append, List.map_cons] at hkeys
  have hdisjoint := (List.nodup_append.mp hkeys).2.2
  rw [bne_iff_ne]
  rintro rfl
  exact hdisjoint field.1 (List.mem_map_of_mem hfield) field.1 List.mem_cons_self rfl

theorem mem_of_lookup {V : Type} {fields : List (List Nat × V)} {key : List Nat} {value : V}
    (h : fields.lookup key = some value) : (key, value) ∈ fields := by
  obtain ⟨before, after, rfl, _⟩ := List.lookup_eq_some_iff.mp h
  simp

/-- The order of the keys does not matter to the expiry. -/
theorem expiry_canonical {F : Type} {fields : Fields F} {exp : ℤ} (hproper : (Value.obj fields).Proper)
    (h : expiry fields = some exp) : expiry (sortFields (canonicalFields fields)) = some exp := by
  have hkeys := (canonical_proper hproper).1
  have hlookup {value : Value F} (hvalue : fields.lookup [101, 120, 112] = some value) :
      (sortFields (canonicalFields fields)).lookup [101, 120, 112] = some value.canonical := by
    refine lookup_of_mem hkeys ((sortFields_perm _).mem_iff.mpr ?_)
    rw [canonicalFields_eq]
    exact List.mem_map.mpr ⟨_, mem_of_lookup hvalue, rfl⟩
  unfold expiry at h ⊢
  split at h
  next exp' hvalue =>
    rw [hlookup hvalue]
    exact h
  next exp' hvalue =>
    rw [hlookup hvalue]
    exact h
  next => cases h

namespace TokenSigner

/-- Both segments are there and the body is not ASCII, which the secret is to sign. -/
def Unencodable (signer : TokenSigner) (token : List Nat) : Prop :=
  signer.signingSecret ≠ none ∧ (partitionDot token).2.1 = true ∧ (partitionDot token).1 ≠ [] ∧
    (partitionDot token).2.2 ≠ [] ∧ ∃ c ∈ (partitionDot token).1, 128 ≤ c

variable [HmacSha256] {F : Type} [FloatRepr F]

/-- A token with the signature of a body that was never signed. -/
def Forged (signer : TokenSigner) (issued : List (TokenPayload F)) (token : List Nat) : Prop :=
  ∃ secret message, signer.signingSecret = some secret ∧
    encodeAscii (partitionDot token).1 = some message ∧
    Base64Url.decode (partitionDot token).2.2 = some (HmacSha256.digest secret message) ∧
    ∀ payload ∈ issued, signer.bodyOf payload.fields ≠ .ok (partitionDot token).1

variable {signer : TokenSigner}

omit [HmacSha256] in
theorem accept_answered (bodyToken signatureToken : List Nat) (expected : List UInt8) :
    TokenAnswered (signer.accept bodyToken signatureToken expected : Except PyError (Fields F)) := by
  unfold accept
  split
  next => exact tokenAnswered_invalid
  next supplied _ =>
    split
    next => exact tokenAnswered_invalid
    next =>
      split
      next => exact tokenAnswered_invalid
      next body _ =>
        split
        next payload _ =>
          split
          next => exact tokenAnswered_invalid
          next exp _ =>
            split
            next => exact tokenAnswered_error _ _ (Or.inl rfl)
            next => exact Or.inl ⟨payload, rfl⟩
        next => exact tokenAnswered_invalid

/-- Verification answers every token but those whose body it cannot encode. -/
theorem verify_answered_iff (token : List Nat) :
    TokenAnswered (signer.verify token : Except PyError (Fields F)) ↔ ¬signer.Unencodable token := by
  unfold verify Unencodable
  cases hsecret : signer.signingSecret with
  | none => exact ⟨fun _ h => h.1 rfl, fun _ => tokenAnswered_error _ _ (Or.inr rfl)⟩
  | some secret =>
    generalize partitionDot token = parts
    obtain ⟨bodyToken, separator, signatureToken⟩ := parts
    simp only
    by_cases hparts : (!separator || bodyToken = [] || signatureToken = []) = true
    · rw [if_pos hparts]
      refine ⟨fun _ h => ?_, fun _ => tokenAnswered_invalid⟩
      simp_all
    · rw [if_neg hparts]
      unfold digestOf encodeAscii
      by_cases hascii : ∃ c ∈ bodyToken, 128 ≤ c
      · rw [if_pos hascii]
        refine ⟨fun h => ?_, fun h => absurd ⟨by simp, ?_, ?_, ?_, hascii⟩ h⟩
        · rcases h with ⟨payload, hp⟩ | ⟨status, detail, values, hp, _⟩
          · cases hp
          · cases hp
        all_goals simp_all
      · rw [if_neg hascii]
        exact ⟨fun _ h => hascii h.2.2.2.2, fun _ => accept_answered _ _ _⟩

omit [HmacSha256] in
theorem accept_ok {bodyToken signatureToken : List Nat} {expected : List UInt8} {payload : Fields F}
    (h : signer.accept bodyToken signatureToken expected = .ok payload) :
    ∃ supplied body exp, Base64Url.decode signatureToken = some supplied ∧ expected = supplied ∧
      Base64Url.decode bodyToken = some body ∧
      loadsBytes signer.bounds body = .ok (.obj payload) ∧
      expiry payload = some exp ∧ signer.nowTs ≤ exp := by
  unfold accept at h
  split at h
  next => cases h
  next supplied hsupplied =>
    obtain ⟨hsame, h⟩ := ExceptRules.ite_error_ok h
    split at h
    next => cases h
    next body hbody =>
      split at h
      next decoded hloads =>
        split at h
        next => cases h
        next exp hexp =>
          obtain ⟨hfuture, h⟩ := ExceptRules.ite_error_ok h
          cases h
          exact ⟨supplied, body, exp, hsupplied, not_not.mp hsame, hbody, hloads, hexp,
            not_lt.mp hfuture⟩
      next => cases h

/-- What an accepted token is: signed, of an object, and not past its time. -/
theorem verify_ok {token : List Nat} {payload : Fields F} (h : signer.verify token = .ok payload) :
    ∃ secret message body exp, signer.signingSecret = some secret ∧
      encodeAscii (partitionDot token).1 = some message ∧
      Base64Url.decode (partitionDot token).2.2 = some (HmacSha256.digest secret message) ∧
      Base64Url.decode (partitionDot token).1 = some body ∧
      loadsBytes signer.bounds body = .ok (.obj payload) ∧
      expiry payload = some exp ∧ signer.nowTs ≤ exp := by
  unfold verify at h
  generalize partitionDot token = parts at h ⊢
  obtain ⟨bodyToken, separator, signatureToken⟩ := parts
  cases hsecret : signer.signingSecret with
  | none =>
    rw [hsecret] at h
    cases h
  | some secret =>
    rw [hsecret] at h
    obtain ⟨_, h⟩ := ExceptRules.ite_error_ok h
    obtain ⟨expected, hexpected, h⟩ := ExceptRules.bind_ok h
    unfold digestOf at hexpected
    split at hexpected
    next => cases hexpected
    next message hmessage =>
      cases hexpected
      obtain ⟨supplied, body, exp, hsupplied, hsame, hbody, hloads, hexp, hfuture⟩ := accept_ok h
      rw [← hsame] at hsupplied
      exact ⟨secret, message, body, exp, rfl, hmessage, hsupplied, hbody, hloads, hexp, hfuture⟩

section Issued

variable [AsciiFloatRepr F]

omit [HmacSha256] in
/-- What is made of a payload that can be written. -/
theorem bodyOf_dumps {payload : TokenPayload F} {text : List Nat}
    (h : dumpsSorted signer.bounds [] (.obj payload.fields) = .ok text) :
    signer.bodyOf payload.fields = .ok (Base64Url.encode (text.map UInt8.ofNat)) ∧
      loadsBytes signer.bounds (text.map UInt8.ofNat) =
        .ok (Value.obj payload.fields).canonical := by
  obtain ⟨hplain, hloads⟩ := loadsBytes_dumps payload.proper h
  refine ⟨?_, hloads⟩
  unfold bodyOf
  rw [h]
  simp only
  rw [encodeUtf8_plain hplain]

omit [HmacSha256] in
theorem bodyOf_ok {payload : TokenPayload F} {bodyToken : List Nat}
    (h : signer.bodyOf payload.fields = .ok bodyToken) : ∃ text,
      dumpsSorted signer.bounds [] (.obj payload.fields) = .ok text ∧
      bodyToken = Base64Url.encode (text.map UInt8.ofNat) := by
  cases htext : dumpsSorted signer.bounds [] (.obj payload.fields) with
  | error failure =>
    unfold bodyOf at h
    rw [htext] at h
    cases h
  | ok text =>
    rw [(bodyOf_dumps htext).1] at h
    exact ⟨text, rfl, (Except.ok.inj h).symm⟩

/-- An accepted token that is not forged carries an issued payload. -/
theorem verify_issued {issued : List (TokenPayload F)} {token : List Nat} {payload : Fields F}
    (hforged : ¬signer.Forged issued token) (h : signer.verify token = .ok payload) :
    ∃ source ∈ issued, (Value.obj payload).Same (.obj source.fields) ∧
      signer.bodyOf payload = .ok (partitionDot token).1 := by
  obtain ⟨secret, message, body, exp, hsecret, hmessage, hsupplied, hbody, hloads, _⟩ := verify_ok h
  have hissued : ∃ source ∈ issued, signer.bodyOf source.fields = .ok (partitionDot token).1 := by
    by_contra hnone
    exact hforged ⟨secret, message, hsecret, hmessage, hsupplied,
      fun source hsource hok => hnone ⟨source, hsource, hok⟩⟩
  obtain ⟨source, hsource, hok⟩ := hissued
  obtain ⟨text, hdumps, hsegment⟩ := bodyOf_ok hok
  rw [hsegment, Base64Url.decode_encode] at hbody
  rw [← Option.some.inj hbody, (bodyOf_dumps hdumps).2] at hloads
  have hpayload := Except.ok.inj hloads
  refine ⟨source, hsource, ?_, ?_⟩
  · unfold Value.Same
    rw [← hpayload, canonical_canonical]
  · rw [← hok]
    unfold bodyOf
    rw [← hpayload, dumpsSorted_canonical]

/-- A payload that can be written is signed, and its token verified until it expires. -/
theorem verify_sign {secret : List UInt8} {payload : TokenPayload F} {exp : ℤ} {text : List Nat}
    (hsecret : signer.signingSecret = some secret) (hexp : expiry payload.fields = some exp)
    (hfuture : signer.nowTs ≤ exp)
    (h : dumpsSorted signer.bounds [] (.obj payload.fields) = .ok text) :
    ∃ token verified, signer.sign payload.fields = .ok token ∧ signer.verify token = .ok verified ∧
      (Value.obj verified).Same (.obj payload.fields) := by
  obtain ⟨hbody, hloads⟩ := bodyOf_dumps h
  have hne : text.map UInt8.ofNat ≠ [] := by
    obtain ⟨c, tail, rfl, _⟩ := dumpValue_head h
    exact List.cons_ne_nil _ _
  generalize hdata : text.map UInt8.ofNat = data at *
  have hascii : encodeAscii (Base64Url.encode data) = some ((Base64Url.encode data).map UInt8.ofNat) := by
    unfold encodeAscii
    rw [if_neg]
    rintro ⟨c, hc, hlarge⟩
    have hlow := (Base64Url.encode_alphabet c hc).1
    omega
  generalize hdigest : HmacSha256.digest secret ((Base64Url.encode data).map UInt8.ofNat) = digest
  have hdigest_ne : digest ≠ [] := by
    rintro rfl
    have hlength := HmacSha256.digest_length secret ((Base64Url.encode data).map UInt8.ofNat)
    rw [hdigest] at hlength
    cases hlength
  have hmac : digestOf secret (Base64Url.encode data) = .ok digest := by
    unfold digestOf
    rw [hascii]
    exact congrArg _ hdigest
  refine ⟨Base64Url.encode data ++ [46] ++ Base64Url.encode digest,
    sortFields (canonicalFields payload.fields), ?_, ?_, ?_⟩
  · unfold sign
    rw [hsecret, hbody]
    simp only [ExceptRules.ok_bind]
    rw [hmac]
    rfl
  · have hparts : partitionDot (Base64Url.encode data ++ [46] ++ Base64Url.encode digest) =
        (Base64Url.encode data, true, Base64Url.encode digest) :=
      partitionDot_join (fun hmem => (Base64Url.encode_alphabet 46 hmem).2 rfl) _
    have hcondition : (!true || decide (Base64Url.encode data = []) ||
        decide (Base64Url.encode digest = [])) = false := by
      simp [Base64Url.encode_ne_nil hne, Base64Url.encode_ne_nil hdigest_ne]
    unfold verify
    rw [hsecret]
    simp only [hparts]
    rw [hcondition, if_neg Bool.false_ne_true, hmac]
    simp only [ExceptRules.ok_bind]
    unfold accept
    rw [Base64Url.decode_encode]
    simp only
    rw [if_neg (not_not.mpr rfl), Base64Url.decode_encode]
    simp only
    rw [hloads]
    simp only [Value.canonical]
    rw [expiry_canonical payload.proper hexp]
    simp only
    rw [if_neg (not_lt.mpr hfuture)]
  · exact canonical_canonical (.obj payload.fields)

omit [HmacSha256] [AsciiFloatRepr F] in
/-- Only what can be written has a body. -/
theorem bodyOf_within {payload : Fields F} {bodyToken : List Nat}
    (h : signer.bodyOf payload = .ok bodyToken) :
    (Value.obj payload).Within signer.bounds signer.bounds.maxDepth := by
  rw [← dumpsSorted_ok_iff signer.bounds []]
  cases htext : dumpsSorted signer.bounds [] (.obj payload) with
  | error failure =>
    unfold bodyOf at h
    rw [htext] at h
    cases h
  | ok text => exact ⟨text, rfl⟩

omit [AsciiFloatRepr F] in
theorem sign_within {payload : Fields F} {token : List Nat} (h : signer.sign payload = .ok token) :
    (Value.obj payload).Within signer.bounds signer.bounds.maxDepth := by
  unfold sign at h
  split at h
  next => cases h
  next secret _ =>
    obtain ⟨bodyToken, hbody, _⟩ := ExceptRules.bind_ok h
    exact bodyOf_within hbody

end Issued

/-- Verification answers exactly the tokens that it can encode, accepts without forgery only what
was issued and has not expired, and accepts every payload that can be written, until it expires. -/
theorem access_tokens_iff [AsciiFloatRepr F] (signer : TokenSigner) :
    (∀ token, TokenAnswered (signer.verify token : Except PyError (Fields F)) ↔
      ¬signer.Unencodable token) ∧
    (∀ (issued : List (TokenPayload F)) token payload, ¬signer.Forged issued token →
      signer.verify token = .ok payload →
      (∃ source ∈ issued, (Value.obj payload).Same (.obj source.fields)) ∧
        signer.bodyOf payload = .ok (partitionDot token).1 ∧
        ∃ exp, expiry payload = some exp ∧ signer.nowTs ≤ exp) ∧
    ∀ (payload : TokenPayload F) exp, signer.signingSecret ≠ none →
      expiry payload.fields = some exp → signer.nowTs ≤ exp →
      ((∃ token verified, signer.sign payload.fields = .ok token ∧
          signer.verify token = .ok verified ∧ (Value.obj verified).Same (.obj payload.fields)) ↔
        (Value.obj payload.fields).Within signer.bounds signer.bounds.maxDepth) := by
  refine ⟨verify_answered_iff, ?_, ?_⟩
  · intro issued token payload hforged h
    obtain ⟨source, hsource, hsame, hbody⟩ := verify_issued hforged h
    obtain ⟨_, _, _, exp, _, _, _, _, _, hexp, hfuture⟩ := verify_ok h
    exact ⟨⟨source, hsource, hsame⟩, hbody, exp, hexp, hfuture⟩
  · intro payload exp hsecret hexp hfuture
    constructor
    · rintro ⟨token, _, hsign, _⟩
      exact sign_within hsign
    · intro hwithin
      obtain ⟨secret, hsecret⟩ := Option.ne_none_iff_exists'.mp hsecret
      obtain ⟨text, htext⟩ := (dumpsSorted_ok_iff signer.bounds [] (.obj payload.fields)).mpr hwithin
      exact verify_sign hsecret hexp hfuture htext

end TokenSigner

section Fixtures

/-- Floats that are all written alike. -/
@[reducible] def oneFloat : FloatRepr Unit where
  ofDecimal _ := ()
  nan := ()
  inf _ := ()
  repr _ := [78, 97, 78]

attribute [local instance] oneFloat

theorem oneFloat_ascii : AsciiFloatRepr Unit where
  read_repr _ _ _ _ := rfl
  repr_head _ := ⟨78, [97, 78], rfl, Or.inr (Or.inr (Or.inl rfl))⟩
  repr_plain _ := (by decide : Plain [78, 97, 78])

/-- A stand-in for the digest: the front of the message. -/
@[reducible] def frontDigest : HmacSha256 where
  digest _ message := (message ++ List.replicate 32 0).take 32
  digest_length _ message := by simp

attribute [local instance] oneFloat_ascii frontDigest

def plainSigner : TokenSigner where
  signingSecret := some (List.replicate 32 7)
  nowTs := 100
  bounds := { maxDigits := 4300, maxDepth := 900 }

/-- `{"exp": 200}`. -/
def plainPayload : TokenPayload Unit where
  fields := [([101, 120, 112], .int 200)]
  proper := by
    refine ⟨by decide, ?_⟩
    exact ⟨by decide, trivial, trivial⟩

theorem access_tokens_iff_plain : ∃ token verified,
    plainSigner.sign plainPayload.fields = .ok token ∧
      plainSigner.verify token = .ok verified ∧
      (Value.obj verified).Same (.obj plainPayload.fields) :=
  ((TokenSigner.access_tokens_iff plainSigner).2.2 plainPayload 200 (by decide) rfl (by decide)).mpr
    ⟨(by decide +kernel : (natDigits 200).length ≤ 4300), trivial⟩

/-- `é.x` cannot be encoded. -/
theorem access_token_raises : ¬∀ token,
    TokenAnswered (plainSigner.verify token : Except PyError (Fields Unit)) := by
  intro h
  have hraised : (plainSigner.verify [233, 46, 120] : Except PyError (Fields Unit)) =
      .error (.raised (.other "UnicodeEncodeError" "'ascii' codec can't encode characters")) := rfl
  rcases h [233, 46, 120] with ⟨payload, hp⟩ | ⟨status, detail, values, hp, _⟩
  · rw [hraised] at hp
    cases hp
  · rw [hraised] at hp
    cases hp

end Fixtures

end NoraInterviewer
