import NoraInterviewer.EncryptedObjects
import NoraInterviewer.WithdrawnEvidence

namespace NoraInterviewer

open IdealAead

namespace LocalObjects

/-- A file in its parts. -/
structure IsEnvelope (payload header nonce ciphertext : List UInt8) : Prop where
  eq : payload = magic ++ toBytes2 header.length ++ header ++ nonce ++ ciphertext
  header_fits : header.length ≤ 65535
  nonce_length : nonce.length = nonceSize
  tagged : 16 ≤ ciphertext.length

theorem extract_append_drop {α : Type} (items : List α) {start stop : Nat} (h : start ≤ stop) :
    items.extract start stop ++ items.drop stop = items.drop start := by
  rw [List.extract_eq_take_drop]
  have hdrop := List.take_append_drop (stop - start) (items.drop start)
  rw [List.drop_drop] at hdrop
  have hstop : start + (stop - start) = stop := by omega
  rw [hstop] at hdrop
  exact hdrop

theorem extract_middle {α : Type} (before middle after : List α) {start stop : Nat}
    (hstart : start = before.length) (hstop : stop = start + middle.length) :
    (before ++ (middle ++ after)).extract start stop = middle := by
  subst hstart
  subst hstop
  rw [List.extract_eq_take_drop, List.drop_left, Nat.add_sub_cancel_left, List.take_left]

theorem extract_length {α : Type} (items : List α) {start stop : Nat} (h : start ≤ stop)
    (hstop : stop ≤ items.length) : (items.extract start stop).length = stop - start := by
  rw [List.extract_eq_take_drop, List.length_take, List.length_drop]
  omega

/-- The checks before decryption let through what has the parts of an envelope. -/
theorem isEnvelope_of_checks {payload : List UInt8} (hmagic : magic <+: payload)
    (hminimum : ¬payload.length < magic.length + 2 + nonceSize + 16)
    (hlength : ¬payload.length < magic.length + 2 +
      fromBytes (payload.extract magic.length (magic.length + 2)) + nonceSize + 16) :
    IsEnvelope payload
      (payload.extract (magic.length + 2)
        (magic.length + 2 + fromBytes (payload.extract magic.length (magic.length + 2))))
      (payload.extract
        (magic.length + 2 + fromBytes (payload.extract magic.length (magic.length + 2)))
        (magic.length + 2 + fromBytes (payload.extract magic.length (magic.length + 2)) + nonceSize))
      (payload.drop (magic.length + 2 +
        fromBytes (payload.extract magic.length (magic.length + 2)) + nonceSize)) := by
  have hfield : (payload.extract magic.length (magic.length + 2)).length = 2 := by
    rw [extract_length _ (by omega) (by omega)]
    omega
  obtain ⟨hbytes, hfits⟩ := toBytes2_fromBytes hfield
  generalize hsize : fromBytes (payload.extract magic.length (magic.length + 2)) = size at *
  have hheader : (payload.extract (magic.length + 2) (magic.length + 2 + size)).length = size := by
    rw [extract_length _ (by omega) (by omega)]
    omega
  refine ⟨?_, by omega, ?_, ?_⟩
  · rw [hheader, hbytes, List.append_assoc, List.append_assoc, List.append_assoc,
      extract_append_drop _ (by omega), extract_append_drop _ (by omega),
      extract_append_drop _ (by omega)]
    obtain ⟨rest, rfl⟩ := hmagic
    rw [List.drop_left]
  · rw [extract_length _ (by omega) (by omega)]
    omega
  · rw [List.length_drop]
    omega

variable [Sha256] [Aead] {objects : LocalObjects} {key : String}
  {payload header nonce ciphertext : List UInt8}

/-- What comes of an envelope in its parts. -/
def opened (objects : LocalObjects) (key : String) (header nonce ciphertext : List UInt8) :
    Except StoreFailure (List UInt8) :=
  match decodeUtf8 header with
  | none => .error (.other (.other "UnicodeDecodeError" "'utf-8' codec can't decode"))
  | some contentType =>
    match decrypt objects.sealings nonce ciphertext (associatedData key contentType) with
    | some data => .ok data
    | none => .error
        (.objectStore "ArtifactStorageError" "Artifact ciphertext authentication failed")

theorem getSync_envelope (hfile : objects.files (pathFor key) = some payload)
    (h : IsEnvelope payload header nonce ciphertext) :
    objects.getSync key = objects.opened key header nonce ciphertext := by
  obtain ⟨heq, hfits, hnonce, htagged⟩ := h
  have hmagic : magic <+: payload := by
    rw [heq, List.append_assoc, List.append_assoc, List.append_assoc]
    exact List.prefix_append _ _
  have hlength : payload.length = magic.length + 2 + header.length + nonceSize + ciphertext.length := by
    rw [heq]
    simp only [List.length_append, toBytes2_length]
    omega
  have hsize : fromBytes (payload.extract magic.length (magic.length + 2)) = header.length := by
    rw [heq, List.append_assoc, List.append_assoc, List.append_assoc,
      extract_middle _ _ _ rfl (by rw [toBytes2_length]), fromBytes_toBytes2 hfits]
  have hheader : payload.extract (magic.length + 2) (magic.length + 2 + header.length) = header := by
    rw [heq, List.append_assoc, List.append_assoc]
    exact extract_middle _ _ _ (by rw [List.length_append, toBytes2_length]) rfl
  have hpart : payload.extract (magic.length + 2 + header.length)
      (magic.length + 2 + header.length + nonceSize) = nonce := by
    rw [heq, List.append_assoc]
    exact extract_middle _ _ _ (by simp only [List.length_append, toBytes2_length])
      (by rw [hnonce])
  have hrest : payload.drop (magic.length + 2 + header.length + nonceSize) = ciphertext := by
    rw [heq]
    exact List.drop_left' (by simp only [List.length_append, toBytes2_length, hnonce])
  unfold getSync
  rw [hfile]
  simp only
  rw [if_neg, hsize, if_neg, hheader, hpart, hrest]
  · rfl
  · omega
  · rintro (hshort | hnot)
    · omega
    · exact hnot hmagic

/-- A file without these parts is refused. -/
theorem getSync_malformed (hfile : objects.files (pathFor key) = some payload)
    (h : ∀ header nonce ciphertext, ¬IsEnvelope payload header nonce ciphertext) :
    ∃ message, objects.getSync key = .error (.objectStore "ArtifactStorageError" message) := by
  unfold getSync
  rw [hfile]
  simp only
  by_cases hchecks : payload.length < magic.length + 2 + nonceSize + 16 ∨ ¬magic <+: payload
  · rw [if_pos hchecks]
    exact ⟨_, rfl⟩
  · rw [if_neg hchecks]
    rw [not_or, not_not] at hchecks
    split
    next => exact ⟨_, rfl⟩
    next hlength => exact absurd (isEnvelope_of_checks hchecks.2 hchecks.1 hlength) (h _ _ _)

omit [Sha256] in
theorem opened_ok {data : List UInt8} : objects.opened key header nonce ciphertext = .ok data ↔
    ∃ contentType, encodeUtf8 contentType = header ∧
      ⟨nonce, data, associatedData key contentType⟩ ∈ objects.sealings ∧
      Aead.encrypt nonce data (associatedData key contentType) = ciphertext := by
  unfold opened
  constructor
  · intro h
    split at h
    next => cases h
    next contentType hdecoded =>
      split at h
      next data' hdata =>
        cases h
        exact ⟨contentType, encodeUtf8_of_decodeUtf8 hdecoded, decrypt_some.mp hdata⟩
      next => cases h
  · rintro ⟨contentType, rfl, hdata⟩
    rw [decodeUtf8_encodeUtf8]
    simp only
    rw [decrypt_some.mpr hdata]

end LocalObjects

theorem append_cons_inj {α : Type} {sep : α} {left right rest rest' : List α} (hleft : sep ∉ left)
    (hright : sep ∉ right) (h : left ++ sep :: rest = right ++ sep :: rest') :
    left = right ∧ rest = rest' := by
  induction left generalizing right with
  | nil =>
    cases right with
    | nil =>
      cases h
      exact ⟨rfl, rfl⟩
    | cons other right =>
      cases h
      exact absurd List.mem_cons_self hright
  | cons first left ih =>
    cases right with
    | nil =>
      cases h
      exact absurd List.mem_cons_self hleft
    | cons other right =>
      obtain ⟨rfl, htail⟩ := List.cons.inj h
      obtain ⟨rfl, hrest⟩ := ih (fun hc => hleft (List.mem_cons_of_mem _ hc))
        (fun hc => hright (List.mem_cons_of_mem _ hc)) htail
      exact ⟨rfl, hrest⟩

/-- Where the keys have no line break, the join has a single reading. -/
theorem joinedText_injective {key key' contentType contentType' : String}
    (hkey : '\n' ∉ key.toList) (hkey' : '\n' ∉ key'.toList)
    (h : joinedText key contentType = joinedText key' contentType') :
    key = key' ∧ contentType = contentType' := by
  have hlist : key.toList ++ '\n' :: contentType.toList =
      key'.toList ++ '\n' :: contentType'.toList := by
    have hcongr := congrArg String.toList h
    unfold joinedText at hcongr
    simpa using hcongr
  obtain ⟨hleft, hright⟩ := append_cons_inj hkey hkey' hlist
  exact ⟨String.toList_inj.mp hleft, String.toList_inj.mp hright⟩

/-- A call of `put`, with the nonce that it draws. -/
structure Put where
  key : String
  data : List UInt8
  contentType : String
  nonce : Nonce

namespace Put

/-- `put` takes the content type. -/
def Accepted (put : Put) : Prop := (encodeUtf8 put.contentType).length ≤ 65535

instance (put : Put) : Decidable put.Accepted := inferInstanceAs (Decidable (_ ≤ _))

def sealing (put : Put) : Sealing where
  nonce := put.nonce.val
  data := put.data
  associated := associatedData put.key put.contentType

/-- The file that the call writes. -/
def envelope [Aead] (put : Put) : List UInt8 :=
  LocalObjects.envelope put.contentType put.nonce.val put.sealing.ciphertext

end Put

/-- A call of `put`, or anyone's change to a file below the root. -/
inductive FileMove where
  | put (put : Put)
  | write (path : String × String) (content : Option (List UInt8))

namespace LocalObjects

section Runs

variable [Sha256] [Aead] {objects : LocalObjects} {key : String} {payload : List UInt8}

def move (objects : LocalObjects) : FileMove → LocalObjects
  | .put put => (objects.putSync put.key put.data put.contentType put.nonce).1
  | .write path content => { objects with files := Function.update objects.files path content }

/-- The store after calls and changes in any order. -/
def run (moves : List FileMove) : LocalObjects :=
  moves.foldl move { files := fun _ => none, sealings := [] }

theorem move_put (put : Put) : objects.move (.put put) =
    if put.Accepted then {
      files := Function.update objects.files (pathFor put.key) (some put.envelope)
      sealings := objects.sealings ++ [put.sealing] }
    else { objects with sealings := objects.sealings ++ [put.sealing] } := by
  unfold move putSync
  simp only
  by_cases haccepted : put.Accepted
  · have hshort : ¬65535 < (encodeUtf8 put.contentType).length := not_lt.mpr haccepted
    rw [if_pos haccepted, if_neg hshort]
    rfl
  · have hlong : 65535 < (encodeUtf8 put.contentType).length := not_le.mp haccepted
    rw [if_neg haccepted, if_pos hlong]
    rfl

theorem run_snoc (moves : List FileMove) (next : FileMove) :
    run (moves ++ [next]) = (run moves).move next := by
  unfold run
  rw [List.foldl_append]
  rfl

/-- The store's key has sealed what was put, and nothing else. -/
theorem mem_sealings {moves : List FileMove} {sealing : Sealing} :
    sealing ∈ (run moves).sealings ↔ ∃ put, .put put ∈ moves ∧ put.sealing = sealing := by
  induction moves using List.reverseRecOn with
  | nil => simp [run]
  | append_singleton moves next ih =>
    rw [run_snoc]
    cases next with
    | put last =>
      have hsealings : ((run moves).move (.put last)).sealings =
          (run moves).sealings ++ [last.sealing] := by
        rw [move_put]
        split
        next => rfl
        next => rfl
      rw [hsealings, List.mem_append, ih, List.mem_singleton]
      constructor
      · rintro (⟨put, hput, rfl⟩ | rfl)
        · exact ⟨put, List.mem_append_left _ hput, rfl⟩
        · exact ⟨last, List.mem_append_right _ (List.mem_singleton_self _), rfl⟩
      · rintro ⟨put, hput, rfl⟩
        rcases List.mem_append.mp hput with hput | hput
        · exact .inl ⟨put, hput, rfl⟩
        · cases List.mem_singleton.mp hput
          exact .inr rfl
    | write path content =>
      change sealing ∈ (run moves).sealings ↔ _
      rw [ih]
      constructor
      · rintro ⟨put, hput, rfl⟩
        exact ⟨put, List.mem_append_left _ hput, rfl⟩
      · rintro ⟨put, hput, rfl⟩
        rcases List.mem_append.mp hput with hput | hput
        · exact ⟨put, hput, rfl⟩
        · cases List.mem_singleton.mp hput

omit [Sha256] in
theorem put_isEnvelope {put : Put} (h : put.Accepted) : IsEnvelope put.envelope
    (encodeUtf8 put.contentType) put.nonce.val put.sealing.ciphertext := by
  refine ⟨rfl, h, put.nonce.property, ?_⟩
  unfold Sealing.ciphertext
  rw [Aead.encrypt_length]
  omega

/-- What is put is what the next `get` returns. -/
theorem get_after_put {moves : List FileMove} {put : Put} (h : put.Accepted) :
    (run (moves ++ [.put put])).getSync put.key = .ok put.data := by
  have hfile : (run (moves ++ [.put put])).files (pathFor put.key) = some put.envelope := by
    rw [run_snoc, move_put, if_pos h]
    exact Function.update_self _ _ _
  rw [getSync_envelope hfile (put_isEnvelope h), opened_ok]
  exact ⟨put.contentType, rfl, mem_sealings.mpr
    ⟨put, List.mem_append_right _ (List.mem_singleton_self _), rfl⟩, rfl⟩

/-- What `get` returns was put under the key itself, and anything else is refused in the store's
own terms. -/
structure Safe (moves : List FileMove) (key : String) : Prop where
  own : ∀ data, (run moves).getSync key = .ok data →
    ∃ put, .put put ∈ moves ∧ put.Accepted ∧ put.key = key ∧ put.data = data ∧
      (run moves).files (pathFor key) = some put.envelope
  refused : ∀ failure, (run moves).getSync key = .error failure →
    ∃ className message, failure = .objectStore className message

/-- The header of the file is not text. -/
def Undecodable (payload : List UInt8) : Prop :=
  ∃ header nonce ciphertext, IsEnvelope payload header nonce ciphertext ∧ decodeUtf8 header = none

/-- The file is from a call of `put` whose key and content type are other than those it now has,
and join to the same text. -/
def Joined (moves : List FileMove) (key : String) (payload : List UInt8) : Prop :=
  ∃ put, .put put ∈ moves ∧ ∃ contentType, (put.key ≠ key ∨ put.contentType ≠ contentType) ∧
    joinedText put.key put.contentType = joinedText key contentType ∧
    (encodeUtf8 contentType).length ≤ 65535 ∧
    payload = envelope contentType put.nonce.val put.sealing.ciphertext ∧
    ¬∃ own, .put own ∈ moves ∧ own.Accepted ∧ own.key = key ∧ own.data = put.data ∧
      payload = own.envelope

theorem Safe.decodable {moves : List FileMove} (h : Safe moves key)
    (hfile : (run moves).files (pathFor key) = some payload) : ¬Undecodable payload := by
  rintro ⟨header, nonce, ciphertext, henvelope, hdecoded⟩
  have hraised := getSync_envelope hfile henvelope
  unfold opened at hraised
  rw [hdecoded] at hraised
  obtain ⟨className, message, hc⟩ := h.refused _ hraised
  cases hc

theorem Safe.not_joined {moves : List FileMove} (h : Safe moves key)
    (hfile : (run moves).files (pathFor key) = some payload) : ¬Joined moves key payload := by
  rintro ⟨put, hput, contentType, _, hjoined, hfits, rfl, hnone⟩
  have hassociated : associatedData put.key put.contentType = associatedData key contentType :=
    congrArg encodeUtf8 hjoined
  have hciphertext : put.sealing.ciphertext =
      Aead.encrypt put.nonce.val put.data (associatedData key contentType) := by
    rw [← hassociated]
    rfl
  have htagged : 16 ≤ put.sealing.ciphertext.length := by
    unfold Sealing.ciphertext
    rw [Aead.encrypt_length]
    omega
  have hget : (run moves).getSync key = .ok put.data := by
    rw [getSync_envelope hfile ⟨rfl, hfits, put.nonce.property, htagged⟩, opened_ok]
    refine ⟨contentType, rfl, mem_sealings.mpr ⟨put, hput, ?_⟩, hciphertext.symm⟩
    rw [← hassociated]
    rfl
  obtain ⟨own, hown, haccepted, hkey, hdata, hsame⟩ := h.own _ hget
  rw [hfile] at hsame
  exact hnone ⟨own, hown, haccepted, hkey, hdata, Option.some.inj hsame⟩

theorem safe_of_file {moves : List FileMove}
    (h : ∀ payload, (run moves).files (pathFor key) = some payload →
      ¬Undecodable payload ∧ ¬Joined moves key payload) : Safe moves key := by
  cases hfile : (run moves).files (pathFor key) with
  | none =>
    have hget : (run moves).getSync key = .error (.objectStore "ArtifactNotFoundError"
        ("Artifact object " ++ (Json.str key).repr ++ " was not found")) := by
      unfold getSync
      rw [hfile]
    constructor
    · intro data hdata
      rw [hget] at hdata
      cases hdata
    · intro failure hfailure
      rw [hget] at hfailure
      cases hfailure
      exact ⟨_, _, rfl⟩
  | some payload =>
    obtain ⟨hdecodable, hnot⟩ := h payload hfile
    by_cases hparts : ∃ header nonce ciphertext, IsEnvelope payload header nonce ciphertext
    · obtain ⟨header, nonce, ciphertext, henvelope⟩ := hparts
      have hget := getSync_envelope hfile henvelope
      constructor
      · intro data hdata
        rw [hget, opened_ok] at hdata
        obtain ⟨contentType, rfl, hsealed, rfl⟩ := hdata
        obtain ⟨put, hput, hsealing⟩ := mem_sealings.mp hsealed
        obtain ⟨hnonce, hsame, hassociated⟩ := Sealing.mk.inj hsealing
        have hjoined := encodeUtf8_injective hassociated
        have hciphertext : put.sealing.ciphertext =
            Aead.encrypt nonce data (associatedData key contentType) := by
          rw [hsealing]
          rfl
        have hpayload : payload = envelope contentType put.nonce.val put.sealing.ciphertext := by
          rw [hciphertext, hnonce]
          exact henvelope.eq
        by_cases hother : put.key ≠ key ∨ put.contentType ≠ contentType
        · by_contra hnone
          refine hnot ⟨put, hput, contentType, hother, hjoined, henvelope.header_fits, hpayload, ?_⟩
          rintro ⟨own, hown, haccepted, hkey, hdata, hfrom⟩
          exact hnone ⟨own, hown, haccepted, hkey, hdata.trans hsame,
            hfile.trans (congrArg some hfrom)⟩
        · rw [not_or, not_not, not_not] at hother
          obtain ⟨hkey, rfl⟩ := hother
          exact ⟨put, hput, henvelope.header_fits, hkey, hsame,
            hfile.trans (congrArg some hpayload)⟩
      · intro failure hfailure
        rw [hget] at hfailure
        unfold opened at hfailure
        split at hfailure
        next hdecoded => exact absurd ⟨_, _, _, henvelope, hdecoded⟩ hdecodable
        next =>
          split at hfailure
          next => cases hfailure
          next =>
            cases hfailure
            exact ⟨_, _, rfl⟩
    · have hnone : ∀ header nonce ciphertext, ¬IsEnvelope payload header nonce ciphertext :=
        fun header nonce ciphertext hc => hparts ⟨header, nonce, ciphertext, hc⟩
      obtain ⟨message, hget⟩ := getSync_malformed hfile hnone
      constructor
      · intro data hdata
        rw [hget] at hdata
        cases hdata
      · intro failure hfailure
        rw [hget] at hfailure
        cases hfailure
        exact ⟨_, _, rfl⟩

/-- The round trip always holds; `get` is safe exactly where the file's header is text and does
not shift the line between key and content type. -/
theorem encrypted_objects_safe_iff (moves : List FileMove) (key : String) :
    (∀ put : Put, put.Accepted →
      (run (moves ++ [.put put])).getSync put.key = .ok put.data) ∧
    (Safe moves key ↔ ∀ payload, (run moves).files (pathFor key) = some payload →
      ¬Undecodable payload ∧ ¬Joined moves key payload) :=
  ⟨fun _ h => get_after_put h,
    fun h _ hfile => ⟨h.decodable hfile, h.not_joined hfile⟩, safe_of_file⟩

/-- Keys in one line leave only the header to check. -/
theorem safe_of_single_line {moves : List FileMove}
    (hkey : '\n' ∉ key.toList) (hputs : ∀ put, .put put ∈ moves → '\n' ∉ put.key.toList)
    (hfile : ∀ payload, (run moves).files (pathFor key) = some payload → ¬Undecodable payload) :
    Safe moves key := by
  refine safe_of_file fun payload hpayload => ⟨hfile payload hpayload, ?_⟩
  rintro ⟨put, hput, contentType, hother, hjoined, _⟩
  obtain ⟨hsame, htype⟩ := joinedText_injective (hputs put hput) hkey hjoined
  rcases hother with hother | hother
  · exact hother hsame
  · exact hother htype

end Runs

section Fixtures

/-- A stand-in for AES-GCM: the data with an empty tag. -/
@[reducible] def bareTag : Aead where
  encrypt _ data _ := data ++ List.replicate 16 0
  encrypt_length _ data _ := by rw [List.length_append, List.length_replicate]
  encrypt_injective _ _ _ _ h := List.append_cancel_right h

attribute [local instance] byteSum bareTag

def zeroNonce : Nonce := ⟨List.replicate 12 0, rfl⟩

/-- A file whose content type is one byte, and not text. -/
def garbledHeader : FileMove :=
  .write (pathFor "a") (some (magic ++ toBytes2 1 ++ [255] ++ List.replicate 28 0))

def brokenType : Put where
  key := "a"
  data := [1]
  contentType := "b\nc"
  nonce := zeroNonce

/-- The file of `brokenType`, with the line break moved from the content type to the key. -/
def shiftedBreak : FileMove :=
  .write (pathFor "a\nb") (some (envelope "c" zeroNonce.val brokenType.sealing.ciphertext))

theorem encrypted_objects_unsafe :
    ¬Safe [garbledHeader] "a" ∧ ¬Safe [.put brokenType, shiftedBreak] "a\nb" := by
  constructor
  · intro h
    have hget : (run [garbledHeader]).getSync "a" =
        .error (.other (.other "UnicodeDecodeError" "'utf-8' codec can't decode")) := by
      decide +kernel
    obtain ⟨className, message, hc⟩ := h.refused _ hget
    cases hc
  · intro h
    have hget : (run [.put brokenType, shiftedBreak]).getSync "a\nb" = .ok [1] := by
      decide +kernel
    obtain ⟨put, hput, _, hkey, _⟩ := h.own _ hget
    rcases List.mem_pair.mp hput with hc | hc
    · cases hc
      revert hkey
      decide
    · cases hc

end Fixtures

end LocalObjects

end NoraInterviewer
