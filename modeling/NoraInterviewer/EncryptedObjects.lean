import NoraInterviewer.IdealAead
import NoraInterviewer.ArtifactService

/-! `EncryptedLocalArtifactObjectStore`: objects in files, each in an envelope of its own. -/

namespace NoraInterviewer

open IdealAead

/-- `text.encode("utf-8")`. -/
def encodeUtf8 (text : String) : List UInt8 := text.toByteArray.data.toList

/-- `data.decode("utf-8")`, where it does not raise. -/
def decodeUtf8 (data : List UInt8) : Option String := String.fromUTF8? ⟨data.toArray⟩

theorem decodeUtf8_encodeUtf8 (text : String) : decodeUtf8 (encodeUtf8 text) = some text := by
  unfold decodeUtf8 encodeUtf8 String.fromUTF8?
  have hbytes : (⟨text.toByteArray.data.toList.toArray⟩ : ByteArray) = text.toByteArray := by
    rw [Array.toArray_toList]
  rw [hbytes, dif_pos text.isValidUTF8]
  rfl

theorem encodeUtf8_of_decodeUtf8 {data : List UInt8} {text : String}
    (h : decodeUtf8 data = some text) : encodeUtf8 text = data := by
  unfold decodeUtf8 String.fromUTF8? at h
  split at h
  next hvalid =>
    cases h
    rfl
  next => cases h

theorem encodeUtf8_injective : Function.Injective encodeUtf8 := by
  intro text other h
  have hdecoded := decodeUtf8_encodeUtf8 text
  rw [h, decodeUtf8_encodeUtf8] at hdecoded
  exact (Option.some.inj hdecoded).symm

/-- `n.to_bytes(2, "big")`, for a number that fits. -/
def toBytes2 (n : Nat) : List UInt8 := [UInt8.ofNat (n / 256), UInt8.ofNat (n % 256)]

/-- `int.from_bytes(data, "big")`. -/
def fromBytes (data : List UInt8) : Nat := data.foldl (fun value byte => value * 256 + byte.toNat) 0

theorem toBytes2_length (n : Nat) : (toBytes2 n).length = 2 := rfl

theorem fromBytes_toBytes2 {n : Nat} (h : n ≤ 65535) : fromBytes (toBytes2 n) = n := by
  unfold fromBytes toBytes2
  simp only [List.foldl_cons, List.foldl_nil, UInt8.toNat_ofNat']
  omega

theorem toBytes2_fromBytes {data : List UInt8} (h : data.length = 2) :
    toBytes2 (fromBytes data) = data ∧ fromBytes data ≤ 65535 := by
  obtain ⟨high, low, rfl⟩ := List.length_eq_two.mp h
  have hhigh := high.toNat_lt
  have hlow := low.toNat_lt
  unfold fromBytes toBytes2
  simp only [List.foldl_cons, List.foldl_nil, Nat.zero_mul, Nat.zero_add]
  have hdiv : (high.toNat * 256 + low.toNat) / 256 = high.toNat := by omega
  have hmod : (high.toNat * 256 + low.toNat) % 256 = low.toNat := by omega
  rw [hdiv, hmod, UInt8.ofNat_toNat, UInt8.ofNat_toNat]
  exact ⟨rfl, by omega⟩

/-- `b"NORAOBJ1"`. -/
def magic : List UInt8 := [78, 79, 82, 65, 79, 66, 74, 49]

def nonceSize : Nat := 12

/-- `os.urandom(self._nonce_size)`. -/
abbrev Nonce := { bytes : List UInt8 // bytes.length = nonceSize }

def joinedText (key contentType : String) : String :=
  "nora-artifact-v1\n" ++ key ++ "\n" ++ contentType

/-- `_associated_data`. -/
def associatedData (key contentType : String) : List UInt8 :=
  encodeUtf8 (joinedText key contentType)

/-- The files of the store, and what its key has sealed. -/
structure LocalObjects where
  files : String × String → Option (List UInt8)
  sealings : List Sealing

namespace LocalObjects

variable [Sha256]

/-- `_path_for`, below the root. -/
def pathFor (key : String) : String × String :=
  let digest := Sha256.hexdigest (encodeUtf8 key)
  (String.ofList (digest.toList.take 2), String.ofList (digest.toList.drop 2))

variable [Aead]

/-- The bytes of one file: the header with the content type, the nonce and the ciphertext. -/
def envelope (contentType : String) (nonce ciphertext : List UInt8) : List UInt8 :=
  magic ++ toBytes2 (encodeUtf8 contentType).length ++ encodeUtf8 contentType ++ nonce ++ ciphertext

/-- `_put_sync`. A content type that is too long is sealed before it is refused. -/
def putSync (objects : LocalObjects) (key : String) (data : List UInt8) (contentType : String)
    (nonce : Nonce) : LocalObjects × Except StoreFailure Unit :=
  let sealing : Sealing := { nonce := nonce.val, data, associated := associatedData key contentType }
  let objects := { objects with sealings := objects.sealings ++ [sealing] }
  if 65535 < (encodeUtf8 contentType).length then
    (objects, .error (.other (.valueError "artifact content type is too long")))
  else
    let payload := envelope contentType nonce.val sealing.ciphertext
    ({ objects with files := Function.update objects.files (pathFor key) (some payload) }, .ok ())

/-- `_get_sync`. -/
def getSync (objects : LocalObjects) (key : String) : Except StoreFailure (List UInt8) :=
  match objects.files (pathFor key) with
  | none => .error (.objectStore "ArtifactNotFoundError"
      ("Artifact object " ++ (Json.str key).repr ++ " was not found"))
  | some payload =>
    let minimum := magic.length + 2 + nonceSize + 16
    if payload.length < minimum ∨ ¬magic <+: payload then
      .error (.objectStore "ArtifactStorageError" "Artifact ciphertext envelope is invalid")
    else
      let cursor := magic.length
      let contentTypeSize := fromBytes (payload.extract cursor (cursor + 2))
      let cursor := cursor + 2
      let contentTypeEnd := cursor + contentTypeSize
      let nonceEnd := contentTypeEnd + nonceSize
      if payload.length < nonceEnd + 16 then
        .error (.objectStore "ArtifactStorageError" "Artifact ciphertext envelope is truncated")
      else
        match decodeUtf8 (payload.extract cursor contentTypeEnd) with
        | none => .error (.other (.other "UnicodeDecodeError" "'utf-8' codec can't decode"))
        | some contentType =>
          let nonce := payload.extract contentTypeEnd nonceEnd
          let ciphertext := payload.drop nonceEnd
          match decrypt objects.sealings nonce ciphertext (associatedData key contentType) with
          | some data => .ok data
          | none => .error
              (.objectStore "ArtifactStorageError" "Artifact ciphertext authentication failed")

end LocalObjects

end NoraInterviewer
