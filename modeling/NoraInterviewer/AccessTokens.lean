import NoraInterviewer.Base64Url
import NoraInterviewer.JsonLimits
import NoraInterviewer.Errors

/-! The access tokens of `ArtifactService`: a JSON payload in base64, signed. -/

namespace NoraInterviewer

open JsonText

/-- `hmac.new(secret, message, hashlib.sha256).digest()`. -/
class HmacSha256 where
  digest : (secret message : List UInt8) → List UInt8
  digest_length : ∀ secret message, (digest secret message).length = 32

/-- The fields of a decoded object. -/
abbrev Fields (F : Type) := List (List Nat × Value F)

/-- A dict that stands for a JSON object. -/
structure TokenPayload (F : Type) where
  fields : Fields F
  proper : (Value.obj fields).Proper

/-- What `_sign` and `_verify` read of the service, its clock in whole seconds, and the limits of
the interpreter. -/
structure TokenSigner where
  signingSecret : Option (List UInt8)
  nowTs : ℤ
  bounds : Bounds

def invalidToken : PyError := .http 401 "Artifact access token is invalid" []

/-- What `json.dumps` raises. -/
def dumpsRaised : LoadFailure → Raised
  | .tooDeep => .other "RecursionError" "maximum recursion depth exceeded"
  | _ => .valueError "Exceeds the limit for integer string conversion"

/-- `token.partition(".")`: what is before the separator, whether there is one, and what is after. -/
def partitionDot (token : List Nat) : List Nat × Bool × List Nat :=
  (token.takeWhile (· ≠ 46), token.contains 46, (token.dropWhile (· ≠ 46)).drop 1)

/-- `payload.get("exp")`, if it is an integer; a bool is one. -/
def expiry {F : Type} (fields : Fields F) : Option ℤ :=
  match fields.lookup [101, 120, 112] with
  | some (.int exp) => some exp
  | some (.bool exp) => some (if exp then 1 else 0)
  | _ => none

namespace TokenSigner

variable [HmacSha256] {F : Type} [FloatRepr F]

/-- The signature of a body, which must be ASCII. -/
def digestOf (secret : List UInt8) (bodyToken : List Nat) : Except PyError (List UInt8) :=
  match encodeAscii bodyToken with
  | none => .error (.raised (.other "UnicodeEncodeError" "'ascii' codec can't encode characters"))
  | some message => .ok (HmacSha256.digest secret message)

/-- The body segment of a payload. -/
def bodyOf (signer : TokenSigner) (payload : Fields F) : Except PyError (List Nat) :=
  match dumpsSorted signer.bounds [] (.obj payload) with
  | .error failure => .error (.raised (dumpsRaised failure))
  | .ok text =>
    match encodeUtf8 text with
    | none => .error (.raised (.other "UnicodeEncodeError" "'utf-8' codec can't encode characters"))
    | some body => .ok (Base64Url.encode body)

/-- `_sign`. -/
def sign (signer : TokenSigner) (payload : Fields F) : Except PyError (List Nat) :=
  match signer.signingSecret with
  | none => .error
      (.raised (.other "ArtifactStorageUnavailableError" "Artifact signing is unavailable"))
  | some secret => do
    let bodyToken ← signer.bodyOf payload
    let signature ← digestOf secret bodyToken
    .ok (bodyToken ++ [46] ++ Base64Url.encode signature)

/-- The rest of `_verify`, once the expected signature is computed. -/
def accept (signer : TokenSigner) (bodyToken signatureToken : List Nat) (expected : List UInt8) :
    Except PyError (Fields F) :=
  match Base64Url.decode signatureToken with
  | none => .error invalidToken
  | some supplied =>
    if expected ≠ supplied then .error invalidToken
    else
      match Base64Url.decode bodyToken with
      | none => .error invalidToken
      | some body =>
        match loadsBytes signer.bounds body with
        | .ok (.obj payload) =>
          match expiry payload with
          | none => .error invalidToken
          | some exp =>
            if exp < signer.nowTs then .error (.http 401 "Artifact access token has expired" [])
            else .ok payload
        | _ => .error invalidToken

/-- `_verify`. -/
def verify (signer : TokenSigner) (token : List Nat) : Except PyError (Fields F) :=
  match signer.signingSecret with
  | none => .error (.http 503 "Artifact signing is unavailable" [])
  | some secret =>
    let (bodyToken, separator, signatureToken) := partitionDot token
    if !separator || bodyToken = [] || signatureToken = [] then .error invalidToken
    else do
      let expected ← digestOf secret bodyToken
      signer.accept bodyToken signatureToken expected

end TokenSigner

end NoraInterviewer
