import NoraInterviewer.HttpRoutes
import NoraInterviewer.FallibleScans
import Mathlib.Data.List.Dedup

/-! The resolvers of `authn.py`: who stands behind the headers of a request. -/

namespace NoraInterviewer

/-- The headers of a request; Starlette compares their names in lower case. -/
abbrev Headers := Dict String

abbrev PrincipalResolver := Headers → Except PyError Principal

/-- `str.lower` and `str.casefold`. -/
structure LetterCase where
  lower : String → String
  casefold : String → String

/-- `ActorRole(value)`. -/
def ActorRole.ofValue (value : String) : Option ActorRole :=
  [ActorRole.candidate, .recruiter, .reviewer, .service].find? fun role => role.value = value

/-- The constructor of `Principal`, with its field bounds. -/
def Principal.create (id : String) (role : ActorRole) (candidateRef organizationId : Option String) :
    Except PyError Principal :=
  if id.length < 1 ∨ 256 < id.length then
    .error (.raised (.validationError "Principal: id"))
  else if candidateRef.any fun value => value.length < 1 ∨ 512 < value.length then
    .error (.raised (.validationError "Principal: candidate_ref"))
  else if organizationId.any fun value => value.length < 1 ∨ 256 < value.length then
    .error (.raised (.validationError "Principal: organization_id"))
  else .ok { id, role, candidateRef, organizationId }

/-- `str(headers.get(name, "")).strip()`. -/
def headerText (headers : Headers) (name : String) : String := strip ((headers.lookup name).getD "")

/-- `DisabledPrincipalResolver.resolve`. -/
def disabledPrincipal : PrincipalResolver := fun _ => .ok { id := "local-service", role := .service }

/-- `DevHeaderPrincipalResolver.resolve`. -/
def devHeaderPrincipal (letters : LetterCase) : PrincipalResolver := fun headers =>
  let principalId := headerText headers "x-nora-principal"
  let roleRaw := letters.lower (headerText headers "x-nora-role")
  let candidateRaw := headerText headers "x-nora-candidate-ref"
  let candidateRef := if candidateRaw = "" then none else some candidateRaw
  if principalId = "" ∨ roleRaw = "" then
    .error (.http 401 "Development authorization requires X-Nora-Principal and X-Nora-Role" [])
  else
    match ActorRole.ofValue roleRaw with
    | none => .error (.http 401 "Unknown Nora role: {role_raw!r}" [roleRaw])
    | some role =>
      if role = .candidate ∧ candidateRef = none then
        .error (.http 401 "Candidate development principal requires X-Nora-Candidate-Ref" [])
      else Principal.create principalId role candidateRef none

def allowedAsymmetric : List String :=
  ["RS256", "RS384", "RS512", "PS256", "PS384", "PS512", "ES256", "ES384", "ES512", "EdDSA"]

/-- What a token is verified against; none of it comes from the token. -/
structure JwtOptions where
  jwksUrl : String
  issuer : String
  audience : String
  algorithms : List String
  leewaySeconds : ℚ
  jwksUrl_ne : jwksUrl ≠ ""
  issuer_ne : issuer ≠ ""
  audience_ne : audience ≠ ""
  algorithms_ne : algorithms ≠ []
  asymmetric : ∀ algorithm ∈ algorithms, algorithm ∈ allowedAsymmetric

/-- The checks of `JwtJwksPrincipalResolver.__init__`. -/
def JwtOptions.create (jwksUrl issuer audience : String) (algorithms : List String)
    (leewaySeconds : ℚ) : Except Raised JwtOptions :=
  if hj : jwksUrl = "" then .error (.valueError "jwks_url is required")
  else if hi : issuer = "" then .error (.valueError "issuer is required")
  else if ha : audience = "" then .error (.valueError "audience is required")
  else if hn : algorithms = [] then .error (.valueError "at least one JWT algorithm is required")
  else if hs : ∀ algorithm ∈ algorithms, algorithm ∈ allowedAsymmetric then
    .ok ⟨jwksUrl, issuer, audience, algorithms, leewaySeconds, hj, hi, ha, hn, hs⟩
  else .error (.valueError "JWKS auth only allows configured asymmetric algorithms: {unsupported}")

/-- `text.partition(" ")`. -/
def partitionSpace (text : String) : String × Bool × String :=
  match text.toList.span (· ≠ ' ') with
  | (scheme, []) => (String.ofList scheme, false, "")
  | (scheme, _ :: token) => (String.ofList scheme, true, String.ofList token)

/-- `_bearer_token`. -/
def bearerToken (letters : LetterCase) (headers : Headers) : Except PyError String :=
  let (scheme, separator, token) := partitionSpace (headerText headers "authorization")
  if !separator ∨ letters.casefold scheme ≠ "bearer" ∨ strip token = "" then
    .error (.http 401 "Bearer access token is required" [])
  else .ok (strip token)

/-- The signing key of the JWKS endpoint, and then `jwt.decode` with the options. -/
abbrev TokenDecoder := JwtOptions → String → Except Raised Json

/-- `_decode_token`. -/
def decodeToken (decode : TokenDecoder) (options : JwtOptions) (token : String) :
    Except PyError (Dict Json) :=
  match decode options token with
  | .error _ => .error (.http 401 "Bearer token validation failed" [])
  | .ok (.obj claims) => .ok claims
  | .ok _ => .error (.http 401 "Bearer token claims are invalid" [])

/-- `claims.get(claim)`, stripped, where it is a string that is not blank. -/
def claimText (claims : Dict Json) (claim : String) : Option String :=
  match claims.lookup claim with
  | some (.str value) => if strip value = "" then none else some (strip value)
  | _ => none

structure JwtJwks where
  options : JwtOptions
  principalClaim : String := "sub"
  roleClaim : String := "nora_role"
  candidateRefClaim : String := "candidate_ref"
  allowServiceRole : Bool := false

/-- `JwtJwksPrincipalResolver._claims_to_principal`. -/
def JwtJwks.claimsToPrincipal (letters : LetterCase) (resolver : JwtJwks) (claims : Dict Json) :
    Except PyError Principal :=
  match claimText claims resolver.principalClaim with
  | none => .error (.http 401
      "Bearer token is missing the configured principal claim {self.principal_claim!r}"
      [resolver.principalClaim])
  | some principalId =>
    match claims.lookup resolver.roleClaim with
    | some (.str roleValue) =>
      match ActorRole.ofValue (letters.lower (strip roleValue)) with
      | none => .error (.http 403 "Unknown Nora role in token: {role_value!r}" [roleValue])
      | some role =>
        let candidateRef := claimText claims resolver.candidateRefClaim
        if role = .service ∧ !resolver.allowServiceRole then
          .error (.http 403 "JWT service principals are disabled by configuration" [])
        else if role = .candidate ∧ candidateRef = none then
          .error (.http 403 "Candidate token is missing the configured candidate reference claim {self.candidate_ref_claim!r}"
            [resolver.candidateRefClaim])
        else Principal.create principalId role candidateRef none
    | _ => .error (.http 403 "Bearer token is missing a valid Nora role claim {self.role_claim!r}"
        [resolver.roleClaim])

/-- `resolve`, which the resolvers of bearer tokens share. -/
def resolveBearer (letters : LetterCase) (decode : TokenDecoder) (options : JwtOptions)
    (claimsToPrincipal : Dict Json → Except PyError Principal) : PrincipalResolver :=
  fun headers => do
    let token ← bearerToken letters headers
    let claims ← decodeToken decode options token
    claimsToPrincipal claims

def JwtJwks.resolve (letters : LetterCase) (decode : TokenDecoder) (resolver : JwtJwks) :
    PrincipalResolver :=
  resolveBearer letters decode resolver.options (resolver.claimsToPrincipal letters)

/-- One pass of the loop over `role_mapping` in `OrganizationOidcPrincipalResolver.__init__`. -/
def mapGroup (mapping : Dict ActorRole) (entry : String × ActorRole) :
    Except Raised (Dict ActorRole) :=
  if strip entry.1 = "" then
    .error (.valueError "OIDC role mapping contains an empty external value")
  else if entry.2 = .service then
    .error (.valueError "OIDC role mapping cannot grant the service role")
  else .ok (mapping.set (strip entry.1) entry.2)

/-- No group of an identity provider is mapped to the service. -/
def GrantsNoService (roleMapping : Dict ActorRole) : Prop :=
  ∀ external role, roleMapping.lookup external = some role → role ≠ .service

theorem mapGroup_ok {mapping mapping' : Dict ActorRole} {entry : String × ActorRole}
    (hm : GrantsNoService mapping) (h : mapGroup mapping entry = .ok mapping') :
    GrantsNoService mapping' := by
  obtain ⟨_, h⟩ := ExceptRules.ite_error_ok h
  obtain ⟨hr, h⟩ := ExceptRules.ite_error_ok h
  cases h
  intro external role hl
  rw [Dict.lookup_set] at hl
  split at hl
  next =>
    cases hl
    exact hr
  next => exact hm external role hl

/-- `normalized_mapping`. -/
def normalizedMapping (roleMapping : Dict ActorRole) : Except Raised (Dict ActorRole) :=
  roleMapping.foldlM mapGroup []

theorem normalizedMapping_ok {roleMapping mapping : Dict ActorRole}
    (h : normalizedMapping roleMapping = .ok mapping) : GrantsNoService mapping :=
  FallibleScans.foldlM_keeps (fun _ _ _ => mapGroup_ok) h fun _ _ hl => by cases hl

structure OrganizationOidc where
  options : JwtOptions
  organizationId : String
  organizationClaim : String
  groupsClaim : String
  roleMapping : Dict ActorRole
  principalClaim : String
  candidateRefClaim : String
  candidateRefFromSubject : Bool
  organizationId_ne : organizationId ≠ ""
  no_service : GrantsNoService roleMapping

/-- `OrganizationOidcPrincipalResolver.__init__`. -/
def OrganizationOidc.create (jwksUrl issuer audience organizationId organizationClaim
    groupsClaim : String) (roleMapping : Dict ActorRole) (algorithms : List String)
    (principalClaim candidateRefClaim : String) (candidateRefFromSubject : Bool)
    (leewaySeconds : ℚ) : Except Raised OrganizationOidc :=
  if ho : strip organizationId = "" then .error (.valueError "organization_id is required")
  else if strip organizationClaim = "" then .error (.valueError "organization_claim is required")
  else if strip groupsClaim = "" then .error (.valueError "groups_claim is required")
  else if roleMapping = [] then .error (.valueError "role_mapping must not be empty")
  else
    match hm : normalizedMapping roleMapping with
    | .error e => .error e
    | .ok mapping =>
      match JwtOptions.create jwksUrl issuer audience algorithms leewaySeconds with
      | .error e => .error e
      | .ok options => .ok {
          options
          organizationId := strip organizationId
          organizationClaim := strip organizationClaim
          groupsClaim := strip groupsClaim
          roleMapping := mapping
          principalClaim, candidateRefClaim, candidateRefFromSubject
          organizationId_ne := ho
          no_service := normalizedMapping_ok hm }

/-- `_claim_values` of `claims.get(claim)`. -/
def claimValues (claims : Dict Json) (claim : String) : List String :=
  match claims.lookup claim with
  | some (.str value) =>
    ((value.toList.splitOn ',').map fun item => strip (String.ofList item)).filter (· ≠ "")
  | some (.arr items) => items.filterMap fun item =>
      match item with
      | .str value => if strip value = "" then none else some (strip value)
      | _ => none
  | _ => []

/-- `mapped_roles`. -/
def OrganizationOidc.mappedRoles (resolver : OrganizationOidc) (claims : Dict Json) :
    List ActorRole :=
  ((claimValues claims resolver.groupsClaim).filterMap fun group =>
    resolver.roleMapping.lookup group).dedup

/-- `OrganizationOidcPrincipalResolver._claims_to_principal`. -/
def OrganizationOidc.claimsToPrincipal (resolver : OrganizationOidc) (claims : Dict Json) :
    Except PyError Principal :=
  if resolver.organizationId ∉ claimValues claims resolver.organizationClaim then
    .error (.http 403 "Bearer token is not scoped to the configured Nora organization" [])
  else
    match resolver.mappedRoles claims with
    | [] => .error (.http 403 "Bearer token groups do not map to a Nora role" [])
    | [role] =>
      match claimText claims resolver.principalClaim with
      | none => .error (.http 401
          "Bearer token is missing the configured principal claim {self.principal_claim!r}"
          [resolver.principalClaim])
      | some principalId =>
        let candidateRef :=
          match claimText claims resolver.candidateRefClaim with
          | some value => some value
          | none =>
            if role = .candidate ∧ resolver.candidateRefFromSubject then some principalId else none
        if role = .candidate ∧ candidateRef = none then
          .error (.http 403
            "Candidate OIDC identity does not provide a stable candidate reference" [])
        else Principal.create principalId role candidateRef (some resolver.organizationId)
    | _ :: _ :: _ => .error (.http 403
        "Bearer token maps to multiple Nora roles; role mapping must be unambiguous" [])

def OrganizationOidc.resolve (letters : LetterCase) (decode : TokenDecoder)
    (resolver : OrganizationOidc) : PrincipalResolver :=
  resolveBearer letters decode resolver.options resolver.claimsToPrincipal

structure WorkloadJwt where
  options : JwtOptions
  principalClaim : String := "sub"
  organizationClaim : Option String := none

/-- The organization that a workload token is scoped to. -/
def WorkloadJwt.organizationOf (resolver : WorkloadJwt) (claims : Dict Json) :
    Except PyError (Option String) :=
  match resolver.organizationClaim with
  | none => .ok none
  | some claim =>
    if claim = "" then .ok none
    else
      match claims.lookup claim with
      | none | some .null => .ok none
      | some _ =>
        match claimText claims claim with
        | some organizationId => .ok (some organizationId)
        | none => .error (.http 403
            "Workload organization claim must be a non-empty string" [])

/-- `WorkloadJwtPrincipalResolver._claims_to_principal`. -/
def WorkloadJwt.claimsToPrincipal (resolver : WorkloadJwt) (claims : Dict Json) :
    Except PyError Principal :=
  match claimText claims resolver.principalClaim with
  | none => .error (.http 401
      "Workload token is missing the configured principal claim {self.principal_claim!r}"
      [resolver.principalClaim])
  | some principalId => do
    let organizationId ← resolver.organizationOf claims
    Principal.create principalId .service none organizationId

def WorkloadJwt.resolve (letters : LetterCase) (decode : TokenDecoder) (resolver : WorkloadJwt) :
    PrincipalResolver :=
  resolveBearer letters decode resolver.options resolver.claimsToPrincipal

/-- `CompositePrincipalResolver.resolve`. -/
def compositeResolve : List PrincipalResolver → PrincipalResolver
  | [], _ => .error (.http 401
      "Bearer token was not accepted by any configured Nora identity domain" [])
  | resolver :: rest, headers =>
    match resolver headers with
    | .error (.http status detail values) =>
      if status ≠ 401 ∧ status ≠ 403 then .error (.http status detail values)
      else compositeResolve rest headers
    | result => result

/-- What `build_principal_resolver` builds for each `NORA_AUTH_MODE`. -/
inductive AuthMode where
  | disabled
  | devHeader
  | workloadJwt (workload : WorkloadJwt)
  | oidcWorkload (organization : OrganizationOidc) (workload : WorkloadJwt)
  | oidc (organization : OrganizationOidc)
  | jwtJwks (jwt : JwtJwks)

def AuthMode.resolver (letters : LetterCase) (decode : TokenDecoder) : AuthMode → PrincipalResolver
  | disabled => disabledPrincipal
  | devHeader => devHeaderPrincipal letters
  | workloadJwt workload => workload.resolve letters decode
  | oidcWorkload organization workload =>
    compositeResolve [organization.resolve letters decode, workload.resolve letters decode]
  | oidc organization => organization.resolve letters decode
  | jwtJwks jwt => jwt.resolve letters decode

end NoraInterviewer
