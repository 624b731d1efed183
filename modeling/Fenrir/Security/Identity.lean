import Fenrir.Lib.Text
import Fenrir.Security.ServiceTokens

/-! # The identity authority

`security/identity`: users with roles and passwords, and signed tokens for them, over a
state kept in memory and written to a file as a whole (`store.rs`), or three tables of a
database (`db_store.rs`). What the crates compute (JSON, base64, signatures, time formats)
is `IdentityCrates`; what Postgres does with a timestamp's text is `Postgres`. -/

namespace Fenrir.Identity

inductive IdentityError where
  | io (message : String)
  | statePoisoned
  | db (message : String)
  | serde (message : String)
  | invalid (reason : String)
  | unauthorized (reason : String)
  deriving DecidableEq

structure IdentityKeyMaterial where
  keyId : String
  createdAt : Int
  (secretKey publicKey : Bytes)
  deriving DecidableEq

structure IdentityTokenRecord where
  (tokenId fingerprint : String)
  (issuedAt expiresAt : Int)
  keyId : String
  deriving DecidableEq

structure IdentityUserRecord where
  userId : String
  displayName : Option String
  role : Role
  createdAt : Int
  lastIssuedAt : Option Int
  tokenCount : Nat
  lastTokenFingerprint : Option String
  tokens : List IdentityTokenRecord
  passwordHash : Option String
  (passwordUpdatedAt lastLoginAt : Option Int)
  deriving DecidableEq

structure IdentityState where
  (environment instanceId appVersion : String)
  currentKey : IdentityKeyMaterial
  users : BTreeMap IdentityUserRecord

structure RawHeader where
  (alg typ kid : String)

/-- The claims of a token, as signed and as read back. -/
structure RawClaims where
  (iss aud sub env inst role ver : String)
  (iat exp : Int)
  jti : String

inductive TimeFormat where
  | rfc3339
  /-- `[year]-[month]-[day] [hour]:[minute]:[second][optional [.[subsecond]]][offset_hour]`. -/
  | postgres
  /-- The same with `:[offset_minute]` at the end. -/
  | postgresFull

/-- The crates the authority calls. -/
class IdentityCrates where
  headerJson : RawHeader → Except String Bytes
  claimsJson : RawClaims → Except String Bytes
  headerFromJson : Bytes → Option (String × String)
  claimsFromJson : Bytes → Option RawClaims
  /-- base64, URL-safe alphabet, no padding. -/
  encodeBase64 : Bytes → String
  decodeBase64 : String → Except String Bytes
  /-- `SigningKey::from_keypair_bytes`: whether the halves belong together. -/
  keypairValid : Bytes → Bytes → Bool
  /-- `VerifyingKey::from_bytes`: whether the bytes are a key. -/
  publicKeyValid : Bytes → Bool
  sign : Bytes → Bytes → Bytes
  verify : Bytes → Bytes → Bytes → Bool
  sha256 : Bytes → Bytes
  formatRfc3339 : Int → Except String String
  /-- `OffsetDateTime::from_unix_timestamp`, on the seconds it has a date for. -/
  fromUnixTimestamp : Int → Option Int
  parseTime : TimeFormat → String → Except String Int

/-! ## Roles -/

def roleText : Role → String
  | .admin => "admin"
  | .operator => "operator"
  | .viewer => "viewer"

/-- `Role::from_str`; the error is the text that names no role. -/
def roleFromStr (value : String) : Except String Role :=
  let normalized := Text.trim value
  if Text.eqIgnoreAsciiCase normalized "admin" then .ok .admin
  else if Text.eqIgnoreAsciiCase normalized "operator" then .ok .operator
  else if Text.eqIgnoreAsciiCase normalized "viewer" then .ok .viewer
  else .error normalized

theorem roleFromStr_roleText (role : Role) : roleFromStr (roleText role) = .ok role := by
  cases role <;> decide +kernel

variable [IdentityCrates]

open IdentityCrates

/-! ## Tokens -/

def IdentityKeyMaterial.keypair (key : IdentityKeyMaterial) : Except IdentityError Bytes :=
  if keypairValid key.secretKey key.publicKey then .ok key.secretKey
  else .error (.invalid "stored key material invalid")

def encodeJwt (key : IdentityKeyMaterial) (claims : RawClaims) : Except IdentityError String := do
  let header ← (headerJson ⟨"EdDSA", "JWT", key.keyId⟩).mapError .serde
  let claims ← (claimsJson claims).mapError .serde
  let signingInput := encodeBase64 header ++ "." ++ encodeBase64 claims
  let keypair ← key.keypair
  return signingInput ++ "." ++ encodeBase64 (sign keypair (Text.utf8 signingInput))

def fingerprintToken (token : String) : String := encodeBase64 (sha256 (Text.utf8 token))

structure ParsedJwt where
  (encodedHeader alg kid encodedClaims : String)
  (decoded signature : Bytes)

def parseJwt (token : String) : Except IdentityError ParsedJwt :=
  match token.toList.splitOn '.' with
  | [] => .error (.unauthorized "invalid token: missing header")
  | [_] => .error (.unauthorized "invalid token: missing claims")
  | [_, _] => .error (.unauthorized "invalid token: missing signature")
  | [header, claims, signature] => do
      let header := String.ofList header
      let claims := String.ofList claims
      let headerBytes ← (decodeBase64 header).mapError fun _ =>
        .unauthorized "invalid token header encoding"
      let (alg, kid) ← match headerFromJson headerBytes with
        | some fields => .ok fields
        | none => .error (.unauthorized "invalid token header payload")
      let claimsBytes ← (decodeBase64 claims).mapError fun _ =>
        .unauthorized "invalid token claims encoding"
      let signatureBytes ← (decodeBase64 (String.ofList signature)).mapError fun _ =>
        .unauthorized "invalid signature encoding"
      if signatureBytes.length ≠ 64 then throw (.unauthorized "invalid signature length")
      return ⟨header, alg, kid, claims, claimsBytes, signatureBytes⟩
  | _ => .error (.unauthorized "invalid token: too many segments")

/-! ## The file store

The state in memory is what every call reads and changes; the file is written
after each change and read at start only. -/

namespace IdentityState

section

variable (state : IdentityState) (userId : String)

def isPasswordSet : Bool :=
  match state.users[userId]? with
  | some user => user.passwordHash.isSome
  | none => false

def setPassword (passwordHash : String) (role : Role) (now : Int) : IdentityState :=
  match state.users[userId]? with
  | some user =>
    { state with
      users := state.users.insert userId
        { user with passwordHash := some passwordHash, passwordUpdatedAt := some now } }
  | none =>
    { state with
      users := state.users.insert userId
        { userId, displayName := some userId, role, createdAt := now,
          lastIssuedAt := none, tokenCount := 0, lastTokenFingerprint := none, tokens := [],
          passwordHash := some passwordHash, passwordUpdatedAt := some now,
          lastLoginAt := none } }

def recordLogin (now : Int) : IdentityState :=
  match state.users[userId]? with
  | some user =>
    { state with users := state.users.insert userId { user with lastLoginAt := some now } }
  | none => state

end

end IdentityState

/-! ## The authority's own changes -/

structure IdentityAuthority where
  (environment instanceId issuer audience appVersion : String)
  expSeconds : Nat

structure IssueTokenRequest where
  userId : String
  displayName : Option String
  role : Role

structure IssuedToken where
  token : String
  (issuedAt expiresAt : Int)
  (userId keyId fingerprint tokenId : String)
  deriving DecidableEq

structure IdentityClaims where
  userId : String
  role : Role
  (environment instanceId appVersion : String)
  (issuedAt expiresAt : Int)
  (keyId tokenId : String)
  deriving DecidableEq

def maxTokensPerUser : Nat := 20

/-- `unix_timestamp`: whole seconds, rounded down. -/
def unixTimestamp (t : Int) : Int := t / 1000000000

namespace IdentityAuthority

section

variable (self : IdentityAuthority)

def expiresAt (now : Int) : Int :=
  now + (min self.expSeconds 9223372036854775807 : Nat) * 1000000000

/-- The record `issue_token` starts from. -/
def issueRecord (request : IssueTokenRequest) (now : Int) (users : BTreeMap IdentityUserRecord) :
    IdentityUserRecord :=
  let record := (users[request.userId]?).getD
    { userId := request.userId, displayName := request.displayName, role := request.role,
      createdAt := now, lastIssuedAt := none, tokenCount := 0, lastTokenFingerprint := none,
      tokens := [], passwordHash := none, passwordUpdatedAt := none, lastLoginAt := none }
  let displayName :=
    match (request.displayName.map Text.trim).filter (· ≠ "") with
    | some name => some name
    | none => record.displayName
  { record with
    role := request.role
    displayName
    lastIssuedAt := some now
    tokenCount := min (record.tokenCount + 1) 18446744073709551615 }

/-- The writer of `issue_token`: what is changed before the token is encoded stays
changed when that fails. -/
def issueWriter (request : IssueTokenRequest) (tokenId : String)
    (now : Int) (state : IdentityState) : Except IdentityError IssuedToken × IdentityState :=
  let key := state.currentKey
  let expiresAt := self.expiresAt now
  let record := issueRecord request now state.users
  let claims : RawClaims :=
    { iss := self.issuer, aud := self.audience, sub := request.userId, env := self.environment,
      inst := self.instanceId, role := roleText request.role, ver := self.appVersion,
      iat := unixTimestamp now, exp := unixTimestamp expiresAt, jti := tokenId }
  match encodeJwt key claims with
  | .error err =>
    (.error err, { state with users := state.users.insert request.userId record })
  | .ok token =>
    let fingerprint := fingerprintToken token
    let record :=
      { record with
        lastTokenFingerprint := some fingerprint
        tokens := (⟨tokenId, fingerprint, now, expiresAt, key.keyId⟩ ::
          record.tokens).take maxTokensPerUser }
    (.ok ⟨token, now, expiresAt, request.userId, key.keyId, fingerprint, tokenId⟩,
      { state with users := state.users.insert request.userId record })

/-- `verify` once the state is read. -/
def verifyWith (parsed : ParsedJwt) (key : IdentityKeyMaterial)
    (now : Int) : Except IdentityError IdentityClaims := do
  if parsed.kid ≠ key.keyId then throw (.unauthorized "unknown signing key")
  if !publicKeyValid key.publicKey then throw (.invalid "stored public key invalid")
  let signingInput := parsed.encodedHeader ++ "." ++ parsed.encodedClaims
  if !verify key.publicKey (Text.utf8 signingInput) parsed.signature then
    throw (.unauthorized "signature verification failed")
  let claims ← match claimsFromJson parsed.decoded with
    | some claims => .ok claims
    | none => .error (.unauthorized "invalid token claims payload")
  if claims.iss ≠ self.issuer then throw (.unauthorized "issuer mismatch")
  if claims.aud ≠ self.audience then throw (.unauthorized "audience mismatch")
  if claims.env ≠ self.environment then throw (.unauthorized "environment mismatch")
  if claims.exp ≤ unixTimestamp now then throw (.unauthorized "token expired")
  let role ← (roleFromStr claims.role).mapError fun value =>
    .unauthorized ("unknown role claim '" ++ value ++ "'")
  let issuedAt ← match fromUnixTimestamp claims.iat with
    | some t => .ok t
    | none => .error (.invalid "invalid issued-at timestamp")
  let expiresAt ← match fromUnixTimestamp claims.exp with
    | some t => .ok t
    | none => .error (.invalid "invalid expiry timestamp")
  return { userId := claims.sub, role, environment := claims.env,
           instanceId := claims.inst, appVersion := claims.ver, issuedAt,
           expiresAt, keyId := parsed.kid, tokenId := claims.jti }

/-- `list_users`: everything but the password hashes. -/
def listUsers (state : IdentityState) : List IdentityUserRecord :=
  state.users.values.map fun record => { record with passwordHash := none }

end

end IdentityAuthority

end Fenrir.Identity
