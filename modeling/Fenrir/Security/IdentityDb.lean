import Fenrir.Security.Identity

/-! # The identity tables

`db_store.rs`: the three identity tables of a Postgres database, and the statements the
store runs on them. A text goes into a statement with its quotes doubled; a time goes in as
RFC 3339 text and comes out as the server prints it; the adapter prints NULL as the text
`NULL`. -/

namespace Fenrir.Identity

open String

/-- How the server reads and prints a `TIMESTAMPTZ`, which it keeps in whole
microseconds. -/
class Postgres where
  timestamptzIn : String → Except String Int
  timestamptzOut : Int → String

/-! ## Tables -/

structure KeyRow where
  (keyId secretKey publicKey : String)
  createdAt : Int
  isCurrent : Bool

structure UserRow where
  userId : String
  displayName : Option String
  role : String
  passwordHash : Option String
  passwordUpdatedAt : Option Int
  createdAt : Int
  lastIssuedAt : Option Int
  tokenCount : Int
  lastTokenFingerprint : Option String
  lastLoginAt : Option Int

structure TokenRow where
  (tokenId userId keyId fingerprint : String)
  (issuedAt expiresAt : Int)

/-- The tables, each in the order a `SELECT` returns its rows. -/
structure Tables where
  keys : List KeyRow
  users : List UserRow
  tokens : List TokenRow

/-! ## Texts and times -/

def escapeSql (s : String) : String := ofList (Text.doubleQuotes s.toList)

/-- What the server reads for a text the store puts into a statement. -/
def literal (s : String) : Except IdentityError String :=
  match Text.readLiteral (escapeSql s).toList with
  | some cs => .ok (ofList cs)
  | none => .error (.db "syntax error")

@[simp] theorem literal_eq (s : String) : literal s = .ok s := by
  rw [literal, escapeSql, toList_ofList, Text.readLiteral_doubleQuotes]
  simp

variable [IdentityCrates] [Postgres]

open IdentityCrates Identity.Postgres

def timeText (t : Int) : Except IdentityError String := (formatRfc3339 t).mapError .invalid

/-- What the server reads for such a text. -/
def timeLiteral (text : String) : Except IdentityError Int := do
  let text ← literal text
  (timestamptzIn text).mapError .db

def isOffset : List Char → Bool
  | [sign, a, b] => (sign == '+' || sign == '-') && a.isDigit && b.isDigit
  | _ => false

/-- The last resort of `parse_timestamp`: `T` for the blank, `:00` after a bare hour. -/
def normalizeTimestamp (s : String) : String :=
  let cs := s.toList.map fun c => if c = ' ' then 'T' else c
  if cs.length > 3 ∧ isOffset (cs.drop (cs.length - 3)) then ofList cs ++ ":00"
  else if cs = "+00".toList ∨ cs = "-00".toList then ofList cs ++ ":00"
  else ofList cs

def parseTimestamp (s : String) : Except IdentityError Int :=
  match parseTime .rfc3339 s, parseTime .postgres s, parseTime .postgresFull s with
  | .ok t, _, _ => .ok t
  | _, .ok t, _ => .ok t
  | _, _, .ok t => .ok t
  | _, _, _ =>
    (parseTime .rfc3339 (normalizeTimestamp s)).mapError fun e =>
      .invalid ("Invalid timestamp '" ++ s ++ "': " ++ e)

/-- A number may start with a plus sign. -/
def dropPlus : List Char → List Char
  | '+' :: cs => cs
  | cs => cs

/-- `str::parse::<u64>`. -/
def parseU64 (s : String) : Option Nat :=
  let digits := dropPlus s.toList
  if digits ≠ [] ∧ digits.all Char.isDigit then
    let n := Nat.ofDigitChars 10 digits 0
    if n < 18446744073709551616 then some n else none
  else none

/-! ## Rows -/

section

variable (row : List String) (i : Nat)

/-- The adapter's text of a value. -/
def cell (value : Option String) : String := value.getD "NULL"

def timeCell (value : Option Int) : String := cell (value.map timestamptzOut)

def KeyRow.cells (row : KeyRow) : List String :=
  [row.keyId, row.secretKey, row.publicKey, timestamptzOut row.createdAt]

def UserRow.cells (row : UserRow) : List String :=
  [row.userId, cell row.displayName, row.role, cell row.passwordHash,
    timeCell row.passwordUpdatedAt, timestamptzOut row.createdAt, timeCell row.lastIssuedAt,
    toString row.tokenCount, cell row.lastTokenFingerprint, timeCell row.lastLoginAt]

def TokenRow.cells (row : TokenRow) : List String :=
  [row.tokenId, row.fingerprint, timestamptzOut row.issuedAt, timestamptzOut row.expiresAt,
    row.keyId]

def column : String := (row[i]?).getD ""

/-- A column whose empty text stands for no value. -/
def textColumn : Option String := (row[i]?).filter (· ≠ "")

/-- The same for a time; what does not parse is no value either. -/
def timeColumn : Option Int :=
  (textColumn row i).bind fun s => (parseTimestamp s).toOption

def decodeKeyBytes (encoded : String) : Except IdentityError Bytes := do
  let bytes ← (decodeBase64 encoded).mapError fun e => .invalid ("Invalid base64: " ++ e)
  if bytes.length ≠ 32 then throw (.invalid "unexpected key length in identity store")
  return bytes

def parseKeyRow : Except IdentityError IdentityKeyMaterial := do
  let secret ← decodeKeyBytes (column row 1)
  let pub ← decodeKeyBytes (column row 2)
  let createdAt ← parseTimestamp (column row 3)
  return ⟨column row 0, createdAt, secret, pub⟩

def parseUserRow : Except IdentityError IdentityUserRecord := do
  let roleStr := column row 2
  let createdAt ← parseTimestamp (column row 5)
  let tokenCount := ((row[7]?).bind parseU64).getD 0
  let role ← (roleFromStr roleStr).mapError fun _ => .invalid ("Unknown role: " ++ roleStr)
  return { userId := column row 0, displayName := textColumn row 1, role,
           createdAt, lastIssuedAt := timeColumn row 6, tokenCount,
           lastTokenFingerprint := textColumn row 8, tokens := [],
           passwordHash := textColumn row 3, passwordUpdatedAt := timeColumn row 4,
           lastLoginAt := timeColumn row 9 }

def parseTokenRow : Except IdentityError IdentityTokenRecord := do
  let issuedAt ← parseTimestamp (column row 2)
  let expiresAt ← parseTimestamp (column row 3)
  return ⟨column row 0, column row 1, issuedAt, expiresAt, column row 4⟩

end

/-! ## The store -/

structure DbIdentityStore where
  (environment instanceId appVersion : String)
  tables : Tables

namespace DbIdentityStore

section

variable (self : DbIdentityStore) (userId : String)

/-- `get_current_key_async`. -/
def getCurrentKey : Except IdentityError (Option IdentityKeyMaterial) :=
  match self.tables.keys.find? (·.isCurrent) with
  | none => .ok none
  | some row => (parseKeyRow row.cells).map some

/-- `load_user_tokens_async`. -/
def loadUserTokens : Except IdentityError (List IdentityTokenRecord) := do
  let userId ← literal userId
  (self.tables.tokens.filter (·.userId = userId)).mapM fun row => parseTokenRow row.cells

/-- `load_all_users_async`: first the users, then the tokens of each. -/
def loadAllUsers : Except IdentityError (BTreeMap IdentityUserRecord) := do
  let records ← self.tables.users.mapM fun row => parseUserRow row.cells
  let users := records.foldl (fun users r => users.insert r.userId r)
    (∅ : BTreeMap IdentityUserRecord)
  users.toList.foldlM (fun users (userId, user) => do
    let tokens ← self.loadUserTokens userId
    return users.insert userId { user with tokens }) users

def loadState : Except IdentityError IdentityState := do
  let currentKey ← match ← self.getCurrentKey with
    | some key => .ok key
    | none => .error (.invalid "No current key found")
  let users ← self.loadAllUsers
  return ⟨self.environment, self.instanceId, self.appVersion, currentKey, users⟩

/-- The rows of one user: `user_id` is the primary key. -/
def userRow : Except IdentityError (Option UserRow) := do
  let userId ← literal userId
  return self.tables.users.find? (·.userId = userId)

/-- `is_password_set_async`. -/
def isPasswordSet : Except IdentityError Bool := do
  match ← self.userRow userId with
  | none => return false
  | some row => return cell row.passwordHash ≠ ""

/-- `get_user_async`. -/
def getUser : Except IdentityError (Option IdentityUserRecord) := do
  match ← self.userRow userId with
  | none => return none
  | some row =>
    let record ← parseUserRow row.cells
    let tokens ← self.loadUserTokens userId
    return some { record with tokens }

/-- `UPDATE identity_users SET … WHERE user_id = …`. -/
def updateUser (set : UserRow → UserRow) : Except IdentityError DbIdentityStore := do
  let userId ← literal userId
  let users := self.tables.users.map fun row => if row.userId = userId then set row else row
  return { self with tables := { self.tables with users } }

/-- `set_password_async`. -/
def setPassword (passwordHash : String) (role : Role)
    (now : Int) : Except IdentityError DbIdentityStore := do
  let nowStr ← timeText now
  let existing ← self.getUser userId
  let passwordHash ← literal passwordHash
  let now' ← timeLiteral nowStr
  if existing.isSome then
    self.updateUser userId fun row =>
      { row with passwordHash := some passwordHash, passwordUpdatedAt := some now' }
  else
    let userId ← literal userId
    let role ← literal (roleText role)
    let row : UserRow :=
      { userId, displayName := some userId, role,
        passwordHash := some passwordHash, passwordUpdatedAt := some now', createdAt := now',
        lastIssuedAt := none, tokenCount := 0, lastTokenFingerprint := none,
        lastLoginAt := none }
    return { self with tables := { self.tables with users := self.tables.users ++ [row] } }

/-- `record_login_async`. -/
def recordLogin (now : Int) : Except IdentityError DbIdentityStore := do
  let nowStr ← timeText now
  let now' ← timeLiteral nowStr
  self.updateUser userId fun row => { row with lastLoginAt := some now' }

end

end DbIdentityStore

/-! ## Either store -/

inductive AnyIdentityStore where
  | file (state : IdentityState)
  | db (store : DbIdentityStore)

namespace AnyIdentityStore

def read {R : Type} (self : AnyIdentityStore) (reader : IdentityState → R) :
    Except IdentityError R :=
  match self with
  | .file state => .ok (reader state)
  | .db store => store.loadState.map reader

/-- `write`: the database store hands the writer a copy of its state, and nothing
writes the copy back. -/
def write {R : Type} (self : AnyIdentityStore)
    (writer : IdentityState → Except IdentityError R × IdentityState) :
    Except IdentityError R × AnyIdentityStore :=
  match self with
  | .file state => ((writer state).1, .file (writer state).2)
  | .db store =>
    match store.loadState with
    | .error err => (.error err, .db store)
    | .ok state => ((writer state).1, .db store)

def isPasswordSet (self : AnyIdentityStore) (userId : String) : Except IdentityError Bool :=
  match self with
  | .file state => .ok (state.isPasswordSet userId)
  | .db store => store.isPasswordSet userId

def getUser (self : AnyIdentityStore) (userId : String) :
    Except IdentityError (Option IdentityUserRecord) :=
  match self with
  | .file state => .ok state.users[userId]?
  | .db store => store.getUser userId

/-- A statement's result: the new tables, or the old ones and an error. -/
def ofStatement (store : DbIdentityStore) (r : Except IdentityError DbIdentityStore) :
    Except IdentityError Unit × AnyIdentityStore :=
  match r with
  | .ok store => (.ok (), .db store)
  | .error err => (.error err, .db store)

def setPassword (self : AnyIdentityStore) (userId passwordHash : String) (role : Role)
    (now : Int) : Except IdentityError Unit × AnyIdentityStore :=
  match self with
  | .file state => (.ok (), .file (state.setPassword userId passwordHash role now))
  | .db store => ofStatement store (store.setPassword userId passwordHash role now)

def recordLogin (self : AnyIdentityStore) (userId : String) (now : Int) :
    Except IdentityError Unit × AnyIdentityStore :=
  match self with
  | .file state => (.ok (), .file (state.recordLogin userId now))
  | .db store => ofStatement store (store.recordLogin userId now)

end AnyIdentityStore

/-! ## Operations of the authority -/

inductive Op where
  | issueToken (request : IssueTokenRequest) (tokenId : String) (now : Int)
  | setPassword (userId passwordHash : String) (role : Role) (now : Int)
  | recordLogin (userId : String) (now : Int)
  | getUser (userId : String)
  | isPasswordSet (userId : String)
  | listUsers
  | verify (token : String) (now : Int)

inductive Answer where
  | issued (r : Except IdentityError IssuedToken)
  | done (r : Except IdentityError Unit)
  | user (r : Except IdentityError (Option IdentityUserRecord))
  | flag (r : Except IdentityError Bool)
  | users (r : Except IdentityError (List IdentityUserRecord))
  | claims (r : Except IdentityError IdentityClaims)
  deriving DecidableEq

namespace IdentityAuthority

section

variable (self : IdentityAuthority) (store : AnyIdentityStore)

def verify (token : String) (now : Int) : Except IdentityError IdentityClaims := do
  let parsed ← parseJwt token
  if parsed.alg ≠ "EdDSA" then throw (.unauthorized "unsupported signing algorithm")
  let state ← store.read id
  self.verifyWith parsed state.currentKey now

def answer : Op → Answer × AnyIdentityStore
  | .issueToken request tokenId now =>
    let (r, store) := store.write (self.issueWriter request tokenId now)
    (.issued r, store)
  | .setPassword userId passwordHash role now =>
    let (r, store) := store.setPassword userId passwordHash role now
    (.done r, store)
  | .recordLogin userId now =>
    let (r, store) := store.recordLogin userId now
    (.done r, store)
  | .getUser userId => (.user (store.getUser userId), store)
  | .isPasswordSet userId => (.flag (store.isPasswordSet userId), store)
  | .listUsers => (.users (store.read listUsers), store)
  | .verify token now => (.claims (self.verify store token now), store)

def step (op : Op) : AnyIdentityStore :=
  (self.answer store op).2

end

end IdentityAuthority

end Fenrir.Identity
