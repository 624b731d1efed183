import Fenrir.Connector.TenantPolicy

/-! # What becomes of a parameter's value

`services/db_connector/mod.rs` and `infra/db/adapters/postgres/adapter.rs`: a JSON
value first becomes a `DbValue`, by the parameter's name and by what the text looks
like; only then is the type of the parameter known, and the `DbValue` is rendered for
it. What the driver refuses to send and what the server ends up with is `stores`. -/

namespace Fenrir.Connector

open Option

open Postgres (DbConnectorError)

/-- The functions of the standard library and of the crates that read and print values. -/
class ValueCrates where
  /-- `str::to_lowercase`. -/
  toLowercase : String → String
  Uuid : Type
  /-- `Uuid::parse_str`, with the text of its error. -/
  parseUuid : String → Except String Uuid
  uuidText : Uuid → String
  IpAddr : Type
  parseIp : String → Option IpAddr
  /-- The address of a `SocketAddr`. -/
  parseSocket : String → Option IpAddr
  ipText : IpAddr → String
  OffsetDateTime : Type
  parseRfc3339 : String → Option OffsetDateTime
  /-- `Display` of `OffsetDateTime`. -/
  timeText : OffsetDateTime → String
  parseJson : String → Option JsonValue
  jsonText : JsonValue → String
  numberText : JsonNumber → String
  /-- `Display` of `f64`. -/
  floatText : ℚ → String
  /-- Of the types the adapter does not name, those a `String` may be sent for. -/
  acceptsText : Nat → Bool
  /-- The same for a `Vec<String>`. -/
  acceptsTextArray : Nat → Bool

open ValueCrates

section

variable [ValueCrates]

inductive DbValue where
  | null | nullTimestamp | nullUuid | nullInet
  | text (text : String)
  | integer32 (num : Int)
  | integer (num : Int)
  | float (num : ℚ)
  | bool (flag : Bool)
  | json (text : String)
  | textArray (items : List String)
  | uuid (uuid : Uuid)
  | inet (ip : IpAddr)
  | timestamp (time : OffsetDateTime)
  | timestampStr (text : String)

/-! ## By name and by content -/

section

variable (text : String) (s : String) (name : String)

def endsWith (suffix : String) : Bool := suffix.toList.isSuffixOf text.toList

def startsWith (start : String) : Bool := start.toList.isPrefixOf text.toList

def looksLikeTimestampColumn : Bool :=
  let lower := toLowercase name
  endsWith lower "_at" || endsWith lower "_until" || endsWith lower "_date"
    || endsWith lower "_time" || lower == "created" || lower == "updated" || lower == "timestamp"

def looksLikeBoolColumn : Bool :=
  let lower := toLowercase name
  ["enabled", "requires_api_key", "maintenance_mode", "email_verified", "success"].contains lower
    || startsWith lower "is_" || startsWith lower "has_" || endsWith lower "_enabled"
    || endsWith lower "_active" || endsWith lower "_verified" || endsWith lower "_required"

def looksLikeTextArrayColumn : Bool :=
  let lower := toLowercase name
  ["allowed_email_domains", "scopes"].contains lower || endsWith lower "_domains"
    || endsWith lower "_scopes"

def looksLikeInetColumn : Bool :=
  let lower := toLowercase name
  ["ip", "ip_address", "client_ip", "remote_ip", "peer_ip"].contains lower
    || endsWith lower "_ip" || endsWith lower "_ip_address"

def looksLikeUuidColumn : Bool :=
  let lower := toLowercase name
  endsWith lower "_id" || lower == "id" || lower == "uuid" || endsWith lower "_uuid"

/-- A byte of the text, by its position. -/
def byteIs (i : Nat) (c : Char) : Bool :=
  (Text.utf8 s)[i]? == some (UInt8.ofNat c.toNat)

def looksLikeUuid : Bool :=
  (Text.utf8 s).length == 36 && byteIs s 8 '-' && byteIs s 13 '-' && byteIs s 18 '-'
    && byteIs s 23 '-'

def looksLikeTimestamp : Bool :=
  !((Text.utf8 s).length < 19 : Bool) && byteIs s 4 '-' && byteIs s 7 '-'
    && (byteIs s 10 'T' || byteIs s 10 ' ') && byteIs s 13 ':' && byteIs s 16 ':'

/-- `parse_inet_value`: what stands before the first comma, as an address with or without
a port. -/
def parseInetValue : Option IpAddr :=
  let trimmed := Text.trim (String.ofList (text.toList.takeWhile (· != ',')))
  if trimmed.isEmpty then none
  else
    match parseIp trimmed with
    | some ip => some ip
    | none => parseSocket trimmed

/-- One element of an array as a text; a null is left out. -/
def itemText : JsonValue → Option String
  | .string text => some text
  | .number num => some (numberText num)
  | .bool flag => some (toString flag)
  | .null => none
  | other => some (jsonText other)

def parseTextArrayItems (values : List JsonValue) : DbValue :=
  .textArray (values.filterMap itemText)

def parseTextArrayValue : DbValue :=
  let trimmed := Text.trim text
  if trimmed.isEmpty then .textArray []
  else
    match parseJson trimmed with
    | some (.array values) => parseTextArrayItems values
    | _ => .textArray [text]

/-- `n as f64` for a natural number: the nearest double, the even one of two. -/
def nearestDouble (n : Nat) : Nat :=
  if n < 2 ^ 53 then n
  else
    let ulp := 2 ^ (Nat.log2 n - 52)
    let down := n / ulp
    if 2 * (n % ulp) < ulp ∨ (2 * (n % ulp) = ulp ∧ down % 2 = 0) then down * ulp
    else (down + 1) * ulp

def JsonNumber.asI64 : JsonNumber → Option Int
  | .posInt n _ => if n < 2 ^ 63 then some n else none
  | .negInt n _ => some n
  | .float _ => none

/-- `Number::as_f64`; an `i64` is asked for first. -/
def JsonNumber.asF64 : JsonNumber → Option ℚ
  | .posInt n _ => some (nearestDouble n)
  | .negInt n _ => some (-(nearestDouble n.natAbs : ℚ))
  | .float value => some value

/-- The value of a number as it was sent. -/
def JsonNumber.value : JsonNumber → ℚ
  | .posInt n _ => n
  | .negInt n _ => n
  | .float value => value

def parseParamValueWithName : JsonValue → Except DbConnectorError DbValue
  | .null =>
    if looksLikeTimestampColumn name then .ok .nullTimestamp
    else if looksLikeUuidColumn name then .ok .nullUuid
    else if looksLikeInetColumn name then .ok .nullInet
    else .ok .null
  | .bool flag => .ok (.bool flag)
  | .number num =>
    match num.asI64 with
    | some int =>
      if looksLikeBoolColumn name then
        if int = 0 then .ok (.bool false)
        else if int = 1 then .ok (.bool true)
        else .error (.invalidRequest s!"invalid boolean value for {name}: {int}")
      else .ok (.integer int)
    | none =>
      match num.asF64 with
      | some float => .ok (.float float)
      | none => .error (.invalidRequest "unsupported number")
  | .string text =>
    if looksLikeInetColumn name then
      match parseInetValue text with
      | some ip => .ok (.inet ip)
      | none => .ok .nullInet
    else if looksLikeTextArrayColumn name then .ok (parseTextArrayValue text)
    else
      match looksLikeUuid text, parseUuid text with
      | true, .ok uuid => .ok (.uuid uuid)
      | _, _ =>
        if looksLikeTimestamp text then
          match parseRfc3339 text with
          | some time => .ok (.timestamp time)
          | none => .ok (.timestampStr text)
        else .ok (.text text)
  | .array values =>
    if looksLikeTextArrayColumn name then .ok (parseTextArrayItems values)
    else .ok (.json (jsonText (.array values)))
  | .object fields => .ok (.json (jsonText (.object fields)))

def convertPreparedParams (params : List DbPreparedParam) :
    Except DbConnectorError (List DbValue) :=
  params.mapM fun param => parseParamValueWithName param.name param.value

end

/-! ## By the type of the parameter -/

/-- `postgres_types::Type`, as far as the adapter tells types apart. -/
inductive PgType where
  | int2 | int4 | int8 | float4 | float8 | numeric
  | bool | timestamptz | uuid | inet | json | jsonb
  | text | varchar | bpchar | name
  | textArray | varcharArray | bpcharArray | nameArray
  | other (oid : Nat)
  deriving DecidableEq

inductive PreparedParamBinding where
  | nullText | nullSmallInt | nullInt | nullBigInt | nullTimestamp | nullBool | nullJson
  | nullTextArray | nullUuid | nullInet
  | text (text : String)
  | textArray (items : List String)
  | integer32 (num : Int)
  | integer (num : Int)
  | float (num : ℚ)
  | bool (flag : Bool)
  | json (text : String)
  | jsonParam (value : JsonValue)
  | uuid (uuid : Uuid)
  | inet (ip : IpAddr)
  | timestamp (time : OffsetDateTime)
  | timestampStr (text : String)

structure InvalidInput where
  message : String

def prepareParam : DbValue → PreparedParamBinding
  | .null => .nullText
  | .nullTimestamp => .nullTimestamp
  | .nullUuid => .nullUuid
  | .nullInet => .nullInet
  | .text text => .text text
  | .textArray items => .textArray items
  | .integer32 num => .integer32 num
  | .integer num => .integer num
  | .float num => .float num
  | .bool flag => .bool flag
  | .json text => .json text
  | .uuid uuid => .uuid uuid
  | .inet ip => .inet ip
  | .timestamp time => .timestamp time
  | .timestampStr text => .timestampStr text

def isNullValue : DbValue → Bool
  | .null | .nullTimestamp | .nullUuid | .nullInet => true
  | _ => false

def nullForType : PgType → PreparedParamBinding
  | .int2 => .nullSmallInt
  | .int4 => .nullInt
  | .int8 => .nullBigInt
  | .bool => .nullBool
  | .timestamptz => .nullTimestamp
  | .uuid => .nullUuid
  | .inet => .nullInet
  | .json | .jsonb => .nullJson
  | .textArray | .varcharArray | .bpcharArray | .nameArray => .nullTextArray
  | _ => .nullText

/-- `Debug` of the values the other branches do not name. -/
def debugText : DbValue → String
  | .nullTimestamp => "NullTimestamp"
  | .nullUuid => "NullUuid"
  | .nullInet => "NullInet"
  | _ => "Null"

/-- `str::parse` of a signed integer of the given range. -/
def parseSigned (low high : Int) (s : String) : Option Int :=
  let (sign, digits) : Int × List Char :=
    match s.toList with
    | '-' :: rest => (-1, rest)
    | '+' :: rest => (1, rest)
    | rest => (1, rest)
  if digits ≠ [] ∧ digits.all Char.isDigit then
    let n := sign * (Nat.ofDigitChars 10 digits 0 : Int)
    if low ≤ n ∧ n ≤ high then some n else none
  else none

def i32Min : Int := -2 ^ 31
def i32Max : Int := 2 ^ 31 - 1
def i64Min : Int := -2 ^ 63
def i64Max : Int := 2 ^ 63 - 1

def coerceUuid : DbValue → Except InvalidInput PreparedParamBinding
  | .uuid uuid => .ok (.uuid uuid)
  | .text text =>
    match parseUuid (Text.trim text) with
    | .ok uuid => .ok (.uuid uuid)
    | .error err => .error ⟨s!"cannot parse '{text}' as UUID parameter: {err}"⟩
  | value => .ok (prepareParam value)

def coerceInt4 : DbValue → Except InvalidInput PreparedParamBinding
  | .integer32 num => .ok (.integer32 num)
  | .integer num =>
    if i32Min ≤ num ∧ num ≤ i32Max then .ok (.integer32 num)
    else .error ⟨s!"integer value {num} exceeds INT4 range"⟩
  | .text text =>
    match parseSigned i32Min i32Max text with
    | some num => .ok (.integer32 num)
    | none => .error ⟨s!"cannot parse '{text}' as INT4 parameter"⟩
  | value => .ok (prepareParam value)

def coerceInt8 : DbValue → Except InvalidInput PreparedParamBinding
  | .integer32 num => .ok (.integer num)
  | .integer num => .ok (.integer num)
  | .text text =>
    match parseSigned i64Min i64Max text with
    | some num => .ok (.integer num)
    | none => .error ⟨s!"cannot parse '{text}' as INT8 parameter"⟩
  | value => .ok (prepareParam value)

def parseJsonValue (text : String) : JsonValue := (parseJson text).getD (.string text)

/-- `JsonNumber::from` of an `i64`. -/
def JsonNumber.ofInt (num : Int) : JsonNumber :=
  if h : -2 ^ 63 ≤ num ∧ num < 0 then .negInt num h
  else if h : num.toNat < 2 ^ 64 then .posInt num.toNat h
  else .float num

/-- The JSON value the two coercions below make of everything that is neither a text nor an
array; a double is finite here. -/
def plainJson : DbValue → JsonValue
  | .bool flag => .bool flag
  | .integer num => .number (.ofInt num)
  | .integer32 num => .number (.ofInt num)
  | .float num => .number (.float num)
  | .uuid uuid => .string (uuidText uuid)
  | .inet ip => .string (ipText ip)
  | .timestamp time => .string (timeText time)
  | .timestampStr text => .string text
  | value => .string (debugText value)

def coerceJson (value : DbValue) : PreparedParamBinding :=
  .jsonParam (match value with
    | .json text => parseJsonValue text
    | .text text => parseJsonValue text
    | .textArray items => .array (items.map .string)
    | value => plainJson value)

def arrayItems : JsonValue → List String
  | .array values => values.filterMap itemText
  | .string text => [text]
  | .null => []
  | other => [jsonText other]

def coerceTextArray (value : DbValue) : PreparedParamBinding :=
  match value with
  | .textArray items => .textArray items
  | .json text => .textArray (arrayItems (parseJsonValue text))
  | .text text =>
    if (Text.trim text).isEmpty then .textArray (arrayItems (.array []))
    else .textArray (arrayItems (parseJsonValue text))
  | value => .textArray (arrayItems (plainJson value))

/-- The text `coerce_text` makes of a value. -/
def renderText : DbValue → String
  | .text text => text
  | .json text => text
  | .uuid uuid => uuidText uuid
  | .inet ip => ipText ip
  | .timestamp time => timeText time
  | .timestampStr text => text
  | .bool flag => toString flag
  | .integer num => toString num
  | .integer32 num => toString num
  | .float num => floatText num
  | .textArray items => jsonText (.array (items.map .string))
  | value => debugText value

def coerceParam (value : DbValue) (expected : PgType) : Except InvalidInput PreparedParamBinding :=
  if isNullValue value then .ok (nullForType expected)
  else
    match expected with
    | .int4 => coerceInt4 value
    | .int8 => coerceInt8 value
    | .json | .jsonb => .ok (coerceJson value)
    | .textArray | .varcharArray | .bpcharArray | .nameArray => .ok (coerceTextArray value)
    | .text | .varchar | .bpchar | .name => .ok (.text (renderText value))
    | .uuid => coerceUuid value
    | _ => .ok (prepareParam value)

def prepareTypedParams (params : List DbValue) (expected : List PgType) :
    Except InvalidInput (List PreparedParamBinding) :=
  if expected.length ≠ params.length then .ok (params.map prepareParam)
  else (params.zip expected).mapM fun (value, type) => coerceParam value type

/-! ## What the server ends up with -/

/-- A value of a column. -/
inductive Stored where
  | null
  | text (text : String)
  | textArray (items : List String)
  | int (num : Int)
  | float (num : ℚ)
  | bool (flag : Bool)
  | json (value : JsonValue)
  | uuid (uuid : Uuid)
  | inet (ip : IpAddr)
  | timestamp (time : OffsetDateTime)

def Stored.number : Stored → Option ℚ
  | .int num => some num
  | .float num => some num
  | _ => none

def PgType.takesText : PgType → Bool
  | .text | .varchar | .bpchar | .name => true
  | .other oid => acceptsText oid
  | _ => false

def PgType.takesTextArray : PgType → Bool
  | .textArray | .varcharArray | .bpcharArray | .nameArray => true
  | .other oid => acceptsTextArray oid
  | _ => false

/-- `ToSql::accepts` of what is bound. -/
def PreparedParamBinding.accepts : PreparedParamBinding → PgType → Bool
  | .nullText, type | .text _, type | .json _, type | .timestampStr _, type => type.takesText
  | .nullTextArray, type | .textArray _, type => type.takesTextArray
  | .nullSmallInt, type => type == .int2
  | .nullInt, type | .integer32 _, type => type == .int4
  | .nullBigInt, type | .integer _, type => type == .int8
  | .float _, type => type == .float8
  | .nullBool, type | .bool _, type => type == .bool
  | .nullJson, type | .jsonParam _, type => type == .json || type == .jsonb
  | .nullUuid, type | .uuid _, type => type == .uuid
  | .nullInet, type | .inet _, type => type == .inet
  | .nullTimestamp, type | .timestamp _, type => type == .timestamptz

def PreparedParamBinding.sent : PreparedParamBinding → Stored
  | .text content | .json content | .timestampStr content => .text content
  | .textArray items => .textArray items
  | .integer32 num | .integer num => .int num
  | .float num => .float num
  | .bool flag => .bool flag
  | .jsonParam value => .json value
  | .uuid u => .uuid u
  | .inet ip => .inet ip
  | .timestamp time => .timestamp time
  | _ => .null

/-- What the server stores; `none` if the driver refuses the type. -/
def PreparedParamBinding.stores (binding : PreparedParamBinding) (type : PgType) : Option Stored :=
  if binding.accepts type then some binding.sent else none

/-! ## Kept and lost -/

def PgType.isNumeric : PgType → Bool
  | .int2 | .int4 | .int8 | .float4 | .float8 | .numeric => true
  | _ => false

/-- A text is stored as it is, nothing but null becomes NULL, and a number is refused or
stored as it is. -/
structure Kept (value : JsonValue) (type : PgType) (binding : PreparedParamBinding) : Prop where
  text : ∀ s, value = .string s → type = .text ∨ type = .varchar →
    binding.stores type = some (.text s)
  present : value ≠ .null → binding.stores type ≠ some .null
  number : ∀ num, value = .number num → type.isNumeric = true → binding.stores type = none ∨
      ∃ stored, binding.stores type = some stored ∧ stored.number = some num.value

/-- The text comes back from what its name or its looks make of it. -/
def PrintsBack (name s : String) : Prop :=
  if looksLikeInetColumn name then ∃ ip, parseInetValue s = some ip ∧ ipText ip = s
  else if looksLikeTextArrayColumn name then
    ∃ values, parseJson (Text.trim s) = some (.array values) ∧
      jsonText (.array ((values.filterMap itemText).map .string)) = s
  else
    (∀ uuid, looksLikeUuid s = true → parseUuid s = .ok uuid → uuidText uuid = s) ∧
      (looksLikeTimestamp s = true → parseRfc3339 s = none)

def PgType.takesNull : PgType → Bool
  | .float4 | .float8 | .numeric => false
  | .other oid => acceptsText oid
  | _ => true

/-- Which values come through. -/
def Survives (name : String) (value : JsonValue) (type : PgType) : Prop :=
  match value with
  | .string s =>
    (looksLikeInetColumn name = true → parseInetValue s = none → type.takesNull = false) ∧
      (type = .text ∨ type = .varchar → PrintsBack name s)
  | .number (.posInt n _) => type = .float8 → n < 2 ^ 63 ∨ 2 ^ 11 ∣ n
  | _ => True

/-- What the crates document of the texts they print. -/
class LawfulValueCrates : Prop where
  /-- An empty array is printed as `[]`. -/
  nil_text : jsonText (.array []) = "[]"
  /-- Nothing is no JSON value. -/
  empty_not_json : parseJson "" = none
  /-- An array is longer than its one string, which stands in it in quotes. -/
  single_longer : ∀ s : String, s.length < (jsonText (.array [.string s])).length
  /-- `Display` has a blank before the offset, RFC 3339 does not allow one. -/
  display_not_rfc3339 : ∀ time, parseRfc3339 (timeText time) = none

variable {name s : String} {value : JsonValue} {type : PgType} {binding : PreparedParamBinding}

/-! ### Each parameter on its own -/

theorem bindParams_get {params : List DbPreparedParam} {expected : List PgType}
    {values : List DbValue} {bindings : List PreparedParamBinding}
    (hlen : expected.length = params.length) (hval : convertPreparedParams params = .ok values)
    (hbou : prepareTypedParams values expected = .ok bindings) {i : Nat}
    {param : DbPreparedParam} (hpar : params[i]? = some param)
    (hty : expected[i]? = some type) (hbin : bindings[i]? = some binding) :
    ∃ v, parseParamValueWithName param.name param.value = .ok v ∧
      coerceParam v type = .ok binding := by
  have hparse := Results.mapM_forall₂ hval
  have hsa : expected.length = values.length := hlen.trans hparse.length_eq
  rw [prepareTypedParams, if_neg (not_not.mpr hsa)] at hbou
  have hco := Results.mapM_forall₂ hbou
  obtain ⟨v, hv, hpa⟩ := Results.forall₂_at hparse hpar
  have hzip : (values.zip expected)[i]? = some (v, type) := by
    rw [List.getElem?_zip_eq_some]
    exact ⟨hv, hty⟩
  obtain ⟨b, hb, hcoe⟩ := Results.forall₂_at hco hzip
  rw [hbin] at hb
  cases hb
  exact ⟨v, hpa, hcoe⟩

/-! ### Nulls -/

theorem parseTextArrayValue_items (text : String) :
    ∃ items, parseTextArrayValue text = .textArray items := by
  fun_cases parseTextArrayValue text
  all_goals exact ⟨_, rfl⟩

variable {v : DbValue} {num : JsonNumber}

/-- Of what is not null, only a text that is no address, in a column of addresses, is taken
for a null. -/
theorem parsed_null_iff (h : parseParamValueWithName name value = .ok v) :
    isNullValue v = true ↔ value = .null ∨
      ∃ s, value = .string s ∧ looksLikeInetColumn name = true ∧ parseInetValue s = none := by
  revert h
  fun_cases parseParamValueWithName name value
  all_goals intro h
  all_goals cases h
  case case12 text hinet ip hip => simp [isNullValue, hip]
  case case13 text hinet hnone => simp [isNullValue, hinet, hnone]
  case case14 text hinet harray =>
    obtain ⟨items, hite⟩ := parseTextArrayValue_items text
    simp [isNullValue, hite, hinet]
  case case15 hinet _ _ _ _ | case16 hinet _ _ _ _ _ | case17 hinet _ _ _ _ =>
    simp [isNullValue, hinet]
  case case18 hinet _ _ _ => simp [isNullValue, hinet]
  case case19 => simp [isNullValue, parseTextArrayItems]
  all_goals simp [isNullValue]

theorem nullForType_stores (type : PgType) :
    (nullForType type).stores type = if type.takesNull then some .null else none := by
  cases type with
  | _ => rfl

theorem prepareParam_sent (h : isNullValue v = false) : (prepareParam v).sent ≠ .null := by
  cases v with
  | null | nullTimestamp | nullUuid | nullInet => cases h
  | _ => exact nofun

theorem coerceInt4_sent (hv : isNullValue v = false) (h : coerceInt4 v = .ok binding) :
    binding.sent ≠ .null := by
  revert h
  fun_cases coerceInt4 v
  all_goals intro h
  all_goals cases h
  case case6 => exact prepareParam_sent hv
  all_goals exact nofun

theorem coerceInt8_sent (hv : isNullValue v = false) (h : coerceInt8 v = .ok binding) :
    binding.sent ≠ .null := by
  revert h
  fun_cases coerceInt8 v
  all_goals intro h
  all_goals cases h
  case case5 => exact prepareParam_sent hv
  all_goals exact nofun

theorem coerceUuid_sent (hv : isNullValue v = false) (h : coerceUuid v = .ok binding) :
    binding.sent ≠ .null := by
  revert h
  fun_cases coerceUuid v
  all_goals intro h
  all_goals cases h
  case case4 => exact prepareParam_sent hv
  all_goals exact nofun

theorem coerceTextArray_sent (v : DbValue) : (coerceTextArray v).sent ≠ .null := by
  fun_cases coerceTextArray v
  all_goals exact nofun

theorem coerceParam_sent (hv : isNullValue v = false) (h : coerceParam v type = .ok binding) :
    binding.sent ≠ .null := by
  revert h
  fun_cases coerceParam v type
  all_goals intro h
  case case1 hnull => exact absurd hnull (by rw [hv]; decide)
  case case2 => exact coerceInt4_sent hv h
  case case3 => exact coerceInt8_sent hv h
  case case14 => exact coerceUuid_sent hv h
  all_goals cases h
  case case6 | case7 | case8 | case9 => exact coerceTextArray_sent v
  case case15 => exact prepareParam_sent hv
  all_goals exact nofun

theorem coerceParam_null (h : isNullValue v = true) (type : PgType) :
    coerceParam v type = .ok (nullForType type) :=
  if_pos h

theorem coerced_null_iff (h : coerceParam v type = .ok binding) :
    binding.stores type = some .null ↔ isNullValue v = true ∧ type.takesNull = true := by
  cases hv : isNullValue v with
  | true =>
    rw [coerceParam_null hv] at h
    cases h
    rw [nullForType_stores]
    cases type.takesNull with
    | true | false => simp
  | false =>
    have hse := coerceParam_sent hv h
    simp [PreparedParamBinding.stores, hse]

/-! ### Texts -/

omit [ValueCrates] in
theorem looksLikeUuid_not_timestamp (h : looksLikeUuid s = true) :
    looksLikeTimestamp s = false := by
  simp only [looksLikeUuid, Bool.and_eq_true] at h
  have hda : (Text.utf8 s)[13]? = some (UInt8.ofNat '-'.toNat) := eq_of_beq h.1.1.2
  have hcol : byteIs s 13 ':' = false := by
    rw [byteIs, hda]
    decide
  simp [looksLikeTimestamp, hcol]

theorem renderText_array_iff [LawfulValueCrates] (s : String) :
    renderText (parseTextArrayValue s) = s ↔
      ∃ values, parseJson (Text.trim s) = some (.array values) ∧
        jsonText (.array ((values.filterMap itemText).map .string)) = s := by
  fun_cases parseTextArrayValue s
  case case1 trimmed hempty =>
    have htr : Text.trim s = "" := String.isEmpty_iff.mp hempty
    constructor
    · intro hte
      have hs : s = "[]" := hte.symm.trans LawfulValueCrates.nil_text
      rw [hs] at htr
      exact absurd htr (by decide)
    · rintro ⟨values, hpar, -⟩
      rw [htr, LawfulValueCrates.empty_not_json] at hpar
      cases hpar
  case case2 trimmed hfull values hpar =>
    constructor
    · intro hte
      exact ⟨values, hpar, hte⟩
    · rintro ⟨values', hpa', hte⟩
      cases hpar.symm.trans hpa'
      exact hte
  case case3 trimmed hfull hnot =>
    constructor
    · intro hte
      have hlon := LawfulValueCrates.single_longer s
      rw [show jsonText (.array [.string s]) = s from hte] at hlon
      exact absurd hlon (lt_irrefl _)
    · rintro ⟨values, hpar, -⟩
      exact (hnot values hpar).elim

theorem renderText_time_iff [LawfulValueCrates] (h : (if looksLikeTimestamp s then
        match parseRfc3339 s with
        | some time => .ok (.timestamp time)
        | none => .ok (.timestampStr s)
      else .ok (.text s) : Except DbConnectorError DbValue) = .ok v) :
    renderText v = s ↔ (looksLikeTimestamp s = true → parseRfc3339 s = none) := by
  by_cases hti : looksLikeTimestamp s = true
  · rw [if_pos hti] at h
    cases hpar : parseRfc3339 s with
    | none =>
      rw [hpar] at h
      cases h
      exact ⟨fun _ _ => rfl, fun _ => rfl⟩
    | some time =>
      rw [hpar] at h
      cases h
      constructor
      · intro hte
        have hs : timeText time = s := hte
        have hno := LawfulValueCrates.display_not_rfc3339 time
        rw [hs, hpar] at hno
        cases hno
      · intro hno
        cases hno hti
  · rw [if_neg hti] at h
    cases h
    exact ⟨fun _ hloo => absurd hloo hti, fun _ => rfl⟩

theorem renderText_iff [LawfulValueCrates] (h : parseParamValueWithName name (.string s) = .ok v)
    (hv : isNullValue v = false) : renderText v = s ↔ PrintsBack name s := by
  rw [parseParamValueWithName] at h
  rw [PrintsBack]
  by_cases hin : looksLikeInetColumn name = true
  · rw [if_pos hin] at h ⊢
    cases hip : parseInetValue s with
    | none =>
      rw [hip] at h
      cases h
      cases hv
    | some ip =>
      rw [hip] at h
      cases h
      constructor
      · intro hte
        exact ⟨ip, rfl, hte⟩
      · rintro ⟨ip', hsa, hte⟩
        cases hsa
        exact hte
  · rw [if_neg hin] at h ⊢
    by_cases harr : looksLikeTextArrayColumn name = true
    · rw [if_pos harr] at h ⊢
      cases h
      exact renderText_array_iff s
    · rw [if_neg harr] at h ⊢
      cases hloo : looksLikeUuid s with
      | false =>
        rw [hloo] at h
        refine (renderText_time_iff h).trans ⟨fun hti => ⟨nofun, hti⟩, ?_⟩
        exact fun hbo => hbo.2
      | true =>
        have hnot := looksLikeUuid_not_timestamp hloo
        cases hpar : parseUuid s with
        | error err =>
          rw [hloo, hpar] at h
          refine (renderText_time_iff h).trans
            ⟨fun hti => ⟨nofun, hti⟩, ?_⟩
          exact fun hbo => hbo.2
        | ok uuid =>
          rw [hloo, hpar] at h
          cases h
          constructor
          · intro hte
            refine ⟨?_, fun hti => ?_⟩
            · intro uuid' _ hsa
              cases hsa
              exact hte
            · rw [hnot] at hti
              cases hti
          · intro hbo
            exact hbo.1 uuid rfl rfl

theorem text_kept_iff [LawfulValueCrates] (hpar : parseParamValueWithName name (.string s) = .ok v)
    (hcoe : coerceParam v type = .ok binding) (hty : type = .text ∨ type = .varchar) :
    binding.stores type = some (.text s) ↔ PrintsBack name s := by
  cases hv : isNullValue v with
  | true =>
    have hnu : binding.stores type = some .null := by
      refine (coerced_null_iff hcoe).mpr ⟨hv, ?_⟩
      rcases hty with rfl | rfl <;> rfl
    rcases (parsed_null_iff hpar).mp hv with hvalue | ⟨s', hsa, hin, hno⟩
    · cases hvalue
    · cases hsa
      rw [hnu, PrintsBack, if_pos hin, hno]
      exact ⟨nofun, fun ⟨ip, hip, _⟩ => (nomatch hip)⟩
  | false =>
    have hren : binding = .text (renderText v) := by
      rcases hty with rfl | rfl
      · rw [coerceParam, if_neg (by rw [hv]; decide)] at hcoe
        exact (Except.ok.inj hcoe).symm
      · rw [coerceParam, if_neg (by rw [hv]; decide)] at hcoe
        exact (Except.ok.inj hcoe).symm
    have hsto : binding.stores type = some (.text (renderText v)) := by
      rw [hren]
      rcases hty with rfl | rfl <;> rfl
    rw [hsto, ← renderText_iff hpar hv]
    exact ⟨fun h => by injection h with h; injection h, fun h => by rw [h]⟩

/-! ### Numbers -/

omit [ValueCrates] in
theorem nearestDouble_eq_iff {n : Nat} (hlow : 2 ^ 63 ≤ n) (hhi : n < 2 ^ 64) :
    nearestDouble n = n ↔ 2 ^ 11 ∣ n := by
  have hlog : Nat.log2 n = 63 := by
    rw [Nat.log2_eq_iff (by omega)]
    exact ⟨hlow, hhi⟩
  rw [nearestDouble, if_neg (by omega), hlog]
  dsimp only
  constructor
  · intro heq
    split at heq
    · exact ⟨n / 2 ^ 11, by omega⟩
    · exact ⟨n / 2 ^ 11 + 1, by omega⟩
  · rintro ⟨k, rfl⟩
    rw [if_pos (.inl (by omega))]
    omega

omit [ValueCrates] in
theorem asI64_value {int : Int} (h : num.asI64 = some int) : num.value = int := by
  cases num with
  | posInt n hrange =>
    rw [JsonNumber.asI64] at h
    split at h
    · cases h
      exact (Int.cast_natCast n).symm
    · cases h
  | negInt n hrange =>
    cases h
    rfl
  | float value => cases h

theorem bool_refused (flag : Bool) (hty : type.isNumeric = true)
    (h : coerceParam (.bool flag) type = .ok binding) : binding.stores type = none := by
  cases type with
  | int2 | int4 | int8 | float4 | float8 | numeric => cases h; rfl
  | _ => cases hty

theorem integer_kept (int : Int) (hty : type.isNumeric = true)
    (h : coerceParam (.integer int) type = .ok binding) :
    binding.stores type = none ∨ binding.stores type = some (.int int) := by
  cases type with
  | int2 => cases h; exact .inl rfl
  | int4 =>
    have hin4 : coerceInt4 (.integer int) = .ok binding := h
    rw [coerceInt4] at hin4
    split at hin4
    · cases hin4
      exact .inr rfl
    · cases hin4
  | int8 => cases h; exact .inr rfl
  | float4 | float8 | numeric => cases h; exact .inl rfl
  | _ => cases hty

theorem float_kept (float : ℚ) (hty : type.isNumeric = true)
    (h : coerceParam (.float float) type = .ok binding) :
    binding.stores type = if type = .float8 then some (.float float) else none := by
  cases type with
  | int2 | int4 | int8 | float4 | float8 | numeric => cases h; rfl
  | _ => cases hty

theorem number_kept_iff (hpar : parseParamValueWithName name (.number num) = .ok v)
    (hcoe : coerceParam v type = .ok binding) (hty : type.isNumeric = true) :
    (binding.stores type = none ∨
      ∃ stored, binding.stores type = some stored ∧ stored.number = some num.value) ↔
    Survives name (.number num) type := by
  rw [parseParamValueWithName] at hpar
  cases hint : num.asI64 with
  | some int =>
    -- what fits an `i64` is never rounded
    have hsur : Survives name (.number num) type := by
      cases num with
      | posInt n hrange =>
        rw [JsonNumber.asI64] at hint
        split at hint
        · rename_i hsma
          exact fun _ => .inl hsma
        · cases hint
      | negInt n hrange => trivial
      | float value => cases hint
    refine ⟨fun _ => hsur, fun _ => ?_⟩
    rw [hint] at hpar
    dsimp only at hpar
    split at hpar
    · left
      split at hpar
      · cases hpar
        exact bool_refused false hty hcoe
      · split at hpar
        · cases hpar
          exact bool_refused true hty hcoe
        · cases hpar
    · cases hpar
      rcases integer_kept int hty hcoe with hrefused | hsto
      · exact .inl hrefused
      · refine .inr ⟨_, hsto, ?_⟩
        rw [asI64_value hint]
        rfl
  | none =>
    rw [hint] at hpar
    cases num with
    | posInt n hrange =>
      cases hpar
      have hlar : 2 ^ 63 ≤ n := by
        rw [JsonNumber.asI64] at hint
        split at hint
        · cases hint
        · omega
      rw [float_kept _ hty hcoe]
      by_cases hfl8 : type = .float8
      · rw [if_pos hfl8]
        have hrou := nearestDouble_eq_iff hlar hrange
        constructor
        · rintro (hnone | ⟨stored, hsto, hnum⟩)
          · cases hnone
          · intro _
            cases hsto
            exact .inr (hrou.mp (Nat.cast_injective (some.inj hnum)))
        · intro hsur
          rcases hsur hfl8 with hsma | hdvd
          · exact absurd hsma (by omega)
          · refine .inr ⟨_, rfl, ?_⟩
            rw [hrou.mpr hdvd]
            rfl
      · rw [if_neg hfl8]
        exact ⟨fun _ h => absurd h hfl8, fun _ => .inl rfl⟩
    | negInt n hrange => cases hint
    | float value =>
      cases hpar
      rw [float_kept _ hty hcoe]
      refine ⟨fun _ => trivial, fun _ => ?_⟩
      by_cases hfl8 : type = .float8
      · rw [if_pos hfl8]
        exact .inr ⟨_, rfl, rfl⟩
      · rw [if_neg hfl8]
        exact .inl rfl

/-! ### All values -/

theorem present_of_not_string (hpar : parseParamValueWithName name value = .ok v)
    (hcoe : coerceParam v type = .ok binding) (hstr : ∀ s, value ≠ .string s)
    (hval : value ≠ .null) : binding.stores type ≠ some .null := by
  intro hsto
  rcases (parsed_null_iff hpar).mp ((coerced_null_iff hcoe).mp hsto).1 with
    hnull | ⟨s, hs, -, -⟩
  · exact hval hnull
  · exact hstr s hs

/-- **EXACTLY WHICH VALUES SURVIVE BINDING.** For every list of parameters that is bound,
and each of them. -/
theorem values_survive_iff [LawfulValueCrates] {params : List DbPreparedParam}
    {expected : List PgType} {values : List DbValue} {bindings : List PreparedParamBinding}
    (hlength : expected.length = params.length)
    (hvalues : convertPreparedParams params = .ok values)
    (hbound : prepareTypedParams values expected = .ok bindings) {i : Nat}
    {param : DbPreparedParam} {type : PgType} {binding : PreparedParamBinding}
    (hparam : params[i]? = some param) (htype : expected[i]? = some type)
    (hbinding : bindings[i]? = some binding) :
    Kept param.value type binding ↔ Survives param.name param.value type := by
  obtain ⟨v, hpar, hcoe⟩ := bindParams_get hlength hvalues hbound hparam htype hbinding
  generalize param.name = name at hpar ⊢
  generalize param.value = value at hpar ⊢
  cases value with
  | string s =>
    constructor
    · intro hke
      refine ⟨?_, fun hte => (text_kept_iff hpar hcoe hte).mp (hke.text s rfl hte)⟩
      intro hin hno
      have hv : isNullValue v = true := (parsed_null_iff hpar).mpr (.inr ⟨s, rfl, hin, hno⟩)
      have hpre := hke.present nofun
      rw [ne_eq, coerced_null_iff hcoe] at hpre
      cases htak : type.takesNull with
      | false => rfl
      | true => exact absurd ⟨hv, htak⟩ hpre
    · rintro ⟨hin, hte⟩
      refine ⟨?_, ?_, fun num h => (by cases h)⟩
      · intro s' hs' htype
        cases hs'
        exact (text_kept_iff hpar hcoe htype).mpr (hte htype)
      · intro _ hsto
        obtain ⟨hv, htak⟩ := (coerced_null_iff hcoe).mp hsto
        rcases (parsed_null_iff hpar).mp hv with hvalue | ⟨s', hs', hcol, hno⟩
        · cases hvalue
        · cases hs'
          rw [hin hcol hno] at htak
          cases htak
  | number num =>
    have hpre := present_of_not_string hpar hcoe nofun
    constructor
    · intro hke
      by_cases hnu : type.isNumeric = true
      · exact (number_kept_iff hpar hcoe hnu).mp (hke.number num rfl hnu)
      · -- only a column of doubles asks for anything
        cases num with
        | posInt n hrange =>
          intro hfl8
          exact absurd (hfl8 ▸ rfl) hnu
        | negInt n hrange | float value => trivial
    · intro hsur
      refine ⟨nofun, hpre, ?_⟩
      intro num' hnum hnu
      cases hnum
      exact (number_kept_iff hpar hcoe hnu).mpr hsur
  | null =>
    refine ⟨fun _ => trivial, fun _ => ?_⟩
    exact ⟨nofun, fun h => absurd rfl h, fun num h => (by cases h)⟩
  | bool flag | array values | object fields =>
    refine ⟨fun _ => trivial, fun _ => ⟨nofun, ?_, fun num h => (by cases h)⟩⟩
    exact present_of_not_string hpar hcoe nofun

end

theorem quoted_longer (s : String) : s.length < ("[\"" ++ s ++ "\"]").length := by
  simp only [String.length_append]
  have hop : "[\"".length = 2 := by decide
  omega

section

/-- Crates that know addresses of digits and dots, UUIDs of any digits and one time. -/
@[reducible] def sampleCrates : ValueCrates where
  toLowercase := Text.toAsciiLowercase
  Uuid := String
  parseUuid text := .ok (Text.toAsciiLowercase text)
  uuidText := id
  IpAddr := String
  parseIp text := if text.toList.all (fun c => c.isDigit || c == '.') then some text else none
  parseSocket _ := none
  ipText := id
  OffsetDateTime := Unit
  parseRfc3339 text := if text = "2024-01-01T12:00:00Z" then some () else none
  timeText _ := "2024-01-01 12:00:00.0 +00:00:00"
  parseJson text := if text = "[]" then some (.array []) else none
  jsonText
    | .array [.string text] => "[\"" ++ text ++ "\"]"
    | _ => "[]"
  numberText _ := "0"
  floatText _ := "0"
  acceptsText _ := false
  acceptsTextArray _ := false

attribute [local instance] sampleCrates

theorem sampleCrates_lawful : LawfulValueCrates where
  nil_text := rfl
  empty_not_json := rfl
  single_longer := quoted_longer
  display_not_rfc3339 := fun _ => rfl

/-- A title goes through as it is. -/
theorem title_kept : Kept (.string "hello") .text (.text "hello") := by
  have := sampleCrates_lawful
  have hval : convertPreparedParams [⟨"title", .string "hello"⟩] = .ok [.text "hello"] := rfl
  have hbou : prepareTypedParams [.text "hello"] [.text] = .ok [.text "hello"] := rfl
  have hiff := values_survive_iff (i := 0) rfl hval hbou rfl rfl rfl
  refine hiff.mpr ⟨fun hin => absurd hin (by decide), fun _ => ?_⟩
  rw [PrintsBack, if_neg (by decide), if_neg (by decide)]
  exact ⟨fun _ hloo => absurd hloo (by decide), fun hloo => absurd hloo (by decide)⟩

def bindOne (name : String) (value : JsonValue) (type : PgType) : Option Stored :=
  match parseParamValueWithName name value with
  | .error _ => none
  | .ok v =>
    match prepareTypedParams [v] [type] with
    | .ok [binding] => binding.stores type
    | _ => none

/-- Four values that come out changed: an address that is none becomes NULL, a UUID in upper
case and a time are printed in another form, and a large number is rounded. -/
theorem values_changed : bindOne "client_ip" (.string "unknown") .text = some .null ∧
    bindOne "note" (.string "550E8400-E29B-41D4-A716-446655440000") .text =
      some (.text "550e8400-e29b-41d4-a716-446655440000") ∧
    bindOne "note" (.string "2024-01-01T12:00:00Z") .varchar =
      some (.text "2024-01-01 12:00:00.0 +00:00:00") ∧
    bindOne "total" (.number (.posInt 9223372036854775809 (by decide))) .float8 =
      some (.float 9223372036854775808) := by
  refine ⟨rfl, rfl, rfl, ?_⟩
  have hrou : nearestDouble 9223372036854775809 = 9223372036854775808 := by decide +kernel
  show some (Stored.float (nearestDouble 9223372036854775809 : ℚ)) = _
  rw [hrou]
  norm_num

end

end Fenrir.Connector
