import Fenrir.Lib.Run
import Fenrir.Security.IdentityDb
import Fenrir.Lib.Results

/-! # The two identity backends

What the file store and the database store have to do with each other. The
tables stand for a set of users when they hold one row a user and the rows of
the user's tokens (`Stores`), with NULL for what a record leaves open. -/

namespace Fenrir.Identity

open List

open Std.ExtTreeMap (mem_toList_iff_getElem?_eq_some getElem?_empty)

/-! ## Maps built entry by entry -/

section

variable {V : Type}

theorem foldl_insert_get {l : List (String × V)} (hl : (l.map Prod.fst).Nodup)
    (m : BTreeMap V) (k : String) (v : V) :
    (l.foldl (fun m p => m.insert p.1 p.2) m)[k]? = some v ↔
      (k, v) ∈ l ∨ k ∉ l.map Prod.fst ∧ m[k]? = some v := by
  induction l generalizing m with
  | nil => simp
  | cons p l ih =>
    obtain ⟨hp, hl⟩ := nodup_cons.mp hl
    rw [foldl_cons, ih hl, BTreeMap.get_insert, mem_cons, map_cons, mem_cons]
    by_cases hk : p.1 = k
    · rw [if_pos hk]
      subst hk
      constructor
      · rintro (hmem | ⟨-, hv⟩)
        · exact absurd (mem_map_of_mem hmem) hp
        · exact .inl (.inl (by rw [← Option.some.inj hv]))
      · rintro ((heq | hmem) | ⟨hno, -⟩)
        · exact .inr ⟨hp, by rw [← heq]⟩
        · exact .inl hmem
        · exact absurd (.inl rfl) hno
    · rw [if_neg hk]
      constructor
      · rintro (hmem | ⟨hno, hv⟩)
        · exact .inl (.inr hmem)
        · exact .inr ⟨fun h => h.elim (fun h => hk h.symm) hno, hv⟩
      · rintro ((heq | hmem) | ⟨hno, hv⟩)
        · exact absurd (congrArg Prod.fst heq).symm hk
        · exact .inl hmem
        · exact .inr ⟨fun h => hno (.inr h), hv⟩

end

/-! ## Records as rows -/

def UserRow.ofRecord (r : IdentityUserRecord) : UserRow :=
  { userId := r.userId, displayName := r.displayName, role := roleText r.role,
    passwordHash := r.passwordHash, passwordUpdatedAt := r.passwordUpdatedAt,
    createdAt := r.createdAt, lastIssuedAt := r.lastIssuedAt, tokenCount := r.tokenCount,
    lastTokenFingerprint := r.lastTokenFingerprint, lastLoginAt := r.lastLoginAt }

def TokenRow.ofRecord (userId : String) (t : IdentityTokenRecord) : TokenRow :=
  ⟨t.tokenId, userId, t.keyId, t.fingerprint, t.issuedAt, t.expiresAt⟩

def TokenRow.record (row : TokenRow) : IdentityTokenRecord :=
  ⟨row.tokenId, row.fingerprint, row.issuedAt, row.expiresAt, row.keyId⟩

/-- The user a row stands for, without tokens. -/
def UserRow.record (row : UserRow) : IdentityUserRecord :=
  { userId := row.userId, displayName := row.displayName,
    role := ((roleFromStr row.role).toOption).getD .viewer, createdAt := row.createdAt,
    lastIssuedAt := row.lastIssuedAt, tokenCount := row.tokenCount.toNat,
    lastTokenFingerprint := row.lastTokenFingerprint, tokens := [],
    passwordHash := row.passwordHash, passwordUpdatedAt := row.passwordUpdatedAt,
    lastLoginAt := row.lastLoginAt }

theorem UserRow.record_ofRecord (r : IdentityUserRecord) :
    (UserRow.ofRecord r).record = { r with tokens := [] } := by
  simp only [UserRow.record, UserRow.ofRecord, roleFromStr_roleText, Int.toNat_natCast]
  rfl

open UserRow (ofRecord record_ofRecord)

/-- The tables stand for the users. -/
structure Stores (users : BTreeMap IdentityUserRecord) (t : Tables) : Prop where
  nodup : (t.users.map (·.userId)).Nodup
  rows : ∀ id, t.users.find? (·.userId = id) = users[id]?.map ofRecord
  named : ∀ (id : String) (r : IdentityUserRecord), users[id]? = some r → r.userId = id
  tokens : ∀ (id : String) (r : IdentityUserRecord), users[id]? = some r →
    t.tokens.filter (·.userId = id) = r.tokens.map (TokenRow.ofRecord id)

theorem Stores.mem {users : BTreeMap IdentityUserRecord} {t : Tables} (h : Stores users t)
    {row : UserRow} : row ∈ t.users ↔ users[row.userId]?.map ofRecord = some row := by
  rw [← h.rows]
  constructor
  · intro hmem
    cases hf : t.users.find? (·.userId = row.userId) with
    | none => exact absurd (decide_eq_true rfl) (List.find?_eq_none.mp hf row hmem)
    | some row' =>
      have hid : row'.userId = row.userId := by simpa using List.find?_some hf
      have hme' := mem_of_find?_eq_some hf
      rw [inj_on_of_nodup_map h.nodup hme' hmem hid]
  · exact fun hf => mem_of_find?_eq_some hf

/-! ## Records that leave nothing open -/

/-- A time the server keeps as it is: whole microseconds, and a day or more inside
the years 1 to 9999. -/
def plainTime (t : Int) : Bool :=
  t % 1000 = 0 && -62135510400000000000 ≤ t && t ≤ 253402128000000000000

def filled : Option String → Bool
  | some s => s ≠ ""
  | none => false

def IdentityTokenRecord.plain (t : IdentityTokenRecord) : Bool :=
  plainTime t.issuedAt && plainTime t.expiresAt

/-- Every text column of the record has a value, and every time is plain. -/
structure IdentityUserRecord.Plain (r : IdentityUserRecord) : Prop where
  displayName : filled r.displayName = true
  passwordHash : filled r.passwordHash = true
  lastTokenFingerprint : filled r.lastTokenFingerprint = true
  createdAt : plainTime r.createdAt = true
  times : ∀ t ∈ r.passwordUpdatedAt.toList ++ r.lastIssuedAt.toList ++ r.lastLoginAt.toList,
    plainTime t = true
  tokenCount : r.tokenCount < 9223372036854775808
  tokens : ∀ t ∈ r.tokens, t.plain = true

open IdentityCrates Identity.Postgres

section

variable [IdentityCrates] [Postgres]

/-- Postgres and the time crate on plain times: the server reads the RFC 3339 text
of a time as that time, the store reads what the server prints as that time,
and neither reads `NULL` as a time. -/
structure TimesAgree : Prop where
  reads : ∀ t, plainTime t = true → ∃ text, formatRfc3339 t = .ok text ∧ timestamptzIn text = .ok t
  prints : ∀ t, plainTime t = true →
    timestamptzOut t ≠ "" ∧ parseTimestamp (timestamptzOut t) = .ok t
  null : (parseTimestamp "NULL").toOption = none

section

omit [IdentityCrates] [Postgres] in
theorem textColumn_cell {o : Option String} (h : filled o = true) :
    (some (cell o)).filter (· ≠ "") = o := by
  cases o with
  | none => cases h
  | some s => exact Option.filter_some_pos h

variable (times : TimesAgree)

include times

theorem timeColumn_timeCell {o : Option Int} (h : ∀ t ∈ o.toList, plainTime t = true) :
    (((some (timeCell o)).filter (· ≠ "")).bind fun s => (parseTimestamp s).toOption) = o := by
  cases o with
  | none =>
    show ((some "NULL").filter _).bind _ = _
    rw [Option.filter_some_pos (by decide)]
    exact times.null
  | some t =>
    obtain ⟨hne, hpar⟩ := times.prints t (h t (by simp))
    show ((some (timestamptzOut t)).filter _).bind _ = _
    rw [Option.filter_some_pos (by simpa using hne), Option.bind_some, hpar]
    rfl

omit [IdentityCrates] [Postgres] times in
theorem parseU64_toString {n : Nat} (h : n < 9223372036854775808) :
    parseU64 (toString (n : Int)) = some n := by
  have hdig : (toString (n : Int)).toList = Nat.toDigits 10 n := Nat.toList_repr
  have hall : (Nat.toDigits 10 n).all Char.isDigit = true := by
    rw [all_eq_true]
    exact fun c hc => Nat.isDigit_of_mem_toDigits (b := 10) (by decide) (by decide) hc
  have hne : Nat.toDigits 10 n ≠ [] := Nat.toDigits_ne_nil
  have hpl : dropPlus (Nat.toDigits 10 n) = Nat.toDigits 10 n := by
    rw [dropPlus.eq_def]
    split
    · rename_i cs heq
      rw [heq] at hall
      cases hall
    · rfl
  rw [parseU64, hdig, hpl, if_pos ⟨hne, hall⟩, Nat.ofDigitChars_toDigits (by decide) (by decide),
    if_pos (by omega)]

theorem parseUserRow_ofRecord {r : IdentityUserRecord} (h : r.Plain) :
    parseUserRow (ofRecord r).cells = .ok (ofRecord r).record := by
  have hcre := (times.prints _ h.createdAt).2
  have hti : ∀ o : Option Int, (∀ t ∈ o.toList, plainTime t = true) →
      (((some (timeCell o)).filter (· ≠ "")).bind fun s => (parseTimestamp s).toOption) = o :=
    fun o ho => timeColumn_timeCell times ho
  rw [record_ofRecord, parseUserRow]
  simp only [ofRecord, UserRow.cells, column, textColumn, timeColumn, List.getElem?_cons_zero,
    List.getElem?_cons_succ, Option.getD_some, hcre, roleFromStr_roleText, Option.bind_some,
    parseU64_toString h.tokenCount, textColumn_cell h.displayName, textColumn_cell h.passwordHash,
    textColumn_cell h.lastTokenFingerprint]
  rw [hti _ fun t ht => h.times t (by simp [ht]), hti _ fun t ht => h.times t (by simp [ht]),
    hti _ fun t ht => h.times t (by simp [ht])]
  rfl

theorem parseTokenRow_ofRecord {t : IdentityTokenRecord} (h : t.plain = true) (uid : String) :
    parseTokenRow (TokenRow.ofRecord uid t).cells = .ok t := by
  rw [IdentityTokenRecord.plain, Bool.and_eq_true] at h
  simp only [parseTokenRow, TokenRow.cells, TokenRow.ofRecord, column, List.getElem?_cons_zero,
    List.getElem?_cons_succ, Option.getD_some, (times.prints _ h.1).2, (times.prints _ h.2).2]
  rfl

end

/-! ## What the database store loads -/

def PlainUsers (users : BTreeMap IdentityUserRecord) : Prop :=
  ∀ (id : String) (r : IdentityUserRecord), users[id]? = some r → r.Plain

/-- The database store stands for the state of the file store. -/
structure Same (state : IdentityState) (store : DbIdentityStore) : Prop where
  environment : store.environment = state.environment
  instanceId : store.instanceId = state.instanceId
  appVersion : store.appVersion = state.appVersion
  key : store.getCurrentKey = .ok (some state.currentKey)
  users : Stores state.users store.tables
  plain : PlainUsers state.users

section

variable (times : TimesAgree) {state : IdentityState} {store : DbIdentityStore}

include times

variable {r : IdentityUserRecord} {now : Int}

section

variable (h : Same state store)

include h

theorem loadUserTokens_eq {id : String} (hr : state.users[id]? = some r) :
    store.loadUserTokens id = .ok r.tokens := by
  rw [DbIdentityStore.loadUserTokens, literal_eq]
  show List.mapM _ (store.tables.tokens.filter (·.userId = id)) = _
  rw [h.users.tokens id r hr, Results.mapM_ok (g := TokenRow.record), map_map]
  · exact congrArg Except.ok (map_id _)
  · intro row hrow
    obtain ⟨t, ht, rfl⟩ := mem_map.mp hrow
    exact parseTokenRow_ofRecord times ((h.plain id r hr).tokens t ht) id

omit times in
theorem loaded_get (id : String) (v : IdentityUserRecord) :
    ((store.tables.users.map UserRow.record).foldl (fun users r => users.insert r.userId r)
      (∅ : BTreeMap IdentityUserRecord))[id]? = some v ↔
      ∃ r, state.users[id]? = some r ∧ v = { r with tokens := [] } := by
  have hke : ((store.tables.users.map fun row => (row.userId, row.record)).map
      Prod.fst).Nodup := by
    rw [map_map]
    exact h.users.nodup
  rw [foldl_map]
  have hfo := foldl_insert_get hke ∅ id v
  rw [foldl_map] at hfo
  refine hfo.trans ?_
  constructor
  · rintro (hmem | ⟨-, hno⟩)
    · obtain ⟨row, hrow, heq⟩ := mem_map.mp hmem
      cases heq
      obtain ⟨r, hr, hof⟩ := Option.map_eq_some_iff.mp (h.users.mem.mp hrow)
      exact ⟨r, hr, by rw [← hof, record_ofRecord]⟩
    · rw [getElem?_empty] at hno
      cases hno
  · rintro ⟨r, hr, rfl⟩
    have hid : (ofRecord r).userId = id := h.users.named id r hr
    have hrow : ofRecord r ∈ store.tables.users := by
      rw [h.users.mem, hid, hr]
      rfl
    refine .inl (mem_map.mpr ⟨_, hrow, ?_⟩)
    rw [hid, record_ofRecord]

/-- **THE DATABASE STORE LOADS THE USERS IT STANDS FOR.** -/
theorem loadAllUsers_eq : store.loadAllUsers = .ok state.users := by
  have hro : store.tables.users.mapM (fun row => parseUserRow row.cells) =
      .ok (store.tables.users.map UserRow.record) := by
    refine Results.mapM_ok fun row hrow => ?_
    obtain ⟨r, hr, rfl⟩ := Option.map_eq_some_iff.mp (h.users.mem.mp hrow)
    exact parseUserRow_ofRecord times (h.plain _ r hr)
  have hget := loaded_get h
  rw [DbIdentityStore.loadAllUsers, hro]
  show List.foldlM _ _ _ = _
  generalize (store.tables.users.map UserRow.record).foldl
    (fun users r => users.insert r.userId r) (∅ : BTreeMap IdentityUserRecord) = loaded at hget ⊢
  -- what the second pass writes for a key is the record of the state
  let full : String × IdentityUserRecord → String × IdentityUserRecord := fun p =>
    (p.1, (state.users[p.1]?).getD p.2)
  have hpa : ∀ users : BTreeMap IdentityUserRecord, ∀ p ∈ loaded.toList,
      (do let tokens ← store.loadUserTokens p.1
          return users.insert p.1 { p.2 with tokens } :
        Except IdentityError (BTreeMap IdentityUserRecord)) =
      .ok (users.insert (full p).1 (full p).2) := by
    intro users p hp
    obtain ⟨r, hr, hv⟩ := (hget p.1 p.2).mp (mem_toList_iff_getElem?_eq_some.mp hp)
    rw [loadUserTokens_eq times h hr]
    show Except.ok _ = Except.ok (users.insert p.1 ((state.users[p.1]?).getD p.2))
    rw [hr, hv]
    rfl
  refine (Results.foldlM_ok hpa).trans (congrArg Except.ok ?_)
  have hke : ((loaded.toList.map full).map Prod.fst).Nodup := by
    rw [map_map]
    exact BTreeMap.toList_keys_nodup loaded
  refine Std.ExtTreeMap.ext_getElem? fun k => Option.ext fun v => ?_
  have hfo := foldl_insert_get hke loaded k v
  rw [foldl_map] at hfo
  refine hfo.trans ?_
  constructor
  · rintro (hmem | ⟨hno, hv⟩)
    · obtain ⟨p, hp, heq⟩ := mem_map.mp hmem
      obtain ⟨r, hr, -⟩ := (hget p.1 p.2).mp (mem_toList_iff_getElem?_eq_some.mp hp)
      cases heq
      rw [hr]
      rfl
    · refine absurd ?_ hno
      rw [map_map]
      exact mem_map.mpr ⟨(k, v), mem_toList_iff_getElem?_eq_some.mpr hv, rfl⟩
  · intro hr
    have hloa := (hget k { v with tokens := [] }).mpr ⟨v, hr, rfl⟩
    refine .inl (mem_map.mpr
      ⟨(k, { v with tokens := [] }), mem_toList_iff_getElem?_eq_some.mpr hloa, ?_⟩)
    show (k, (state.users[k]?).getD _) = (k, v)
    rw [hr]
    rfl

theorem loadState_eq : store.loadState = .ok state := by
  rw [DbIdentityStore.loadState, h.key, loadAllUsers_eq times h, h.environment, h.instanceId,
    h.appVersion]
  rfl

omit times in
theorem userRow_eq (id : String) : store.userRow id = .ok (state.users[id]?.map ofRecord) := by
  rw [DbIdentityStore.userRow, literal_eq, ← h.users.rows]
  rfl

theorem getUser_eq (id : String) : store.getUser id = .ok state.users[id]? := by
  rw [DbIdentityStore.getUser, userRow_eq h]
  cases hr : state.users[id]? with
  | none => rfl
  | some r =>
    show (do let record ← parseUserRow (ofRecord r).cells
             let tokens ← store.loadUserTokens id
             return some { record with tokens } : Except IdentityError _) = _
    rw [parseUserRow_ofRecord times (h.plain id r hr), loadUserTokens_eq times h hr,
      record_ofRecord]
    rfl

omit times in
theorem isPasswordSet_eq (id : String) : store.isPasswordSet id = .ok (state.isPasswordSet id) := by
  rw [DbIdentityStore.isPasswordSet, userRow_eq h, IdentityState.isPasswordSet]
  cases hr : state.users[id]? with
  | none => rfl
  | some r =>
    have hfil := (h.plain id r hr).passwordHash
    show Except.ok (decide (cell r.passwordHash ≠ "")) = Except.ok r.passwordHash.isSome
    cases hp : r.passwordHash with
    | none =>
      rw [hp] at hfil
      cases hfil
    | some hash =>
      rw [hp] at hfil
      exact congrArg Except.ok hfil

end

/-! ## What the statements change -/

theorem time_read (hnow : plainTime now = true) :
    ∃ text, timeText now = .ok text ∧ timeLiteral text = .ok now := by
  obtain ⟨text, hfor, hre⟩ := times.reads now hnow
  refine ⟨text, by rw [timeText, hfor]; rfl, ?_⟩
  rw [timeLiteral, literal_eq]
  show (timestamptzIn text).mapError _ = _
  rw [hre]
  rfl

omit times in
theorem updateUser_same (h : Same state store) {id : String} (hr : state.users[id]? = some r)
    (set : UserRow → UserRow) (change : IdentityUserRecord → IdentityUserRecord)
    (hset : set (ofRecord r) = ofRecord (change r))
    (hid : ∀ row, (set row).userId = row.userId) (htok : (change r).tokens = r.tokens)
    (hpla : (change r).Plain) : ∃ store', store.updateUser id set = .ok store' ∧
      Same { state with users := state.users.insert id (change r) } store' := by
  rw [DbIdentityStore.updateUser, literal_eq]
  have hkey : ∀ row, (if row.userId = id then set row else row).userId = row.userId := by
    intro row
    split
    · exact hid row
    · rfl
  refine ⟨_, rfl, h.environment, h.instanceId, h.appVersion, h.key, ⟨?_, ?_, ?_, ?_⟩, ?_⟩
  · rw [map_map]
    have hids := map_congr_left fun row (_ : row ∈ store.tables.users) => hkey row
    exact hids ▸ h.users.nodup
  · intro id'
    have hfi : ∀ rows : List UserRow,
        (rows.map fun row => if row.userId = id then set row else row).find? (·.userId = id') =
          (rows.find? (·.userId = id')).map fun row => if row.userId = id then set row else row := by
      intro rows
      rw [List.find?_map]
      refine congrArg _ (congrArg (fun p => List.find? p rows) (funext fun row => ?_))
      show decide ((if row.userId = id then set row else row).userId = id') = _
      rw [hkey]
    rw [hfi, h.users.rows, BTreeMap.get_insert]
    by_cases hi : id = id'
    · subst hi
      have hna : (ofRecord r).userId = id := h.users.named id r hr
      rw [if_pos rfl, hr]
      show some (if (ofRecord r).userId = id then _ else _) = some _
      rw [if_pos hna, hset]
    · rw [if_neg hi]
      cases hr' : state.users[id']? with
      | none => rfl
      | some r' =>
        have hna : (ofRecord r').userId = id' := h.users.named id' r' hr'
        show some (if (ofRecord r').userId = id then _ else _) = some _
        rw [if_neg (fun heq => hi (heq.symm.trans hna))]
  · refine BTreeMap.forall_insert ?_ h.users.named
    show (ofRecord (change r)).userId = id
    rw [← hset, hid]
    exact h.users.named id r hr
  · refine BTreeMap.forall_insert ?_ h.users.tokens
    rw [htok]
    exact h.users.tokens id r hr
  · exact BTreeMap.forall_insert hpla h.plain

theorem setPassword_same (h : Same state store) {id hash : String} (role : Role)
    (hr : state.users[id]? = some r) (hha : hash ≠ "") (hnow : plainTime now = true) :
    ∃ store', store.setPassword id hash role now = .ok store' ∧
      Same (state.setPassword id hash role now) store' := by
  obtain ⟨text, hte, hre⟩ := time_read times hnow
  have hpla := h.plain id r hr
  obtain ⟨store', hupd, hsa⟩ := updateUser_same h hr
    (fun row => { row with passwordHash := some hash, passwordUpdatedAt := some now })
    (fun r => { r with passwordHash := some hash, passwordUpdatedAt := some now })
    rfl (fun _ => rfl) rfl
    { hpla with
      passwordHash := decide_eq_true hha
      times := by
        intro t ht
        rw [append_assoc, mem_append] at ht
        rcases ht with ht | ht
        · rw [mem_singleton.mp ht]
          exact hnow
        · exact hpla.times t (by rw [append_assoc]; exact mem_append_right _ ht) }
  refine ⟨store', ?_, ?_⟩
  · rw [DbIdentityStore.setPassword, hte, getUser_eq times h, hr, literal_eq]
    rw [Results.ok_bind, Results.ok_bind, Results.ok_bind, hre]
    exact hupd
  · rw [IdentityState.setPassword, hr]
    exact hsa

theorem recordLogin_same (h : Same state store) (id : String) (hnow : plainTime now = true) :
    ∃ store', store.recordLogin id now = .ok store' ∧ Same (state.recordLogin id now) store' := by
  obtain ⟨text, hte, hre⟩ := time_read times hnow
  have hsta : store.recordLogin id now =
      store.updateUser id fun row => { row with lastLoginAt := some now } := by
    rw [DbIdentityStore.recordLogin, hte, Results.ok_bind, hre]
    rfl
  rw [hsta, IdentityState.recordLogin]
  cases hr : state.users[id]? with
  | none =>
    -- no row has the name, so the statement changes nothing
    have hro : (store.tables.users.map fun row : UserRow =>
        if row.userId = id then { row with lastLoginAt := some now } else row) =
        store.tables.users := by
      refine (map_congr_left fun row hrow => ?_).trans (map_id _)
      refine if_neg fun hid => ?_
      have hso := h.users.mem.mp hrow
      rw [hid, hr] at hso
      cases hso
    refine ⟨store, ?_, h⟩
    rw [DbIdentityStore.updateUser, literal_eq]
    show Except.ok { store with tables := { store.tables with users := _ } } = _
    rw [hro]
  | some r =>
    have hpla := h.plain id r hr
    exact updateUser_same h hr _ (fun r => { r with lastLoginAt := some now }) rfl (fun _ => rfl)
      rfl
      { hpla with
        times := by
          intro t ht
          rw [mem_append] at ht
          rcases ht with ht | ht
          · exact hpla.times t (mem_append_left _ ht)
          · rw [mem_singleton.mp ht]
            exact hnow }

end

/-! ## Runs -/

def AnyIdentityStore.knows (store : AnyIdentityStore) (userId : String) : Bool :=
  match store.getUser userId with
  | .ok (some _) => true
  | _ => false

/-- The operation writes no time that the server would have to round. -/
def Op.timely : Op → Bool
  | .setPassword _ _ _ now | .recordLogin _ now => plainTime now
  | _ => true

/-- The condition on the steps of a run: no token is issued, a password is set only
for a known user and is not empty, and the times written are plain. -/
def Keeps (store : AnyIdentityStore) (op : Op) : Prop :=
  op.timely = true ∧ match op with
    | .issueToken _ _ _ => False
    | .setPassword userId hash _ _ => store.knows userId = true ∧ hash ≠ ""
    | _ => True

def Related : AnyIdentityStore → AnyIdentityStore → Prop
  | .file state, .db store => Same state store
  | _, _ => False

theorem known_iff {state : IdentityState} {uid : String} :
    (AnyIdentityStore.file state).knows uid = true ↔ ∃ r, state.users[uid]? = some r := by
  show (match (Except.ok state.users[uid]? : Except IdentityError _) with
    | .ok (some _) => true
    | _ => false) = true ↔ _
  cases state.users[uid]? with
  | none => exact ⟨nofun, fun ⟨_, h⟩ => (nomatch h)⟩
  | some r => exact ⟨fun _ => ⟨r, rfl⟩, fun _ => rfl⟩

section

variable (times : TimesAgree) (auth : IdentityAuthority)

include times

variable {op : Op}

theorem answer_eq {state : IdentityState} {store : DbIdentityStore} (h : Same state store)
    (hop : op.timely = true) :
    (auth.answer (.file state) op).1 = (auth.answer (.db store) op).1 := by
  cases op with
  | issueToken req tid now =>
    show Answer.issued _ = Answer.issued (AnyIdentityStore.write (.db store) _).1
    rw [AnyIdentityStore.write, loadState_eq times h]
  | setPassword uid hash role now =>
    obtain ⟨text, hte, hre⟩ := time_read times hop
    show Answer.done (.ok ()) = Answer.done (AnyIdentityStore.ofStatement store _).1
    have hok : ∃ store', store.setPassword uid hash role now = .ok store' := by
      rw [DbIdentityStore.setPassword, hte, getUser_eq times h, literal_eq]
      rw [Results.ok_bind, Results.ok_bind, Results.ok_bind, hre, Results.ok_bind]
      cases hr : state.users[uid]? with
      | some r =>
        show ∃ store', store.updateUser uid _ = .ok store'
        rw [DbIdentityStore.updateUser, literal_eq]
        exact ⟨_, rfl⟩
      | none =>
        show ∃ store', (do let uid ← literal uid; _ : Except IdentityError _) = .ok store'
        rw [literal_eq, literal_eq]
        exact ⟨_, rfl⟩
    obtain ⟨store', hs⟩ := hok
    rw [hs]
    rfl
  | recordLogin uid now =>
    obtain ⟨store', hs, -⟩ := recordLogin_same times h uid hop
    show Answer.done (.ok ()) = Answer.done (AnyIdentityStore.ofStatement store _).1
    rw [hs]
    rfl
  | getUser uid => exact congrArg Answer.user (getUser_eq times h uid).symm
  | isPasswordSet uid => exact congrArg Answer.flag (isPasswordSet_eq h uid).symm
  | listUsers =>
    show Answer.users (.ok _) = Answer.users (store.loadState.map _)
    rw [loadState_eq times h]
    rfl
  | verify token now =>
    have hre : (AnyIdentityStore.file state).read id = (AnyIdentityStore.db store).read id := by
      show Except.ok state = store.loadState.map id
      rw [loadState_eq times h]
      rfl
    refine congrArg Answer.claims ?_
    rw [IdentityAuthority.verify, IdentityAuthority.verify, hre]

theorem related_step {s t : AnyIdentityStore} (h : Related s t) (hop : Keeps s op) :
    Related (auth.step s op) (auth.step t op) := by
  cases s with
  | db store => cases h
  | file state =>
    cases t with
    | file state' => cases h
    | db store =>
      cases op with
      | issueToken req tid now => exact hop.2.elim
      | setPassword uid hash role now =>
        obtain ⟨hnow, hkno, hha⟩ := hop
        obtain ⟨r, hr⟩ := known_iff.mp hkno
        obtain ⟨store', hs, hsa⟩ := setPassword_same times h role hr hha hnow
        show Related (.file _) (AnyIdentityStore.ofStatement store _).2
        rw [hs]
        exact hsa
      | recordLogin uid now =>
        obtain ⟨store', hs, hsa⟩ := recordLogin_same times h uid hop.1
        show Related (.file _) (AnyIdentityStore.ofStatement store _).2
        rw [hs]
        exact hsa
      | getUser uid | isPasswordSet uid | listUsers | verify token now => exact h

open Run in
/-- **THE BACKENDS ANSWER ALIKE**, in every run whose steps meet the condition: from a
database that stands for the file store's users, whatever is asked next is
answered by both in the same way. -/
theorem backends_agree {state : IdentityState} {store : DbIdentityStore} (hsame : Same state store)
    (ops : List Op) (hops : Along auth.step Keeps (.file state) ops) (op : Op)
    (hop : op.timely = true) :
    (auth.answer (run auth.step (.file state) ops) op).1 =
      (auth.answer (run auth.step (.db store) ops) op).1 := by
  have hrel : Related (run auth.step (.file state) ops) (run auth.step (.db store) ops) := by
    refine simulation ?_ (show Related (.file state) (.db store) from hsame) hops
    exact fun s t a hst ha => related_step times auth hst ha
  generalize run auth.step (.file state) ops = s at hrel ⊢
  generalize run auth.step (.db store) ops = t at hrel ⊢
  cases s with
  | db store => cases hrel
  | file state =>
    cases t with
    | file state' => cases hrel
    | db store => exact answer_eq times auth hrel hop

end

end

/-! ### A user with everything, and a user with nothing -/

/-- A time as text: the epoch as the crate and the server print it, any other time
by its distance. -/
def sampleTimeText (epoch : String) (t : Int) : String :=
  if t = 0 then epoch
  else String.ofList ((if 0 < t then 'p' else 'n') :: List.replicate t.natAbs 'x')

def sampleTimeRead (epoch text : String) : Except String Int :=
  if text = epoch then .ok 0
  else
    match text.toList with
    | 'p' :: cs => .ok cs.length
    | 'n' :: cs => .ok (-cs.length)
    | _ => .error "invalid"

theorem sampleTimeRead_text {epoch : String} (hepo : epoch.toList.head? = some '1') (t : Int) :
    sampleTimeText epoch t ≠ "" ∧ sampleTimeRead epoch (sampleTimeText epoch t) = .ok t := by
  rw [sampleTimeText]
  by_cases ht : t = 0
  · rw [if_pos ht, sampleTimeRead, if_pos rfl, ht]
    refine ⟨?_, rfl⟩
    rintro rfl
    cases hepo
  · rw [if_neg ht]
    have hco : ∀ c : Char, c ≠ '1' → String.ofList (c :: List.replicate t.natAbs 'x') ≠ epoch := by
      rintro c hc rfl
      rw [String.toList_ofList] at hepo
      exact hc (Option.some.inj hepo)
    have hso : ∀ c : Char, String.ofList (c :: List.replicate t.natAbs 'x') ≠ "" := by
      intro c h
      have := congrArg String.toList h
      rw [String.toList_ofList] at this
      cases this
    by_cases hpos : 0 < t
    · rw [if_pos hpos, sampleTimeRead, if_neg (hco _ (by decide)), String.toList_ofList]
      refine ⟨hso _, ?_⟩
      show Except.ok ((List.replicate t.natAbs 'x').length : Int) = _
      rw [length_replicate]
      exact congrArg Except.ok (by omega)
    · rw [if_neg hpos, sampleTimeRead, if_neg (hco _ (by decide)), String.toList_ofList]
      refine ⟨hso _, ?_⟩
      show Except.ok (-((List.replicate t.natAbs 'x').length : Int)) = _
      rw [length_replicate]
      exact congrArg Except.ok (by omega)

def sampleKeyBytes : Bytes := List.replicate 32 0

def sampleKeyText : String := "AAAAAAAAAAAAAAAAAAAAAAAAAAAAAAAAAAAAAAAAAAA"

abbrev sampleCrates : IdentityCrates where
  headerJson _ := .ok []
  claimsJson _ := .ok []
  headerFromJson _ := none
  claimsFromJson _ := none
  encodeBase64 _ := sampleKeyText
  decodeBase64 s := if s = sampleKeyText then .ok sampleKeyBytes else .error "invalid"
  keypairValid _ _ := true
  publicKeyValid _ := true
  sign _ _ := []
  verify _ _ _ := false
  sha256 bytes := bytes
  formatRfc3339 t := .ok (sampleTimeText "1970-01-01T00:00:00Z" t)
  fromUnixTimestamp t := some (t * 1000000000)
  parseTime format s :=
    match format with
    | .rfc3339 => sampleTimeRead "1970-01-01T00:00:00Z" s
    | _ => sampleTimeRead "1970-01-01 00:00:00+00" s

abbrev samplePostgres : Postgres where
  timestamptzIn := sampleTimeRead "1970-01-01T00:00:00Z"
  timestamptzOut := sampleTimeText "1970-01-01 00:00:00+00"

theorem sampleTimes : @TimesAgree sampleCrates samplePostgres := by
  let _ := sampleCrates
  let _ := samplePostgres
  refine ⟨?_, ?_, by decide +kernel⟩
  · intro t _
    exact ⟨_, rfl, (sampleTimeRead_text (by decide) t).2⟩
  · intro t _
    by_cases ht : t = 0
    · subst ht
      decide +kernel
    · -- away from the epoch every format has the same texts
      have hte : timestamptzOut t = sampleTimeText "1970-01-01T00:00:00Z" t := by
        show sampleTimeText _ t = _
        rw [sampleTimeText, sampleTimeText, if_neg ht, if_neg ht]
      obtain ⟨hne, hre⟩ := @sampleTimeRead_text "1970-01-01T00:00:00Z" (by decide) t
      have hpar : parseTime .rfc3339 (sampleTimeText "1970-01-01T00:00:00Z" t) = .ok t := hre
      rw [hte, parseTimestamp, hpar]
      exact ⟨hne, rfl⟩

def sampleKey : IdentityKeyMaterial := ⟨"kid-1", 0, sampleKeyBytes, sampleKeyBytes⟩

def sampleAda : IdentityUserRecord :=
  { userId := "ada", displayName := some "Ada", role := .operator, createdAt := 0,
    lastIssuedAt := none, tokenCount := 1, lastTokenFingerprint := some "f1",
    tokens := [⟨"t1", "f1", 0, 0, "kid-1"⟩], passwordHash := some "$argon2id$1",
    passwordUpdatedAt := some 0, lastLoginAt := none }

def sampleBob : IdentityUserRecord :=
  { sampleAda with userId := "bob", passwordHash := none, passwordUpdatedAt := none }

def sampleState (r : IdentityUserRecord) : IdentityState :=
  ⟨"prod", "i1", "1.0", sampleKey, (∅ : BTreeMap IdentityUserRecord).insert r.userId r⟩

def sampleDb (r : IdentityUserRecord) : DbIdentityStore :=
  ⟨"prod", "i1", "1.0",
    { keys := [⟨"kid-1", sampleKeyText, sampleKeyText, 0, true⟩]
      users := [ofRecord r]
      tokens := r.tokens.map (TokenRow.ofRecord r.userId) }⟩

def sampleAuthority : IdentityAuthority :=
  ⟨"prod", "i1", "urn:fenrir:prod:i1", "fenrir", "1.0", 3600⟩

theorem sample_stores (r : IdentityUserRecord) :
    Stores (sampleState r).users (sampleDb r).tables := by
  have hget : ∀ id r', (sampleState r).users[id]? = some r' → id = r.userId ∧ r' = r := by
    intro id r' h
    have h' : ((∅ : BTreeMap IdentityUserRecord).insert r.userId r)[id]? = some r' := h
    rw [BTreeMap.get_insert, getElem?_empty] at h'
    split at h'
    · rename_i hid
      exact ⟨hid.symm, (Option.some.inj h').symm⟩
    · cases h'
  refine ⟨nodup_singleton _, ?_, ?_, ?_⟩
  · intro id
    show [ofRecord r].find? (·.userId = id) =
      ((∅ : BTreeMap IdentityUserRecord).insert r.userId r)[id]?.map ofRecord
    rw [BTreeMap.get_insert, getElem?_empty, List.find?_cons]
    by_cases hid : r.userId = id
    · have hrow : (ofRecord r).userId = id := hid
      rw [if_pos hid, decide_eq_true hrow]
      rfl
    · have hrow : ¬ (ofRecord r).userId = id := hid
      rw [if_neg hid, decide_eq_false hrow]
      rfl
  · intro id r' h
    obtain ⟨rfl, rfl⟩ := hget id r' h
    rfl
  · intro id r' h
    obtain ⟨rfl, rfl⟩ := hget id r' h
    refine filter_eq_self.mpr ?_
    intro row hrow
    obtain ⟨t, -, rfl⟩ := mem_map.mp hrow
    exact decide_eq_true rfl

theorem backends_agree_ada : (@IdentityAuthority.answer sampleCrates samplePostgres sampleAuthority
        (Run.run (@IdentityAuthority.step sampleCrates samplePostgres sampleAuthority)
          (.file (sampleState sampleAda)) [.recordLogin "ada" 0]) (.getUser "ada")).1 =
      (@IdentityAuthority.answer sampleCrates samplePostgres sampleAuthority
        (Run.run (@IdentityAuthority.step sampleCrates samplePostgres sampleAuthority)
          (.db (sampleDb sampleAda)) [.recordLogin "ada" 0]) (.getUser "ada")).1 := by
  let _ := sampleCrates
  let _ := samplePostgres
  refine backends_agree sampleTimes sampleAuthority
    ⟨rfl, rfl, rfl, by decide +kernel, sample_stores sampleAda, ?_⟩ [.recordLogin "ada" 0]
    ⟨⟨by decide, trivial⟩, trivial⟩ (.getUser "ada") rfl
  intro id r h
  have h' : ((∅ : BTreeMap IdentityUserRecord).insert "ada" sampleAda)[id]? = some r := h
  rw [BTreeMap.get_insert, getElem?_empty] at h'
  split at h'
  · cases h'
    exact ⟨by decide, by decide, by decide, by decide, by decide, by decide, by decide⟩
  · cases h'

/-- A user without a password has one according to the database store; and a token
issued to a new user leaves no trace there. -/
theorem backends_differ :
    let _ := sampleCrates
    let _ := samplePostgres
    let ask (store : AnyIdentityStore) (op : Op) := (sampleAuthority.answer store op).1
    let issue : Op := .issueToken ⟨"eve", none, .viewer⟩ "t2" 0
    Stores (sampleState sampleBob).users (sampleDb sampleBob).tables ∧
      ask (.file (sampleState sampleBob)) (.isPasswordSet "bob") = .flag (.ok false) ∧
      ask (.db (sampleDb sampleBob)) (.isPasswordSet "bob") = .flag (.ok true) ∧
      ask (sampleAuthority.step (.file (sampleState sampleBob)) issue) (.getUser "eve") ≠
        .user (.ok none) ∧
      ask (sampleAuthority.step (.db (sampleDb sampleBob)) issue) (.getUser "eve") =
        .user (.ok none) := by
  intro _ _ ask issue
  refine ⟨sample_stores sampleBob, ?_, ?_, ?_, ?_⟩ <;> decide +kernel

end Fenrir.Identity
