import Fenrir.Security.Backends

/-! # Writes of the file store that fail

`IdentityStore::write` of `identity/store.rs` changes the state in memory, then writes all of
it beside the file and renames that. An error leaves the file alone but not the memory; over
the database, `AnyIdentityStore.write` changes a copy. -/

namespace Fenrir.Identity

/-- Where `persist_state` fails; `written` is what the temporary file then has. -/
inductive PersistFailure where
  | json (message : String) | createDir (message : String) | createTmp (message : String)
  | writeTmp (message : String) (written : Bytes)
  | syncTmp (message : String) | rename (message : String)

structure IdentityStore where
  state : IdentityState
  poisoned : Bool
  (file tmp : Option Bytes)

namespace IdentityStore

variable (self : IdentityStore) (json : IdentityState → Bytes)

def persistState : Option PersistFailure → Except IdentityError Unit × IdentityStore
  | some (.json message) => (.error (.serde message), self)
  | some (.createDir message) | some (.createTmp message) => (.error (.io message), self)
  | some (.writeTmp message written) =>
    (.error (.io message), { self with tmp := some written })
  | some (.syncTmp message) | some (.rename message) =>
    (.error (.io message), { self with tmp := some (json self.state) })
  | none => (.ok (), { self with file := some (json self.state), tmp := none })

def write {R : Type} (failure : Option PersistFailure)
    (writer : IdentityState → Except IdentityError R × IdentityState) :
    Except IdentityError R × IdentityStore :=
  if self.poisoned then (.error .statePoisoned, self)
  else
    let changed := { self with state := (writer self.state).2 }
    match (writer self.state).1 with
    | .error err => (.error err, changed)
    | .ok result =>
      let done := changed.persistState json failure
      (done.1.map fun _ => result, done.2)

end IdentityStore

/-! ## The writers -/

/-- The callbacks that are given to `write`. -/
inductive IdentityWrite where
  | issueToken (request : IssueTokenRequest) (tokenId : String)
  | setPassword (userId passwordHash : String) (role : Role)
  | recordLogin (userId : String)

namespace IdentityWrite

def userId : IdentityWrite → String
  | issueToken request _ => request.userId
  | setPassword userId _ _ | recordLogin userId => userId

variable [IdentityCrates]

def run (self : IdentityAuthority) (now : Int) (w : IdentityWrite) (state : IdentityState) :
    Except IdentityError (Option IssuedToken) × IdentityState :=
  match w with
  | issueToken request tokenId =>
    let done := self.issueWriter request tokenId now state
    (done.1.map some, done.2)
  | setPassword userId passwordHash role =>
    (.ok none, state.setPassword userId passwordHash role now)
  | recordLogin userId => (.ok none, state.recordLogin userId now)

/-- A writer changes the record of its own user only. -/
theorem run_users (w : IdentityWrite) (self : IdentityAuthority) (now : Int)
    (state : IdentityState) : ∃ users, (w.run self now state).2 = { state with users } ∧
      ∀ id, id ≠ w.userId → users[id]? = state.users[id]? := by
  have hins : ∀ (key : String) record (id : String), id ≠ key →
      (state.users.insert key record)[id]? = state.users[id]? := by
    intro key record id hid
    rw [BTreeMap.get_insert, if_neg hid.symm]
  cases w with
  | issueToken request tokenId =>
    rw [run, IdentityAuthority.issueWriter]
    dsimp only
    split <;> exact ⟨_, rfl, hins _ _⟩
  | setPassword userId passwordHash role =>
    rw [run, IdentityState.setPassword]
    split <;> exact ⟨_, rfl, hins _ _⟩
  | recordLogin userId =>
    rw [run, IdentityState.recordLogin]
    split
    · exact ⟨_, rfl, hins _ _⟩
    · exact ⟨_, rfl, fun _ _ => rfl⟩

/-- The request changes nothing in this record of its user: a login of an unknown user, or the
same change at the same moment. -/
def Leaves (now : Int) (record : Option IdentityUserRecord) : IdentityWrite → Prop
  | issueToken _ _ => False
  | setPassword _ passwordHash _ => ∃ user, record = some user ∧
      user.passwordHash = some passwordHash ∧ user.passwordUpdatedAt = some now
  | recordLogin _ => ∀ user, record = some user → user.lastLoginAt = some now

theorem run_own_iff (w : IdentityWrite) (self : IdentityAuthority) (now : Int)
    (state : IdentityState) (hcount : ∀ user, state.users[w.userId]? = some user →
      user.tokenCount < 18446744073709551615) :
    (w.run self now state).2.users[w.userId]? = state.users[w.userId]? ↔
      w.Leaves now state.users[w.userId]? := by
  cases w with
  | issueToken request tokenId =>
    -- the counter of the record has changed, whether the token was encoded or not
    refine iff_of_false (fun heq => ?_) not_false
    have hnew : ∃ record, (run self now (issueToken request tokenId) state).2.users[
        request.userId]? = some record ∧ record.tokenCount =
          (IdentityAuthority.issueRecord request now state.users).tokenCount := by
      rw [run, IdentityAuthority.issueWriter]
      dsimp only
      split <;> exact ⟨_, (BTreeMap.get_insert ..).trans (if_pos rfl), rfl⟩
    obtain ⟨record, hget, hcou⟩ := hnew
    have hold := heq.symm.trans hget
    have hlt := hcount record hold
    simp only [IdentityAuthority.issueRecord] at hcou
    rw [show state.users[request.userId]? = some record from hold, Option.getD_some] at hcou
    omega
  | setPassword userId passwordHash role =>
    simp only [run, IdentityState.setPassword, Leaves, IdentityWrite.userId]
    cases state.users[userId]? with
    | none => simp
    | some user => cases user with | _ => simp [eq_comm]
  | recordLogin userId =>
    simp only [run, IdentityState.recordLogin, Leaves, IdentityWrite.userId]
    cases hget : state.users[userId]? with
    | none => simp [hget]
    | some user => cases user with | _ => simp [eq_comm]

end IdentityWrite

/-! ## After an error -/

variable {store : IdentityStore} {json : IdentityState → Bytes} {failure : Option PersistFailure}
  {err : IdentityError}

theorem write_error {R : Type} {writer : IdentityState → Except IdentityError R × IdentityState}
    (hpoi : store.poisoned = false) (h : (store.write json failure writer).1 = .error err) :
    (store.write json failure writer).2.file = store.file ∧
      (store.write json failure writer).2.state = (writer store.state).2 := by
  rw [IdentityStore.write, if_neg (by rw [hpoi]; decide)] at h ⊢
  dsimp only at h ⊢
  cases hr : (writer store.state).1 with
  | error e => exact ⟨rfl, rfl⟩
  | ok result =>
    rw [hr] at h
    dsimp only at h ⊢
    cases failure with
    | none => cases h
    | some step =>
      -- the rename comes last
      cases step with
      | _ => exact ⟨rfl, rfl⟩

/-- **AN ERROR LEAVES THE FILE**, and in memory every user but the writer's own; that one
too just if the lock was poisoned or the request changes nothing in its record. -/
theorem write_error_iff [IdentityCrates] (self : IdentityAuthority) (now : Int)
    (w : IdentityWrite) (hcount : ∀ user, store.state.users[w.userId]? = some user →
      user.tokenCount < 18446744073709551615)
    (h : (store.write json failure (w.run self now)).1 = .error err) :
    let after := (store.write json failure (w.run self now)).2
    after.file = store.file ∧
      (∀ id, id ≠ w.userId → after.state.users[id]? = store.state.users[id]?) ∧
      (after.state = store.state ↔
        store.poisoned = true ∨ w.Leaves now store.state.users[w.userId]?) := by
  dsimp only
  rw [← w.run_own_iff self now store.state hcount]
  cases hpoi : store.poisoned with
  | true =>
    rw [IdentityStore.write, if_pos hpoi]
    exact ⟨rfl, fun _ _ => rfl, iff_of_true rfl (.inl rfl)⟩
  | false =>
    obtain ⟨hfile, hstate⟩ := write_error hpoi h
    obtain ⟨users, hrun, hothers⟩ := w.run_users self now store.state
    rw [hfile, hstate, hrun]
    refine ⟨rfl, hothers, ⟨fun heq => ?_, fun hor => ?_⟩⟩
    · rw [heq]
      exact .inr rfl
    · have hown := hor.resolve_left Bool.false_ne_true
      have husers : users = store.state.users := by
        refine Std.ExtTreeMap.ext_getElem? fun id => ?_
        by_cases hid : id = w.userId
        · rw [hid]
          exact hown
        · exact hothers id hid
      rw [husers]

/-- The login of an unknown user. -/
theorem failed_login_unseen :
    let _ := sampleCrates
    let store : IdentityStore := ⟨sampleState sampleAda, false, none, none⟩
    (store.write (fun _ => []) (some (.rename "denied"))
      (IdentityWrite.run sampleAuthority 0 (.recordLogin "eve"))).2.state = store.state := by
  intro _ store
  have hno : store.state.users["eve"]? = none := by decide +kernel
  refine (write_error_iff sampleAuthority 0 (.recordLogin "eve") (fun user hu => ?_) rfl).2.2.mpr
    (.inr fun user hu => ?_)
  all_goals cases hno.symm.trans hu

/-- With the disk full `set_password` fails, and the password is valid all the same. -/
theorem failed_password_set :
    let _ := sampleCrates
    let store : IdentityStore := ⟨sampleState sampleAda, false, none, none⟩
    let after := store.write (fun _ => []) (some (.createTmp "no space left"))
      (IdentityWrite.run sampleAuthority 0 (.setPassword "eve" "hash" .admin))
    after.1 = .error (.io "no space left") ∧ after.2.file = store.file ∧
      store.state.isPasswordSet "eve" = false ∧ after.2.state.isPasswordSet "eve" = true := by
  intro _ store after
  exact ⟨rfl, rfl, by decide +kernel, by decide +kernel⟩

end Fenrir.Identity
