import Fenrir.Postgres.Accounting

/-! # Where the connections of a state come from

After a step, an idle connection was idle before under the same key, or was just returned;
the connection of the call that took the step has one of a few origins (`Origin`). -/

namespace Fenrir.Postgres

variable {settings : PoolSettings} {action : Action} {pool pool' : PgPool} {p p' : Phase}
  {key : DbPoolKey} {conn conn' : PgConn}

/-! ## Idle connections -/

variable {now : Nat}

theorem advanceNext_idle {cl : Nat → Bool}
    (h : advanceNext settings now cl pool p = some (p', pool')) (hid : conn' ∈ pool'.idle key) :
    conn' ∈ pool.idle key ∨
      ∃ conn, p = .returning key conn false ∧ conn' = { conn with lastUsed := now } := by
  revert h
  fun_cases advanceNext settings now cl pool p
  all_goals intro h
  all_goals cases h
  case case3 =>
    rcases mem_setIdle hid with ⟨rfl, hke⟩ | hre
    · exact .inl (List.mem_of_mem_filter hke)
    · exact .inl hre
  case case5 =>
    rw [poolFor_idle] at hid
    exact .inl hid
  case case12 =>
    rcases mem_setIdle hid with ⟨rfl, hre⟩ | hre
    · exact .inl (List.mem_of_mem_dropLast hre)
    · exact .inl hre
  case case23 hevict =>
    obtain ⟨k, kept, hke, rfl⟩ := evict_spec hevict
    rcases mem_setIdle hid with ⟨rfl, hre⟩ | hre
    · exact .inl (hke.mem_iff.mp (List.mem_cons_of_mem _ hre))
    · exact .inl hre
  case case28 discard hstays =>
    rcases mem_setIdle hid with ⟨rfl, hpus⟩ | hre
    · rcases List.mem_append.mp hpus with hre | hla
      · exact .inl hre
      · rw [List.mem_singleton.mp hla]
        cases discard with
        | false => exact .inr ⟨_, rfl, rfl⟩
        | true => exact absurd rfl hstays
    · exact .inl hre
  all_goals exact .inl hid

theorem advance_idle (h : advance settings action p pool = some (p', pool'))
    (hid : conn' ∈ pool'.idle key) : conn' ∈ pool.idle key ∨
      ∃ conn now, p = .returning key conn false ∧ conn' = { conn with lastUsed := now } := by
  revert h
  fun_cases advance settings action p pool
  case case3 now closed =>
    intro h
    rcases advanceNext_idle h hid with hold | ⟨conn, hco⟩
    · exact .inl hold
    · exact .inr ⟨conn, now, hco⟩
  all_goals intro h
  all_goals cases h
  all_goals exact .inl hid

/-! ## The connection of a call -/

/-- Where the connection of a call in phase `p` comes from. -/
inductive Origin (pool : PgPool) (p : Phase) : PgConn → Prop
  | kept {conn : PgConn} (h : (hands p).own = some conn) : Origin pool p conn
  | taken (key : DbPoolKey) {conn : PgConn} (h : conn ∈ pool.idle key) : Origin pool p conn
  | tagged (key : DbPoolKey) (generation : Nat) (conn : PgConn)
      (h : p = .healthy key generation conn) : Origin pool p (conn.tagged generation)
  | opened (settings : PoolSettings) (key : DbPoolKey) (generation now : Nat)
      (h : p = .connecting key generation) :
      Origin pool p ⟨pool.nextId, .new settings.statementCache, now, now, generation, .clean, key⟩
  | touched (key : DbPoolKey) (conn : PgConn) (discard : Bool) (sql : String)
      (h : p = .holding key conn discard none) :
      Origin pool p { conn with statements := conn.statements.touch sql }
  | inserted (key : DbPoolKey) (conn : PgConn) (discard : Bool) (sql : String) (start : Nat)
      (h : p = .holding key conn discard (some (sql, start))) :
      Origin pool p { conn with statements := conn.statements.insert sql ⟨start⟩ }
  | removed (key : DbPoolKey) (conn : PgConn) (discard : Bool) (sql : String)
      (h : p = .holding key conn discard none) :
      Origin pool p { conn with statements := conn.statements.remove sql }
  | used (key : DbPoolKey) (conn : PgConn) (discard : Bool) (session : Session)
      (h : p = .holding key conn discard none) : Origin pool p { conn with session }
  | abandoned (key : DbPoolKey) (conn : PgConn) (discard : Bool)
      (preparing : Option (String × Nat)) (h : p = .holding key conn discard preparing) :
      Origin pool p (conn.abandoned preparing)

theorem advanceNext_own {cl : Nat → Bool}
    (h : advanceNext settings now cl pool p = some (p', pool'))
    (hown : (hands p').own = some conn') : Origin pool p conn' := by
  revert h
  fun_cases advanceNext settings now cl pool p
  all_goals intro h
  all_goals cases h
  case case12 hlast =>
    cases hown
    exact .taken _ (List.mem_of_getLast? hlast)
  case case17 =>
    cases hown
    exact .tagged _ _ _ rfl
  all_goals first | exact .kept hown | cases hown

/-- **WHERE A CALL HAS ITS CONNECTION FROM.** -/
theorem advance_own (h : advance settings action p pool = some (p', pool'))
    (hown : (hands p').own = some conn') : Origin pool p conn' := by
  revert h
  fun_cases advance settings action p pool
  case case3 => exact fun h => advanceNext_own h hown
  all_goals intro h
  all_goals cases h
  case case11 | case14 | case15 | case16 | case18 | case19 | case21 =>
    cases hown
    first
      | exact .opened _ _ _ _ rfl
      | exact .touched _ _ _ _ rfl
      | exact .inserted _ _ _ _ _ rfl
      | exact .removed _ _ _ _ rfl
      | exact .used _ _ _ _ rfl
      | exact .abandoned _ _ _ _ rfl
  all_goals first | exact .kept hown | cases hown

/-! ## Properties of connections -/

/-- Idle, or with the call. -/
def Within (pool : PgPool) (p : Phase) (conn : PgConn) : Prop :=
  (∃ key, conn ∈ pool.idle key) ∨ (hands p).own = some conn

section

open Parties

variable {ι : Type} [DecidableEq ι] {w : PoolWorld ι} {i : ι} {P : PgConn → Prop}

/-- **THE RULE OF CONNECTIONS.** What is true of all connections stays true if returning one
does not change it and it is true of what the call makes of its own. -/
theorem conns_step (hret : ∀ conn now, P conn → P { conn with lastUsed := now })
    (hori : ∀ conn, Origin w.shared (w.party i) conn → P conn)
    (hcon : ∀ j conn, Within w.shared (w.party j) conn → P conn) :
    ∀ j conn, Within (step (advance settings) w (i, action)).shared
      ((step (advance settings) w (i, action)).party j) conn → P conn := by
  have hid : ∀ p' pool', advance settings action (w.party i) w.shared = some (p', pool') →
      ∀ key, ∀ conn ∈ pool'.idle key, P conn := by
    intro p' pool' hadv key conn' hco'
    rcases advance_idle hadv hco' with hbef | ⟨conn, now, hp, rfl⟩
    · exact hcon i conn' (.inl ⟨key, hbef⟩)
    · refine hret conn now (hcon i conn (.inr ?_))
      rw [hp]
      rfl
  refine forall_party (I := fun pool p => ∀ conn, Within pool p conn → P conn) ?_ ?_ hcon
  · rintro p' pool' hadv _ conn (⟨key, hco⟩ | hown)
    · exact hid p' pool' hadv key conn hco
    · exact hori conn (advance_own hadv hown)
  · rintro p' pool' hadv j _ hbef conn (⟨key, hco⟩ | hown)
    · exact hid p' pool' hadv key conn hco
    · exact hbef conn (.inr hown)

end

end Fenrir.Postgres
