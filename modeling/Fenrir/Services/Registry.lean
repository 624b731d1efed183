import Fenrir.Domain
import Fenrir.Lib.Parties

/-! # The service registry and its events

`services/registry.rs`. `register`, `set_status` and `update_note` change a record under
the write lock, take a snapshot of it there, and send the snapshot to the subscribers
after the lock is released. Several threads call them. A subscriber that never lags has
every event that was sent since it subscribed, in the order of the sends. -/

namespace Fenrir.Services

/-! ## Records and snapshots -/

inductive ServiceStatus where
  | starting | active | degraded | failed | standby | stopped

/-- `ServiceDescriptorOwned`; the registry reads the id and carries the rest along. -/
structure ServiceDescriptorOwned (δ : Type) where
  id : String
  rest : δ

structure ServiceRecord (δ : Type) where
  descriptor : ServiceDescriptorOwned δ
  status : ServiceStatus
  since : Nat
  note : Option String

structure ServiceSnapshot (δ : Type) where
  descriptor : ServiceDescriptorOwned δ
  status : ServiceStatus
  since : Nat
  note : Option String

variable {δ : Type}

def snapshotFromRecord (record : ServiceRecord δ) : ServiceSnapshot δ :=
  ⟨record.descriptor, record.status, record.since, record.note⟩

/-! ## The calls -/

inductive Call (δ : Type) where
  | register (descriptor : ServiceDescriptorOwned δ) (status : ServiceStatus)
      (note : Option String)
  | setStatus (id : String) (status : ServiceStatus) (note : Option String)
  | updateNote (id : String) (note : Option String)

def Call.id : Call δ → String
  | .register descriptor _ _ => descriptor.id
  | .setStatus id _ _ => id
  | .updateNote id _ => id

section

variable (now : Nat) (inner : BTreeMap (ServiceRecord δ))

/-- `register` under the write lock. -/
def register (descriptor : ServiceDescriptorOwned δ) (status : ServiceStatus)
    (note : Option String) : Option (ServiceSnapshot δ) × BTreeMap (ServiceRecord δ) :=
  let inner := inner.insert descriptor.id ⟨descriptor, status, now, note⟩
  (inner[descriptor.id]?.map snapshotFromRecord, inner)

/-- `set_status` under the write lock. -/
def setStatus (id : String) (status : ServiceStatus) (note : Option String) :
    Option (ServiceSnapshot δ) × BTreeMap (ServiceRecord δ) :=
  match inner[id]? with
  | some record =>
    let record := { record with status, note, since := now }
    (some (snapshotFromRecord record), inner.insert id record)
  | none => (none, inner)

/-- `update_note` under the write lock. -/
def updateNote (id : String) (note : Option String) :
    Option (ServiceSnapshot δ) × BTreeMap (ServiceRecord δ) :=
  match inner[id]? with
  | some record =>
    let record := { record with note }
    (some (snapshotFromRecord record), inner.insert id record)
  | none => (none, inner)

def Call.locked : Call δ → Option (ServiceSnapshot δ) × BTreeMap (ServiceRecord δ)
  | .register descriptor status note => Services.register now inner descriptor status note
  | .setStatus id status note => Services.setStatus now inner id status note
  | .updateNote id note => Services.updateNote inner id note

end

/-- Every record is stored under the id of its descriptor. -/
def Keyed (inner : BTreeMap (ServiceRecord δ)) : Prop :=
  ∀ (id : String) (record : ServiceRecord δ), inner[id]? = some record → record.descriptor.id = id

variable {inner : BTreeMap (ServiceRecord δ)}

/-- **WHAT A CALL DOES.** Nothing, or it stores one record of its service and takes its
snapshot. -/
theorem Call.locked_cases (call : Call δ) (now : Nat) (hkey : Keyed inner) :
    call.locked now inner = (none, inner) ∨
      ∃ record : ServiceRecord δ, record.descriptor.id = call.id ∧ call.locked now inner =
          (some (snapshotFromRecord record), inner.insert call.id record) := by
  cases call with
  | register descriptor status note =>
    refine .inr ⟨⟨descriptor, status, now, note⟩, rfl, ?_⟩
    simp only [Call.locked, Call.id, Services.register, BTreeMap.get_insert, if_true, Option.map_some]
  | setStatus id status note =>
    cases hrec : inner[id]? with
    | none => exact .inl (by simp only [Call.locked, Services.setStatus, hrec])
    | some record =>
      refine .inr ⟨{ record with status, note, since := now }, hkey id record hrec, ?_⟩
      simp only [Call.locked, Call.id, Services.setStatus, hrec]
  | updateNote id note =>
    cases hrec : inner[id]? with
    | none => exact .inl (by simp only [Call.locked, Services.updateNote, hrec])
    | some record =>
      refine .inr ⟨{ record with note }, hkey id record hrec, ?_⟩
      simp only [Call.locked, Call.id, Services.updateNote, hrec]

theorem Keyed.insert {id : String} {record : ServiceRecord δ} (hkey : Keyed inner)
    (hid : record.descriptor.id = id) : Keyed (inner.insert id record) :=
  BTreeMap.forall_insert hid hkey

/-! ## Threads -/

/-- The registry, and what its subscriber has received since it subscribed. -/
structure Shared (δ : Type) where
  inner : BTreeMap (ServiceRecord δ)
  received : Option (List (ServiceSnapshot δ))
  /-- How many writes there have been. -/
  writes : Nat

def Shared.get (s : Shared δ) (id : String) : Option (ServiceSnapshot δ) :=
  s.inner[id]?.map snapshotFromRecord

def Shared.eventsFor (s : Shared δ) (id : String) : List (ServiceSnapshot δ) :=
  (s.received.getD []).filter fun event => event.descriptor.id = id

inductive Thread (δ : Type) where
  | idle
  /-- Waits for the lock. -/
  | called (call : Call δ)
  /-- Has made write number `n` and released the lock; the event is not sent yet. -/
  | written (n : Nat) (snapshot : ServiceSnapshot δ)

inductive Move (δ : Type) where
  | begin (call : Call δ)
  | write (now : Nat)
  | send | subscribe

def advance : Move δ → Thread δ → Shared δ → Option (Thread δ × Shared δ)
  | .begin call, .idle, s => some (.called call, s)
  | .write now, .called call, s =>
    match call.locked now s.inner with
    | (none, _) => some (.idle, s)
    | (some snapshot, inner) =>
      some (.written (s.writes + 1) snapshot, { s with inner, writes := s.writes + 1 })
  | .send, .written _ snapshot, s =>
    some (.idle, { s with received := s.received.map (· ++ [snapshot]) })
  | .subscribe, .idle, s =>
    match s.received with
    | none => some (.idle, { s with received := some [] })
    | some _ => none
  | _, _, _ => none

abbrev World (ι δ : Type) := Parties.World ι (Shared δ) (Thread δ)

section

variable {ι : Type} [DecidableEq ι]

def step (w : World ι δ) (event : ι × Move δ) : World ι δ := Parties.step advance w event

/-- `ServiceRegistry::new`, before any call. -/
def World.new : World ι δ := ⟨⟨∅, none, 0⟩, fun _ => .idle⟩

def World.Quiet (w : World ι δ) : Prop := ∀ i, w.party i = .idle

/-- The thread has no snapshot of the service to send that is older than write `n`. -/
def Thread.NoneBefore (n : Nat) (id : String) : Thread δ → Prop
  | .written k earlier => earlier.descriptor.id = id → n ≤ k
  | .idle => True
  | .called _ => True

instance (n : Nat) (id : String) : DecidablePred (Thread.NoneBefore (δ := δ) n id)
  | .written _ _ => inferInstanceAs (Decidable (_ → _))
  | .idle => isTrue trivial
  | .called _ => isTrue trivial

/-- An event is sent only when no earlier write of the same service waits to be sent. -/
def InOrder (w : World ι δ) (event : ι × Move δ) : Prop :=
  match event.2, w.party event.1 with
  | .send, .written n snapshot => ∀ j, (w.party j).NoneBefore n snapshot.descriptor.id
  | _, _ => True

instance [Fintype ι] (w : World ι δ) (event : ι × Move δ) : Decidable (InOrder w event) := by
  unfold InOrder
  split
  · exact Fintype.decidableForallFintype
  · exact isTrue trivial

/-! ## What holds between writes and sends -/

section

omit [DecidableEq ι]

inductive Went (s : Shared δ) : Move δ → Thread δ → Thread δ → Shared δ → Prop where
  | began (call : Call δ) : Went s (.begin call) .idle (.called call) s
  | unknown (now : Nat) (call : Call δ) : Went s (.write now) (.called call) .idle s
  | wrote (now : Nat) (call : Call δ) (record : ServiceRecord δ)
      (own : record.descriptor.id = call.id) :
      Went s (.write now) (.called call) (.written (s.writes + 1) (snapshotFromRecord record))
        ⟨s.inner.insert call.id record, s.received, s.writes + 1⟩
  | sent (n : Nat) (snapshot : ServiceSnapshot δ) : Went s .send (.written n snapshot) .idle
        ⟨s.inner, s.received.map (· ++ [snapshot]), s.writes⟩
  | subscribed : Went s .subscribe .idle .idle ⟨s.inner, some [], s.writes⟩

theorem advance_went {s s' : Shared δ} {move : Move δ} {p p' : Thread δ} (hkey : Keyed s.inner)
    (h : advance move p s = some (p', s')) : Went s move p p' s' := by
  revert h
  fun_cases advance move p s
  all_goals
    intro h
    cases h
  case case1 call => exact .began call
  case case2 now call inner hlocked => exact .unknown now call
  case case3 now call snapshot inner hlocked =>
    rcases call.locked_cases now hkey with hnone | ⟨record, hown, hso⟩
    · cases hlocked.symm.trans hnone
    · cases hlocked.symm.trans hso
      exact .wrote now call record hown
  case case4 n snapshot => exact .sent n snapshot
  case case5 hrec => exact .subscribed

/-- What is known of the unsent snapshots and of the events received. -/
structure Publishing (s : Shared δ) (party : ι → Thread δ) : Prop where
  keyed : Keyed s.inner
  numbered : ∀ i n snapshot, party i = .written n snapshot → n ≤ s.writes
  distinct : ∀ i j n snapshot other, party i = .written n snapshot →
    party j = .written n other → i = j
  /-- The newest unsent snapshot of a service is its record. -/
  newest : ∀ i n snapshot, party i = .written n snapshot →
    (∀ j k other, party j = .written k other →
      other.descriptor.id = snapshot.descriptor.id → k ≤ n) →
    s.get snapshot.descriptor.id = some snapshot
  /-- With nothing unsent for a service, its last event is its record. -/
  settled : ∀ id event, (∀ i n snapshot, party i = .written n snapshot →
    snapshot.descriptor.id ≠ id) → (s.eventsFor id).getLast? = some event →
    s.get id = some event

end

open Function

section

variable {party : ι → Thread δ} {i j : ι} {p : Thread δ} {n : Nat} {snapshot : ServiceSnapshot δ}

theorem written_of_update (hp : ∀ n snapshot, p ≠ .written n snapshot)
    (h : update party i p j = .written n snapshot) : j ≠ i ∧ party j = .written n snapshot := by
  by_cases hj : j = i
  · rw [hj, update_self] at h
    exact absurd h (hp n snapshot)
  · rw [update_of_ne hj] at h
    exact ⟨hj, h⟩

theorem update_of_written (hold : ∀ n snapshot, party i ≠ .written n snapshot)
    (h : party j = .written n snapshot) : update party i p j = .written n snapshot := by
  have hne : j ≠ i := by
    rintro rfl
    exact hold n snapshot h
  rw [update_of_ne hne]
  exact h

theorem written_cases {m : Nat} {new : ServiceSnapshot δ}
    (h : update party i (.written m new) j = .written n snapshot) :
    (j = i ∧ n = m ∧ snapshot = new) ∨ (j ≠ i ∧ party j = .written n snapshot) := by
  by_cases hj : j = i
  · rw [hj, update_self] at h
    cases h
    exact .inl ⟨hj, rfl, rfl⟩
  · rw [update_of_ne hj] at h
    exact .inr ⟨hj, h⟩

end

theorem get_insert_of_ne {received : Option (List (ServiceSnapshot δ))} {writes : Nat}
    {id other : String} {record : ServiceRecord δ} (hne : id ≠ other) :
    (Shared.mk (inner.insert id record) received writes).get other = inner[other]?.map
      snapshotFromRecord := by
  rw [Shared.get, BTreeMap.get_insert, if_neg hne]

theorem last_of_send {s : Shared δ} {snapshot event : ServiceSnapshot δ} {id : String}
    (hla : ((Shared.mk s.inner (s.received.map (· ++ [snapshot])) s.writes).eventsFor
      id).getLast? = some event) : if snapshot.descriptor.id = id then event = snapshot
    else (s.eventsFor id).getLast? = some event := by
  cases hrec : s.received with
  | none =>
    rw [hrec] at hla
    cases hla
  | some evs =>
    rw [hrec] at hla
    simp only [Shared.eventsFor, Option.map_some, Option.getD_some, List.filter_append] at hla
    split
    · rename_i hid
      rw [List.filter_cons_of_pos (by simpa using hid), List.filter_nil,
        List.getLast?_concat, Option.some_inj] at hla
      exact hla.symm
    · rename_i hid
      rw [List.filter_cons_of_neg (by simpa using hid), List.filter_nil, List.append_nil] at hla
      rw [Shared.eventsFor, hrec]
      exact hla

namespace Publishing

variable {s : Shared δ} {party : ι → Thread δ} {i : ι}

theorem aside {p : Thread δ} {received : Option (List (ServiceSnapshot δ))}
    (h : Publishing s party) (hold : ∀ n snapshot, party i ≠ .written n snapshot)
    (hp : ∀ n snapshot, p ≠ .written n snapshot)
    (hrec : received = s.received ∨ received = some []) :
    Publishing ⟨s.inner, received, s.writes⟩ (update party i p) := by
  refine ⟨h.keyed, ?_, ?_, ?_, ?_⟩
  · intro j n snapshot hj
    exact h.numbered j n snapshot (written_of_update hp hj).2
  · intro j k n snapshot other hj hk
    exact h.distinct j k n snapshot other (written_of_update hp hj).2 (written_of_update hp hk).2
  · intro j n snapshot hj hnew
    refine h.newest j n snapshot (written_of_update hp hj).2 ?_
    intro k m other hk
    exact hnew k m other (update_of_written hold hk)
  · intro id event hno hla
    rcases hrec with rfl | rfl
    · refine h.settled id event ?_ hla
      intro k m other hk
      exact hno k m other (update_of_written hold hk)
    · cases hla

theorem wrote {call : Call δ} {record : ServiceRecord δ} (h : Publishing s party)
    (hwai : party i = .called call) (hown : record.descriptor.id = call.id) :
    Publishing ⟨s.inner.insert call.id record, s.received, s.writes + 1⟩
      (update party i (.written (s.writes + 1) (snapshotFromRecord record))) := by
  have hold : ∀ n snapshot, party i ≠ .written n snapshot := by
    intro n snapshot
    rw [hwai]
    exact nofun
  have hse := update_self i
    (Thread.written (s.writes + 1) (snapshotFromRecord record)) party
  refine ⟨h.keyed.insert hown, ?_, ?_, ?_, ?_⟩
  · intro j n snapshot hj
    rcases written_cases hj with ⟨-, rfl, -⟩ | ⟨-, hj⟩
    · exact le_refl _
    · exact (h.numbered j n snapshot hj).trans (Nat.le_succ _)
  · intro j k n snapshot other hj hk
    rcases written_cases hj with ⟨rfl, rfl, -⟩ | ⟨-, hj⟩
    · rcases written_cases hk with ⟨rfl, -, -⟩ | ⟨-, hk⟩
      · rfl
      · exact absurd (h.numbered k _ other hk) (Nat.not_succ_le_self _)
    · rcases written_cases hk with ⟨-, rfl, -⟩ | ⟨-, hk⟩
      · exact absurd (h.numbered j _ snapshot hj) (Nat.not_succ_le_self _)
      · exact h.distinct j k n snapshot other hj hk
  · intro j n snapshot hj hnew
    rcases written_cases hj with ⟨-, -, rfl⟩ | ⟨-, hj⟩
    · show Option.map _ (s.inner.insert call.id record)[record.descriptor.id]? = _
      rw [hown, BTreeMap.get_insert, if_pos rfl]
      rfl
    · -- a snapshot of another service, since the new one has the greatest number
      have hne : call.id ≠ snapshot.descriptor.id := by
        intro heq
        have hle := hnew i _ _ hse (hown.trans heq)
        exact absurd (hle.trans (h.numbered j n snapshot hj)) (Nat.not_succ_le_self _)
      rw [get_insert_of_ne hne]
      refine h.newest j n snapshot hj ?_
      intro k m other hk
      exact hnew k m other (update_of_written hold hk)
  · intro id event hno hla
    have hne : call.id ≠ id := by
      rw [← hown]
      exact hno i _ _ hse
    rw [get_insert_of_ne hne]
    refine h.settled id event ?_ hla
    intro k m other hk
    exact hno k m other (update_of_written hold hk)

theorem sent {n : Nat} {snapshot : ServiceSnapshot δ} (h : Publishing s party)
    (hwai : party i = .written n snapshot) (hord : ∀ j k earlier, party j = .written k earlier →
      earlier.descriptor.id = snapshot.descriptor.id → n ≤ k) :
    Publishing ⟨s.inner, s.received.map (· ++ [snapshot]), s.writes⟩
      (update party i .idle) := by
  have hp : ∀ n snapshot, (Thread.idle : Thread δ) ≠ .written n snapshot :=
    nofun
  have hfor : ∀ {k m other}, k ≠ i → party k = .written m other →
      update party i .idle k = .written m other := by
    intro k m other hne hk
    rw [update_of_ne hne]
    exact hk
  refine ⟨h.keyed, ?_, ?_, ?_, ?_⟩
  · intro j m other hj
    exact h.numbered j m other (written_of_update hp hj).2
  · intro j k m other other' hj hk
    exact h.distinct j k m other other' (written_of_update hp hj).2 (written_of_update hp hk).2
  · intro j m other hj hnew
    obtain ⟨-, hj⟩ := written_of_update hp hj
    refine h.newest j m other hj ?_
    intro k l third hk hid
    by_cases hki : k = i
    · -- the one that is sent has the smallest number
      rw [hki, hwai] at hk
      cases hk
      exact hord j m other hj hid.symm
    · exact hnew k l third (hfor hki hk) hid
  · intro id event hno hla
    have heve := last_of_send hla
    by_cases hid : snapshot.descriptor.id = id
    · rw [if_pos hid] at heve
      subst hid heve
      refine h.newest i n event hwai ?_
      intro k m other hk hid
      by_cases hki : k = i
      · rw [hki, hwai] at hk
        cases hk
        exact le_refl n
      · exact absurd hid (hno k m other (hfor hki hk))
    · rw [if_neg hid] at heve
      refine h.settled id event ?_ heve
      intro k m other hk
      by_cases hki : k = i
      · rw [hki, hwai] at hk
        cases hk
        exact hid
      · exact hno k m other (hfor hki hk)

omit [DecidableEq ι] in
theorem new : Publishing (World.new : World ι δ).shared (World.new : World ι δ).party where
  keyed := nofun
  numbered := nofun
  distinct := nofun
  newest := nofun
  settled := nofun

theorem step {w : World ι δ} {event : ι × Move δ} (h : Publishing w.shared w.party)
    (hord : InOrder w event) :
    Publishing (Services.step w event).shared (Services.step w event).party := by
  obtain ⟨i, move⟩ := event
  refine Parties.step_induction (Q := fun w => Publishing w.shared w.party) h ?_
  intro p shared hadv
  have hwe := advance_went h.keyed hadv
  generalize hthr : w.party i = thread at hwe
  cases hwe with
  | began call | unknown now call => exact h.aside (by simp [hthr]) (by simp) (.inl rfl)
  | wrote now call record hown => exact h.wrote hthr hown
  | sent n snapshot =>
    rw [InOrder, hthr] at hord
    refine h.sent hthr ?_
    intro j k earlier hj
    have hno := hord j
    rw [hj] at hno
    exact hno
  | subscribed => exact h.aside (by simp [hthr]) (by simp) (.inr rfl)

end Publishing

/-- **EVENTS CONVERGE.** If the events of a service are sent in the order of its writes, then
once all calls have returned the last event for it is its record. -/
theorem events_converge (events : List (ι × Move δ))
    (horder : Run.Along step InOrder (World.new : World ι δ) events)
    (hquiet : (Run.run step (World.new : World ι δ) events).Quiet) (id : String)
    (event : ServiceSnapshot δ)
    (hlast : ((Run.run step (World.new : World ι δ) events).shared.eventsFor id).getLast? =
      some event) :
    (Run.run step (World.new : World ι δ) events).shared.get id = some event := by
  have hst : ∀ (w : World ι δ) (event : ι × Move δ), Publishing w.shared w.party →
      InOrder w event → Publishing (step w event).shared (step w event).party :=
    fun _ _ h horder => h.step horder
  have hall := Run.invariant hst Publishing.new horder
  refine hall.settled id event ?_ hlast
  intro i n snapshot hi
  rw [hquiet i] at hi
  cases hi

end

/-! ## Two threads -/

/-- One thread registers a service and reports it active, the other reports that it has
failed; `sends` are the last two steps, the sends of these reports. -/
def reports (sends : List (Bool × Move Unit)) : List (Bool × Move Unit) :=
  [(true, .subscribe), (true, .begin (.register ⟨"db", ()⟩ .starting none)), (true, .write 1),
    (true, .send), (true, .begin (.setStatus "db" .active none)),
    (false, .begin (.setStatus "db" .failed (some "connection lost"))), (true, .write 2),
    (false, .write 3)] ++ sends

theorem events_converge_in_order :
    (Run.run step World.new (reports [(true, .send), (false, .send)])).shared.get "db" =
      some ⟨⟨"db", ()⟩, .failed, 3, some "connection lost"⟩ := by
  refine events_converge _ ?_ ?_ "db" _ (by rfl)
  · decide +kernel
  · intro i
    cases i <;> rfl

/-- The failure is stored last, but its event overtakes the other. -/
theorem event_overtaken : (Run.run step World.new (reports [(false, .send), (true, .send)])).Quiet ∧
      ((Run.run step World.new (reports [(false, .send), (true, .send)])).shared.eventsFor
        "db").getLast? = some ⟨⟨"db", ()⟩, .active, 2, none⟩ ∧
      (Run.run step World.new (reports [(false, .send), (true, .send)])).shared.get "db" =
        some ⟨⟨"db", ()⟩, .failed, 3, some "connection lost"⟩ := by
  refine ⟨?_, by rfl, by rfl⟩
  intro i
  cases i <;> rfl

end Fenrir.Services
