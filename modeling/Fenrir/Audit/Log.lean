import Fenrir.Lib.Parties

/-! # The audit log and its file

`InMemoryAuditLog::append` (`audit/log.rs`) takes a snapshot under the lock of the events, and
writes it down (`audit/persistence.rs`) when the lock is given back. `fs::write` opens the
file, which empties it, and then writes: two steps, between which another may come. -/

namespace Fenrir.Audit

/-- An event, of which the log reads the time only. -/
structure AuditEvent where
  timestamp : Int
  record : String
  deriving DecidableEq

def pruneRetention (capacity : Nat) (cutoff : Int) (events : List AuditEvent) : List AuditEvent :=
  let kept := events.dropWhile (·.timestamp < cutoff)
  kept.drop (kept.length - capacity)

/-- `serde_json` on `AuditHistoryFile`: what it writes it reads back. -/
class HistoryText (β : Type) where
  toVec : List AuditEvent → List β
  fromSlice : List β → Option (List AuditEvent)
  fromSlice_toVec : ∀ events, fromSlice (toVec events) = some events

export HistoryText (toVec fromSlice)

variable {β : Type} [HistoryText β]

/-- Times before 1970 are sorted as 1970. -/
def loadPersistedEvents (capacity : Nat) (cutoff : Int) (file : List β) : List AuditEvent :=
  let kept := (((fromSlice file).getD []).filter (cutoff ≤ ·.timestamp)).insertionSort
    (max 0 ·.timestamp ≤ max 0 ·.timestamp)
  kept.drop (kept.length - capacity)

structure Log (β : Type) where
  events : List AuditEvent
  file : List β
  /-- How many snapshots were taken, and for which the file was opened last; nothing reads
      them. -/
  (taken written : Nat)

inductive Caller where
  | idle
  | writing (ticket : Nat) (snapshot : List AuditEvent)
  /-- The file is open and empty, unless another caller has it open too. -/
  | opened (ticket : Nat) (snapshot : List AuditEvent)
  deriving DecidableEq

inductive Action where
  /-- `append` until it gives the lock back. -/
  | append (event : AuditEvent) (cutoff : Int)
  | create | writeAll

def advance (capacity : Nat) : Action → Caller → Log β → Option (Caller × Log β)
  | .append event cutoff, .idle, s =>
    if capacity = 0 then some (.idle, s)
    else
      let events := pruneRetention capacity cutoff (s.events ++ [event])
      some (.writing (s.taken + 1) events, { s with events, taken := s.taken + 1 })
  | .create, .writing ticket snapshot, s =>
    some (.opened ticket snapshot, { s with file := [], written := ticket })
  | .writeAll, .opened _ snapshot, s =>
    let data := toVec snapshot
    some (.idle, { s with file := data ++ s.file.drop data.length })
  | _, _, _ => none

variable {ι : Type} [DecidableEq ι]

abbrev World (ι β : Type) := Parties.World ι (Log β) Caller

def step (capacity : Nat) : World ι β → ι × Action → World ι β := Parties.step (advance capacity)

/-- The log after its file was loaded. -/
def World.withPersistence (capacity : Nat) (cutoff : Int) (file : List β) : World ι β :=
  ⟨⟨loadPersistedEvents capacity cutoff file, file, 0, 0⟩, fun _ => .idle⟩

def Caller.hasOpen : Caller → Bool
  | .opened _ _ => true
  | _ => false

/-- The file is opened while nobody has it open, and for no older snapshot than the last. -/
def InTurn (w : World ι β) (event : ι × Action) : Prop :=
  ∀ ticket snapshot, event.2 = .create → w.party event.1 = .writing ticket snapshot →
    (∀ i, (w.party i).hasOpen = false) ∧ w.shared.written ≤ ticket

/-- The newest snapshot is in the file, or its owner is about to write it. -/
structure Fresh (loaded : Prop) (w : World ι β) : Prop where
  behind : w.shared.written ≤ w.shared.taken
  same : (∀ i, (w.party i).hasOpen = false) → w.shared.written = w.shared.taken →
    w.shared.taken ≠ 0 ∨ loaded → fromSlice w.shared.file = some w.shared.events
  newest : ∀ i ticket snapshot, w.party i = .writing ticket snapshot ∨
    w.party i = .opened ticket snapshot →
      ticket ≤ w.shared.taken ∧ (ticket = w.shared.taken → snapshot = w.shared.events)
  alone : ∀ i ticket snapshot, w.party i = .opened ticket snapshot → w.shared.file = [] ∧
    w.shared.written = ticket ∧ ∀ j, (w.party j).hasOpen = true → j = i
  owned : w.shared.written = w.shared.taken ∨
    ∃ i, w.party i = .writing w.shared.taken w.shared.events

omit [HistoryText β] in
theorem owner_stays {w : World ι β} {i : ι} {c : Caller} {ticket : Nat}
    {snapshot : List AuditEvent} (hi : w.party i ≠ .writing ticket snapshot)
    (h : ∃ j, w.party j = .writing ticket snapshot) :
    ∃ j, Function.update w.party i c j = .writing ticket snapshot := by
  obtain ⟨j, hj⟩ := h
  have hne : j ≠ i := by
    rintro rfl
    exact hi hj
  exact ⟨j, (Function.update_of_ne hne ..).trans hj⟩

theorem fresh_step {capacity : Nat} {loaded : Prop} (w : World ι β) (event : ι × Action)
    (h : Fresh loaded w) (hturn : InTurn w event) : Fresh loaded (step capacity w event) := by
  refine Parties.step_induction (Q := fun w => Fresh loaded w) h fun c s hadv => ?_
  obtain ⟨hbe, hsa, hnew, hal, how⟩ := h
  generalize hc : w.party event.1 = c₀ at hadv
  generalize hs : w.shared = s₀ at hadv
  generalize ha : event.2 = a at hadv
  revert hadv
  fun_cases advance capacity a c₀ s₀
  all_goals intro hadv
  all_goals cases hadv
  · rw [← hc, Function.update_eq_self, ← hs]
    exact ⟨hbe, hsa, hnew, hal, how⟩
  · constructor
    case owned => exact .inr ⟨event.1, Function.update_self ..⟩
    all_goals grind [Function.update_apply, Caller.hasOpen]
  · next ticket snapshot =>
    obtain ⟨hno, hle⟩ := hturn ticket snapshot ha hc
    constructor
    case same =>
      intro hcl
      have := hcl event.1
      grind [Function.update_apply, Caller.hasOpen]
    case owned =>
      by_cases hlast : ticket = s₀.taken
      · exact .inl hlast
      · subst hs
        exact .inr (owner_stays (by grind) (how.resolve_left (by grind)))
    all_goals grind [Function.update_apply, Caller.hasOpen]
  · next ticket snapshot _ =>
    obtain ⟨hfile, hti, hone⟩ := hal event.1 ticket snapshot hc
    obtain ⟨-, hsnap⟩ := hnew event.1 ticket snapshot (.inr hc)
    constructor
    case same =>
      intro _ heq _
      rw [← hs, hfile, List.drop_nil, List.append_nil, HistoryText.fromSlice_toVec]
      grind
    case owned =>
      subst hs
      exact how.imp_right (owner_stays (by grind))
    all_goals grind [Function.update_apply, Caller.hasOpen]

/-- **PERSISTED IN TURN**: in every run in which the file is opened by one caller at a time and
for no snapshot after a newer one, whenever no `append` is in progress the file holds the
events in memory, unless nothing was appended and what was loaded was pruned. -/
theorem persisted_in_turn (capacity : Nat) (cutoff : Int) (file : List β)
    (events : List (ι × Action))
    (hturn : Run.Along (step capacity) InTurn (.withPersistence capacity cutoff file) events) :
    let w := Run.run (step capacity) (.withPersistence capacity cutoff file) events
    (∀ i, w.party i = .idle) →
      w.shared.taken ≠ 0 ∨ fromSlice file = some (loadPersistedEvents capacity cutoff file) →
      fromSlice w.shared.file = some w.shared.events := by
  intro w hno
  have hboot : Fresh (fromSlice file = some (loadPersistedEvents capacity cutoff file))
      (.withPersistence capacity cutoff file : World ι β) := by
    constructor <;> grind [World.withPersistence]
  have h := Run.invariant fresh_step hboot hturn
  refine h.same (fun i => ?_) (h.owned.resolve_right ?_)
  · rw [hno i]
    rfl
  · rintro ⟨i, hi⟩
    cases (hno i).symm.trans hi

instance [Fintype ι] (w : World ι β) (event : ι × Action) : Decidable (InTurn w event) :=
  match ha : event.2, hc : w.party event.1 with
  | .create, .writing ticket _ =>
    decidable_of_iff ((∀ i, (w.party i).hasOpen = false) ∧ w.shared.written ≤ ticket)
      (by grind [InTurn])
  | .append _ _, _ | .writeAll, _ | _, .idle | _, .opened _ _ => isTrue (by grind [InTurn])

/-- A text whose symbols are the events. -/
instance eventText : HistoryText AuditEvent := ⟨id, some, fun _ => rfl⟩

/-- Two appends that are written down in turn. -/
theorem persisted_in_turn_two :
    let events : List (Bool × Action) := [(true, .append ⟨1, "a"⟩ 0), (false, .append ⟨2, "b"⟩ 0),
      (true, .create), (true, .writeAll), (false, .create), (false, .writeAll)]
    some (Run.run (step 10) (.withPersistence 10 0 ([] : List AuditEvent)) events).shared.file =
      some [⟨1, "a"⟩, ⟨2, "b"⟩] :=
  @persisted_in_turn AuditEvent _ Bool _ 10 0 [] _ (by decide) (by decide) (by decide)

/-- Of two snapshots the older one is written last. -/
theorem older_snapshot_written_last :
    let w := Run.run (step 10) (.withPersistence 10 0 ([] : List AuditEvent))
      [(true, .append ⟨1, "a"⟩ 0), (false, .append ⟨2, "b"⟩ 0), (false, .create),
        (false, .writeAll), (true, .create), (true, .writeAll)]
    (∀ i, w.party i = .idle) ∧ w.shared.events = [⟨1, "a"⟩, ⟨2, "b"⟩] ∧
      fromSlice w.shared.file = some [⟨1, "a"⟩] := by
  decide

end Fenrir.Audit
