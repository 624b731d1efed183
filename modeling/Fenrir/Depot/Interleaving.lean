import Fenrir.Depot.Preparation

/-! # What happens between preparing and executing

A plan is made from an unlocked snapshot of the host and the state file;
`execute` takes the lock later and does not look at pins and local sources
again. -/

namespace Fenrir

open Effect Effect.Act DepotProtocol

section

variable [DepotProtocol] {env : Env} {p : Prepared} {w w' : World} {state : HostState}

/-! ## What an execution leaves of pins and local sources -/

theorem recordState_pins (state : HostState) (p : Prepared) (backup : Option String)
    (installedAt : String) : (recordState state p backup installedAt).pins = state.pins := by
  cases hint : p.intent <;> simp only [recordState, hint]

variable {res : Except DepotError Outcome} {n : String}

/-- The state file is left alone, or the execution is recorded in it. -/
theorem execute_state (h : execute env p w = (res, w')) : w'.state = w.state ∨
    ∃ backup installedAt, w'.state = recordState w.state p backup installedAt := by
  have hke : w'.disk.stateFile = w.disk.stateFile → w'.state = w.state :=
    fun heq => by rw [World.state, heq, World.state]
  cases execute_run h with
  | stopped hti => exact .inl (hke (hti none).state)
  | @failed e state w1 w2 hbegun hperform =>
    obtain ⟨-, -, hti⟩ := hbegun.spec
    have hrel := tidies_releaseLock env none w2
    exact .inl (hke (hrel.state.trans ((perform_newDirs hperform).2.trans (hti none).state)))
  | @recorded state w1 w2 w3 perf _ hbegun hperform hrecord =>
    obtain ⟨hsta, -, hti⟩ := hbegun.spec
    have hrel := tidies_releaseLock env none w3
    cases record_run hrecord with
    | notSaved _ htidy3 =>
      exact .inl (hke (hrel.state.trans ((htidy3 none).state.trans
        ((perform_newDirs hperform).2.trans (hti none).state))))
    | notPruned _ _ hrec | done _ _ hrec =>
      refine .inr ⟨perf.backup, env.now w2.tick, ?_⟩
      rw [World.state, hrel.state, hrec.saved, newState, hsta]
      rfl

theorem execute_pins (h : execute env p w = (res, w')) : w'.state.pins = w.state.pins := by
  rcases execute_state h with hsame | ⟨_, _, hrec⟩
  · rw [hsame]
  · rw [hrec, recordState_pins]

/-! ## Other clients -/

/-- What `pin module` makes of the state. -/
def pinChange (n : String) (v : DepotVersion) (s : HostState) :
    Except DepotError (Unit × HostState) := .ok ((), { s with pins := s.pins.insert n v })

/-- What `unpin module` makes of the state, and whether there was a pin. -/
def unpinChange (n : String) (s : HostState) : Except DepotError (Bool × HostState) :=
  .ok ((s.pins[n]?).isSome, { s with pins := s.pins.erase n })

/-- A command of another client. `avoid` are the modules nobody takes hold of:
no pin and no switch to local sources names one of them, and none of them
is installed while a dev override serves it. -/
inductive OtherStep (avoid : String → Prop) : World → World → Prop where
  | pin (env : Env) {n : String} (v : DepotVersion) (hn : ¬ avoid n) (w : World) :
      OtherStep avoid w (updateState env (pinChange n v) w).2
  | unpin (env : Env) (n : String) (w : World) :
      OtherStep avoid w (updateState env (unpinChange n) w).2
  | execute (env : Env) (p : Prepared) (w : World)
      (hdev : ∀ n, avoid n → n ∈ w.host.dev → (w.host.get n).isSome = true) :
      OtherStep avoid w (execute env p w).2
  -- a module is switched to local sources, given a dev override, or released
  | switch {n : String} {host : Host} {w : World}
      (helse : ∀ k, k ≠ n → host.get k = w.host.get k ∧ (k ∈ host.dev ↔ k ∈ w.host.dev))
      (hn : avoid n → host.localSync n = true → w.host.localSync n = true) :
      OtherStep avoid w { w with host }
  | prepare {w w' : World} (hlooks : Looks w w') : OtherStep avoid w w'

theorem Held.of_same (hsta : w'.disk.stateFile = w.disk.stateFile) (hho : w'.host = w.host)
    (h : Held w' n) : Held w n := by
  rw [Held, World.state, hsta, hho] at h
  exact h

theorem updateState_held {α : Type} {change : HostState → Except DepotError (α × HostState)}
    {res : Except DepotError α}
    (hke : ∀ s a s', change s = .ok (a, s') → (s'.pins[n]?).isSome = true →
      (s.pins[n]?).isSome = true)
    (h : updateState env change w = (res, w')) (hhe : Held w' n) : Held w n := by
  cases updateState_run h with
  | unchanged htidy => exact hhe.of_same (htidy none).state (htidy none).host
  | saved hchange hsaved =>
    rcases hhe with hpin | hloc
    · rw [World.state, hsaved.saved] at hpin
      exact Or.inl (hke _ _ _ hchange hpin)
    · rw [hsaved.host] at hloc
      exact Or.inr hloc

theorem execute_held (hdev : n ∈ w.host.dev → (w.host.get n).isSome = true)
    (h : execute env p w = (res, w')) (hhe : Held w' n) : Held w n := by
  obtain ⟨hfra, -⟩ := execute_within p.within_true h
  rcases hhe with hpin | hloc
  · rw [execute_pins h] at hpin
    exact Or.inl hpin
  · exact Or.inr (hfra.localSync hdev hloc)

/-- **NOBODY TAKES HOLD OF AN AVOIDED MODULE**, in one step. -/
theorem otherStep_held {avoid : String → Prop} (h : OtherStep avoid w w') (hn : avoid n)
    (hhe : Held w' n) : Held w n := by
  cases h with
  | @pin env k v hk =>
    refine updateState_held (fun s a s' hcha hpin => ?_) rfl hhe
    cases hcha
    have hne : k ≠ n := by
      rintro rfl
      exact hk hn
    rw [BTreeMap.get_insert, if_neg hne] at hpin
    exact hpin
  | unpin env k =>
    refine updateState_held (fun s a s' hcha hpin => ?_) rfl hhe
    cases hcha
    rw [BTreeMap.get_erase] at hpin
    split at hpin
    · cases hpin
    · exact hpin
  | execute env p _ hdev => exact execute_held (hdev n hn) rfl hhe
  | @switch k host _ helse hk =>
    rcases hhe with hpin | hloc
    · exact Or.inl hpin
    · by_cases hkn : n = k
      · subst hkn
        exact Or.inr (hk hn hloc)
      · obtain ⟨hget, hdev⟩ := helse n hkn
        obtain ⟨m, hm, hor⟩ := Host.localSync_iff.mp hloc
        exact Or.inr (Host.localSync_iff.mpr ⟨m, hget ▸ hm, hor.imp_right hdev.mp⟩)
  | prepare hlooks => exact hhe.of_same hlooks.state hlooks.host

/-- No call of the execution stops, replaces or removes a module that is held
when it takes the lock. -/
def Honours (env : Env) (p : Prepared) (w : World) : Prop :=
  CallsWithin (fun n => ¬ Held w n) w (execute env p w).2

/-- **WHEN PINS AND LOCAL SOURCES ARE HONOURED.** Whatever other clients do
between preparing and executing, as long as nobody takes hold of a module
the plan changes, and a restore lists no module that was held when it was
prepared. -/
theorem honours_of_avoiding [BundleFormat] [LawfulDepotProtocol] {source : DepotSource}
    {policy : HostPolicy} {env₀ : Env} {w₀ w₁ : World}
    (hprepares : Prepares env₀ source policy w₀ p w₁)
    (hrestore : ∀ name record, p.intent = .restore name record →
      ∀ b ∈ record.modules, ¬ Held w₀ b.module)
    (hsteps : Relation.ReflTransGen (OtherStep p.Changes) w₁ w) (env : Env) : Honours env p w := by
  have hori := hprepares.origin
  refine (execute_within hori.sound.within rfl).2.mono fun n hn hhe => ?_
  obtain ⟨hcle, hcha⟩ := hn
  have hba : Held w₁ n := by
    induction hsteps with
    | refl => exact hhe
    | tail _ hstep ih => exact ih (otherStep_held hstep hcha hhe)
  have hloo := hprepares.looks
  exact hori.free hcle hrestore hcha (hba.of_same hloo.state hloo.host)

end

/-! ## A pin that comes too late -/

section

def samplePolicy : HostPolicy where
  trusted := releaseKeys
  channel := .stable
  platform := ⟨"linux-x86_64"⟩
  fenrir := ⟨1, 0, 0, 0⟩

def installedWorld : @World sampleProtocol :=
  let _ := sampleProtocol
  (execute (failingAt []) (freshPlan ["notes-service"]) freshWorld).2

/-- A rollback is prepared, and then a module is pinned. -/
def pinAfterPrepare (module : String) :
    @Act (@World sampleProtocol) DepotError (@Prepared sampleProtocol) :=
  let _ := sampleProtocol
  let _ := sampleFormat
  do
    let p ← prepareRollback (failingAt []) staleDepot samplePolicy
    updateState (failingAt []) (pinChange module ⟨1, 0, 0, 0⟩)
    pure p

theorem pinAfterPrepare_run (module : String)
    (hok : (pinAfterPrepare module installedWorld).1.isOk = true) :
    let _ := sampleProtocol
    let _ := sampleFormat
    ∃ (p : Prepared) (w1 w2 : World),
      prepareRollback (failingAt []) staleDepot samplePolicy installedWorld = (.ok p, w1) ∧
        w2 = (updateState (failingAt []) (pinChange module ⟨1, 0, 0, 0⟩) w1).2 ∧
        pinAfterPrepare module installedWorld = (.ok p, w2) := by
  let _ := sampleProtocol
  let _ := sampleFormat
  obtain ⟨p, w2, hrun⟩ := ok_of_isOk hok
  obtain ⟨p', w1, hpre, hre⟩ := bind_ok_iff.mp hrun
  obtain ⟨u, w₂', hpin, hend⟩ := bind_ok_iff.mp hre
  obtain ⟨hp, rfl⟩ := Prod.mk.inj hend
  rw [Except.ok.inj hp] at hpre
  exact ⟨p, w1, w₂', hpre, by rw [hpin], hrun⟩

theorem installedWorld_not_held (n : String) : ¬ @Held sampleProtocol installedWorld n := by
  let _ := sampleProtocol
  intro hhe
  have hrun : execute (failingAt []) (freshPlan ["notes-service"]) freshWorld
      = ((execute (failingAt []) (freshPlan ["notes-service"]) freshWorld).1, installedWorld) :=
    Prod.ext rfl rfl
  have hfre : Held freshWorld n := execute_held nofun hrun hhe
  rcases hfre with hpin | hloc
  · have hno : (freshWorld.state.pins)[n]? = none := Std.ExtTreeMap.getElem?_empty
    rw [hno] at hpin
    cases hpin
  · obtain ⟨m, hm, -⟩ := Host.localSync_iff.mp hloc
    have hno : freshWorld.host.get n = none := Std.ExtTreeMap.getElem?_empty
    rw [hno] at hm
    cases hm

/-- A rollback is prepared; another client pins and installs a module in between. The
rollback removes its own module and leaves the pinned one. -/
theorem honours_of_avoiding_rollback :
    let _ := sampleProtocol
    let _ := sampleFormat
    ∃ (p : Prepared) (w₁ w₂ w₃ : World),
      Prepares (failingAt []) staleDepot samplePolicy installedWorld p w₁ ∧
        w₂ = (updateState (failingAt []) (pinChange "mail-service" ⟨1, 0, 0, 0⟩) w₁).2 ∧
        w₃ = (execute (failingAt []) (freshPlan ["mail-service"]) w₂).2 ∧
        Held w₃ "mail-service" ∧ (w₃.host.get "mail-service").isSome = true ∧
        HostCall.remove "notes-service" ∈ (execute (failingAt []) p w₃).2.calls ∧
        Honours (failingAt []) p w₃ := by
  let _ := sampleProtocol
  let _ := sampleFormat
  obtain ⟨p, w₁, w₂, hpre, hpin, hrun⟩ := pinAfterPrepare_run "mail-service" (by decide +kernel)
  have hcha : (pinAfterPrepare "mail-service" installedWorld).1.toOption.map
      (·.plan.changes.map (·.module)) = some ["notes-service"] := by decide +kernel
  have hdev : (pinAfterPrepare "mail-service" installedWorld).2.host.dev = [] := by decide +kernel
  have hhe : ((execute (failingAt []) (freshPlan ["mail-service"])
      (pinAfterPrepare "mail-service" installedWorld).2).2.state.pins["mail-service"]?).isSome
      = true := by decide +kernel
  have hin : ((execute (failingAt []) (freshPlan ["mail-service"])
      (pinAfterPrepare "mail-service" installedWorld).2).2.host.get "mail-service").isSome
      = true := by decide +kernel
  have hrem : (pinAfterPrepare "mail-service" installedWorld).1.toOption.map (fun p =>
      decide (HostCall.remove "notes-service" ∈ (execute (failingAt []) p
        (execute (failingAt []) (freshPlan ["mail-service"])
          (pinAfterPrepare "mail-service" installedWorld).2).2).2.calls)) = some true := by
    decide +kernel
  rw [hrun] at hcha hdev hhe hin hrem
  have hone : ∀ {n}, p.Changes n → n = "notes-service" := by
    rintro n ⟨e, he, rfl⟩
    exact List.mem_singleton.mp (Option.some.inj hcha ▸ List.mem_map_of_mem he)
  refine ⟨p, w₁, w₂, _, .rollback hpre, hpin, rfl, .inl hhe, hin,
    of_decide_eq_true (Option.some.inj hrem), honours_of_avoiding (.rollback hpre)
      (fun _ _ _ b _ => installedWorld_not_held b.module) (.tail (.single ?_) (.execute _ _ w₂ ?_))
      (failingAt [])⟩
  · rw [hpin]
    exact .pin _ _ (fun h => absurd (hone h) (by decide)) w₁
  · intro n _ hmem
    rw [hdev] at hmem
    cases hmem

/-- A rollback is prepared when nothing is pinned; a pin of the module it
removes is accepted before it is executed; the execution removes the
pinned module. -/
theorem late_pin_not_honoured :
    let _ := sampleProtocol
    let _ := sampleFormat
    ∃ (p : Prepared) (w₁ w₂ : World),
      Prepares (failingAt []) staleDepot samplePolicy installedWorld p w₁ ∧
        (∀ n, ¬ Held installedWorld n) ∧ OtherStep (fun _ => False) w₁ w₂ ∧
        Held w₂ "notes-service" ∧ ¬ Honours (failingAt []) p w₂ := by
  let _ := sampleProtocol
  let _ := sampleFormat
  obtain ⟨p, w₁, w₂, hpre, hpin, hrun⟩ := pinAfterPrepare_run "notes-service" (by decide +kernel)
  have hbef : (((pinAfterPrepare "notes-service" installedWorld).2.state.pins)["notes-service"]?
      ).isSome = true ∧ HostCall.remove "notes-service" ∉
        (pinAfterPrepare "notes-service" installedWorld).2.calls := by
    decide +kernel
  have haft : (pinAfterPrepare "notes-service" installedWorld).1.toOption.map (fun p =>
      decide (HostCall.remove "notes-service" ∈ (execute (failingAt []) p
        (pinAfterPrepare "notes-service" installedWorld).2).2.calls)) = some true := by
    decide +kernel
  rw [hrun] at hbef haft
  replace haft := of_decide_eq_true (Option.some.inj haft)
  have hhe : Held w₂ "notes-service" := Or.inl hbef.1
  refine ⟨p, w₁, w₂, .rollback hpre, installedWorld_not_held, ?_, hhe, ?_⟩
  · rw [hpin]
    exact .pin _ _ (fun hno => hno) w₁
  · rintro ⟨made, hma, htou⟩
    rw [hma] at haft
    rcases List.mem_append.mp haft with hold | hnew
    · exact hbef.2 hold
    · exact htou _ hnew _ rfl hhe

end

end Fenrir
