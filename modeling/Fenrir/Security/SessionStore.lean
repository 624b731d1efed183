import Fenrir.Security.ServiceTokens

/-! # Sessions

`security/session/store.rs`. A `validate` call reads the clock before it takes a lock,
so other calls come in between its steps: the sweep and the locked check, each by the
reading of its call (`validateSteps`). A run is any list of such steps. -/

namespace Fenrir.Sessions

open List

structure Session where
  (id userId : String)
  role : Role
  (createdAt expiresAt lastActivity : Int)

inductive SessionError where
  | notFound | expired | idleTimeout

structure SessionStore where
  (lifetime idleTimeout cleanupInterval : Int)
  sessions : BTreeMap Session
  nextCleanup : Int

inductive Step where
  | cleanup (nowInstant now : Int)
  | check (token : String) (now : Int)
  | revoke (token : String)
  deriving DecidableEq

/-- The clock's reading that the step goes by. -/
def Step.reading : Step → Option Int
  | .cleanup _ now => some now
  | .check _ now => some now
  | .revoke _ => none

/-- The steps of `validate`. -/
def validateSteps (token : String) (nowInstant now : Int) : List Step :=
  [.cleanup nowInstant now, .check token now]

namespace SessionStore

section

variable (self : SessionStore)

def cleanupIfNeeded (nowInstant now : Int) : SessionStore :=
  if nowInstant < self.nextCleanup then self
  else
    { self with
      nextCleanup := nowInstant + self.cleanupInterval
      sessions := self.sessions.filter fun _ s =>
        if s.expiresAt ≤ now then false else now - s.lastActivity ≤ self.idleTimeout }

/-- `validate` under the write lock. -/
def check (token : String) (now : Int) : Except SessionError Session × SessionStore :=
  match self.sessions[token]? with
  | none => (.error .notFound, self)
  | some s =>
    if s.expiresAt ≤ now then
      (.error .expired, { self with sessions := self.sessions.erase token })
    else if now - s.lastActivity > self.idleTimeout then
      (.error .idleTimeout, { self with sessions := self.sessions.erase token })
    else
      let s := { s with lastActivity := now }
      (.ok s, { self with sessions := self.sessions.insert token s })

def revoke (token : String) : Except SessionError Unit × SessionStore :=
  match self.sessions[token]? with
  | none => (.error .notFound, self)
  | some _ => (.ok (), { self with sessions := self.sessions.erase token })

def step : Step → SessionStore
  | .cleanup nowInstant now => self.cleanupIfNeeded nowInstant now
  | .check token now => (self.check token now).2
  | .revoke token => (self.revoke token).2

/-- The checks of a token in a run, each by its reading and whether it is accepted. -/
def answers (self : SessionStore) (token : String) : List Step → List (Int × Bool)
  | [] => []
  | s :: rest =>
    match s with
    | .check x now => if x = token then
        (now, (self.check x now).1.isOk) :: (self.step s).answers token rest
      else (self.step s).answers token rest
    | _ => (self.step s).answers token rest

end

variable {self : SessionStore} {token : String} {session : Session} {steps : List Step}

/-! ## One step -/

theorem step_idleTimeout (self : SessionStore) (s : Step) :
    (self.step s).idleTimeout = self.idleTimeout := by
  cases s with
  | cleanup nowInstant now =>
    rw [step, cleanupIfNeeded]
    split <;> rfl
  | check x now =>
    rw [step, check]
    split
    · rfl
    · repeat' split
      all_goals rfl
  | revoke x =>
    rw [step, revoke]
    split <;> rfl

/-- **ONE STEP, ONE SESSION**: it is left alone, or removed (revoked, or expired or idle by
the step's reading), or accepted and its time set. -/
theorem step_cases (self : SessionStore) (s : Step) (token : String) :
    (self.step s).sessions[token]? = self.sessions[token]? ∧
        (∀ now, s = .check token now → self.sessions[token]? = none) ∨
      (self.step s).sessions[token]? = none ∧
        (∀ now, s = .check token now → (self.check token now).1.isOk = false) ∧
        (s = .revoke token ∨ ∃ session now, self.sessions[token]? = some session ∧
          s.reading = some now ∧
          (session.expiresAt ≤ now ∨ self.idleTimeout < now - session.lastActivity)) ∨
      ∃ session now, s = .check token now ∧ self.sessions[token]? = some session ∧
        (self.check token now).1.isOk = true ∧
        (self.step s).sessions[token]? = some { session with lastActivity := now } := by
  cases s with
  | cleanup nowInstant now =>
    rw [step, cleanupIfNeeded]
    split
    · exact .inl ⟨rfl, by simp⟩
    · dsimp only
      rw [Std.ExtTreeMap.getElem?_filter, Option.pfilter_eq_filter]
      cases hget : self.sessions[token]? with
      | none => exact .inl ⟨rfl, by simp⟩
      | some session =>
        by_cases hold : session.expiresAt ≤ now ∨ self.idleTimeout < now - session.lastActivity
        · refine .inr (.inl ⟨Option.filter_some_neg ?_, by simp, .inr ⟨session, now, rfl, rfl, hold⟩⟩)
          split
          · rfl
          · exact decide_eq_false (by omega)
        · refine .inl ⟨Option.filter_some_pos ?_, by simp⟩
          rw [if_neg (by omega)]
          exact decide_eq_true (by omega)
  | revoke x =>
    by_cases hx : x = token
    · subst hx
      refine .inr (.inl ⟨?_, by simp, .inl rfl⟩)
      rw [step, revoke]
      split
      · assumption
      · simp
    · refine .inl ⟨?_, by simp⟩
      rw [step, revoke]
      split
      · rfl
      · simp [hx]
  | check x now =>
    by_cases hx : x = token
    · subst hx
      cases hget : self.sessions[x]? with
      | none => exact .inl ⟨by simp [step, check, hget], by simp⟩
      | some session =>
        refine .inr ?_
        by_cases hexp : session.expiresAt ≤ now
        · refine .inl ⟨?_, ?_, .inr ⟨session, now, rfl, rfl, .inl hexp⟩⟩ <;>
            simp [step, check, hget, hexp, Except.isOk, Except.toBool]
        · by_cases hidle : self.idleTimeout < now - session.lastActivity
          · refine .inl ⟨?_, ?_, .inr ⟨session, now, rfl, rfl, .inr hidle⟩⟩ <;>
              simp [step, check, hget, hexp, hidle, Except.isOk, Except.toBool]
          · refine .inr ⟨session, now, rfl, rfl, ?_, ?_⟩ <;>
              simp [step, check, hget, hexp, hidle, Except.isOk, Except.toBool]
    · refine .inl ⟨?_, fun n hn => absurd (Step.check.inj hn).1 hx⟩
      rw [step, check]
      split
      · rfl
      · repeat' split
        all_goals simp [hx]

/-! ## Runs -/

variable {s : Step} {a : Int × Bool}

/-- The answers, one step at a time. -/
theorem mem_answers : a ∈ self.answers token (s :: steps) ↔
      s = .check token a.1 ∧ (self.check token a.1).1.isOk = a.2 ∨
        a ∈ (self.step s).answers token steps := by
  obtain ⟨t, ok⟩ := a
  cases s with
  | cleanup nowInstant now | revoke x => simp [answers]
  | check x now =>
    rw [answers]
    by_cases hx : x = token
    · subst hx
      rw [if_pos rfl, mem_cons, Prod.mk.injEq]
      refine or_congr_left ⟨?_, ?_⟩
      · rintro ⟨rfl, rfl⟩
        exact ⟨rfl, rfl⟩
      · rintro ⟨h, hok⟩
        cases h
        exact ⟨rfl, hok.symm⟩
    · simp [hx]

/-- A session that is gone is not accepted. -/
theorem gone_answers (h : self.sessions[token]? = none) (t : Int) :
    (t, true) ∉ self.answers token steps := by
  induction steps generalizing self with
  | nil => exact not_mem_nil
  | cons s rest ih =>
    intro ha
    rcases step_cases self s token with ⟨hsame, hnone⟩ | ⟨hgone, hno, -⟩ | ⟨session, now, -, hget, -⟩
    · rcases mem_answers.mp ha with ⟨-, hok⟩ | ha
      · simp [check, h, Except.isOk, Except.toBool] at hok
      · exact ih (hsame.trans h) ha
    · rcases mem_answers.mp ha with ⟨rfl, hok⟩ | ha
      · cases (hno t rfl).symm.trans hok
      · exact ih hgone ha
    · cases h.symm.trans hget

theorem answers_reading (h : a ∈ self.answers token steps) :
    a.1 ∈ steps.filterMap Step.reading := by
  induction steps generalizing self with
  | nil => cases h
  | cons s rest ih =>
    rcases mem_answers.mp h with ⟨rfl, -⟩ | h
    · exact mem_filterMap.mpr ⟨_, mem_cons_self, rfl⟩
    · obtain ⟨s', hs, hr⟩ := mem_filterMap.mp (ih h)
      exact mem_filterMap.mpr ⟨s', mem_cons_of_mem _ hs, hr⟩

def InOrder (steps : List Step) : Prop := (steps.filterMap Step.reading).Pairwise (· ≤ ·)

theorem inOrder_cons (h : InOrder (s :: steps)) : InOrder steps ∧
    ∀ r, s.reading = some r → ∀ now ∈ steps.filterMap Step.reading, r ≤ now := by
  rw [InOrder, filterMap_cons] at h
  cases hr : s.reading with
  | none =>
    rw [hr] at h
    exact ⟨h, nofun⟩
  | some r =>
    rw [hr] at h
    obtain ⟨hle, htail⟩ := pairwise_cons.mp h
    exact ⟨htail, fun r' hr' => Option.some.inj hr' ▸ hle⟩

/-- After an accepted check at `t` the session answers until it has been idle. -/
theorem kept_in_order {t t' : Int} {ok : Bool} (hget : self.sessions[token]? = some session)
    (hlast : t ≤ session.lastActivity) (horder : InOrder steps)
    (hfrom : ∀ now ∈ steps.filterMap Step.reading, t ≤ now) (hrev : .revoke token ∉ steps)
    (ha : (t', ok) ∈ self.answers token steps) (hidle : t' ≤ t + self.idleTimeout)
    (hexp : t' < session.expiresAt) : ok = true := by
  induction steps generalizing self session with
  | nil => cases ha
  | cons s rest ih =>
    obtain ⟨htail, hle⟩ := inOrder_cons horder
    have hfrom' : ∀ now ∈ rest.filterMap Step.reading, t ≤ now := fun now hn =>
      hfrom now (filterMap_cons ▸ by split <;> simp [hn])
    rw [← step_idleTimeout self s] at hidle
    rcases step_cases self s token with ⟨hsame, hnone⟩ | ⟨-, -, hold⟩ | ⟨e, now, rfl, he, hok, hnew⟩
    · rcases mem_answers.mp ha with ⟨rfl, -⟩ | ha
      · cases hget.symm.trans (hnone t' rfl)
      · exact ih (hsame.trans hget) hlast htail hfrom' (fun h => hrev (mem_cons_of_mem _ h)) ha
          hidle hexp
    · rcases hold with rfl | ⟨e, now, he, hread, hold⟩
      · exact absurd mem_cons_self hrev
      · cases he.symm.trans hget
        have hnow : now ≤ t' := by
          rcases mem_answers.mp ha with ⟨rfl, -⟩ | ha
          · exact (Option.some.inj hread).ge
          · exact hle now hread _ (answers_reading ha)
        rw [step_idleTimeout] at hidle
        omega
    · cases he.symm.trans hget
      rcases mem_answers.mp ha with ⟨h, hans⟩ | ha
      · cases h
        exact hans.symm.trans hok
      · exact ih hnew (hfrom now (by simp [Step.reading])) htail hfrom'
          (fun h => hrev (mem_cons_of_mem _ h)) ha hidle hexp

end SessionStore

open SessionStore

/-- **ACTIVITY IS KEPT** while the steps on the store are taken in the order of their
readings: no check within the idle time of an accepted one is rejected. -/
theorem activity_kept (self : SessionStore) (token : String) (steps : List Step)
    (horder : InOrder steps) (hrev : .revoke token ∉ steps) (t t' : Int) (ok : Bool)
    (hok : (t, true) ∈ self.answers token steps) (ha : (t', ok) ∈ self.answers token steps)
    (hle : t ≤ t') (hidle : t' ≤ t + self.idleTimeout)
    (hexp : ∀ session, self.sessions[token]? = some session → t' < session.expiresAt) :
    ok = true := by
  induction steps generalizing self with
  | nil => cases hok
  | cons s rest ih =>
    obtain ⟨htail, hnext⟩ := inOrder_cons horder
    have hrev' : .revoke token ∉ rest := fun h => hrev (mem_cons_of_mem _ h)
    have hidle' : t' ≤ t + (self.step s).idleTimeout := by rwa [step_idleTimeout]
    have hmove := step_cases self s token
    rcases mem_answers.mp ha with ⟨rfl, hans⟩ | ha
    · -- a check that is rejected leaves nothing to accept
      rcases hmove with ⟨hsame, hnone⟩ | ⟨hgone, -⟩ | ⟨e, now, hs, -, hacc, -⟩
      · rcases mem_answers.mp hok with ⟨h, hacc⟩ | hok
        · cases h
          exact hans.symm.trans hacc
        · exact absurd hok (gone_answers (hsame.trans (hnone t' rfl)) t)
      · rcases mem_answers.mp hok with ⟨h, hacc⟩ | hok
        · cases h
          exact hans.symm.trans hacc
        · exact absurd hok (gone_answers hgone t)
      · cases hs
        exact hans.symm.trans hacc
    · rcases mem_answers.mp hok with ⟨rfl, hacc⟩ | hok
      · rcases hmove with ⟨-, hnone⟩ | ⟨-, hno, -⟩ | ⟨e, now, hs, hget, -, hnew⟩
        · simp [check, hnone t rfl, Except.isOk, Except.toBool] at hacc
        · cases (hno t rfl).symm.trans hacc
        · cases hs
          exact kept_in_order hnew le_rfl htail (hnext t rfl) hrev' ha hidle' (hexp e hget)
      · refine ih _ htail hrev' hok ha hidle' fun session hget => ?_
        rcases hmove with ⟨hsame, -⟩ | ⟨hgone, -⟩ | ⟨e, now, -, he, -, hnew⟩
        · exact hexp session (hsame.symm.trans hget)
        · cases hgone.symm.trans hget
        · cases hnew.symm.trans hget
          exact hexp e he

def sampleStore : SessionStore :=
  ⟨100, 10, 50, (∅ : BTreeMap Session).insert "s" ⟨"s", "ada", .viewer, 0, 100, 0⟩, 50⟩

theorem activity_kept_twice :
    (8, true) ∈ sampleStore.answers "s" (validateSteps "s" 8 8 ++ validateSteps "s" 16 16) ∧
      (16, false) ∉ sampleStore.answers "s" (validateSteps "s" 8 8 ++ validateSteps "s" 16 16) := by
  refine ⟨by decide +kernel, fun ha => ?_⟩
  cases activity_kept sampleStore "s" _ (by rw [InOrder]; decide) (by decide) 8 16 false
    (by decide +kernel) ha (by decide) (by decide) fun session hget => by
      rw [sampleStore, BTreeMap.get_insert, if_pos rfl] at hget
      cases hget
      decide

/-- Three calls: the first reads 5 and waits, the second reads 8 and is done, then the first
goes on; the third reads 16. -/
def overtaken : List (Nat × Step) :=
  [(0, .cleanup 5 5), (1, .cleanup 8 8), (1, .check "s" 8), (0, .check "s" 5),
    (2, .cleanup 16 16), (2, .check "s" 16)]

/-- The activity at 8 is forgotten: at 16 the session is rejected as idle. -/
theorem activity_forgotten :
    [(0, 5), (1, 8), (2, 16)].all (fun call => (overtaken.filter (·.1 == call.1)).map Prod.snd =
        validateSteps "s" call.2 call.2) = true ∧
      sampleStore.answers "s" (overtaken.map Prod.snd) = [(8, true), (5, true), (16, false)] := by
  decide +kernel

end Fenrir.Sessions
