import Mathlib

/-! # Effects that fail and keep their state

A computation of the host reads and writes files, calls other services and
may stop at any of those steps. What it changed before it stopped stays
changed, so an error carries the state it left behind: `Act σ ε α` maps a
state to a result AND a state, on both exits. -/

namespace Effect

open List

/-- A computation over the state `σ` that returns an `α` or stops with an `ε`;
the state it reached is kept either way. -/
def Act (σ ε α : Type) : Type := σ → Except ε α × σ

variable {σ ε ε' α β γ : Type}

namespace Act

instance : Monad (Act σ ε) where
  pure a := fun s => (.ok a, s)
  bind x f := fun s =>
    match x s with
    | (.ok a, s') => f a s'
    | (.error e, s') => (.error e, s')

def fail (e : ε) : Act σ ε α := fun s => (.error e, s)

def read (f : σ → α) : Act σ ε α := fun s => (.ok (f s), s)

def modify (f : σ → σ) : Act σ ε Unit := fun s => (.ok (), f s)

def lift (r : Except ε α) : Act σ ε α := fun s => (r, s)

def mapErr (f : ε → ε') (x : Act σ ε α) : Act σ ε' α := fun s =>
  match x s with
  | (.ok a, s') => (.ok a, s')
  | (.error e, s') => (.error (f e), s')

/-- Run to the end and hand the outcome over as a value. -/
def attempt (x : Act σ ε α) : Act σ ε' (Except ε α) := fun s =>
  (.ok (x s).1, (x s).2)

/-- Run `x`, then the cleanup `f` on whatever state `x` left. -/
def guarded (x : Act σ ε α) (f : σ → σ) : Act σ ε α := fun s =>
  ((x s).1, f (x s).2)

/-- `if c { x?; }` -/
def when (c : Bool) (x : Act σ ε Unit) : Act σ ε Unit := if c then x else pure ()

/-- `for b in bs { f(b)?; }` -/
def each (f : β → Act σ ε Unit) : List β → Act σ ε Unit
  | [] => pure ()
  | b :: bs => do
      f b
      each f bs

/-- `for b in bs { out.push(f(b)?); }` -/
def collect (f : β → Act σ ε γ) : List β → Act σ ε (List γ)
  | [] => pure []
  | b :: bs => do
      let c ← f b
      let cs ← collect f bs
      pure (c :: cs)

/-! ## What a run of a composite computation can be -/

@[simp] theorem pure_run (a : α) (s : σ) : (pure a : Act σ ε α) s = (.ok a, s) := rfl

@[simp] theorem fail_run (e : ε) (s : σ) : (fail e : Act σ ε α) s = (.error e, s) := rfl

@[simp] theorem read_run (f : σ → α) (s : σ) : (read f : Act σ ε α) s = (.ok (f s), s) := rfl

@[simp] theorem modify_run (f : σ → σ) (s : σ) : (modify f : Act σ ε Unit) s = (.ok (), f s) := rfl

@[simp] theorem lift_run (r : Except ε α) (s : σ) : (lift r : Act σ ε α) s = (r, s) := rfl

theorem bind_run (x : Act σ ε α) (f : α → Act σ ε β) (s : σ) : (x >>= f) s = match x s with
      | (.ok a, s') => f a s'
      | (.error e, s') => (.error e, s') := rfl

variable {x : Act σ ε α} {s s' : σ} {a : α} {e : ε} {r : Except ε α} {bs : List β}

theorem bind_of_ok {f : α → Act σ ε β} (h : x s = (.ok a, s')) : (x >>= f) s = f a s' := by
  rw [bind_run, h]

theorem bind_of_error {f : α → Act σ ε β} (h : x s = (.error e, s')) :
    (x >>= f) s = (.error e, s') := by
  rw [bind_run, h]

theorem lift_bind_ok (h : r = .ok a) (f : α → Act σ ε β) (s : σ) :
    ((lift r : Act σ ε α) >>= f) s = f a s :=
  bind_of_ok (by rw [lift_run, h])

theorem lift_bind_error (h : r = .error e) (f : α → Act σ ε β) (s : σ) :
    ((lift r : Act σ ε α) >>= f) s = (.error e, s) :=
  bind_of_error (by rw [lift_run, h])

theorem ok_of_isOk (h : (x s).1.isOk = true) : ∃ a s', x s = (.ok a, s') := by
  cases hx : x s with
  | mk r s' =>
    rw [hx] at h
    cases r with
    | error e => cases h
    | ok a => exact ⟨a, s', rfl⟩

theorem error_of_isOk (h : (x s).1.isOk = false) : ∃ e s', x s = (.error e, s') := by
  cases hx : x s with
  | mk r s' =>
    rw [hx] at h
    cases r with
    | error e => exact ⟨e, s', rfl⟩
    | ok a => cases h

theorem bind_ok_iff {f : α → Act σ ε β} {b : β} : (x >>= f) s = (.ok b, s') ↔
      ∃ a s1, x s = (.ok a, s1) ∧ f a s1 = (.ok b, s') := by
  rw [bind_run]
  constructor
  · intro h
    cases hx : x s with
    | mk r s1 =>
      rw [hx] at h
      cases r with
      | error e => cases h
      | ok a => exact ⟨a, s1, rfl, h⟩
  · rintro ⟨a, s1, hx, hf⟩
    rw [hx]
    exact hf

theorem read_bind_ok {g : α → Act σ ε β} {f : σ → α} {b : β}
    (h : (read f >>= g) s = (.ok b, s')) : ∃ a, f s = a ∧ g a s = (.ok b, s') :=
  ⟨_, rfl, h⟩

theorem bind_error_iff {f : α → Act σ ε β} : (x >>= f) s = (.error e, s') ↔
      x s = (.error e, s') ∨ ∃ a s1, x s = (.ok a, s1) ∧ f a s1 = (.error e, s') := by
  rw [bind_run]
  constructor
  · intro h
    cases hx : x s with
    | mk r s1 =>
      rw [hx] at h
      cases r with
      | error e' =>
        have hp := Prod.mk.inj h
        have he : e' = e := Except.error.inj hp.1
        exact Or.inl (by rw [he, hp.2])
      | ok a => exact Or.inr ⟨a, s1, rfl, h⟩
  · rintro (hx | ⟨a, s1, hx, hf⟩)
    · rw [hx]
    · rw [hx]
      exact hf

theorem bind_cases {f : α → Act σ ε β} {r : Except ε β} (h : (x >>= f) s = (r, s')) :
    (∃ e, r = .error e ∧ x s = (.error e, s')) ∨ ∃ a s1, x s = (.ok a, s1) ∧ f a s1 = (r, s') := by
  cases r with
  | ok b => exact .inr (bind_ok_iff.mp h)
  | error e => exact (bind_error_iff.mp h).imp_left fun hx => ⟨e, rfl, hx⟩

theorem mapErr_ok_iff {f : ε → ε'} : mapErr f x s = (.ok a, s') ↔ x s = (.ok a, s') := by
  rw [mapErr]
  rcases x s with ⟨r | r, s1⟩ <;> simp

theorem attempt_of_run (h : x s = (r, s')) :
    (attempt x : Act σ ε' (Except ε α)) s = (.ok r, s') := by
  rw [attempt, h]

/-! ## Frame conditions: what holds between the states before and after -/

/-- However `x` ends, the state before and the state after are `R`-related. -/
def Keeps (R : σ → σ → Prop) (x : Act σ ε α) : Prop := ∀ s, R s (x s).2

theorem Keeps.ok {R : σ → σ → Prop} (h : Keeps R x) (hx : x s = (r, s')) : R s s' := by
  have := h s
  rw [hx] at this
  exact this

section

variable {R : σ → σ → Prop}

theorem keeps_pure (hre : ∀ s, R s s) (a : α) : Keeps R (pure a : Act σ ε α) := hre

theorem keeps_fail (hre : ∀ s, R s s) (e : ε) : Keeps R (fail e : Act σ ε α) := hre

theorem keeps_read (hre : ∀ s, R s s) (f : σ → α) : Keeps R (read f : Act σ ε α) := hre

theorem keeps_lift (hre : ∀ s, R s s) (r : Except ε α) : Keeps R (lift r : Act σ ε α) := hre

variable {x : Act σ ε α} {bs : List β}

theorem keeps_bind_of_ok (htra : ∀ a b c, R a b → R b c → R a c) {f : α → Act σ ε β}
    (hx : Keeps R x) (hf : ∀ s a s', x s = (.ok a, s') → R s' (f a s').2) : Keeps R (x >>= f) := by
  intro s
  cases hrun : x s with
  | mk r s1 =>
    have h1 : R s s1 := hx.ok hrun
    cases r with
    | error e =>
      rw [bind_of_error hrun]
      exact h1
    | ok a =>
      rw [bind_of_ok hrun]
      exact htra _ _ _ h1 (hf s a s1 hrun)

theorem keeps_bind (htra : ∀ a b c, R a b → R b c → R a c) {f : α → Act σ ε β} (hx : Keeps R x)
    (hf : ∀ a, Keeps R (f a)) : Keeps R (x >>= f) :=
  keeps_bind_of_ok htra hx fun _ a s' _ => hf a s'

theorem keeps_mapErr {f : ε → ε'} (hx : Keeps R x) : Keeps R (mapErr f x) := by
  intro s
  have h := hx s
  rw [mapErr]
  cases hrun : x s with
  | mk r s1 =>
    rw [hrun] at h
    cases r <;> exact h

theorem keeps_attempt (hx : Keeps R x) : Keeps R (attempt x : Act σ ε' (Except ε α)) := hx

theorem keeps_when (hre : ∀ s, R s s) {x : Act σ ε Unit} (c : Bool) (hx : Keeps R x) :
    Keeps R (when c x) := by
  cases c with
  | false => exact keeps_pure hre ()
  | true => exact hx

theorem keeps_each (hre : ∀ s, R s s) (htra : ∀ a b c, R a b → R b c → R a c)
    {f : β → Act σ ε Unit} (hf : ∀ b ∈ bs, Keeps R (f b)) : Keeps R (each f bs) := by
  induction bs with
  | nil => exact keeps_pure hre ()
  | cons b bs ih =>
    refine keeps_bind htra (hf b (by simp)) ?_
    intro _
    exact ih (fun c hc => hf c (by simp [hc]))

theorem keeps_collect (hre : ∀ s, R s s) (htra : ∀ a b c, R a b → R b c → R a c)
    {f : β → Act σ ε γ} (hf : ∀ b ∈ bs, Keeps R (f b)) : Keeps R (collect f bs) := by
  induction bs with
  | nil => exact keeps_pure hre []
  | cons b bs ih =>
    refine keeps_bind htra (hf b (by simp)) ?_
    intro c
    refine keeps_bind htra (ih (fun c hc => hf c (by simp [hc]))) ?_
    intro cs
    exact keeps_pure hre _

end

/-! ## What a computation that returns leaves true -/

/-- If `x` returns, what held before holds after. -/
def Preserves (P : σ → Prop) (x : Act σ ε α) : Prop :=
  ∀ s a s', P s → x s = (.ok a, s') → P s'

theorem preserves_lift {P : σ → Prop} (r : Except ε α) : Preserves P (lift r : Act σ ε α) := by
  intro s a s' hP h
  cases h
  exact hP

theorem preserves_bind {P : σ → Prop} {f : α → Act σ ε β} (hx : Preserves P x)
    (hf : ∀ a, Preserves P (f a)) : Preserves P (x >>= f) := by
  intro s b s' hP h
  obtain ⟨a, s1, h1, h2⟩ := bind_ok_iff.mp h
  exact hf a s1 b s' (hx s a s1 hP h1) h2

/-! ## Loops that return -/

theorem each_ok_fold {τ : Type} {p : σ → τ} {g : τ → β → τ} {f : β → Act σ ε Unit}
    (hf : ∀ b s s', f b s = (.ok (), s') → p s' = g (p s) b) (h : each f bs s = (.ok (), s')) :
    p s' = bs.foldl g (p s) := by
  induction bs generalizing s with
  | nil => cases h; rfl
  | cons b bs ih =>
    obtain ⟨u, s1, hb, hre⟩ := bind_ok_iff.mp h
    rw [ih hre, hf b s s1 hb]
    rfl

theorem each_error {f : β → Act σ ε Unit} (h : each f bs s = (.error e, s')) :
    ∃ b ∈ bs, ∃ s1, f b s1 = (.error e, s') := by
  induction bs generalizing s with
  | nil => cases h
  | cons b bs ih =>
    rcases bind_error_iff.mp h with hb | ⟨u, s1, -, hre⟩
    · exact ⟨b, mem_cons_self, s, hb⟩
    · obtain ⟨b', hb', s2, he⟩ := ih hre
      exact ⟨b', mem_cons_of_mem _ hb', s2, he⟩

theorem each_ok_keeps {P : σ → Prop} {f : β → Act σ ε Unit}
    (hke : ∀ b ∈ bs, ∀ s s', P s → f b s = (.ok (), s') → P s') (h : each f bs s = (.ok (), s'))
    (hP : P s) : P s' := by
  induction bs generalizing s with
  | nil => cases h; exact hP
  | cons b bs ih =>
    obtain ⟨u, s1, hb, hre⟩ := bind_ok_iff.mp h
    exact ih (fun c hc => hke c (mem_cons_of_mem _ hc)) hre (hke b mem_cons_self s s1 hP hb)

/-- Under an invariant: what each round establishes and the later rounds keep
holds at the end of a loop that returns. -/
theorem each_ok {I : σ → Prop} {P : β → σ → Prop} {f : β → Act σ ε Unit}
    (hst : ∀ b ∈ bs, ∀ s s', I s → f b s = (.ok (), s') → I s' ∧ P b s')
    (hke : ∀ b, ∀ b' ∈ bs, ∀ s s', I s → P b s → f b' s = (.ok (), s') → P b s')
    (h : each f bs s = (.ok (), s')) (hI : I s) : ∀ b ∈ bs, P b s' := by
  induction bs generalizing s with
  | nil => exact nofun
  | cons b bs ih =>
    obtain ⟨u, s1, hb, hre⟩ := bind_ok_iff.mp h
    obtain ⟨hI1, hP⟩ := hst b mem_cons_self s s1 hI hb
    have hst' := fun c hc => hst c (mem_cons_of_mem b hc)
    have hke' := fun d c hc => hke d c (mem_cons_of_mem b hc)
    intro c hc
    rcases mem_cons.mp hc with rfl | hmem
    · exact (each_ok_keeps (P := fun s => I s ∧ P c s)
        (fun b' hb' s s' hs hrun => ⟨(hst' b' hb' s s' hs.1 hrun).1,
          hke' c b' hb' s s' hs.1 hs.2 hrun⟩) hre ⟨hI1, hP⟩).2
    · exact ih hst' hke' hre hI1 c hmem

/-- The same for a collecting loop: what holds between an element and what its
round returned, and is kept by the later rounds. -/
theorem collect_ok {I : σ → Prop} {P : β → γ → σ → Prop} {f : β → Act σ ε γ}
    (hinv : ∀ b ∈ bs, ∀ c s s', I s → f b s = (.ok c, s') → I s' ∧ P b c s')
    (hke : ∀ b c, ∀ b' ∈ bs, ∀ c' s s', I s → P b c s → f b' s = (.ok c', s') → P b c s')
    {cs : List γ} (h : collect f bs s = (.ok cs, s')) (hI : I s) :
    I s' ∧ List.Forall₂ (fun b c => P b c s') bs cs := by
  -- an established pair survives the rest of the loop
  have hre : ∀ bs' : List β, (∀ b ∈ bs', b ∈ bs) → ∀ b c cs s s', I s → P b c s →
      collect f bs' s = (.ok cs, s') → P b c s' := by
    intro bs'
    induction bs' with
    | nil =>
      intro _ b c cs s s' _ hP h
      cases h
      exact hP
    | cons b' bs' ih =>
      intro hsub b c cs s s' hI hP h
      obtain ⟨c', s1, hb', hmo⟩ := bind_ok_iff.mp h
      obtain ⟨cs', s2, hta, hend⟩ := bind_ok_iff.mp hmo
      have hmem := hsub b' mem_cons_self
      rw [← (Prod.mk.inj hend).2]
      exact ih (fun b hb => hsub b (mem_cons_of_mem _ hb)) b c cs' s1 s2
        (hinv b' hmem c' s s1 hI hb').1 (hke b c b' hmem c' s s1 hI hP hb') hta
  have hma : ∀ bs' : List β, (∀ b ∈ bs', b ∈ bs) → ∀ cs s s', I s →
      collect f bs' s = (.ok cs, s') → I s' ∧ List.Forall₂ (fun b c => P b c s') bs' cs := by
    intro bs'
    induction bs' with
    | nil =>
      intro _ cs s s' hI h
      obtain ⟨hcs, hs⟩ := Prod.mk.inj h
      cases hcs
      rw [← hs]
      exact ⟨hI, List.Forall₂.nil⟩
    | cons b bs' ih =>
      intro hsub cs s s' hI h
      obtain ⟨c, s1, hb, hmo⟩ := bind_ok_iff.mp h
      obtain ⟨cs', s2, hta, hend⟩ := bind_ok_iff.mp hmo
      obtain ⟨hcs, hs⟩ := Prod.mk.inj hend
      have hsu' : ∀ b ∈ bs', b ∈ bs := fun b hb => hsub b (mem_cons_of_mem _ hb)
      obtain ⟨hI1, hP⟩ := hinv b (hsub b mem_cons_self) c s s1 hI hb
      obtain ⟨hI2, hall⟩ := ih hsu' cs' s1 s2 hI1 hta
      cases hcs
      rw [← hs]
      exact ⟨hI2, List.Forall₂.cons (hre bs' hsu' b c cs' s1 s2 hI1 hP hta) hall⟩
  exact hma bs (fun _ hb => hb) cs s s' hI h

/-! ## Total correctness: the loop returns -/

/-- A loop returns when every round does, from every state with an invariant
the rounds keep. -/
theorem each_returns {I : σ → Prop} {f : β → Act σ ε Unit}
    (hf : ∀ b ∈ bs, ∀ s, I s → ∃ s', f b s = (.ok (), s') ∧ I s') (hs : I s) :
    ∃ s', each f bs s = (.ok (), s') ∧ I s' := by
  induction bs generalizing s with
  | nil => exact ⟨s, rfl, hs⟩
  | cons b bs ih =>
    obtain ⟨s1, hb, h1⟩ := hf b mem_cons_self s hs
    obtain ⟨s2, hre, h2⟩ := ih (fun c hc => hf c (mem_cons_of_mem _ hc)) h1
    exact ⟨s2, by rw [each, bind_of_ok hb, hre], h2⟩

theorem collect_returns {I : σ → Prop} {f : β → Act σ ε γ}
    (hf : ∀ b ∈ bs, ∀ s, I s → ∃ c s', f b s = (.ok c, s') ∧ I s') (hs : I s) :
    ∃ cs s', collect f bs s = (.ok cs, s') ∧ I s' := by
  induction bs generalizing s with
  | nil => exact ⟨[], s, rfl, hs⟩
  | cons b bs ih =>
    obtain ⟨c, s1, hb, h1⟩ := hf b mem_cons_self s hs
    obtain ⟨cs, s2, hre, h2⟩ := ih (fun c hc => hf c (mem_cons_of_mem _ hc)) h1
    exact ⟨c :: cs, s2, by rw [collect, bind_of_ok hb, bind_of_ok hre]; rfl, h2⟩

end Act

end Effect
