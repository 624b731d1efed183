import Fenrir.Lib.Effect

/-! # Triples for actions that may fail

`Triple P x Q E`: run where `P` holds, `x` ends in a state where `Q` holds of its
result if it returns, and where `E` holds of its error if it fails. The state
after a failure counts, as an action that fails keeps what it has done. -/

namespace Effect.Act

variable {σ ε ε' α β γ : Type}

/-- What holds before, after a return and after a failure. -/
def Triple (P : σ → Prop) (x : Act σ ε α) (Q : α → σ → Prop) (E : ε → σ → Prop) : Prop :=
  ∀ s, P s → match x s with
    | (.ok a, s') => Q a s'
    | (.error e, s') => E e s'

variable {P P' : σ → Prop} {Q Q' : α → σ → Prop} {E E' : ε → σ → Prop} {x : Act σ ε α}

variable {s s' : σ} {a : α} {e : ε} {bs : List β}

theorem Triple.of_ok (h : Triple P x Q E) (hP : P s) (hx : x s = (.ok a, s')) : Q a s' := by
  have := h s hP
  rw [hx] at this
  exact this

theorem Triple.of_error (h : Triple P x Q E) (hP : P s) (hx : x s = (.error e, s')) : E e s' := by
  have := h s hP
  rw [hx] at this
  exact this

theorem Triple.state {R : σ → Prop} (h : Triple P x (fun _ => R) (fun _ => R)) (hP : P s) :
    R (x s).2 := by
  cases hx : x s with
  | mk r s' =>
    cases r with
    | ok a => exact h.of_ok hP hx
    | error e => exact h.of_error hP hx

theorem Triple.intro (hok : ∀ s a s', P s → x s = (.ok a, s') → Q a s')
    (herr : ∀ s e s', P s → x s = (.error e, s') → E e s') : Triple P x Q E := by
  intro s hP
  split
  · rename_i a s' hx
    exact hok s a s' hP hx
  · rename_i e s' hx
    exact herr s e s' hP hx

theorem Triple.weaken (h : Triple P x Q E) (hP : ∀ s, P' s → P s) (hQ : ∀ a s, Q a s → Q' a s)
    (hE : ∀ e s, E e s → E' e s) : Triple P' x Q' E' :=
  .intro (fun s a s' hP' hx => hQ a s' (h.of_ok (hP s hP') hx))
    (fun s e s' hP' hx => hE e s' (h.of_error (hP s hP') hx))

theorem triple_pure (h : ∀ s, P s → Q a s) : Triple P (pure a) Q E := h

theorem triple_fail (h : ∀ s, P s → E e s) : Triple P (fail e) Q E := h

theorem triple_read {f : σ → α} (h : ∀ s, P s → Q (f s) s) : Triple P (read f) Q E := h

theorem triple_modify {f : σ → σ} {Q : Unit → σ → Prop} (h : ∀ s, P s → Q () (f s)) :
    Triple P (modify f) Q E := h

/-- **THE RULE OF SEQUENCES.** -/
theorem triple_bind {R : β → σ → Prop} {y : Act σ ε β} {f : β → Act σ ε α}
    (hy : Triple P y R E) (hf : ∀ b, Triple (R b) (f b) Q E) : Triple P (y >>= f) Q E := by
  refine .intro ?_ ?_
  · intro s a s' hP h
    obtain ⟨b, s1, h1, h2⟩ := bind_ok_iff.mp h
    exact (hf b).of_ok (hy.of_ok hP h1) h2
  · intro s e s' hP h
    rcases bind_error_iff.mp h with h1 | ⟨b, s1, h1, h2⟩
    · exact hy.of_error hP h1
    · exact (hf b).of_error (hy.of_ok hP h1) h2

theorem triple_attempt {E' : ε' → σ → Prop} {R : Except ε α → σ → Prop}
    (h : Triple P x (fun a => R (.ok a)) (fun e => R (.error e))) :
    Triple P (attempt x : Act σ ε' (Except ε α)) R E' := by
  intro s hP
  show R (x s).1 (x s).2
  cases hx : x s with
  | mk r s' =>
    cases r with
    | ok a => exact h.of_ok hP hx
    | error e => exact h.of_error hP hx

/-- **THE RULE OF LOOPS.** The invariant is about the part of the list to come. -/
theorem triple_each {I : List β → σ → Prop} {f : β → Act σ ε Unit}
    (h : ∀ b bs', (b :: bs') <:+ bs → Triple (I (b :: bs')) (f b) (fun _ => I bs') E) :
    Triple (I bs) (each f bs) (fun _ => I []) E := by
  induction bs with
  | nil => exact fun s hI => hI
  | cons b bs ih =>
    refine triple_bind (h b bs List.suffix_rfl) fun _ => ih ?_
    intro b' bs' hsuf
    exact h b' bs' (hsuf.trans (List.suffix_cons b bs))

theorem triple_collect {I : σ → Prop} {f : β → Act σ ε γ}
    (h : ∀ b ∈ bs, Triple I (f b) (fun _ => I) E) : Triple I (collect f bs) (fun _ => I) E := by
  induction bs with
  | nil => exact fun s hI => hI
  | cons b bs ih =>
    refine triple_bind (h b List.mem_cons_self) fun c => ?_
    refine triple_bind (ih fun b' hb' => h b' (List.mem_cons_of_mem _ hb')) fun cs => ?_
    exact triple_pure fun s hI => hI

end Effect.Act
