import Fenrir.Domain
import Fenrir.Lib.Run

/-! # The gateway's rate limiter

`GatewayRateLimiter` of `infra/http/gateway.rs`: a window for each key, begun anew by the
first call after its end.  A call holds the lock from its first reading of the clock to its
last, so a run is a list of calls. -/

namespace Fenrir.Gateway

structure RateEntry where
  (windowStart count : Nat)

structure GatewayRateLimiter where
  inner : BTreeMap RateEntry
  (window limit : Nat)

/-- A call, and the clock as it reads it: for a new entry, for `elapsed`, for a new window. -/
structure RateCall where
  key : String
  limitOverride : Option Nat
  (inserted checked restarted : Nat)

section

variable (window limit : Nat)

/-- An entry whose window has passed begins a new one; then the call is counted. -/
def RateEntry.acquire (e : RateEntry) (c : RateCall) : Bool × RateEntry :=
  let e := if window ≤ c.checked - e.windowStart then ⟨c.restarted, 0⟩ else e
  if limit ≤ e.count then (false, e) else (true, { e with count := e.count + 1 })

def GatewayRateLimiter.tryAcquireWithLimit (self : GatewayRateLimiter) (c : RateCall) :
    Bool × GatewayRateLimiter :=
  let limit := c.limitOverride.getD self.limit
  if limit = 0 then (true, self)
  else
    let answer := (self.inner[c.key]?.getD ⟨c.inserted, 0⟩).acquire self.window limit c
    (answer.1, { self with inner := self.inner.insert c.key answer.2 })

/-- A limiter in use, the last reading of the clock, and when the accepted calls for one key
were checked, the last one first. -/
structure Limiting where
  limiter : GatewayRateLimiter
  now : Nat
  accepted : List Nat

def Limiting.new : Limiting := ⟨⟨∅, window, limit⟩, 0, []⟩

variable (key : String)

def Limiting.step (w : Limiting) (c : RateCall) : Limiting :=
  let answer := w.limiter.tryAcquireWithLimit c
  ⟨answer.2, c.restarted, if answer.1 ∧ c.key = key then c.checked :: w.accepted else w.accepted⟩

/-- The clock does not go back, and the calls for the key have one limit. -/
def Regular (w : Limiting) (c : RateCall) : Prop :=
  w.now ≤ c.inserted ∧ c.inserted ≤ c.checked ∧ c.checked ≤ c.restarted ∧
    (c.key = key → c.limitOverride.getD w.limiter.limit = limit)

instance (w : Limiting) (c : RateCall) : Decidable (Regular limit key w c) := instDecidableAnd

/-- A time and those that stand `n` or more places behind it are a window apart. -/
def Apart (n : Nat) : List Nat → Prop
  | [] => True
  | a :: rest => (∀ b ∈ rest.drop (n - 1), b + window ≤ a) ∧ Apart n rest

/-- The first `count` times are of the window that began at `start`. -/
structure Spaced (start count : Nat) (times : List Nat) : Prop where
  counted : count ≤ limit
  before : ∀ a ∈ times.drop count, a ≤ start
  back : ∀ a ∈ times.drop (limit + count), a + window ≤ start
  apart : Apart window (2 * limit) times

/-- What the entry of the key has to do with what was accepted. -/
structure Paced (w : Limiting) : Prop where
  size : w.limiter.window = window
  past : ∀ a ∈ w.accepted, a ≤ w.now
  entry : ∀ now ≥ w.now, let e := w.limiter.inner[key]?.getD ⟨now, 0⟩
    e.windowStart ≤ now ∧ Spaced window limit e.windowStart e.count w.accepted

end

variable {window limit : Nat} {times : List Nat} {key : String} {w : Limiting} {c : RateCall}

theorem Spaced.renews {start count next t : Nat} (h : Spaced window limit start count times)
    (hlim : 0 < limit) (hpast : ∀ a ∈ times, a ≤ next) (ht : start + window ≤ t)
    (hnext : t ≤ next) : Spaced window limit next 1 (t :: times) := by
  -- the old window holds at most `limit` of the times
  have hold : ∀ {n}, limit ≤ n → ∀ a ∈ times.drop n, a + window ≤ t := by
    intro n hn a ha
    have := h.before a (List.drop_subset_drop_left times (h.counted.trans hn) ha)
    omega
  exact ⟨hlim, hpast, fun a ha => (hold le_rfl a ha).trans hnext, hold (by omega), h.apart⟩

theorem acquire_spaced {e : RateEntry} (hlim : 0 < limit)
    (h : Spaced window limit e.windowStart e.count times) (hsta : e.windowStart ≤ c.checked)
    (hres : c.checked ≤ c.restarted) (hpast : ∀ a ∈ times, a ≤ c.restarted) :
    let answer := e.acquire window limit c
    answer.2.windowStart ≤ c.restarted ∧ Spaced window limit answer.2.windowStart answer.2.count
      (if answer.1 then c.checked :: times else times) := by
  by_cases hover : window ≤ c.checked - e.windowStart
  · simp only [RateEntry.acquire, if_pos hover, if_neg (Nat.not_le_of_lt hlim)]
    exact ⟨le_rfl, h.renews hlim hpast (by omega) hres⟩
  · by_cases hfull : limit ≤ e.count
    · simp only [RateEntry.acquire, if_neg hover, if_pos hfull]
      exact ⟨hsta.trans hres, h⟩
    · simp only [RateEntry.acquire, if_neg hover, if_neg hfull]
      refine ⟨hsta.trans hres, Nat.lt_of_not_le hfull, h.before, h.back, fun b hb => ?_, h.apart⟩
      exact (h.back b (List.drop_subset_drop_left times (by omega) hb)).trans hsta

theorem paced_step (hlim : 0 < limit) (h : Paced window limit key w) (hc : Regular limit key w c) :
    Paced window limit key (w.step key c) := by
  obtain ⟨hins, hche, hres, huse⟩ := hc
  have hpast : ∀ a ∈ w.accepted, a ≤ c.restarted := fun a ha =>
    (h.past a ha).trans (hins.trans (hche.trans hres))
  rw [Limiting.step]
  by_cases hk : c.key = key
  · subst hk
    obtain ⟨hsta, hspa⟩ := h.entry c.inserted hins
    obtain ⟨hsta', hspa'⟩ := acquire_spaced hlim hspa (hsta.trans hche) hres hpast
    simp only [GatewayRateLimiter.tryAcquireWithLimit, huse rfl, if_neg hlim.ne', h.size, and_true]
    refine ⟨rfl, ?_, fun now hnow => ?_⟩
    · split
      · exact List.forall_mem_cons.mpr ⟨hres, hpast⟩
      · exact hpast
    · rw [BTreeMap.get_insert, if_pos rfl]
      exact ⟨hsta'.trans hnow, hspa'⟩
  · -- a call for another key leaves this entry alone
    have hent : ∀ now ≥ c.restarted, _ := fun now hnow => h.entry now (by omega)
    simp only [if_neg fun hand => hk (And.right hand)]
    rw [GatewayRateLimiter.tryAcquireWithLimit]
    split
    · exact ⟨h.size, hpast, hent⟩
    · refine ⟨h.size, hpast, fun now hnow => ?_⟩
      rw [BTreeMap.get_insert, if_neg hk]
      exact hent now hnow

/-- **THE RATE LIMIT**, whatever calls for other keys come between: of `2 * limit + 1` calls
in a row that are accepted for a key, the first and the last are a window or more apart. -/
theorem rate_limited (key : String) (default window limit : Nat) (hlim : 0 < limit)
    (calls : List RateCall)
    (hcalls : Run.Along (Limiting.step key) (Regular limit key) (.new window default) calls) :
    Apart window (2 * limit) (Run.run (Limiting.step key) (.new window default) calls).accepted := by
  have hnew : Paced window limit key (.new window default) := by
    refine ⟨rfl, fun _ h => (List.not_mem_nil h).elim, fun now _ => ?_⟩
    rw [Limiting.new, Std.ExtTreeMap.getElem?_empty]
    exact ⟨le_rfl, Nat.zero_le _, by simp, by simp, trivial⟩
  have hrun := Run.invariant (fun _ _ h hc => paced_step hlim h hc) hnew hcalls
  exact (hrun.entry _ le_rfl).2.apart

/-- One call in ten seconds: the third is refused, each of the last two begins a window. -/
theorem rate_limited_one :
    let w := Run.run (Limiting.step "a") (.new 10 1)
      [⟨"a", none, 0, 0, 0⟩, ⟨"b", none, 1, 1, 1⟩, ⟨"a", none, 2, 2, 2⟩, ⟨"a", none, 10, 10, 10⟩,
        ⟨"a", none, 20, 20, 20⟩]
    w.accepted = [20, 10, 0] ∧ Apart 10 2 w.accepted :=
  ⟨by decide +kernel, rate_limited "a" 1 10 1 Nat.one_pos _ (by decide +kernel)⟩

end Fenrir.Gateway
