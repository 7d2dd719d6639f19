import Mathlib
import MarketFeed.Settings.Backoff

/-!
The waits of a backoff under any calls. What it answers depends only on how often it was asked since
the last reset: the wait is the base, doubled once for each time it was asked before but at most six
times, and cut at the maximum; there is none once the attempts are used up. Counters of 32 bits and a
product of 64 bits are wide enough for this, whatever the base, the maximum and the attempts are.
-/
namespace MarketFeed.Settings

theorem Reconnect.toNat_delay (c : Reconnect) (doubled : Nat) :
    (c.delay doubled).toNat = min c.max.toNat (c.base.toNat * 2 ^ doubled) := by
  have hmax : c.max.toNat < UInt64.size := c.max.toNat_lt_size
  have hcut : min (min (c.base.toNat * 2 ^ doubled) (UInt64.size - 1)) c.max.toNat =
      min c.max.toNat (c.base.toNat * 2 ^ doubled) := by omega
  have hfits : min c.max.toNat (c.base.toNat * 2 ^ doubled) < 2 ^ 64 :=
    lt_of_le_of_lt (Nat.min_le_left _ _) hmax
  rw [delay, Nat.shiftLeft_eq, hcut, UInt64.toNat_ofNat', Nat.mod_eq_of_lt hfits]

theorem Reconnect.delay_mono (c : Reconnect) {j k : Nat} (hjk : j ≤ k) : c.delay j ≤ c.delay k := by
  rw [UInt64.le_iff_toNat_le, toNat_delay, toNat_delay]
  exact min_le_min_left _ (Nat.mul_le_mul_left _ (Nat.pow_le_pow_right (by omega) hjk))

/-- A wait that is not cut below the base lies between the base and the maximum. -/
theorem Reconnect.delay_bounds (c : Reconnect) (hbase : c.base ≤ c.max) (doubled : Nat) :
    c.base ≤ c.delay doubled ∧ c.delay doubled ≤ c.max := by
  rw [UInt64.le_iff_toNat_le] at hbase
  rw [UInt64.le_iff_toNat_le, UInt64.le_iff_toNat_le, toNat_delay]
  have hgrows : c.base.toNat ≤ c.base.toNat * 2 ^ doubled :=
    Nat.le_mul_of_pos_right _ (Nat.two_pow_pos doubled)
  omega

namespace Backoff

/-- What a backoff is asked to do. -/
inductive Call where
  | next
  | reset
deriving DecidableEq

def call (b : Backoff) : Call → Backoff
  | .next => b.next.2
  | .reset => b.reset

def callAll (b : Backoff) (calls : List Call) : Backoff := calls.foldl call b

/-- How often a wait was asked for since the last reset, after so many times before the calls. -/
def askedFrom (before : Nat) (calls : List Call) : Nat :=
  calls.foldl (fun asked c => match c with
    | .next => asked + 1
    | .reset => 0) before

def asked (calls : List Call) : Nat := askedFrom 0 calls

theorem askedFrom_le {calls : List Call} (hcalls : .reset ∉ calls) (before : Nat) :
    before ≤ askedFrom before calls := by
  induction calls generalizing before with
  | nil => exact Nat.le_refl before
  | cons c rest ih =>
    obtain ⟨hc, hrest⟩ := not_or.mp (mt List.mem_cons.mpr hcalls)
    cases c with
    | next => exact Nat.le_of_succ_le (ih hrest (before + 1))
    | reset => exact absurd rfl hc

variable (c : Reconnect)

/-- One call, by how often a wait was asked for before it. -/
theorem call_afterAttempts (asked : Nat) (step : Call) :
    (afterAttempts c (min asked c.attempts.toNat)).call step =
      afterAttempts c (min (askedFrom asked [step]) c.attempts.toNat) := by
  cases step with
  | reset =>
    have hzero : min 0 c.attempts.toNat = 0 := by omega
    exact (reset_afterAttempts c _).trans (congrArg (afterAttempts c) hzero.symm)
  | next =>
    show (afterAttempts c (min asked c.attempts.toNat)).next.2 =
      afterAttempts c (min (asked + 1) c.attempts.toNat)
    rw [next_afterAttempts]
    by_cases hleft : c.attempts.toNat ≤ min asked c.attempts.toNat
    · rw [if_pos hleft]
      exact congrArg (afterAttempts c) (by omega)
    · rw [if_neg hleft]
      exact congrArg (afterAttempts c) (by omega)

/-- A backoff is told by how often a wait was asked for since the last reset. -/
theorem callAll_afterAttempts (before : Nat) (calls : List Call) :
    (afterAttempts c (min before c.attempts.toNat)).callAll calls =
      afterAttempts c (min (askedFrom before calls) c.attempts.toNat) := by
  induction calls generalizing before with
  | nil => rfl
  | cons step rest ih =>
    have hstep := call_afterAttempts c before step
    unfold callAll at ih ⊢
    rw [List.foldl_cons, hstep, ih]
    rfl

theorem callAll_fresh (calls : List Call) :
    callAll { reconnect := c } calls = afterAttempts c (min (asked calls) c.attempts.toNat) := by
  have hfresh : ({ reconnect := c } : Backoff) = afterAttempts c (min 0 c.attempts.toNat) := by
    rw [Nat.zero_min]
    rfl
  rw [hfresh, callAll_afterAttempts]
  rfl

/-- The answer of a backoff, by how often a wait was asked for before. -/
theorem wait_afterAttempts (asked : Nat) :
    (afterAttempts c (min asked c.attempts.toNat)).next.1 =
      if asked < c.attempts.toNat then some (c.delay (min asked Reconnect.doublings))
      else none := by
  rw [next_afterAttempts]
  by_cases hleft : asked < c.attempts.toNat
  · have hasked : min asked c.attempts.toNat = asked := by omega
    rw [if_pos hleft, hasked, if_neg (by omega)]
  · rw [if_neg hleft, if_pos (by omega)]

theorem wait_eq_some_iff {asked : Nat} {wait : UInt64} :
    (afterAttempts c (min asked c.attempts.toNat)).next.1 = some wait ↔
      asked < c.attempts.toNat ∧ c.delay (min asked Reconnect.doublings) = wait := by
  rw [wait_afterAttempts]
  split <;> simp [*]

/-- The counters of a backoff in words of 32 bits. -/
structure Counters where
  attempts : UInt32 := 0
  doubled : UInt32 := 0

namespace Counters

/-- The next number, if it is one of 32 bits. -/
def succ? (n : UInt32) : Option UInt32 :=
  if n.toNat + 1 < UInt32.size then some (n + 1) else none

/-- The power of two, if it is a number of 64 bits. -/
def power? (n : UInt32) : Option UInt64 :=
  if 2 ^ n.toNat < UInt64.size then some (.ofNat (2 ^ n.toNat)) else none

/-- The product of two numbers of 64 bits, or the largest such number if that is less. -/
def cutProduct (m n : UInt64) : UInt64 := .ofNat (min (m.toNat * n.toNat) (UInt64.size - 1))

/-- The wait before the next attempt as words are counted, or nothing if one of the operations on the
way leads out of its word. -/
def next? (c : Reconnect) (n : Counters) : Option (Option UInt64 × Counters) :=
  if c.attempts ≤ n.attempts then some (none, n)
  else do
    let attempts ← succ? n.attempts
    let power ← power? n.doubled
    let doubled ← succ? n.doubled
    some (some (min (cutProduct c.base power) c.max), { attempts, doubled := min doubled 6 })

def call? (c : Reconnect) (n : Counters) : Call → Option Counters
  | .next => (n.next? c).map Prod.snd
  | .reset => some {}

def callAll? (c : Reconnect) (calls : List Call) : Option Counters := calls.foldlM (call? c) {}

/-- Counters in words that are those of a backoff. -/
structure Count (n : Counters) (b : Backoff) : Prop where
  attempts : n.attempts.toNat = b.attempts
  doubled : n.doubled.toNat = b.doubled

theorem succ?_of_lt {n : UInt32} {m : Nat} (hn : n.toNat < m) (hm : m < UInt32.size) :
    ∃ n', succ? n = some n' ∧ n'.toNat = n.toNat + 1 := by
  have hfits : n.toNat + 1 < 2 ^ 32 := Nat.lt_of_le_of_lt hn hm
  refine ⟨n + 1, if_pos hfits, ?_⟩
  rw [UInt32.toNat_add, UInt32.toNat_one, Nat.mod_eq_of_lt hfits]

/-- The wait as words are counted is the wait. -/
theorem min_cutProduct {n : UInt32} {power : UInt64} (hpower : power.toNat = 2 ^ n.toNat) :
    min (cutProduct c.base power) c.max = c.delay n.toNat := by
  have hcut : (cutProduct c.base power).toNat =
      min (c.base.toNat * 2 ^ n.toNat) (UInt64.size - 1) := by
    have hfits : min (c.base.toNat * 2 ^ n.toNat) (UInt64.size - 1) < 2 ^ 64 :=
      lt_of_le_of_lt (Nat.min_le_right _ _) (by decide)
    rw [cutProduct, hpower, UInt64.toNat_ofNat', Nat.mod_eq_of_lt hfits]
  have hmax : c.max.toNat < UInt64.size := c.max.toNat_lt_size
  apply UInt64.toNat_inj.mp
  rw [c.toNat_delay, UInt64.toNat_min, hcut]
  omega

/-- Words are wide enough for the next wait, and count what the backoff counts. -/
theorem Count.next? {n : Counters} {b : Backoff} (h : n.Count b)
    (hdoubled : b.doubled ≤ Reconnect.doublings) :
    ∃ n', n.next? b.reconnect = some (b.next.1, n') ∧ n'.Count b.next.2 := by
  have hspent : b.reconnect.attempts ≤ n.attempts ↔ b.reconnect.attempts.toNat ≤ b.attempts := by
    rw [UInt32.le_iff_toNat_le, h.attempts]
  unfold Counters.next? Backoff.next
  by_cases hleft : b.reconnect.attempts.toNat ≤ b.attempts
  · rw [if_pos (hspent.mpr hleft), if_pos hleft]
    exact ⟨n, rfl, h⟩
  · rw [if_neg (mt hspent.mp hleft), if_neg hleft]
    have hsmall : n.doubled.toNat < 7 := by
      rw [h.doubled]
      exact Nat.lt_succ_of_le hdoubled
    obtain ⟨attempts, hattempts, hattemptsNat⟩ := succ?_of_lt (n := n.attempts)
      (by rw [h.attempts]; exact Nat.not_le.mp hleft) b.reconnect.attempts.toNat_lt_size
    obtain ⟨doubled, hsucc, hsuccNat⟩ := succ?_of_lt hsmall (by decide)
    have hpowerFits : 2 ^ n.doubled.toNat < UInt64.size :=
      Nat.lt_of_lt_of_le (Nat.pow_lt_pow_right (by omega) hsmall) (by decide)
    have hpowerNat : (UInt64.ofNat (2 ^ n.doubled.toNat)).toNat = 2 ^ n.doubled.toNat :=
      UInt64.toNat_ofNat_of_lt' hpowerFits
    have hpower : power? n.doubled = some (.ofNat (2 ^ n.doubled.toNat)) := if_pos hpowerFits
    have hwait : min (cutProduct b.reconnect.base (.ofNat (2 ^ n.doubled.toNat))) b.reconnect.max =
        b.reconnect.delay b.doubled := by
      rw [← h.doubled]
      exact min_cutProduct b.reconnect hpowerNat
    refine ⟨{ attempts, doubled := min doubled 6 }, ?_, ?_, ?_⟩
    · simp only [hattempts, hpower, hsucc, Option.bind_eq_bind, Option.bind_some, hwait]
    · rw [hattemptsNat, h.attempts]
    · show (min doubled 6).toNat = min (b.doubled + 1) Reconnect.doublings
      rw [UInt32.toNat_min, hsuccNat, h.doubled]
      rfl

/-- Words are wide enough for any calls. -/
theorem Count.callAll? {n : Counters} {before : Nat}
    (h : n.Count (afterAttempts c (min before c.attempts.toNat))) (calls : List Call) :
    ∃ n', calls.foldlM (call? c) n = some n' ∧
      n'.Count ((afterAttempts c (min before c.attempts.toNat)).callAll calls) := by
  induction calls generalizing n before with
  | nil => exact ⟨n, rfl, h⟩
  | cons step rest ih =>
    have hstep : ∃ n', call? c n step = some n' ∧
        n'.Count ((afterAttempts c (min before c.attempts.toNat)).call step) := by
      cases step with
      | reset => exact ⟨{}, rfl, rfl, rfl⟩
      | next =>
        obtain ⟨n', hnext, hcount⟩ := h.next? (Nat.min_le_right _ _)
        exact ⟨n', congrArg (Option.map Prod.snd) hnext, hcount⟩
    obtain ⟨n', hn', hcount⟩ := hstep
    rw [call_afterAttempts] at hcount
    obtain ⟨n'', hn'', hcount'⟩ := ih hcount
    refine ⟨n'', ?_, ?_⟩
    · rw [List.foldlM_cons, hn']
      exact hn''
    · rwa [← call_afterAttempts] at hcount'

end Counters

/-- Whatever a backoff was asked before, it counts the attempts since the last reset up to those that
are allowed. The next wait, the `asked + 1`st since then, is the base doubled so often but at most six
times, cut at the maximum, and there is none once the attempts are used up. Words of 32 and 64 bits
are wide enough to find it. Waits do not get shorter until the next reset, and if the base is not
above the maximum they all lie between the two. -/
theorem waits_double (calls : List Call) :
    let b := callAll { reconnect := c } calls
    b.attempts = min (asked calls) c.attempts.toNat ∧
    b.next.1.map UInt64.toNat =
      (if asked calls + 1 ≤ c.attempts.toNat then
        some (min c.max.toNat (c.base.toNat * 2 ^ min (asked calls) 6))
      else none) ∧
    (∃ n n', Counters.callAll? c calls = some n ∧ n.Count b ∧
      n.next? c = some (b.next.1, n') ∧ n'.Count b.next.2) ∧
    (∀ later, .reset ∉ later → ∀ wait wait', b.next.1 = some wait →
      (b.next.2.callAll later).next.1 = some wait' → wait ≤ wait') ∧
    (c.base ≤ c.max → ∀ wait, b.next.1 = some wait → c.base ≤ wait ∧ wait ≤ c.max) := by
  intro b
  have hb : b = afterAttempts c (min (asked calls) c.attempts.toNat) := callAll_fresh c calls
  have hnext : b.next.2 = afterAttempts c (min (asked calls + 1) c.attempts.toNat) := by
    rw [hb]
    exact call_afterAttempts c (asked calls) .next
  refine ⟨by rw [hb]; rfl, ?_, ?_, ?_, ?_⟩
  · rw [hb, wait_afterAttempts]
    simp only [Nat.succ_le_iff, apply_ite (Option.map UInt64.toNat), Option.map_some,
      Option.map_none, c.toNat_delay]
    rfl
  · have hstart : ({} : Counters).Count (afterAttempts c (min 0 c.attempts.toNat)) := by
      rw [Nat.zero_min]
      exact ⟨rfl, rfl⟩
    obtain ⟨n, hn, hcount⟩ := Counters.Count.callAll? c hstart calls
    rw [callAll_afterAttempts] at hcount
    obtain ⟨n', hn', hcount'⟩ := hcount.next? (Nat.min_le_right _ _)
    rw [hb]
    exact ⟨n, n', hn, hcount, hn', hcount'⟩
  · intro later hlater wait wait' hgiven hgiven'
    rw [hb, wait_eq_some_iff] at hgiven
    rw [hnext, callAll_afterAttempts, wait_eq_some_iff] at hgiven'
    have hgrows := askedFrom_le hlater (asked calls + 1)
    rw [← hgiven.2, ← hgiven'.2]
    exact c.delay_mono (by omega)
  · intro hbase wait hgiven
    rw [hb, wait_eq_some_iff] at hgiven
    rw [← hgiven.2]
    exact c.delay_bounds hbase _

/-- The largest numbers, and more attempts than the base can be doubled. -/
def widest : Reconnect :=
  { base := 9223372036854775809, max := 18446744073709551615, attempts := 4294967295 }

/-- The second wait after a reset would be more than a word holds, and is cut at the maximum. -/
theorem waits_double_widest :
    let b := callAll { reconnect := widest } [.next, .next, .reset, .next]
    b.attempts = 1 ∧ b.next.1.map UInt64.toNat = some (2 ^ 64 - 1) := by
  have hwaits := waits_double widest [.next, .next, .reset, .next]
  have hasked : asked [.next, .next, .reset, .next] = 1 := rfl
  have hattempts : widest.attempts.toNat = 4294967295 := rfl
  have hcut : min widest.max.toNat (widest.base.toNat * 2 ^ min 1 6) = 2 ^ 64 - 1 := by decide
  rw [hasked, hattempts, hcut] at hwaits
  exact ⟨hwaits.1, hwaits.2.1⟩

end Backoff

end MarketFeed.Settings
