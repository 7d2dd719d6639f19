import Mathlib
import MarketFeed.Proofs.Admission
import MarketFeed.Proofs.Elementwise

/-!
The buckets of a throttled client. A bucket is told by when it was started and by the weights that
were charged to it since. Whatever is asked of the client and whenever, its window is that of the
bucket which the requests to read so far have made, each of them passed if that stayed below the
limit and else waited for its end. The inner client does not notice the throttle.
-/
namespace MarketFeed.Transport

/-- A bucket by its history: the clock when it was started, and the weights charged since. -/
structure Bucket where
  start : Nat
  weights : List UInt32
deriving DecidableEq

namespace Bucket

def finish (b : Bucket) : Nat := Time.nextMinute b.start

/-- The sum of the weights, as far as 32 bits count. -/
def total (b : Bucket) : Nat := min (b.weights.map UInt32.toNat).sum (UInt32.size - 1)

/-- The bucket to which a request is charged: the one in force, or a new one if there is none or if
it is over. -/
def charge (b? : Option Bucket) (weight : UInt32) (now : Nat) : Bucket :=
  match b? with
  | none => { start := now, weights := [weight] }
  | some b =>
    if now ≤ b.finish then { b with weights := b.weights ++ [weight] }
    else { start := now, weights := [weight] }

/-- The window in which a bucket is in force. -/
def window (limit : UInt32) (b? : Option Bucket) : Window :=
  match b? with
  | none => { limit }
  | some b => { limit, used := .ofNat b.total, finish := some b.finish }

theorem total_lt (b : Bucket) : b.total < UInt32.size := by
  simp only [total, UInt32.size]
  omega

theorem toNat_ofNat_total (b : Bucket) : (UInt32.ofNat b.total).toNat = b.total := by
  rw [UInt32.toNat_ofNat', Nat.mod_eq_of_lt b.total_lt]

theorem total_singleton (start : Nat) (weight : UInt32) :
    (Bucket.mk start [weight]).total = weight.toNat := by
  have hlt := weight.toNat_lt
  simp only [total, List.map_cons, List.map_nil, List.sum_cons, List.sum_nil, UInt32.size]
  omega

theorem ofNat_total_singleton (start : Nat) (weight : UInt32) :
    UInt32.ofNat (Bucket.mk start [weight]).total = weight := by
  rw [total_singleton, UInt32.ofNat_toNat]

theorem weigh_total (b : Bucket) (weight : UInt32) :
    Window.weigh (.ofNat b.total) weight =
      .ofNat ({ b with weights := b.weights ++ [weight] } : Bucket).total := by
  apply UInt32.toNat_inj.mp
  rw [Window.toNat_weigh, toNat_ofNat_total, toNat_ofNat_total]
  simp only [total, List.map_append, List.map_cons, List.map_nil, List.sum_append, List.sum_cons,
    List.sum_nil, UInt32.size]
  omega

/-- Putting a request into the window charges it to the bucket. -/
theorem add_window (limit : UInt32) (b? : Option Bucket) (weight : UInt32) (now : Nat) :
    (window limit b?).add weight now = window limit (charge b? weight now) := by
  cases b? with
  | none =>
    have hrunning : now ≤ (window limit none).boundary now := (Time.lt_nextMinute now).le
    have hfirst : Window.weigh 0 weight = weight := by
      apply UInt32.toNat_inj.mp
      have hlt := weight.toNat_lt
      simp only [Window.toNat_weigh, UInt32.toNat_zero, UInt32.size]
      omega
    rw [Window.add_of_running _ weight hrunning]
    simp only [window, charge, hfirst, ofNat_total_singleton]
    rfl
  | some b =>
    by_cases hrunning : now ≤ b.finish
    · rw [Window.add_of_running (window limit b) weight hrunning, charge, if_pos hrunning]
      simp only [window, weigh_total]
      rfl
    · rw [Window.add_of_over (window limit b) weight (Nat.not_le.mp hrunning), charge,
        if_neg hrunning]
      simp only [window, Window.restart, ofNat_total_singleton]
      rfl

/-- What charging a request does: it passes if the bucket stays below the limit, and else waits for
the end of the bucket and starts one of its own. -/
theorem charge_window (limit : UInt32) (b? : Option Bucket) (weight : UInt32)
    (clock : Time.Clock) :
    (window limit b?).charge weight clock =
      let b := charge b? weight clock.reading
      if b.total < limit.toNat then (window limit b, clock)
      else
        let later := clock.sleep (b.finish - clock.reading)
        (window limit (some { start := later.reading, weights := [weight] }), later) := by
  simp only [Window.charge, add_window]
  generalize charge b? weight clock.reading = b
  by_cases hfits : b.total < limit.toNat
  · have hbelow : ¬ limit ≤ UInt32.ofNat b.total := by
      rw [UInt32.le_iff_toNat_le, toNat_ofNat_total]
      omega
    simp [window, Window.wait?, hbelow, hfits]
  · have hfull : limit ≤ UInt32.ofNat b.total := by
      rw [UInt32.le_iff_toNat_le, toNat_ofNat_total]
      omega
    simp [window, Window.wait?, Window.restart, hfull, hfits, ofNat_total_singleton, finish]

/-- A bucket ends on the first boundary after it was started. -/
theorem isLeast_finish (b : Bucket) :
    IsLeast { t | b.start < t ∧ Time.minute ∣ t } b.finish := by
  constructor
  · exact ⟨Time.lt_nextMinute b.start, Dvd.intro_left _ rfl⟩
  · rintro t ⟨hafter, k, rfl⟩
    have hlt : b.start / Time.minute < k := by
      rw [Nat.div_lt_iff_lt_mul (by decide), Nat.mul_comm]
      exact hafter
    rw [finish, Time.nextMinute, Nat.mul_comm Time.minute k]
    exact Nat.mul_le_mul_right Time.minute hlt

end Bucket

/-- A request to read on its way through the throttle: its weight, the clock when it was charged, and
the clock when it was handed to the inner client. -/
structure Passage where
  weight : UInt32
  charged : Time.Clock
  handed : Time.Clock

namespace Bucket

/-- The bucket in force after a request. -/
def after (limit : UInt32) (b? : Option Bucket) (p : Passage) : Bucket :=
  let b := charge b? p.weight p.charged.reading
  if b.total < limit.toNat then b else { start := p.handed.reading, weights := [p.weight] }

/-- The bucket in force after requests one after the other. -/
def ofPassages (limit : UInt32) (log : List Passage) : Option Bucket :=
  log.foldl (fun b? p => some (after limit b? p)) none

theorem ofPassages_concat (limit : UInt32) (log : List Passage) (p : Passage) :
    ofPassages limit (log ++ [p]) = some (after limit (ofPassages limit log) p) := by
  simp [ofPassages, List.foldl_append]

end Bucket

/-- How a request that is charged to a bucket passes: at once if the bucket stays below the limit,
and else not before the end of the bucket, for which it is put to sleep. -/
structure Passage.Lawful (limit : UInt32) (b : Bucket) (p : Passage) : Prop where
  passes : b.total < limit.toNat → p.handed = p.charged
  sleeps : limit.toNat ≤ b.total → p.handed = p.charged.sleep (b.finish - p.charged.reading)
  late : limit.toNat ≤ b.total → b.finish ≤ p.handed.reading

namespace Bucket

/-- The bucket to which a request is charged was not started later. -/
theorem start_charge_le {b? : Option Bucket} {now : Nat} (h : ∀ b ∈ b?, b.start ≤ now)
    (weight : UInt32) : (charge b? weight now).start ≤ now := by
  cases b? with
  | none => exact Nat.le_refl now
  | some b =>
    rw [charge]
    split
    · exact h b rfl
    · exact Nat.le_refl now

theorem finish_le_sleep (b : Bucket) (clock : Time.Clock) :
    b.finish ≤ (clock.sleep (b.finish - clock.reading)).reading := by
  have hslept := clock.le_reading_sleep (b.finish - clock.reading)
  omega

/-- Charging a request makes its passage lawful, and its bucket the one in force. -/
theorem charge_lawful (limit : UInt32) (b? : Option Bucket) (weight : UInt32)
    (clock : Time.Clock) (hstart : ∀ b ∈ b?, b.start ≤ clock.reading) :
    let r := (window limit b?).charge weight clock
    let p : Passage := { weight, charged := clock, handed := r.2 }
    r.1 = window limit (after limit b? p) ∧ (after limit b? p).start ≤ r.2.reading ∧
      p.Lawful limit (charge b? weight clock.reading) := by
  have hcharge := charge_window limit b? weight clock
  have hbefore := start_charge_le hstart weight
  simp only at hcharge ⊢
  rw [hcharge]
  simp only [after]
  generalize charge b? weight clock.reading = b at hbefore ⊢
  by_cases hfits : b.total < limit.toNat
  · have hnot : ¬ limit.toNat ≤ b.total := Nat.not_le.mpr hfits
    simp only [if_pos hfits]
    exact ⟨trivial, hbefore, fun _ => rfl, fun h => absurd h hnot, fun h => absurd h hnot⟩
  · simp only [if_neg hfits]
    exact ⟨trivial, Nat.le_refl _, fun h => absurd h hfits, fun _ => rfl,
      fun _ => b.finish_le_sleep clock⟩

end Bucket

/-- A call, and how long after the answer to the one before it is made. -/
structure Timed where
  gap : Nat
  call : Call

namespace Client

variable {σ : Type}

inductive Answer where
  | read (result : Except Error Reply)
  | written (result : Except Error Octets)

/-- What a call does to the state of a client, and the answer. -/
def perform (client : Client σ) (s : σ) : Call → σ × Answer
  | .read request => ((client.read s request).1, .read (client.read s request).2)
  | .write address body headers =>
    ((client.write s address body headers).1, .written (client.write s address body headers).2)

/-- Calls one after the other. -/
def performAll (client : Client σ) : σ → List Call → σ × List Answer
  | s, [] => (s, [])
  | s, c :: rest =>
    let (last, answers) := performAll client (client.perform s c).1 rest
    (last, (client.perform s c).2 :: answers)

end Client

namespace Throttled

variable {σ : Type}

/-- A throttled client after a call at its time, and the answer. -/
def issue (inner : Client σ) (s : Throttled σ) (t : Timed) : Throttled σ × Client.Answer :=
  (client inner).perform { s with clock := s.clock.advance t.gap } t.call

def issueAll (inner : Client σ) : Throttled σ → List Timed → Throttled σ × List Client.Answer
  | s, [] => (s, [])
  | s, t :: rest =>
    let (last, answers) := issueAll inner (s.issue inner t).1 rest
    (last, (s.issue inner t).2 :: answers)

/-- The passage of a call, if it is one to read. -/
def passage? (inner : Client σ) (s : Throttled σ) (t : Timed) : Option Passage :=
  match t.call with
  | .read request =>
    some { weight := request.weight, charged := s.clock.advance t.gap,
           handed := (s.issue inner t).1.clock }
  | .write _ _ _ => none

/-- The passages of calls one after the other. -/
def passages (inner : Client σ) : Throttled σ → List Timed → List Passage
  | _, [] => []
  | s, t :: rest => (s.passage? inner t).toList ++ passages inner (s.issue inner t).1 rest

/-- A throttled client whose window is that of the bucket which its requests have made. -/
structure Accounts (limit : UInt32) (log : List Passage) (s : Throttled σ) : Prop where
  window_eq : s.window = Bucket.window limit (Bucket.ofPassages limit log)
  start_le : ∀ b, Bucket.ofPassages limit log = some b → b.start ≤ s.clock.reading
  lawful : ∀ earlier p later, log = earlier ++ p :: later →
    p.Lawful limit (Bucket.charge (Bucket.ofPassages limit earlier) p.weight p.charged.reading)

namespace Accounts

variable {limit : UInt32} {log : List Passage} {s : Throttled σ} {inner : Client σ}

theorem start (inner : σ) (limit : UInt32) (clock : Time.Clock) :
    Accounts limit [] { inner, window := { limit }, clock } where
  window_eq := rfl
  start_le b h := by cases h
  lawful earlier p later h := by simp at h

/-- One more call is accounted for. -/
theorem issue (h : Accounts limit log s) (t : Timed) :
    Accounts limit (log ++ (s.passage? inner t).toList) (s.issue inner t).1 := by
  obtain ⟨gap, call⟩ := t
  have hadvanced : ∀ b ∈ Bucket.ofPassages limit log, b.start ≤ (s.clock.advance gap).reading :=
    fun b hb => Nat.le_trans (h.start_le b hb) (Nat.le_add_right ..)
  cases call with
  | write address body headers =>
    rw [passage?, Option.toList_none, List.append_nil]
    exact ⟨h.window_eq, hadvanced, h.lawful⟩
  | read request =>
    obtain ⟨hwindow, hstart, hlawful⟩ := Bucket.charge_lawful limit (Bucket.ofPassages limit log)
      request.weight (s.clock.advance gap) hadvanced
    rw [← h.window_eq] at hwindow hstart hlawful
    constructor
    · rw [passage?, Option.toList_some, Bucket.ofPassages_concat]
      exact hwindow
    · intro b hb
      rw [passage?, Option.toList_some, Bucket.ofPassages_concat] at hb
      cases hb
      exact hstart
    · intro earlier p later hsplit
      rw [passage?, Option.toList_some] at hsplit
      rcases split_concat hsplit with ⟨-, rfl, rfl⟩ | ⟨later, -, hlog⟩
      · exact hlawful
      · exact h.lawful earlier p later hlog

theorem issueAll (inner : Client σ) (h : Accounts limit log s) (calls : List Timed) :
    Accounts limit (log ++ s.passages inner calls) (s.issueAll inner calls).1 := by
  induction calls generalizing log s with
  | nil =>
    rw [passages, List.append_nil]
    exact h
  | cons t rest ih =>
    rw [passages, ← List.append_assoc]
    exact ih (h.issue t)

end Accounts

/-- The inner client does not notice the throttle: it gets the same calls, and gives the answers. -/
theorem issueAll_inner (inner : Client σ) (s : Throttled σ) (calls : List Timed) :
    (s.issueAll inner calls).1.inner = (inner.performAll s.inner (calls.map Timed.call)).1 ∧
      (s.issueAll inner calls).2 = (inner.performAll s.inner (calls.map Timed.call)).2 := by
  induction calls generalizing s with
  | nil => exact ⟨rfl, rfl⟩
  | cons t rest ih =>
    obtain ⟨gap, call⟩ := t
    have hone : (s.issue inner ⟨gap, call⟩).1.inner = (inner.perform s.inner call).1 ∧
        (s.issue inner ⟨gap, call⟩).2 = (inner.perform s.inner call).2 := by
      cases call <;> exact ⟨rfl, rfl⟩
    obtain ⟨hstate, hanswers⟩ := ih (s.issue inner ⟨gap, call⟩).1
    simp only [Throttled.issueAll, List.map_cons, Client.performAll]
    rw [hone.1] at hstate hanswers
    exact ⟨hstate, by rw [hone.2, hanswers]⟩

/-- Whatever is asked of a throttled client and whenever, its window is that of the bucket which the
requests to read so far have made: it ends on the first boundary after the bucket was started, and
holds the weights charged since. Each request passes at once if the bucket stays below the limit, and
else sleeps until the end of that bucket and starts one of its own. The inner client gets every call
once and gives the answer. Only requests to read wait or change the window. -/
theorem buckets_account (inner : Client σ) (state : σ) (limit : UInt32) (clock : Time.Clock)
    (calls : List Timed) :
    let new : Throttled σ := { inner := state, window := { limit }, clock }
    let s := (new.issueAll inner calls).1
    let log := new.passages inner calls
    s.window = Bucket.window limit (Bucket.ofPassages limit log) ∧
      (∀ b ∈ Bucket.ofPassages limit log,
        IsLeast { t | b.start < t ∧ Time.minute ∣ t } b.finish ∧
          (s.clock.reading + Time.minute ≤ Time.latest → b.finish ≤ Time.latest)) ∧
      (∀ earlier p later, log = earlier ++ p :: later →
        let b := Bucket.charge (Bucket.ofPassages limit earlier) p.weight p.charged.reading
        p.Lawful limit b ∧ (p.charged.reading < b.finish →
          (p.handed.reading = p.charged.reading ↔ b.total < limit.toNat))) ∧
      s.inner = (inner.performAll state (calls.map Timed.call)).1 ∧
      (new.issueAll inner calls).2 = (inner.performAll state (calls.map Timed.call)).2 ∧
      ∀ address body headers,
        let written := ((client inner).write s address body headers).1
        written.window = s.window ∧ written.clock = s.clock := by
  intro new s log
  have haccounts : Accounts limit log s := by
    have hall := (Accounts.start state limit clock).issueAll inner calls
    rwa [List.nil_append] at hall
  obtain ⟨hstate, hanswers⟩ := new.issueAll_inner inner calls
  refine ⟨haccounts.window_eq, fun b hb => ⟨b.isLeast_finish, fun hearly => ?_⟩,
    fun earlier p later hsplit => ?_, hstate, hanswers, fun address body headers => ⟨rfl, rfl⟩⟩
  · have hstart := haccounts.start_le b hb
    have hfinish := Time.nextMinute_le b.start
    rw [Bucket.finish]
    omega
  · have hlawful := haccounts.lawful earlier p later hsplit
    refine ⟨hlawful, fun hrunning => ⟨fun hsame => ?_, fun hfits => ?_⟩⟩
    · by_contra hfull
      have hlate := hlawful.late (Nat.not_lt.mp hfull)
      omega
    · rw [hlawful.passes hfits]

/-- A service that allows 10 in a minute, at the start of one. A sleep takes 7 ns too long. -/
def lagging : Throttled Replay where
  inner := { id := "stub.http.0", isOpen := true }
  window := { limit := 10 }
  clock := { reading := 28333334 * Time.minute, lags := [7] }

/-- Three requests of weight 4 with something written between them. -/
def thrice : List Timed :=
  [⟨Time.second, .read { address := "a", weight := 4 }⟩,
    ⟨Time.second, .read { address := "b", weight := 4 }⟩, ⟨Time.second, .write "c" [] []⟩,
    ⟨0, .read { address := "d", weight := 4 }⟩]

/-- The third request finds its bucket full, sleeps for the rest of the minute, and begins the bucket
of the next one. -/
theorem buckets_account_third :
    let s := (lagging.issueAll Replay.client thrice).1
    s.clock.reading + Time.minute ≤ Time.latest ∧
      s.clock.reading = 28333335 * Time.minute + 7 ∧
      s.window = { limit := 10, used := 4, finish := some (28333336 * Time.minute) } := by
  obtain ⟨hwindow, -⟩ :=
    buckets_account Replay.client lagging.inner 10 lagging.clock thrice
  have hclock : (lagging.issueAll Replay.client thrice).1.clock.reading =
      28333335 * Time.minute + 7 := by decide
  refine ⟨?_, hclock, hwindow.trans ?_⟩
  · rw [hclock]
    decide
  · decide

end Throttled

end MarketFeed.Transport
