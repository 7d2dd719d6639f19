import Mathlib
import MarketFeed.Transport.Client
import MarketFeed.Transport.Throttle

/-!
The weight that a throttled client lets through in a minute. `Charges` lists what a charge can do:
the request joins the bucket in force, opens a new one because that one is over, or waits for the end
of its bucket and opens a new one then. Each bucket belongs to one minute and holds no more than the
limit, and so does the minute, but for requests that join a bucket in the very instant in which it
ends: that instant belongs to the next minute already.
-/
namespace MarketFeed.Transport

namespace Window

/-- The end of the bucket that a request finds or, if there is none, begins. -/
def boundary (w : Window) (now : Nat) : Nat := w.finish.getD (Time.nextMinute now)

/-- What a charge does to the bucket and to the clock. -/
inductive Charges (w : Window) (weight : UInt32) (clock : Time.Clock) :
    Window → Time.Clock → Prop
  | joins (hrunning : clock.reading ≤ w.boundary clock.reading)
      (hfits : weigh w.used weight < w.limit) :
      Charges w weight clock
        { w with used := weigh w.used weight, finish := some (w.boundary clock.reading) } clock
  | opens (hover : w.boundary clock.reading < clock.reading) (hfits : weight < w.limit) :
      Charges w weight clock (w.restart weight clock.reading) clock
  | waits (finish : Nat) (later : Time.Clock)
      (hfull : w.limit ≤ (w.add weight clock.reading).used)
      (hfinish : (w.add weight clock.reading).finish = some finish)
      (hlater : later = clock.sleep (finish - clock.reading)) :
      Charges w weight clock (w.restart weight later.reading) later

variable (w : Window) (weight : UInt32)

theorem add_of_running {now : Nat} (h : now ≤ w.boundary now) :
    w.add weight now =
      { w with used := weigh w.used weight, finish := some (w.boundary now) } := by
  have hrunning : ¬ w.finish.getD (Time.nextMinute now) < now := Nat.not_lt.mpr h
  simp only [add, boundary, if_neg hrunning]

theorem add_of_over {now : Nat} (h : w.boundary now < now) :
    w.add weight now = w.restart weight now := by
  have hover : w.finish.getD (Time.nextMinute now) < now := h
  simp only [add, if_pos hover]

theorem limit_add (now : Nat) : (w.add weight now).limit = w.limit := by
  by_cases hover : w.boundary now < now
  · rw [w.add_of_over weight hover]
    rfl
  · rw [w.add_of_running weight (Nat.not_lt.mp hover)]

/-- A request waits beyond the bucket that it found, and never for a time that is past. -/
theorem finish_add (now : Nat) :
    ∃ finish, (w.add weight now).finish = some finish ∧ w.boundary now ≤ finish ∧ now ≤ finish := by
  by_cases hover : w.boundary now < now
  · rw [w.add_of_over weight hover]
    have hlt := Time.lt_nextMinute now
    exact ⟨Time.nextMinute now, rfl, by omega, by omega⟩
  · rw [w.add_of_running weight (Nat.not_lt.mp hover)]
    exact ⟨w.boundary now, rfl, by omega, by omega⟩

theorem charges (clock : Time.Clock) :
    Charges w weight clock (w.charge weight clock).1 (w.charge weight clock).2 := by
  have hlimit := w.limit_add weight clock.reading
  by_cases hfull : w.limit ≤ (w.add weight clock.reading).used
  · obtain ⟨finish, hfinish, -, -⟩ := w.finish_add weight clock.reading
    have hcharge : w.charge weight clock =
        (w.restart weight (clock.sleep (finish - clock.reading)).reading,
          clock.sleep (finish - clock.reading)) := by
      simp [charge, wait?, hlimit, hfull, hfinish, restart]
    rw [hcharge]
    exact .waits finish _ hfull hfinish rfl
  · have hcharge : w.charge weight clock = (w.add weight clock.reading, clock) := by
      simp [charge, wait?, hlimit, hfull]
    rw [hcharge]
    have hfits := UInt32.not_le.mp hfull
    by_cases hover : w.boundary clock.reading < clock.reading
    · rw [w.add_of_over weight hover] at hfits ⊢
      exact .opens hover hfits
    · rw [w.add_of_running weight (Nat.not_lt.mp hover)] at hfits ⊢
      exact .joins (Nat.not_lt.mp hover) hfits

end Window

/-- A request to read, and how long after the reply to the one before it is issued. -/
structure Issue where
  gap : Nat
  request : Request

/-- A request that was handed to the inner client: when, with what weight, and the end of the bucket
that it was charged to. -/
structure Handed where
  time : Nat
  weight : UInt32
  finish : Option Nat

namespace Handed

/-- Whether a request was handed on in the very instant in which its bucket ended. -/
def overdue (h : Handed) : Bool := h.finish = some h.time

end Handed

/-- The requests that were handed on before the end of their bucket. -/
def onTime (handed : List Handed) : List Handed := handed.filter fun h => !h.overdue

/-- Whether an instant lies in the k-th minute. -/
abbrev InMinute (k time : Nat) : Prop := k * Time.minute ≤ time ∧ time < (k + 1) * Time.minute

/-- The weight of the requests that were handed on in the k-th minute. -/
def weightIn (k : Nat) (handed : List Handed) : Nat :=
  ((handed.filter fun h => InMinute k h.time).map fun h => h.weight.toNat).sum

theorem inMinute_unique {k m time : Nat} (hk : InMinute k time) (hm : InMinute m time) : k = m := by
  simp only [InMinute, Time.minute, Time.second] at hk hm
  omega

/-- A boundary that is past lies at the start of the present minute or before. -/
theorem le_start_of_inMinute {j m time : Nat} (hin : InMinute j time)
    (hpast : m * Time.minute ≤ time) : m * Time.minute ≤ j * Time.minute := by
  have hlt : m * Time.minute < (j + 1) * Time.minute := Nat.lt_of_le_of_lt hpast hin.2
  have hle : m ≤ j := Nat.le_of_lt_succ (Nat.lt_of_mul_lt_mul_right hlt)
  exact Nat.mul_le_mul_right Time.minute hle

/-- The first boundary after an instant ends the minute of the instant. -/
theorem inMinute_of_nextMinute (time : Nat) :
    ∃ m, Time.nextMinute time = (m + 1) * Time.minute ∧ InMinute m time := by
  have hlt := Time.lt_nextMinute time
  refine ⟨time / Time.minute, rfl, Nat.div_mul_le_self time Time.minute, hlt⟩

theorem onTime_concat_of_overdue (handed : List Handed) {x : Handed} (hdue : x.overdue = true) :
    onTime (handed ++ [x]) = onTime handed := by
  simp [onTime, hdue]

theorem onTime_concat (handed : List Handed) {x : Handed} (hdue : x.overdue = false) :
    onTime (handed ++ [x]) = onTime handed ++ [x] := by
  simp [onTime, hdue]

theorem weightIn_append (k : Nat) (handed more : List Handed) :
    weightIn k (handed ++ more) = weightIn k handed + weightIn k more := by
  simp [weightIn]

theorem weightIn_concat (k : Nat) (handed : List Handed) (x : Handed) :
    weightIn k (handed ++ [x]) =
      weightIn k handed + if InMinute k x.time then x.weight.toNat else 0 := by
  rw [weightIn_append]
  by_cases hin : InMinute k x.time
  · simp [weightIn, hin]
  · simp [weightIn, hin]

/-- A request in a minute that has room for it leaves all minutes within the limit. -/
theorem weightIn_concat_le (k : Nat) {limit m : Nat} {handed : List Handed} {x : Handed}
    (hwithin : ∀ k, weightIn k handed ≤ limit) (hin : InMinute m x.time)
    (hroom : weightIn m handed + x.weight.toNat ≤ limit) :
    weightIn k (handed ++ [x]) ≤ limit := by
  rw [weightIn_concat]
  by_cases hk : InMinute k x.time
  · rw [inMinute_unique hk hin, if_pos hin]
    exact hroom
  · rw [if_neg hk]
    exact hwithin k

theorem weightIn_eq_zero {k : Nat} {handed : List Handed}
    (h : ∀ x ∈ handed, ¬ InMinute k x.time) : weightIn k handed = 0 := by
  have hnone : handed.filter (fun x => InMinute k x.time) = [] := by
    rw [List.filter_eq_nil_iff]
    intro x hx
    simpa using h x hx
  rw [weightIn, hnone]
  rfl

/-- What is handed on is on time or overdue. -/
theorem weightIn_onTime (k : Nat) (handed : List Handed) :
    weightIn k handed = weightIn k (onTime handed) + weightIn k (handed.filter Handed.overdue) := by
  induction handed with
  | nil => rfl
  | cons h rest ih =>
    have hcons : ∀ l, weightIn k (h :: l) = weightIn k [h] + weightIn k l := fun l =>
      weightIn_append k [h] l
    cases hdue : h.overdue with
    | true =>
      have hrest : onTime (h :: rest) = onTime rest := by simp [onTime, hdue]
      rw [List.filter_cons_of_pos hdue, hcons rest, hcons (rest.filter _), hrest, ih]
      omega
    | false =>
      have hrest : onTime (h :: rest) = h :: onTime rest := by simp [onTime, hdue]
      rw [List.filter_cons_of_neg (by simp [hdue]), hcons rest, hrest, hcons (onTime rest), ih]
      omega

/-- The weights of all minutes so far are within the limit, and the bucket in force, or the one that
the next request begins, belongs to a minute of which it holds the weight. A request that is not
counted came on a boundary. No bucket ends more than a minute after a request that it was charged
with. -/
structure Kept (limit : UInt32) (past : List Handed) (w : Window) (clock : Time.Clock) : Prop where
  limit_eq : w.limit = limit
  minutes : ∀ k, weightIn k (onTime past) ≤ limit.toNat
  boundaries : ∀ h ∈ past, h.overdue = true → ∃ j, h.time = j * Time.minute
  ends : ∀ h ∈ past, ∃ finish, h.finish = some finish ∧ finish ≤ h.time + Time.minute
  bucket : ∀ now, clock.reading ≤ now → ∃ m, w.boundary now = (m + 1) * Time.minute ∧
    m * Time.minute ≤ now ∧ weightIn m (onTime past) ≤ w.used.toNat ∧
    ∀ h ∈ onTime past, h.time < w.boundary now

namespace Kept

variable {limit weight : UInt32} {past : List Handed} {w w' : Window} {clock later : Time.Clock}

theorem start (limit : UInt32) (clock : Time.Clock) : Kept limit [] { limit } clock where
  limit_eq := rfl
  minutes k := Nat.zero_le _
  boundaries := by simp
  ends := by simp
  bucket now hnow := by
    obtain ⟨m, hfinish, hfirst, -⟩ := inMinute_of_nextMinute now
    exact ⟨m, hfinish, hfirst, Nat.zero_le _, by simp [onTime]⟩

theorem advance (h : Kept limit past w clock) (hlater : clock.reading ≤ later.reading) :
    Kept limit past w later where
  limit_eq := h.limit_eq
  minutes := h.minutes
  boundaries := h.boundaries
  ends := h.ends
  bucket now hnow := h.bucket now (Nat.le_trans hlater hnow)

theorem ends_concat (h : Kept limit past w clock) {finish : Nat}
    (hfinish : finish ≤ later.reading + Time.minute) :
    ∀ x ∈ past ++ [⟨later.reading, weight, some finish⟩],
      ∃ finish, x.finish = some finish ∧ finish ≤ x.time + Time.minute := by
  intro x hx
  rcases List.mem_append.mp hx with hx | hx
  · exact h.ends x hx
  · rw [List.mem_singleton.mp hx]
    exact ⟨finish, rfl, hfinish⟩

/-- A request in the minute of its bucket is counted there. -/
theorem count {m finish : Nat} (h : Kept limit past w clock) (hlimit : w'.limit = limit)
    (hfinish : w'.finish = some finish) (hboundary : finish = (m + 1) * Time.minute)
    (hin : InMinute m later.reading)
    (hroom : weightIn m (onTime past) + weight.toNat ≤ limit.toNat)
    (hheld : weightIn m (onTime past) + weight.toNat ≤ w'.used.toNat)
    (hpast : ∀ x ∈ onTime past, x.time < finish) :
    Kept limit (past ++ [⟨later.reading, weight, some finish⟩]) w' later := by
  have hlt : later.reading < finish := hboundary ▸ hin.2
  have hdue : (⟨later.reading, weight, some finish⟩ : Handed).overdue = false := by
    simp only [Handed.overdue, Option.some.injEq, decide_eq_false_iff_not]
    omega
  constructor
  · exact hlimit
  · intro k
    rw [onTime_concat past hdue]
    exact weightIn_concat_le k h.minutes hin hroom
  · intro x hx hoverdue
    rcases List.mem_append.mp hx with hx | hx
    · exact h.boundaries x hx hoverdue
    · rw [List.mem_singleton.mp hx, hdue] at hoverdue
      cases hoverdue
  · have hnear : finish ≤ later.reading + Time.minute := by
      rw [hboundary, Nat.succ_mul]
      exact Nat.add_le_add_right hin.1 _
    exact h.ends_concat hnear
  · intro now hnow
    have hnext : w'.boundary now = finish := by simp [Window.boundary, hfinish]
    rw [hnext, onTime_concat past hdue]
    refine ⟨m, hboundary, Nat.le_trans hin.1 hnow, ?_, ?_⟩
    · rw [weightIn_concat, if_pos hin]
      exact hheld
    · intro x hx
      rcases List.mem_append.mp hx with hx | hx
      · exact hpast x hx
      · rw [List.mem_singleton.mp hx]
        exact hlt

/-- A new bucket after the end of the one before begins a minute of its own. -/
theorem restart (h : Kept limit past w clock) (hweight : weight ≤ limit) {m : Nat}
    (hpast : ∀ x ∈ onTime past, x.time < (m + 1) * Time.minute)
    (hover : (m + 1) * Time.minute ≤ later.reading) :
    Kept limit (past ++ [⟨later.reading, weight, some (Time.nextMinute later.reading)⟩])
      (w.restart weight later.reading) later := by
  obtain ⟨j, hboundary, hin⟩ := inMinute_of_nextMinute later.reading
  have hle : weight.toNat ≤ limit.toNat := UInt32.le_iff_toNat_le.mp hweight
  -- The minute of the new bucket comes after that of the old one, so nothing is in it yet.
  have hbefore : ∀ x ∈ onTime past, x.time < j * Time.minute := by
    intro x hx
    exact Nat.lt_of_lt_of_le (hpast x hx) (le_start_of_inMinute hin hover)
  have hempty : weightIn j (onTime past) = 0 :=
    weightIn_eq_zero fun x hx hk => Nat.not_le.mpr (hbefore x hx) hk.1
  refine h.count h.limit_eq rfl hboundary hin ?_ ?_ ?_
  · rw [hempty, Nat.zero_add]
    exact hle
  · rw [hempty, Nat.zero_add]
    exact Nat.le_refl _
  · intro x hx
    exact Nat.lt_trans (hbefore x hx) (Nat.lt_of_le_of_lt hin.1 (Time.lt_nextMinute _))

/-- A bucket that is not full has room for the exact sum of its weights. -/
theorem toNat_weigh_of_fits (hfits : Window.weigh w.used weight < w.limit) :
    (Window.weigh w.used weight).toNat = w.used.toNat + weight.toNat := by
  have hlt : (Window.weigh w.used weight).toNat < w.limit.toNat := UInt32.lt_iff_toNat_lt.mp hfits
  have hbound := w.limit.toNat_lt
  rw [Window.toNat_weigh, UInt32.size] at hlt ⊢
  omega

/-- A request that joins a bucket in the instant in which it ends is not counted. -/
theorem joins_overdue (h : Kept limit past w clock) (hdue : w.boundary clock.reading = clock.reading)
    (hused : w.used.toNat ≤ w'.used.toNat) (hlimit : w'.limit = limit)
    (hfinish : w'.finish = some clock.reading) :
    Kept limit (past ++ [⟨clock.reading, weight, some clock.reading⟩]) w' clock := by
  obtain ⟨m, hboundary, hfirst, hheld, hpast⟩ := h.bucket clock.reading (Nat.le_refl _)
  rw [hdue] at hboundary hpast
  have honTime : onTime (past ++ [⟨clock.reading, weight, some clock.reading⟩]) = onTime past :=
    onTime_concat_of_overdue past (by simp [Handed.overdue])
  constructor
  · exact hlimit
  · intro k
    rw [honTime]
    exact h.minutes k
  · intro x hx hoverdue
    rcases List.mem_append.mp hx with hx | hx
    · exact h.boundaries x hx hoverdue
    · rw [List.mem_singleton.mp hx]
      exact ⟨m + 1, hboundary⟩
  · exact h.ends_concat (Nat.le_add_right _ _)
  · intro now hnow
    have hnext : w'.boundary now = clock.reading := by simp [Window.boundary, hfinish]
    rw [hnext, honTime]
    exact ⟨m, hboundary, Nat.le_trans hfirst hnow, Nat.le_trans hheld hused, hpast⟩

/-- A request that joins a bucket before its end adds its weight to the minute of the bucket. -/
theorem joins (h : Kept limit past w clock) (hrunning : clock.reading ≤ w.boundary clock.reading)
    (hfits : Window.weigh w.used weight < w.limit) :
    Kept limit (past ++ [⟨clock.reading, weight, some (w.boundary clock.reading)⟩])
      { w with used := Window.weigh w.used weight, finish := some (w.boundary clock.reading) }
      clock := by
  obtain ⟨m, hboundary, hfirst, hheld, hpast⟩ := h.bucket clock.reading (Nat.le_refl _)
  have hused := toNat_weigh_of_fits hfits
  have hroom : w.used.toNat + weight.toNat < limit.toNat := by
    rw [← hused, ← h.limit_eq]
    exact UInt32.lt_iff_toNat_lt.mp hfits
  by_cases hdue : w.boundary clock.reading = clock.reading
  · rw [hdue]
    exact h.joins_overdue hdue (hused ▸ Nat.le_add_right ..) h.limit_eq rfl
  · have hin : InMinute m clock.reading := by
      refine ⟨hfirst, ?_⟩
      rw [← hboundary]
      omega
    refine h.count h.limit_eq rfl hboundary hin ?_ ?_ hpast
    · exact Nat.le_trans (Nat.add_le_add_right hheld _) (Nat.le_of_lt hroom)
    · rw [hused]
      exact Nat.add_le_add_right hheld _

theorem step (h : Kept limit past w clock) (hweight : weight ≤ limit)
    (hcharge : w.Charges weight clock w' later) :
    Kept limit (past ++ [⟨later.reading, weight, w'.finish⟩]) w' later := by
  obtain ⟨m, hboundary, -, -, hpast⟩ := h.bucket clock.reading (Nat.le_refl _)
  rw [hboundary] at hpast
  cases hcharge with
  | joins hrunning hfits => exact h.joins hrunning hfits
  | opens hover hfits =>
    rw [hboundary] at hover
    exact h.restart hweight hpast (Nat.le_of_lt hover)
  | waits finish later hfull hfinish hlater =>
    obtain ⟨finish', hfinish', hle, hnow⟩ := w.finish_add weight clock.reading
    cases hfinish.symm.trans hfinish'
    have hslept := clock.le_reading_sleep (finish - clock.reading)
    rw [← hlater] at hslept
    rw [hboundary] at hle
    exact h.restart hweight hpast (by omega)

end Kept

namespace Throttled

variable {σ : Type}

/-- The requests that reach the inner client, issued one after another. -/
def handed (inner : Client σ) : Throttled σ → List Issue → List Handed
  | _, [] => []
  | s, i :: rest =>
    let s := { s with clock := s.clock.advance i.gap }
    let after := (s.read inner i.request).1
    { time := after.clock.reading, weight := i.request.weight, finish := after.window.finish } ::
      handed inner after rest

theorem kept_handed (inner : Client σ) {limit : UInt32} (issues : List Issue)
    (hweights : ∀ i ∈ issues, i.request.weight ≤ limit) (past : List Handed) (s : Throttled σ)
    (h : Kept limit past s.window s.clock) :
    ∃ w clock, Kept limit (past ++ handed inner s issues) w clock := by
  induction issues generalizing past s with
  | nil => exact ⟨s.window, s.clock, by simpa [handed] using h⟩
  | cons i rest ih =>
    have hissued : Kept limit past s.window (s.clock.advance i.gap) :=
      h.advance (Nat.le_add_right _ _)
    have hread := hissued.step (hweights i (List.mem_cons_self ..))
      (s.window.charges i.request.weight (s.clock.advance i.gap))
    obtain ⟨w, clock, hrest⟩ := ih (fun j hj => hweights j (List.mem_cons_of_mem i hj)) _
      (({ s with clock := s.clock.advance i.gap } : Throttled σ).read inner i.request).1 hread
    refine ⟨w, clock, ?_⟩
    rw [List.append_assoc] at hrest
    exact hrest

end Throttled

/-- Requests of no more than the limit each, issued one after another while the clock does not go
back: the weight of those that reach the inner client in a minute is within the limit, unless some of
them were handed on in the very instant in which their bucket ended, which is the first of a minute.
The weight of these is all that can come on top. The bucket of a request that is handed on more than a
minute before the last instant of the clock ends on an instant that the clock can show. -/
theorem minute_weight_le {σ : Type} (inner : Client σ) (state : σ) (limit : UInt32)
    (clock : Time.Clock) (issues : List Issue)
    (hweights : ∀ i ∈ issues, i.request.weight ≤ limit) (k : Nat) :
    let handed := Throttled.handed inner { inner := state, window := { limit }, clock } issues
    ((∀ h ∈ handed, InMinute k h.time → h.overdue = false) →
      weightIn k handed ≤ limit.toNat) ∧
    weightIn k handed ≤ limit.toNat + weightIn k (handed.filter Handed.overdue) ∧
    (∀ h ∈ handed, h.overdue = true → ∃ j, h.time = j * Time.minute) ∧
    ∀ h ∈ handed, ∃ finish, h.finish = some finish ∧
      (h.time + Time.minute ≤ Time.latest → finish ≤ Time.latest) := by
  intro handed
  obtain ⟨w, later, hkept⟩ : ∃ w later, Kept limit handed w later :=
    Throttled.kept_handed inner issues hweights []
      { inner := state, window := { limit }, clock } (Kept.start limit clock)
  have hminute := hkept.minutes k
  have hsum := weightIn_onTime k handed
  refine ⟨fun honTime => ?_, by omega, hkept.boundaries, fun h hmem => ?_⟩
  · have hnone : weightIn k (handed.filter Handed.overdue) = 0 := by
      refine weightIn_eq_zero fun h hmem hin => ?_
      obtain ⟨hmem, hoverdue⟩ := List.mem_filter.mp hmem
      rw [honTime h hmem hin] at hoverdue
      cases hoverdue
    omega
  · obtain ⟨finish, hfinish, hnear⟩ := hkept.ends h hmem
    exact ⟨finish, hfinish, fun hearly => hnear.trans hearly⟩

/-- A service that allows 10 in a minute, and a clock one second before a boundary. -/
def almostMinute : Throttled Replay where
  inner := { id := "stub.http.0", isOpen := true }
  window := { limit := 10 }
  clock := { reading := 28333335 * Time.minute - Time.second }

/-- One request before a boundary, one on it, and one a millisecond after it. -/
def straddling : List Issue :=
  [⟨0, { address := "a" }⟩, ⟨Time.second, { address := "a", weight := 8 }⟩,
    ⟨1000000, { address := "a", weight := 8 }⟩]

/-- The request on the boundary is charged to the minute before, so that its own minute gets 16. -/
theorem boundary_burst :
    (∀ i ∈ straddling, i.request.weight ≤ 10) ∧
      weightIn 28333335 (Throttled.handed Replay.client almostMinute straddling) = 16 := by
  constructor
  · decide
  · cbv

/-- Without the request on the boundary the minute after it gets 8. -/
theorem minute_weight_le_after_boundary :
    let handed := Throttled.handed Replay.client almostMinute
      [⟨0, { address := "a" }⟩, ⟨Time.second + 1000000, { address := "a", weight := 8 }⟩]
    (∀ h ∈ handed, h.overdue = false) ∧ weightIn 28333335 handed ≤ 10 := by
  intro handed
  have honTime : ∀ h ∈ handed, h.overdue = false := by decide
  obtain ⟨hwithin, -⟩ := minute_weight_le Replay.client almostMinute.inner 10
    almostMinute.clock
    [⟨0, { address := "a" }⟩, ⟨Time.second + 1000000, { address := "a", weight := 8 }⟩]
    (by decide) 28333335
  exact ⟨honTime, hwithin fun h hmem _ => honTime h hmem⟩

end MarketFeed.Transport
