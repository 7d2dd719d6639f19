import Mathlib
import MarketFeed.Time.Clock
import MarketFeed.Transport.Poller
import MarketFeed.Transport.Client

/-!
The schedule of a polling. The requests are numbered from zero. Which address each of them reads,
how long the pauses before it are and what comes of it is told by its number alone; a polling works
this out one place and one pause at a time. It stops with the first failure, asks the client for
nothing but to read, and only while that is open. If the pause after a round is longer than any
duration, it breaks off with the last body of the first round.
-/
namespace MarketFeed.Transport

variable {σ : Type}

/-- What is asked of a client. -/
inductive Demand where
  | connect
  | close
  | call (c : Call)
deriving DecidableEq

/-- A client with a log of what is asked of it. -/
def Client.tapped (client : Client σ) : Client (σ × List Demand) where
  identity s := client.identity s.1
  isOpen s := client.isOpen s.1
  connect s := (((client.connect s.1).1, s.2 ++ [.connect]), (client.connect s.1).2)
  close s := (client.close s.1, s.2 ++ [.close])
  read s request :=
    (((client.read s.1 request).1, s.2 ++ [.call (.read request)]), (client.read s.1 request).2)
  write s address body headers :=
    (((client.write s.1 address body headers).1, s.2 ++ [.call (.write address body headers)]),
      (client.write s.1 address body headers).2)

/-- The items of a list up to the first failure, which is the last. -/
def upToFailure {α β ε : Type} : List (α × Except ε β) → List (α × Except ε β)
  | [] => []
  | (a, .ok b) :: rest => (a, .ok b) :: upToFailure rest
  | (a, .error e) :: _ => [(a, .error e)]

namespace Poller

variable (p : Poller)

/-- The place from which a request is sent. -/
def placeOf (k : Nat) : Fin p.addresses.length :=
  ⟨k % p.addresses.length, Nat.mod_lt k p.length_pos⟩

/-- The request with some number. -/
def requestOf (headers : Headers) (k : Nat) : Request :=
  { address := p.addresses.get (p.placeOf k), headers }

/-- The pauses before a request, in all. -/
def pausesBefore (k : Nat) : Nat :=
  k * p.pause.val + k / p.addresses.length * p.roundPause.val

/-- The time that has passed when a request is sent. Sleeps may take longer than asked. -/
def timeOf (clock : Time.Clock) (k : Nat) : Nat :=
  clock.elapsed + p.pausesBefore k + (clock.lags.take k).sum

/-- The state of a client after so many requests. -/
def after (client : Client σ) (headers : Headers) (channel : σ) : Nat → σ
  | 0 => channel
  | k + 1 => (client.read (after client headers channel k) (p.requestOf headers k)).1

/-- What comes of a request: the text of a body or a failure, or that the connection is closed and
nothing is sent. -/
def outcome (client : Client σ) (headers : Headers) (channel : σ) (k : Nat) :
    Except Error String :=
  let s := p.after client headers channel k
  if client.isOpen s then
    (client.read s (p.requestOf headers k)).2.map Reply.text
  else .error (client.closedError s)

/-- Whether the pause after a round is longer than any duration. -/
def IsTooLong : Prop := Time.longest < p.pause.val + p.roundPause.val

/-- The place after that of a request is that of the next one. The pause between them is the short
one, unless a round is complete. -/
theorem advance_placeOf {k : Nat} (h : p.IsTooLong → k + 1 < p.addresses.length) :
    ∃ pause, p.advance (p.placeOf k) = some (p.placeOf (k + 1), pause) ∧
      p.pausesBefore (k + 1) = p.pausesBefore k + pause.val := by
  have hplace : (p.placeOf k).val = k % p.addresses.length := rfl
  have hpos := p.length_pos
  by_cases hwithin : k % p.addresses.length + 1 < p.addresses.length
  · have hone : 1 % p.addresses.length = 1 := Nat.mod_eq_of_lt (by omega)
    have hsum : k % p.addresses.length + 1 % p.addresses.length < p.addresses.length := by
      rwa [hone]
    have hmod : (k + 1) % p.addresses.length = k % p.addresses.length + 1 := by
      rw [Nat.add_mod_of_add_mod_lt hsum, hone]
    have hdiv : (k + 1) / p.addresses.length = k / p.addresses.length := by
      have hnone : 1 / p.addresses.length = 0 := Nat.div_eq_of_lt (by omega)
      rw [Nat.add_div_eq_of_add_mod_lt hsum, hnone, Nat.add_zero]
    have hnext : p.placeOf (k + 1) = ⟨k % p.addresses.length + 1, hwithin⟩ := Fin.ext hmod
    refine ⟨p.pause, ?_, ?_⟩
    · simp only [advance, hplace, dif_pos hwithin, hnext]
    · rw [pausesBefore, pausesBefore, hdiv]
      ring
  · have hlt := Nat.mod_lt k hpos
    have hround : p.addresses.length ∣ k + 1 := by
      refine ⟨k / p.addresses.length + 1, ?_⟩
      have hdivision := Nat.div_add_mod k p.addresses.length
      rw [Nat.mul_add]
      omega
    have hmod : (k + 1) % p.addresses.length = 0 := Nat.mod_eq_zero_of_dvd hround
    have hdiv : (k + 1) / p.addresses.length = k / p.addresses.length + 1 :=
      Nat.succ_div_of_dvd hround
    have hnext : p.placeOf (k + 1) = ⟨0, hpos⟩ := Fin.ext hmod
    have hfits : p.pause.val + p.roundPause.val ≤ Time.longest := by
      refine Nat.not_lt.mp fun hlong => ?_
      have hearly := Nat.le_of_dvd (Nat.succ_pos k) hround
      have hlate := h hlong
      omega
    refine ⟨⟨p.pause.val + p.roundPause.val, Nat.lt_succ_of_le hfits⟩, ?_, ?_⟩
    · simp only [advance, hplace, dif_neg hwithin, dif_pos hfits, hnext]
    · rw [pausesBefore, pausesBefore, hdiv]
      ring

/-- There is no pause after the first round if it would be too long. -/
theorem advance_of_isTooLong {k : Nat} (hlong : p.IsTooLong) (hround : k + 1 = p.addresses.length) :
    p.advance (p.placeOf k) = none := by
  have hplace : (p.placeOf k).val = k := Nat.mod_eq_of_lt (by omega)
  have hover : ¬ (p.placeOf k).val + 1 < p.addresses.length := by omega
  have hlong' : ¬ p.pause.val + p.roundPause.val ≤ Time.longest := Nat.not_le.mpr hlong
  simp only [advance, dif_neg hover, dif_neg hlong']

end Poller

namespace Polling

variable {p : Poller}

/-- The clock when the pause that is due is over. -/
def ready (s : Polling p σ) : Time.Clock :=
  (s.due.map fun pause => s.clock.sleep pause.val).getD s.clock

/-- A polling that stands before a request. -/
structure Before (client : Client σ) (headers : Headers) (channel : σ) (clock : Time.Clock)
    (k : Nat) (s : Polling p σ) : Prop where
  channel_eq : s.channel = p.after client headers channel k
  headers_eq : s.headers = headers
  place_eq : s.place = p.placeOf k
  elapsed_eq : s.ready.elapsed = p.timeOf clock k
  lags_eq : s.ready.lags = clock.lags.drop k
  goes : s.finished = false
  whole : s.broken = false

theorem sum_take_succ (l : List Nat) (k : Nat) :
    (l.take (k + 1)).sum = (l.take k).sum + (l.drop k).headD 0 := by
  induction l generalizing k with
  | nil => simp
  | cons x rest ih =>
    cases k with
    | zero => simp
    | succ k =>
      simp only [List.take_succ_cons, List.sum_cons, List.drop_succ_cons, ih k]
      omega

namespace Before

variable {client : Client σ} {headers : Headers} {channel : σ} {clock : Time.Clock} {k : Nat}
  {s : Polling p σ}

theorem start (client : Client σ) (headers : Headers) (channel : σ) (clock : Time.Clock) :
    Before client headers channel clock 0 ({ channel, clock, headers } : Polling p σ) where
  channel_eq := rfl
  headers_eq := rfl
  place_eq := Fin.ext (Nat.zero_mod _).symm
  elapsed_eq := by simp [ready, Poller.timeOf, Poller.pausesBefore]
  lags_eq := by simp [ready]
  goes := rfl
  whole := rfl

/-- The time after the pause before the next request. -/
theorem elapsed_sleep (h : Before client headers channel clock k s) {pause : Nat}
    (hpause : p.pausesBefore (k + 1) = p.pausesBefore k + pause) :
    (s.ready.sleep pause).elapsed = p.timeOf clock (k + 1) := by
  rw [Time.Clock.elapsed_sleep, h.elapsed_eq, h.lags_eq, Poller.timeOf, Poller.timeOf,
    sum_take_succ]
  omega

/-- A polling sends the request before which it stands, if the client is open. -/
theorem next_of_isOpen (h : Before client headers channel clock k s)
    (hopen : client.isOpen (p.after client headers channel k) = true) :
    p.next client s =
      match p.outcome client headers channel k, p.advance (p.placeOf k) with
      | .ok text, some (place, pause) =>
        (some (.ok text), { s with
          channel := p.after client headers channel (k + 1), clock := s.ready, place,
          due := some pause })
      | .ok _, none =>
        (none, { s with
          channel := p.after client headers channel (k + 1), clock := s.ready, due := none,
          broken := true })
      | .error e, _ =>
        (some (.error e), { s with
          channel := p.after client headers channel (k + 1), clock := s.ready, due := none,
          finished := true }) := by
  have hrequest : p.request headers (p.placeOf k) = p.requestOf headers k := rfl
  rw [Poller.next, h.goes, h.whole, h.channel_eq, h.headers_eq, h.place_eq, hopen, hrequest,
    Poller.outcome, if_pos hopen, Poller.after]
  generalize client.read (p.after client headers channel k) (p.requestOf headers k) = answer
  generalize p.advance (p.placeOf k) = advance
  obtain ⟨channel', reply | e⟩ := answer <;> cases advance <;> rfl

/-- A polling whose client is closed fails without a request. -/
theorem next_of_closed (h : Before client headers channel clock k s)
    (hclosed : client.isOpen (p.after client headers channel k) = false) :
    p.next client s = (some (p.outcome client headers channel k),
      { s with clock := s.ready, due := none, finished := true }) := by
  have houtcome : p.outcome client headers channel k =
      .error (client.closedError (p.after client headers channel k)) := by
    rw [Poller.outcome, if_neg (by simp [hclosed])]
  rw [Poller.next, h.goes, h.whole, h.channel_eq, hclosed, houtcome]
  rfl

/-- A body is there only if the client was open. -/
theorem isOpen_of_ok {text : String} (houtcome : p.outcome client headers channel k = .ok text) :
    client.isOpen (p.after client headers channel k) = true := by
  cases hopen : client.isOpen (p.after client headers channel k) with
  | true => rfl
  | false =>
    rw [Poller.outcome, if_neg (by simp [hopen])] at houtcome
    cases houtcome

theorem next_of_ok (h : Before client headers channel clock k s) {text : String}
    (houtcome : p.outcome client headers channel k = .ok text)
    (hgoes : p.IsTooLong → k + 1 < p.addresses.length) :
    ∃ s', p.next client s = (some (.ok text), s') ∧ s'.clock.elapsed = p.timeOf clock k ∧
      Before client headers channel clock (k + 1) s' := by
  obtain ⟨pause, hadvance, hpause⟩ := p.advance_placeOf hgoes
  have hnext := h.next_of_isOpen (isOpen_of_ok houtcome)
  rw [houtcome, hadvance] at hnext
  refine ⟨_, hnext, h.elapsed_eq, rfl, h.headers_eq, rfl, h.elapsed_sleep hpause, ?_, h.goes,
    h.whole⟩
  change (s.ready.sleep pause.val).lags = clock.lags.drop (k + 1)
  rw [Time.Clock.lags_sleep, h.lags_eq, List.tail_drop]

theorem next_of_isTooLong (h : Before client headers channel clock k s) {text : String}
    (houtcome : p.outcome client headers channel k = .ok text) (hlong : p.IsTooLong)
    (hround : k + 1 = p.addresses.length) :
    ∃ s', p.next client s = (none, s') ∧ s'.broken = true ∧ s'.finished = false ∧
      s'.channel = p.after client headers channel (k + 1) := by
  have hnext := h.next_of_isOpen (isOpen_of_ok houtcome)
  rw [houtcome, p.advance_of_isTooLong hlong hround] at hnext
  exact ⟨_, hnext, rfl, h.goes, rfl⟩

theorem next_of_error (h : Before client headers channel clock k s) {e : Error}
    (houtcome : p.outcome client headers channel k = .error e) :
    ∃ s', p.next client s = (some (.error e), s') ∧ s'.clock.elapsed = p.timeOf clock k ∧
      s'.finished = true ∧ s'.broken = false ∧ s'.channel =
        p.after client headers channel
          (if client.isOpen (p.after client headers channel k) then k + 1 else k) := by
  cases hopen : client.isOpen (p.after client headers channel k) with
  | false =>
    have hnext := h.next_of_closed hopen
    rw [houtcome] at hnext
    exact ⟨_, hnext, h.elapsed_eq, rfl, h.whole, h.channel_eq⟩
  | true =>
    have hnext := h.next_of_isOpen hopen
    rw [houtcome] at hnext
    exact ⟨_, hnext, h.elapsed_eq, rfl, h.whole, rfl⟩

end Before

/-- Whether a polling breaks off among some items from a request on. -/
def Breaks (p : Poller) (client : Client σ) (headers : Headers) (channel : σ) (k n : Nat) : Prop :=
  p.IsTooLong ∧ p.addresses.length ≤ k + n ∧
    ∀ j, k ≤ j → j < p.addresses.length → ∃ text, p.outcome client headers channel j = .ok text

/-- What polling for some items comes to from a request on, and how many requests are sent by
then. -/
structure Comes (client : Client σ) (headers : Headers) (channel : σ) (clock : Time.Clock)
    (k n sent : Nat) (items : List (Nat × Except Error String)) (last : Polling p σ) : Prop where
  broken_iff : last.broken = true ↔ Breaks p client headers channel k n
  items_eq : last.broken = false → items = upToFailure ((List.range' k n).map fun j =>
    (p.timeOf clock j, p.outcome client headers channel j))
  items_eq_of_broken : last.broken = true → items =
    (List.range' k (p.addresses.length - 1 - k)).map fun j =>
      (p.timeOf clock j, p.outcome client headers channel j)
  channel_eq : last.channel = p.after client headers channel sent
  open_of_sent : ∀ j, k ≤ j → j < sent →
    client.isOpen (p.after client headers channel j) = true
  sent_eq : sent = k + items.length + (if last.broken then 1 else 0) ∨
    sent + 1 = k + items.length ∧ client.isOpen (p.after client headers channel sent) = false
  finished_iff : last.finished = true ↔ ∃ time e, (time, .error e) ∈ items

theorem take_of_next {client : Client σ} {s s' : Polling p σ} {item : Except Error String}
    (h : p.next client s = (some item, s')) (n : Nat) :
    p.take client (n + 1) s =
      ((s'.clock.elapsed, item) :: (p.take client n s').1, (p.take client n s').2) := by
  simp only [Poller.take, h]

/-- A polling that has failed or broken off does nothing more. -/
theorem take_of_over {client : Client σ} {s : Polling p σ}
    (h : s.finished = true ∨ s.broken = true) (n : Nat) : p.take client n s = ([], s) := by
  cases n with
  | zero => rfl
  | succ n => rcases h with h | h <;> simp [Poller.take, Poller.next, h]

namespace Comes

variable {client : Client σ} {headers : Headers} {channel : σ} {clock : Time.Clock}
  {k n sent : Nat} {s s' : Polling p σ}

/-- Polling for no items. -/
theorem zero (h : Before client headers channel clock k s)
    (hearly : p.IsTooLong → k < p.addresses.length) :
    Comes client headers channel clock k 0 k (p.take client 0 s).1 (p.take client 0 s).2 where
  broken_iff := by
    have hwhole : (p.take client 0 s).2.broken = false := h.whole
    simp only [hwhole, Bool.false_eq_true, false_iff]
    rintro ⟨hlong, hlate, -⟩
    have hless := hearly hlong
    omega
  items_eq _ := rfl
  items_eq_of_broken hbroken := absurd (h.whole.symm.trans hbroken) Bool.false_ne_true
  channel_eq := h.channel_eq
  open_of_sent j hj hlt := absurd hlt (Nat.not_lt.mpr hj)
  sent_eq := Or.inl (by simp [Poller.take, h.whole])
  finished_iff := by simp [Poller.take, h.goes]

/-- One more body before the others. -/
theorem cons {text : String} (hopen : client.isOpen (p.after client headers channel k) = true)
    (houtcome : p.outcome client headers channel k = .ok text)
    (hgoes : p.IsTooLong → k + 1 < p.addresses.length)
    (hnext : p.next client s = (some (.ok text), s'))
    (htime : s'.clock.elapsed = p.timeOf clock k)
    (h : Comes client headers channel clock (k + 1) n sent (p.take client n s').1
      (p.take client n s').2) :
    Comes client headers channel clock k (n + 1) sent (p.take client (n + 1) s).1
      (p.take client (n + 1) s).2 := by
  have hbroken : (p.take client n s').2.broken = true ↔
      Breaks p client headers channel k (n + 1) := by
    rw [h.broken_iff]
    constructor
    · rintro ⟨hlong, hlate, hrest⟩
      refine ⟨hlong, by omega, fun j hj hless => ?_⟩
      rcases Nat.eq_or_lt_of_le hj with rfl | hlater
      · exact ⟨text, houtcome⟩
      · exact hrest j hlater hless
    · rintro ⟨hlong, hlate, hall⟩
      exact ⟨hlong, by omega, fun j hj hless => hall j (by omega) hless⟩
  rw [take_of_next hnext]
  refine ⟨hbroken, fun hwhole => ?_, fun hbreaks => ?_, h.channel_eq, fun j hj hlt => ?_, ?_, ?_⟩
  · rw [List.range'_succ, List.map_cons, houtcome, upToFailure, htime, h.items_eq hwhole]
  · have hless := hgoes (hbroken.mp hbreaks).1
    have hcount : p.addresses.length - 1 - k = (p.addresses.length - 1 - (k + 1)) + 1 := by omega
    rw [hcount, List.range'_succ, List.map_cons, houtcome, htime, h.items_eq_of_broken hbreaks]
  · rcases Nat.eq_or_lt_of_le hj with rfl | hlater
    · exact hopen
    · exact h.open_of_sent j hlater hlt
  · dsimp only
    rw [List.length_cons]
    rcases h.sent_eq with hall | ⟨hbut, hshut⟩
    · exact Or.inl (by omega)
    · exact Or.inr ⟨by omega, hshut⟩
  · simp [h.finished_iff]

/-- A failure is the last item. -/
theorem failed {e : Error} (houtcome : p.outcome client headers channel k = .error e)
    (hearly : p.IsTooLong → k < p.addresses.length)
    (hnext : p.next client s = (some (.error e), s'))
    (htime : s'.clock.elapsed = p.timeOf clock k) (hfinished : s'.finished = true)
    (hwhole : s'.broken = false)
    (hchannel : s'.channel = p.after client headers channel
      (if client.isOpen (p.after client headers channel k) then k + 1 else k)) :
    Comes client headers channel clock k (n + 1)
      (if client.isOpen (p.after client headers channel k) then k + 1 else k)
      (p.take client (n + 1) s).1 (p.take client (n + 1) s).2 := by
  rw [take_of_next hnext, take_of_over (Or.inl hfinished)]
  refine ⟨?_, fun _ => ?_, fun hbroken => ?_, hchannel, fun j hj hlt => ?_, ?_, ?_⟩
  · simp only [hwhole, Bool.false_eq_true, false_iff]
    rintro ⟨hlong, -, hall⟩
    obtain ⟨text, htext⟩ := hall k (Nat.le_refl k) (hearly hlong)
    rw [houtcome] at htext
    cases htext
  · rw [List.range'_succ, List.map_cons, houtcome, upToFailure, htime]
  · exact absurd (hwhole.symm.trans hbroken) Bool.false_ne_true
  · split at hlt
    · next hopen =>
      obtain rfl : j = k := by omega
      exact hopen
    · omega
  · rw [hwhole]
    split
    · exact Or.inl rfl
    · next hshut => exact Or.inr ⟨rfl, Bool.not_eq_true _ ▸ hshut⟩
  · simp [hfinished]

/-- After the last body of the first round a pause that is too long breaks the polling off. -/
theorem broke {text : String} (hopen : client.isOpen (p.after client headers channel k) = true)
    (houtcome : p.outcome client headers channel k = .ok text) (hlong : p.IsTooLong)
    (hround : k + 1 = p.addresses.length) (hnext : p.next client s = (none, s'))
    (hbroken : s'.broken = true) (hgoes : s'.finished = false)
    (hchannel : s'.channel = p.after client headers channel (k + 1)) :
    Comes client headers channel clock k (n + 1) (k + 1) (p.take client (n + 1) s).1
      (p.take client (n + 1) s).2 := by
  have htake : p.take client (n + 1) s = ([], s') := by simp only [Poller.take, hnext]
  rw [htake]
  refine ⟨⟨fun _ => ⟨hlong, by omega, fun j hj hless => ?_⟩, fun _ => hbroken⟩, fun hwhole => ?_,
    fun _ => ?_, hchannel, fun j hj hlt => ?_, ?_, ?_⟩
  · obtain rfl : j = k := by omega
    exact ⟨text, houtcome⟩
  · exact absurd (hbroken.symm.trans hwhole) Bool.true_eq_false.mp
  · have hnone : p.addresses.length - 1 - k = 0 := by omega
    simp [hnone]
  · obtain rfl : j = k := by omega
    exact hopen
  · exact Or.inl (by simp [hbroken])
  · simp [hgoes]

end Comes

theorem Before.comes {client : Client σ} {headers : Headers} {channel : σ} {clock : Time.Clock}
    {k : Nat} {s : Polling p σ} (h : Before client headers channel clock k s)
    (hearly : p.IsTooLong → k < p.addresses.length) (n : Nat) :
    ∃ sent, Comes client headers channel clock k n sent (p.take client n s).1
      (p.take client n s).2 := by
  induction n generalizing k s with
  | zero => exact ⟨k, .zero h hearly⟩
  | succ n ih =>
    cases houtcome : p.outcome client headers channel k with
    | ok text =>
      have hopen := isOpen_of_ok houtcome
      by_cases hround : p.IsTooLong ∧ k + 1 = p.addresses.length
      · obtain ⟨s', hnext, hbroken, hgoes, hchannel⟩ :=
          h.next_of_isTooLong houtcome hround.1 hround.2
        exact ⟨k + 1, .broke hopen houtcome hround.1 hround.2 hnext hbroken hgoes hchannel⟩
      · have hgoes : p.IsTooLong → k + 1 < p.addresses.length := by
          intro hlong
          have hless := hearly hlong
          have hmore : k + 1 ≠ p.addresses.length := fun heq => hround ⟨hlong, heq⟩
          omega
        obtain ⟨s', hnext, htime, hbefore⟩ := h.next_of_ok houtcome hgoes
        obtain ⟨sent, hrest⟩ := ih hbefore hgoes
        exact ⟨sent, hrest.cons hopen houtcome hgoes hnext htime⟩
    | error e =>
      obtain ⟨s', hnext, htime, hfinished, hwhole, hchannel⟩ := h.next_of_error houtcome
      exact ⟨_, .failed houtcome hearly hnext htime hfinished hwhole hchannel⟩

end Polling

namespace Poller

variable (p : Poller) (client : Client σ) (headers : Headers) (channel : σ)

/-- A client that is polled is asked for nothing but the requests, in order. -/
theorem after_tapped (k : Nat) :
    p.after client.tapped headers (channel, []) k =
      (p.after client headers channel k,
        (List.range k).map fun j => .call (.read (p.requestOf headers j))) := by
  induction k with
  | zero => rfl
  | succ k ih => rw [after, ih, after, List.range_succ, List.map_append]; rfl

theorem outcome_tapped :
    p.outcome client.tapped headers (channel, []) = p.outcome client headers channel := by
  funext k
  simp only [outcome, after_tapped]
  rfl

/-- How many requests are sent is settled by which of them find the client open. -/
theorem count_unique {open? : Nat → Bool} {a b m extra : Nat} (ha : ∀ k < a, open? k = true)
    (hb : ∀ k < b, open? k = true) (ham : a = m + extra ∨ a + 1 = m ∧ open? a = false)
    (hbm : b = m + extra ∨ b + 1 = m ∧ open? b = false) : a = b := by
  rcases ham with rfl | ⟨rfl, hshut⟩
  · rcases hbm with rfl | ⟨hsucc, hshut⟩
    · rfl
    · rw [ha b (by omega)] at hshut
      cases hshut
  · rcases hbm with rfl | ⟨hsucc, -⟩
    · rw [hb a (by omega)] at hshut
      cases hshut
    · omega

/-- The schedule of a polling, for any number of items. They are what comes of the requests up to
the first failure, each after the pauses that the rounds so far call for. After a failure there is
nothing more. The requests read the addresses in order, over and over, with the headers that were
given. The client is asked for nothing but these requests, and each of them finds it open; that it is
closed is the one failure for which nothing is sent.

Where the pause after a round is longer than any duration, a polling that comes to the end of the
first round breaks off there: the last body of the round is read and lost. -/
theorem polling_schedule (clock : Time.Clock) (n : Nat) :
    let polled := p.take client n { channel, clock, headers }
    let noted := p.take client.tapped n { channel := (channel, []), clock, headers }
    (polled.2.broken = false → polled.1 = upToFailure ((List.range n).map fun k =>
        (p.timeOf clock k, p.outcome client headers channel k))) ∧
      (polled.2.broken = true ↔ Time.longest < p.pause.val + p.roundPause.val ∧
        p.addresses.length ≤ n ∧
        ∀ k < p.addresses.length, ∃ text, p.outcome client headers channel k = .ok text) ∧
      (polled.2.broken = true → polled.1 = (List.range (p.addresses.length - 1)).map fun k =>
        (p.timeOf clock k, p.outcome client headers channel k)) ∧
      (polled.2.finished = true ↔ ∃ time e, (time, .error e) ∈ polled.1) ∧
      (polled.2.finished = true ∨ polled.2.broken = true →
        ∀ more, p.take client more polled.2 = ([], polled.2)) ∧
      noted.1 = polled.1 ∧
      ∃ sent, noted.2.channel =
          (polled.2.channel, (List.range sent).map fun k => .call (.read
            { address := p.addresses.get ⟨k % p.addresses.length, Nat.mod_lt k p.length_pos⟩
              headers, returnHeaders := false, weight := 1 })) ∧
        polled.2.channel = p.after client headers channel sent ∧
        (∀ k < sent, client.isOpen (p.after client headers channel k) = true) ∧
        (sent = polled.1.length + (if polled.2.broken then 1 else 0) ∨
          sent + 1 = polled.1.length ∧
            client.isOpen (p.after client headers channel sent) = false) := by
  intro polled noted
  have hearly : p.IsTooLong → 0 < p.addresses.length := fun _ => p.length_pos
  obtain ⟨sent, hpolled⟩ :=
    (Polling.Before.start client headers channel clock).comes hearly n
  obtain ⟨asked, hnoted⟩ :=
    (Polling.Before.start client.tapped headers (channel, []) clock).comes hearly n
  have hbreaks : Polling.Breaks p client.tapped headers (channel, []) 0 n ↔
      Polling.Breaks p client headers channel 0 n := by
    simp only [Polling.Breaks, outcome_tapped]
  have hbroken : noted.2.broken = polled.2.broken := by
    rw [Bool.eq_iff_iff, hnoted.broken_iff, hpolled.broken_iff, hbreaks]
  have hsame : noted.1 = polled.1 := by
    cases hwhole : polled.2.broken with
    | false =>
      rw [hnoted.items_eq (hbroken.trans hwhole), hpolled.items_eq hwhole, outcome_tapped]
    | true =>
      rw [hnoted.items_eq_of_broken (hbroken.trans hwhole), hpolled.items_eq_of_broken hwhole,
        outcome_tapped]
  have hopen : ∀ k < sent, client.isOpen (p.after client headers channel k) = true :=
    fun k hk => hpolled.open_of_sent k (Nat.zero_le k) hk
  have hopenNoted : ∀ k < asked, client.isOpen (p.after client headers channel k) = true := by
    intro k hk
    have hopen := hnoted.open_of_sent k (Nat.zero_le k) hk
    rwa [after_tapped] at hopen
  have hsent : sent = polled.1.length + (if polled.2.broken then 1 else 0) ∨
      sent + 1 = polled.1.length ∧
        client.isOpen (p.after client headers channel sent) = false := by
    have hsent := hpolled.sent_eq
    rwa [Nat.zero_add] at hsent
  have hasked : asked = polled.1.length + (if polled.2.broken then 1 else 0) ∨
      asked + 1 = polled.1.length ∧
        client.isOpen (p.after client headers channel asked) = false := by
    have hasked := hnoted.sent_eq
    rwa [Nat.zero_add, after_tapped, hsame, hbroken] at hasked
  have heq : asked = sent := count_unique hopenNoted hopen hasked hsent
  refine ⟨fun hwhole => ?_, ?_, fun hwhole => ?_, hpolled.finished_iff,
    fun hover more => Polling.take_of_over hover more, hsame, sent, ?_, hpolled.channel_eq, hopen,
    hsent⟩
  · rw [List.range_eq_range']
    exact hpolled.items_eq hwhole
  · rw [hpolled.broken_iff, Polling.Breaks, IsTooLong, Nat.zero_add]
    simp only [Nat.zero_le, forall_const]
  · rw [List.range_eq_range']
    exact hpolled.items_eq_of_broken hwhole
  · rw [hnoted.channel_eq, heq, after_tapped, hpolled.channel_eq]
    rfl

/-- Two addresses, a second apart and ten more after each round. -/
def pair : Poller where
  addresses := ["a", "b"]
  pause := ⟨Time.second, by decide⟩
  roundPause := ⟨10 * Time.second, by decide⟩
  length_pos := by decide

/-- A service that answers twice, the second time with an octet that is no text, and then fails. -/
def fickle : Replay where
  id := "stub.http.0"
  replies := [.ok [0x78], .ok [0xFF], .error .webSocket]
  isOpen := true

theorem polling_schedule_failing :
    let polled :=
      pair.take Replay.client 5 { channel := fickle, clock := { reading := 0 }, headers := [] }
    polled.1 = [(0, .ok "x"), (Time.second, .ok "\uFFFD"), (12 * Time.second, .error .webSocket)] ∧
      polled.2.finished = true ∧
      ∀ more, pair.take Replay.client more polled.2 = ([], polled.2) := by
  obtain ⟨hitems, hbroken, -, hfinished, hover, -⟩ :=
    pair.polling_schedule Replay.client [] fickle { reading := 0 } 5
  have hfits : ¬ Time.longest < pair.pause.val + pair.roundPause.val := by decide
  have hwhole := Bool.eq_false_iff.mpr fun h => hfits (hbroken.mp h).1
  have houtcomes : upToFailure ((List.range 5).map fun k =>
      (pair.timeOf { reading := 0 } k, pair.outcome Replay.client [] fickle k)) =
      [(0, .ok "x"), (Time.second, .ok "\uFFFD"), (12 * Time.second, .error .webSocket)] := by cbv
  have hitems := (hitems hwhole).trans houtcomes
  have hover' := hfinished.mpr ⟨12 * Time.second, .webSocket, by simp [hitems]⟩
  exact ⟨hitems, hover', hover (Or.inl hover')⟩

-- One nanosecond after the longest pause is too much.
example :
    let patient : Poller := { pair with pause := Fin.last _, roundPause := 1 }
    let polled :=
      patient.take Replay.client 5 { channel := fickle, clock := { reading := 0 }, headers := [] }
    polled.1.length = 1 ∧ polled.2.broken = true := by cbv

end Poller

end MarketFeed.Transport
