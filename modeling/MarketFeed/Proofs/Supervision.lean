import Mathlib
import MarketFeed.Collector.Run
import MarketFeed.Proofs.Sessions

/-!
The sessions that a collector runs. What follows a session depends on its own traffic, its error and
the reconnects spent since the last session that brought data, and on nothing that the counters of
its socket may still hold of earlier sessions.
-/
namespace MarketFeed.Collector

open Settings.Backoff (afterAttempts reset_afterAttempts next_afterAttempts)
open Transport (Socket Traffic)

variable {η ω : Type}

/-- A session of a collector: what began it, what it left, how it ended, and what happened on the
wire. -/
structure Session (ω : Type) where
  start : Running ω
  left : Feed.Setup (Socket ω) Tally
  ending : Feed.Ending
  traffic : List Traffic

namespace Session

/-- Whether messages of data came in the session itself, which are counted in 64 bits. -/
def broughtData (s : Session ω) : Bool := UInt64.ofNat (s.traffic.countP Traffic.isData) != 0

/-- Fewer messages than can be counted are noticed if there are any. -/
theorem broughtData_iff {s : Session ω} (h : s.traffic.length < UInt64.size) :
    s.broughtData = true ↔ ∃ t ∈ s.traffic, t.isData = true := by
  have hless : s.traffic.countP Traffic.isData < 2 ^ 64 :=
    Nat.lt_of_le_of_lt List.countP_le_length h
  have hzero : UInt64.ofNat (s.traffic.countP Traffic.isData) = 0 ↔
      s.traffic.countP Traffic.isData = 0 := by
    rw [UInt64.ofNat_eq_iff_mod_eq_toNat, Nat.mod_eq_of_lt hless]
    rfl
  simp [broughtData, hzero, List.countP_eq_zero]

/-- How many reconnects count as spent after a session, if so many were before it. -/
def spent (s : Session ω) (before : Nat) : Nat := if s.broughtData then 0 else before

/-- The running collector with what a session left. -/
def final (s : Session ω) : Running ω := { s.start with setup := s.left }

/-- The running collector that begins the session after this one, if there is one. -/
def next? (w : Surroundings η ω) (s : Session ω) : Option (Running ω) :=
  match s.ending with
  | .interrupted => none
  | .failed e =>
    match (s.final.sessionEnd e).judge s.final.backoff with
    | (.wait delay, backoff) =>
      let r := { s.final with backoff }
      let r := r.say .warn (r.retryText e delay)
      let (given, wire) := w.pause r.setup.stream.wire delay
      if given then none
      else some { r with setup := { r.setup with stream := { r.setup.stream with wire } } }
    | _ => none

end Session

/-- The failure that a verdict makes of the error of the last session, unless it is to wait. -/
def Verdict.failure? (e : Feed.Error) : Verdict → Option Failure
  | stop => some (.stopped e)
  | giveUp => some (.exhausted e)
  | wait _ => none

/-- How many reconnects were spent after sessions, each followed by one, since the last that brought
data. -/
def reconnects (sessions : List (Session ω)) (before : Nat) : Nat :=
  sessions.foldl (fun spent s => s.spent spent + 1) before

namespace Running

/-- The session that a collector runs next. -/
def session (w : Surroundings η ω) (r : Running ω) : Session ω :=
  { start := r
    left := (r.setup.run (Socket.stream w.wire) Tally.sink).1
    ending := (r.setup.run (Socket.stream w.wire) Tally.sink).2
    traffic := r.setup.traffic w.wire Tally.sink }

/-- The sessions that a collector runs, at most so many. -/
def sessions (w : Surroundings η ω) : Nat → Running ω → List (Session ω)
  | 0, _ => []
  | n + 1, r =>
    r.session w ::
      match (r.session w).next? w with
      | some r => sessions w n r
      | none => []

/-- A collector between two sessions: its socket is closed, and so many reconnects are spent. -/
structure Rests (c : Settings.Reconnect) (spent : Nat) (r : Running ω) : Prop where
  closed : r.setup.stream.isOpen = false
  backoff : r.backoff = afterAttempts c spent
  within : spent ≤ c.attempts.toNat

variable {w : Surroundings η ω} {r : Running ω} {c : Settings.Reconnect} {spent : Nat}
  {e : Feed.Error}

/-- The counters of the socket are read only where they belong to the session. -/
theorem Rests.broughtData_eq (h : r.Rests c spent) (hend : (r.session w).ending = .failed e) :
    ((r.session w).final.sessionEnd e).broughtData = (r.session w).broughtData := by
  obtain ⟨outcome, began, rest, htraffic, hquiet, hfails, hnothing, hbears⟩ :=
    Feed.Setup.traffic_of_closed w.wire Tally.sink h.closed
  have hbrought : (r.session w).broughtData =
      (UInt64.ofNat (rest.countP Traffic.isData) != 0) := by
    have hsame : (r.session w).traffic = .handshake outcome began :: rest := htraffic
    rw [Session.broughtData, hsame]
    rfl
  have hphase : (r.session w).left.feed.phase = .disconnected ↔ outcome ≠ .accepted :=
    (Feed.Setup.run_failed (Socket.isOpen_close w.wire) (Socket.isOpen_connect w.wire)
      hend).2.trans hfails
  by_cases haccepted : outcome = .accepted
  · have hopened : (r.session w).left.feed.phase ≠ .disconnected :=
      fun h => hphase.mp h haccepted
    rw [haccepted] at hbears
    have hreceived : (r.session w).left.stream.identity.received =
        .ofNat (rest.countP Traffic.isData) := hbears.received hquiet
    rw [hbrought, Bool.eq_iff_iff]
    simp [SessionEnd.broughtData, sessionEnd, Session.final, hopened, hreceived,
      UInt64.pos_iff_ne_zero]
  · have hfailed := hphase.mpr haccepted
    rw [hbrought, hnothing haccepted]
    simp [SessionEnd.broughtData, sessionEnd, Session.final, hfailed]

/-- The verdict on a session. -/
theorem Rests.judge_eq (h : r.Rests c spent) (hend : (r.session w).ending = .failed e) :
    ((r.session w).final.sessionEnd e).judge r.backoff =
      if e.isPermanent then (.stop, afterAttempts c spent)
      else if c.attempts.toNat ≤ (r.session w).spent spent then
        (.giveUp, afterAttempts c ((r.session w).spent spent))
      else (.wait (c.delay (min ((r.session w).spent spent) Settings.Reconnect.doublings)),
        afterAttempts c ((r.session w).spent spent + 1)) := by
  have hreset : (if ((r.session w).final.sessionEnd e).broughtData then (afterAttempts c spent).reset
      else afterAttempts c spent) = afterAttempts c ((r.session w).spent spent) := by
    rw [h.broughtData_eq hend, Session.spent, reset_afterAttempts]
    split <;> rfl
  have herror : ((r.session w).final.sessionEnd e).error = e := rfl
  rw [SessionEnd.judge, h.backoff, hreset, herror]
  simp only [next_afterAttempts]
  by_cases hpermanent : e.isPermanent = true
  · simp only [hpermanent, if_true]
  · by_cases hspent : c.attempts.toNat ≤ (r.session w).spent spent
    · simp only [hpermanent, hspent, if_true]
    · simp only [hpermanent, hspent, if_false]

theorem session_start (w : Surroundings η ω) (r : Running ω) : (r.session w).start = r := rfl

theorem run_eq {ending : Feed.Ending} (hend : (r.session w).ending = ending) :
    r.setup.run (Socket.stream w.wire) Tally.sink = ((r.session w).left, ending) :=
  Prod.ext rfl hend

theorem supervise_of_interrupted (n : Nat) (hend : (r.session w).ending = .interrupted) :
    (r.session w).next? w = none ∧ (r.supervise w (n + 1)).2 = .done := by
  constructor
  · rw [Session.next?, hend]
  · simp only [supervise, run_eq hend]

theorem supervise_of_failure (n : Nat) (hend : (r.session w).ending = .failed e)
    {verdict : Verdict} {b : Settings.Backoff} {f : Failure}
    (hjudge : ((r.session w).final.sessionEnd e).judge r.backoff = (verdict, b))
    (hfailure : verdict.failure? e = some f) :
    (r.session w).next? w = none ∧ (r.supervise w (n + 1)).2 = .failed f ∧
      (r.supervise w (n + 1)).1.setup.stream = (r.session w).left.stream := by
  have hjudge' : (sessionEnd { r with setup := (r.session w).left } e).judge r.backoff =
      (verdict, b) := hjudge
  cases verdict with
  | stop =>
    cases hfailure
    simp only [supervise, run_eq hend, Session.next?, hend, Session.final, session_start, hjudge']
    exact ⟨trivial, trivial, rfl⟩
  | giveUp =>
    cases hfailure
    simp only [supervise, run_eq hend, Session.next?, hend, Session.final, session_start, hjudge']
    exact ⟨trivial, trivial, rfl⟩
  | wait delay => cases hfailure

theorem supervise_of_wait (n : Nat) (hend : (r.session w).ending = .failed e)
    {delay : UInt64} {b : Settings.Backoff}
    (hjudge : ((r.session w).final.sessionEnd e).judge r.backoff = (.wait delay, b)) :
    ((w.pause (r.session w).left.stream.wire delay).1 = true →
        (r.session w).next? w = none ∧ (r.supervise w (n + 1)).2 = .done) ∧
      ((w.pause (r.session w).left.stream.wire delay).1 = false →
        ∃ r', (r.session w).next? w = some r' ∧ r.supervise w (n + 1) = r'.supervise w n ∧
          r'.backoff = b ∧ r'.setup.stream = { (r.session w).left.stream with
            wire := (w.pause (r.session w).left.stream.wire delay).2 }) := by
  have hjudge' : (sessionEnd { r with setup := (r.session w).left } e).judge r.backoff =
      (.wait delay, b) := hjudge
  obtain ⟨given, next, hpause⟩ :
      ∃ given next, w.pause (r.session w).left.stream.wire delay = (given, next) := ⟨_, _, rfl⟩
  simp only [supervise, run_eq hend, Session.next?, hend, Session.final, session_start, hjudge',
    say, hpause]
  constructor
  · intro hgiven
    rw [hgiven]
    exact ⟨rfl, rfl⟩
  · intro hgiven
    rw [hgiven]
    exact ⟨_, rfl, rfl, rfl, rfl⟩

end Running

/-- What follows a session that began with so many reconnects spent since the last reset. -/
structure Session.Decided (w : Surroundings η ω) (c : Settings.Reconnect) (before : Nat)
    (s : Session ω) (next? : Option (Session ω)) (outcome : Running ω × Ending) : Prop where
  within : before ≤ c.attempts.toNat
  counted : s.start.backoff = afterAttempts c before
  opens : ∃ handshake began rest, s.traffic = .handshake handshake began :: rest ∧
    ∀ t ∈ rest, t.isHandshake = false
  bears : s.start.setup.stream.Bears s.traffic s.left.stream
  reset : ∀ e, s.ending = .failed e → (s.final.sessionEnd e).broughtData = s.broughtData
  brought : s.traffic.length < UInt64.size →
    (s.broughtData = true ↔ ∃ t ∈ s.traffic, t.isData = true)
  interrupted : s.ending = .interrupted → next? = none ∧ outcome.2 = .done
  permanent : ∀ e, s.ending = .failed e → e.isPermanent = true →
    next? = none ∧ outcome.2 = .failed (.stopped e) ∧ outcome.1.setup.stream = s.left.stream
  exhausted : ∀ e, s.ending = .failed e → e.isPermanent = false →
    s.spent before = c.attempts.toNat →
      next? = none ∧ outcome.2 = .failed (.exhausted e) ∧ outcome.1.setup.stream = s.left.stream
  waits : ∀ e, s.ending = .failed e → e.isPermanent = false →
    s.spent before ≠ c.attempts.toNat →
      let pause := w.pause s.left.stream.wire
        (c.delay (min (s.spent before) Settings.Reconnect.doublings))
      (pause.1 = true → next? = none ∧ outcome.2 = .done) ∧
        (pause.1 = false → (next? = none → outcome.2 = .unfinished) ∧
          ∀ next, next? = some next →
            next.start.setup.stream = { s.left.stream with wire := pause.2 })

namespace Running

variable {w : Surroundings η ω} {r : Running ω} {c : Settings.Reconnect} {spent : Nat}

theorem Rests.spent_le (h : r.Rests c spent) (s : Session ω) :
    s.spent spent ≤ c.attempts.toNat := by
  have hwithin := h.within
  unfold Session.spent
  split <;> omega

theorem sessions_succ (w : Surroundings η ω) (n : Nat) (r : Running ω) :
    r.sessions w (n + 1) =
      r.session w :: match (r.session w).next? w with
        | some r => r.sessions w n
        | none => [] := rfl

/-- A collector comes to its end after a session, or it goes on, resting, with one more reconnect
spent. -/
theorem Rests.ends_or_goesOn (w : Surroundings η ω) (h : r.Rests c spent) (n : Nat) :
    ((r.session w).next? w = none ∧ (r.supervise w (n + 1)).2 ≠ .unfinished) ∨
      ∃ r', (r.session w).next? w = some r' ∧ r'.Rests c ((r.session w).spent spent + 1) ∧
        r.supervise w (n + 1) = r'.supervise w n := by
  have hle := h.spent_le (r.session w)
  cases hend : (r.session w).ending with
  | interrupted =>
    obtain ⟨hnone, hdone⟩ := supervise_of_interrupted n hend
    exact Or.inl ⟨hnone, by simp [hdone]⟩
  | failed e =>
    have hjudge := h.judge_eq hend
    split at hjudge
    · obtain ⟨hnone, hstopped, -⟩ := supervise_of_failure n hend hjudge rfl
      exact Or.inl ⟨hnone, by simp [hstopped]⟩
    · split at hjudge
      · obtain ⟨hnone, hexhausted, -⟩ := supervise_of_failure n hend hjudge rfl
        exact Or.inl ⟨hnone, by simp [hexhausted]⟩
      · next hless =>
        obtain ⟨hgiven, hwaited⟩ := supervise_of_wait n hend hjudge
        cases hpause : (w.pause (r.session w).left.stream.wire (c.delay (min
            ((r.session w).spent spent) Settings.Reconnect.doublings))).1 with
        | true =>
          obtain ⟨hnone, hdone⟩ := hgiven hpause
          exact Or.inl ⟨hnone, by simp [hdone]⟩
        | false =>
          obtain ⟨next, hsome, hsupervise, hbackoff, hstream⟩ := hwaited hpause
          have hclosed := (Feed.Setup.run_failed (Socket.isOpen_close w.wire)
            (Socket.isOpen_connect w.wire) hend).1
          refine Or.inr ⟨next, hsome, ⟨?_, hbackoff, by omega⟩, hsupervise⟩
          rw [hstream]
          exact hclosed

theorem head?_sessions (w : Surroundings η ω) (n : Nat) (r : Running ω) :
    (r.sessions w n).head? = if n = 0 then none else some (r.session w) := by
  cases n with
  | zero => rfl
  | succ n => rfl

/-- What follows the first session. -/
theorem Rests.decided (h : r.Rests c spent) (n : Nat) :
    (r.session w).Decided w c spent (r.sessions w (n + 1)).tail.head?
      (r.supervise w (n + 1)) := by
  obtain ⟨outcome, began, rest, htraffic, hquiet, -, -, hbears⟩ :=
    Feed.Setup.traffic_of_closed w.wire Tally.sink h.closed
  have htail : (r.session w).next? w = none → (r.sessions w (n + 1)).tail.head? = none := by
    intro hnone
    rw [sessions_succ, hnone]
    rfl
  exact {
    within := h.within
    counted := h.backoff
    opens := ⟨outcome, began, rest, htraffic, hquiet⟩
    bears := by
      have htraffic' : (r.session w).traffic = .handshake outcome began :: rest := htraffic
      rw [htraffic']
      exact hbears
    reset := fun e hend => h.broughtData_eq hend
    brought := Session.broughtData_iff
    interrupted := fun hend =>
      have hdone := supervise_of_interrupted n hend
      ⟨htail hdone.1, hdone.2⟩
    permanent := fun e hend hpermanent => by
      have hjudge := h.judge_eq hend
      rw [if_pos hpermanent] at hjudge
      obtain ⟨hnone, hstopped⟩ := supervise_of_failure n hend hjudge rfl
      exact ⟨htail hnone, hstopped⟩
    exhausted := fun e hend hpermanent hspent => by
      have hjudge := h.judge_eq hend
      rw [if_neg (by simp [hpermanent]), if_pos hspent.ge] at hjudge
      obtain ⟨hnone, hexhausted⟩ := supervise_of_failure n hend hjudge rfl
      exact ⟨htail hnone, hexhausted⟩
    waits := fun e hend hpermanent hspent => by
      have hle := h.spent_le (r.session w)
      have hjudge := h.judge_eq hend
      rw [if_neg (by simp [hpermanent]), if_neg (by omega)] at hjudge
      obtain ⟨hgiven, hwaited⟩ := supervise_of_wait n hend hjudge
      refine ⟨fun hpause => ?_, fun hpause => ?_⟩
      · obtain ⟨hnone, hdone⟩ := hgiven hpause
        exact ⟨htail hnone, hdone⟩
      · obtain ⟨next, hsome, hsupervise, -, hstream⟩ := hwaited hpause
        have hhead : (r.sessions w (n + 1)).tail.head? =
            if n = 0 then none else some (next.session w) := by
          rw [sessions_succ, hsome]
          exact head?_sessions w n next
        rw [hhead, hsupervise]
        cases n with
        | zero => exact ⟨fun _ => rfl, fun _ hnext => nomatch hnext⟩
        | succ n =>
          refine ⟨fun hnone => ?_, fun _ hnext => ?_⟩
          · cases hnone
          · cases hnext
            exact hstream }

/-- What follows each session. -/
theorem Rests.decided_of_split (h : r.Rests c spent) (n : Nat) (earlier : List (Session ω))
    (s : Session ω) (later : List (Session ω)) (hsplit : r.sessions w n = earlier ++ s :: later) :
    s.Decided w c (reconnects earlier spent) later.head? (r.supervise w n) := by
  induction n generalizing r spent earlier with
  | zero =>
    have hnil : ([] : List (Session ω)) = earlier ++ s :: later := hsplit
    simp at hnil
  | succ n ih =>
    cases earlier with
    | nil =>
      have hdecided := h.decided (w := w) n
      rw [hsplit] at hdecided
      rw [sessions_succ, List.nil_append, List.cons.injEq] at hsplit
      rw [hsplit.1] at hdecided
      exact hdecided
    | cons first earlier =>
      rw [sessions_succ, List.cons_append, List.cons.injEq] at hsplit
      obtain ⟨rfl, hrest⟩ := hsplit
      rcases h.ends_or_goesOn w n with ⟨hnone, -⟩ | ⟨r', hsome, hrests, hsupervise⟩
      · rw [hnone] at hrest
        simp at hrest
      · rw [hsome] at hrest
        rw [hsupervise]
        exact ih hrests earlier hrest

end Running

theorem reconnects_append (earlier later : List (Session ω)) (before : Nat) :
    reconnects (earlier ++ later) before = reconnects later (reconnects earlier before) :=
  List.foldl_append

/-- Each session without data adds a reconnect. -/
theorem reconnects_of_dry {dry : List (Session ω)} (hdry : ∀ s ∈ dry, s.broughtData = false)
    (before : Nat) : reconnects dry before = before + dry.length := by
  induction dry generalizing before with
  | nil => rfl
  | cons s rest ih =>
    have hspent : s.spent before = before := by simp [Session.spent, hdry s (by simp)]
    rw [reconnects, List.foldl_cons, hspent]
    have hrest := ih (fun t ht => hdry t (by simp [ht])) (before + 1)
    rw [reconnects] at hrest
    rw [hrest, List.length_cons]
    omega

namespace Running

variable {w : Surroundings η ω} {r : Running ω} {c : Settings.Reconnect} {spent : Nat}

/-- Not too many sessions without data follow one another. -/
theorem Rests.dry_le (h : r.Rests c spent) (n : Nat) {earlier dry later : List (Session ω)}
    (hsplit : r.sessions w n = earlier ++ dry ++ later)
    (hdry : ∀ s ∈ dry, s.broughtData = false) : dry.length ≤ c.attempts.toNat + 1 := by
  rcases List.eq_nil_or_concat dry with rfl | ⟨dry, last, rfl⟩
  · simp
  · have hlast : r.sessions w n = (earlier ++ dry) ++ last :: later := by simpa using hsplit
    have hwithin := (h.decided_of_split n _ _ _ hlast).within
    rw [reconnects_append, reconnects_of_dry fun s hs => hdry s (by simp [hs])] at hwithin
    simp only [List.concat_eq_append, List.length_append, List.length_singleton]
    omega

theorem Rests.length_of_unfinished (h : r.Rests c spent) (n : Nat)
    (hend : (r.supervise w n).2 = .unfinished) : (r.sessions w n).length = n := by
  induction n generalizing r spent with
  | zero => rfl
  | succ n ih =>
    rcases h.ends_or_goesOn w n with ⟨-, hends⟩ | ⟨r', hsome, hrests, hsupervise⟩
    · exact absurd hend hends
    · rw [hsupervise] at hend
      rw [sessions_succ, hsome, List.length_cons, ih hrests hend]

theorem mem_sessions {n : Nat} {s : Session ω} (hs : s ∈ r.sessions w n) :
    ∃ r' : Running ω, s = r'.session w := by
  induction n generalizing r with
  | zero => cases hs
  | succ n ih =>
    rcases List.mem_cons.mp hs with rfl | hs
    · exact ⟨r, rfl⟩
    · cases hnext : (r.session w).next? w with
      | none =>
        rw [hnext] at hs
        cases hs
      | some r' =>
        rw [hnext] at hs
        exact ih hs

/-- A collector that has come to its end did so after some last session. -/
theorem Rests.decided_last (h : r.Rests c spent) (n : Nat)
    (hend : (r.supervise w n).2 ≠ .unfinished) :
    ∃ earlier last, r.sessions w n = earlier ++ [last] ∧
      last.Decided w c (reconnects earlier spent) none (r.supervise w n) := by
  rcases List.eq_nil_or_concat (r.sessions w n) with hnil | ⟨earlier, last, hsplit⟩
  · cases n with
    | zero => exact absurd rfl hend
    | succ n => rw [sessions_succ] at hnil; cases hnil
  · rw [List.concat_eq_append] at hsplit
    exact ⟨earlier, last, hsplit, h.decided_of_split n earlier last [] hsplit⟩

end Running

/-- How a session that nothing follows ended a collector. -/
theorem Session.Decided.end_cases {w : Surroundings η ω} {c : Settings.Reconnect} {before : Nat}
    {s : Session ω} {outcome : Running ω × Ending} (h : s.Decided w c before none outcome)
    (hend : outcome.2 ≠ .unfinished) :
    (s.ending = .interrupted ∧ outcome.2 = .done) ∨
      ∃ e, s.ending = .failed e ∧
        ((e.isPermanent = true ∧ outcome.2 = .failed (.stopped e)) ∨
          (e.isPermanent = false ∧ s.spent before = c.attempts.toNat ∧
            outcome.2 = .failed (.exhausted e)) ∨
          ((∃ a delay, (w.pause a delay).1 = true) ∧ outcome.2 = .done)) := by
  cases hending : s.ending with
  | interrupted => exact Or.inl ⟨rfl, (h.interrupted hending).2⟩
  | failed e =>
    refine Or.inr ⟨e, rfl, ?_⟩
    cases hpermanent : e.isPermanent with
    | true => exact Or.inl ⟨rfl, (h.permanent e hending hpermanent).2.1⟩
    | false =>
      right
      by_cases hspent : s.spent before = c.attempts.toNat
      · exact Or.inl ⟨rfl, hspent, (h.exhausted e hending hpermanent hspent).2.1⟩
      · right
        obtain ⟨hgiven, hwaited⟩ := h.waits e hending hpermanent hspent
        cases hpause : (w.pause s.left.stream.wire
            (c.delay (min (s.spent before) Settings.Reconnect.doublings))).1 with
        | true => exact ⟨⟨_, _, hpause⟩, (hgiven hpause).2⟩
        | false => exact absurd ((hwaited hpause).1 rfl) hend

/-- Whether waiting is never given up. -/
def Surroundings.IsPatient (w : Surroundings η ω) : Prop :=
  (∀ a, (w.wire.receive a).1 ≠ .interrupted) ∧ ∀ a delay, (w.pause a delay).1 = false

namespace Running

variable {w : Surroundings η ω} {r : Running ω} {c : Settings.Reconnect} {spent : Nat}

theorem Rests.exhausted_iff (h : r.Rests c spent) (n : Nat) (e : Feed.Error) :
    (r.supervise w n).2 = .failed (.exhausted e) ↔
      ∃ earlier last, r.sessions w n = earlier ++ [last] ∧ last.ending = .failed e ∧
        e.isPermanent = false ∧ last.spent (reconnects earlier spent) = c.attempts.toNat := by
  constructor
  · intro hexhausted
    have hend : (r.supervise w n).2 ≠ .unfinished := by simp [hexhausted]
    obtain ⟨earlier, last, hsplit, hdecided⟩ := h.decided_last n hend
    refine ⟨earlier, last, hsplit, ?_⟩
    rcases hdecided.end_cases hend with ⟨-, hdone⟩ | ⟨e', hending, hcases⟩
    · rw [hexhausted] at hdone
      cases hdone
    · rcases hcases with ⟨-, hstopped⟩ | ⟨hpermanent, hspent, hexhausted'⟩ | ⟨-, hdone⟩
      · rw [hexhausted] at hstopped
        cases hstopped
      · cases hexhausted.symm.trans hexhausted'
        exact ⟨hending, hpermanent, hspent⟩
      · rw [hexhausted] at hdone
        cases hdone
  · rintro ⟨earlier, last, hsplit, hending, hpermanent, hspent⟩
    exact ((h.decided_of_split n earlier last [] hsplit).exhausted e hending hpermanent hspent).2.1

theorem Rests.not_done (h : r.Rests c spent) (n : Nat) (hpatient : w.IsPatient) :
    (r.supervise w n).2 ≠ .done := by
  intro hdone
  have hend : (r.supervise w n).2 ≠ .unfinished := by simp [hdone]
  obtain ⟨earlier, last, hsplit, hdecided⟩ := h.decided_last n hend
  rcases hdecided.end_cases hend with ⟨hinterrupted, -⟩ | ⟨e, -, hcases⟩
  · have hmem : last ∈ r.sessions w n := by simp [hsplit]
    obtain ⟨r', rfl⟩ := mem_sessions hmem
    obtain ⟨s, hreceive⟩ := Feed.Setup.run_interrupted hinterrupted
    obtain ⟨a, hwaits⟩ := Socket.receive_interrupted hreceive
    exact hpatient.1 a hwaits
  · rcases hcases with ⟨-, hstopped⟩ | ⟨-, -, hexhausted⟩ | ⟨⟨a, delay, hpause⟩, -⟩
    · rw [hdone] at hstopped
      cases hstopped
    · rw [hdone] at hexhausted
      cases hexhausted
    · rw [hpatient.2 a delay] at hpause
      cases hpause

end Running

theorem rests_of_prepare {s : Settings} {symbols : Feed.SymbolTable}
    {identity : Transport.Identity} {wire : ω} {log : List Log.Line} {r : Running ω}
    (h : prepare s symbols identity wire log = .ok r) : r.Rests s.reconnect 0 := by
  unfold prepare at h
  cases hfeed : Feed.make symbols s.subscription with
  | error e =>
    rw [hfeed] at h
    cases h
  | ok feed =>
    cases haddress : Socket.checkAddress s.streaming.url with
    | error e =>
      rw [hfeed, Socket.make, haddress] at h
      cases h
    | ok _ =>
      rw [hfeed, Socket.make, haddress] at h
      cases h
      exact ⟨rfl, rfl, Nat.zero_le _⟩

/-- A collector runs its sessions on one socket. A permanent error ends it at once. After any other
error the reconnects count from zero again if data came in the session that failed, whatever the
socket has counted before; where all reconnects are spent the collector gives up, and nowhere else;
otherwise it waits and tries again. So only one session more than there are reconnects can go without
data in a row. -/
theorem sessions_decide (w : Surroundings η ω) (s : Settings) (symbols : Feed.SymbolTable)
    (identity : Transport.Identity) (wire : ω) (log : List Log.Line) (r : Running ω)
    (hprepared : prepare s symbols identity wire log = .ok r) (n : Nat) :
    let sessions := r.sessions w n
    let outcome := r.supervise w n
    (∀ earlier session later, sessions = earlier ++ session :: later →
        session.Decided w s.reconnect (reconnects earlier 0) later.head? outcome) ∧
      (∀ e, (Failure.exhausted e).context = "Max WebSocket connection attempts exceeded" ∧
        (outcome.2 = .failed (.exhausted e) ↔
          ∃ earlier last, sessions = earlier ++ [last] ∧ last.ending = .failed e ∧
            e.isPermanent = false ∧
            last.spent (reconnects earlier 0) = s.reconnect.attempts.toNat)) ∧
      (∀ earlier dry later, sessions = earlier ++ dry ++ later →
        (∀ session ∈ dry, session.broughtData = false) →
          dry.length ≤ s.reconnect.attempts.toNat + 1) ∧
      (outcome.2 = .unfinished → sessions.length = n) ∧
      (w.IsPatient → outcome.2 ≠ .done) := by
  have hrests := rests_of_prepare hprepared
  exact ⟨hrests.decided_of_split n, fun e => ⟨rfl, hrests.exhausted_iff n e⟩,
    fun earlier dry later hsplit hdry => hrests.dry_le n hsplit hdry,
    hrests.length_of_unfinished n, hrests.not_done n⟩

/-- Settings for a collector that reconnects once. -/
def hesitant : Settings where
  subscription := Feed.Subscription.add {} .orderbook "BTC-USD"
  reconnect := { attempts := 1 }

/-- A collector with these settings. -/
def lonely : Running Unit where
  setup :=
    { feed := { symbols := Feed.midway.symbols, subscription := hesitant.subscription }
      stream := { identity := { id := "feed.ws.0", kind := .ws }, address := hesitant.streaming.url,
                  timeout := hesitant.streaming.connectTimeout.toNat, wire := () }
      sink := {} }
  backoff := { reconnect := hesitant.reconnect }

/-- Surroundings in which nobody can be reached. -/
def desert : Surroundings Unit Unit := .offline (fun _ => .nothing) fun _ => none

theorem prepare_lonely :
    prepare hesitant Feed.midway.symbols { id := "feed.ws.0", kind := .ws } () [] =
      .ok lonely := by
  have haddress : Socket.checkAddress hesitant.streaming.url = .ok () := by
    decide +kernel
  have hfeed : Feed.make Feed.midway.symbols hesitant.subscription =
      .ok { symbols := Feed.midway.symbols, subscription := hesitant.subscription } := by cbv
  unfold prepare
  rw [hfeed, Socket.make, haddress]
  rfl

/-- Where nobody can be reached, a second session fails like the first, and then it is over. -/
theorem sessions_decide_offline :
    (lonely.sessions desert 5).length = 2 ∧
      (lonely.supervise desert 5).2 = .failed (.exhausted (.channel .webSocket)) := by
  obtain ⟨-, hexhausted, -⟩ := sessions_decide desert hesitant Feed.midway.symbols
    { id := "feed.ws.0", kind := .ws } () [] lonely prepare_lonely 5
  obtain ⟨first, last, hsessions, hfirst, hlast, hending⟩ : ∃ first last,
      lonely.sessions desert 5 = [first, last] ∧ first.broughtData = false ∧
        last.broughtData = false ∧ last.ending = .failed (.channel .webSocket) :=
    ⟨_, _, rfl, rfl, rfl, rfl⟩
  have hspent : last.spent (reconnects [first] 0) = 1 := by
    simp [Session.spent, reconnects, hfirst, hlast]
  exact ⟨by rw [hsessions]; rfl,
    (hexhausted _).2.mpr ⟨[first], last, hsessions, hending, rfl, hspent⟩⟩

end MarketFeed.Collector
