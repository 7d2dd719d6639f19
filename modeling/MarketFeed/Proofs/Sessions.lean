import Mathlib
import MarketFeed.Proofs.Accounting
import MarketFeed.Proofs.Lifecycle

/-!
The traffic of a session. A session touches its stream by nothing but opening it once, writing,
receiving and closing, so it is the same over a tapped wire, and what is true of the stream once it
is open stays true if these operations keep it. On a socket that was closed a session begins with its
only handshake, and the counters at its end are those of its own traffic, unless the handshake
failed.
-/
namespace MarketFeed.Feed

open Transport (Stream)

variable {σ τ κ : Type}

/-- A stream over another, of which it gives a view: it does to the view what the other does. -/
structure Shows (outer : Stream τ) (inner : Stream σ) (view : τ → σ) : Prop where
  id : ∀ t, inner.id (view t) = outer.id t
  isOpen : ∀ t, inner.isOpen (view t) = outer.isOpen t
  connect : ∀ t, inner.connect (view t) = (view (outer.connect t).1, (outer.connect t).2)
  close : ∀ t, inner.close (view t) = view (outer.close t)
  write : ∀ t text, inner.write (view t) text =
    (view (outer.write t text).1, (outer.write t text).2)
  receive : ∀ t, inner.receive (view t) = ((outer.receive t).1, view (outer.receive t).2)

/-- A property of a stream that is kept by all that is done to it once it is open. -/
structure Kept (stream : Stream σ) (P : σ → Prop) : Prop where
  close : ∀ s, P s → P (stream.close s)
  write : ∀ s text, P s → P (stream.write s text).1
  receive : ∀ s, P s → P (stream.receive s).2

theorem Kept.writeAll {stream : Stream σ} {P : σ → Prop} (h : Kept stream P) {s : σ} (hs : P s)
    (texts : List String) : P (stream.writeAll s texts).1 := by
  induction texts generalizing s with
  | nil => exact hs
  | cons text rest ih =>
    have hwritten := h.write s text hs
    cases hwrite : stream.write s text with
    | mk s' answer =>
      rw [hwrite] at hwritten
      cases answer with
      | ok _ =>
        simp only [Stream.writeAll, hwrite]
        exact ih hwritten
      | error e =>
        simp only [Stream.writeAll, hwrite]
        exact hwritten

theorem Kept.subscribe {stream : Stream σ} {P : σ → Prop} (h : Kept stream P) (f : Feed) {s : σ}
    (hs : P s) : P (f.subscribe stream s).1 := by
  cases hframes : f.subscribeFrames (stream.id s) with
  | error e =>
    simp only [Feed.subscribe, hframes]
    exact hs
  | ok frames =>
    have hwritten := h.writeAll hs frames
    cases hwrite : stream.writeAll s frames with
    | mk s' answer =>
      rw [hwrite] at hwritten
      cases answer <;> simpa only [Feed.subscribe, hframes, hwrite] using hwritten

theorem Shows.writeAll {outer : Stream τ} {inner : Stream σ} {view : τ → σ}
    (h : Shows outer inner view) (t : τ) (texts : List String) :
    inner.writeAll (view t) texts = (view (outer.writeAll t texts).1, (outer.writeAll t texts).2) := by
  induction texts generalizing t with
  | nil => rfl
  | cons text rest ih =>
    cases hwrite : outer.write t text with
    | mk t' answer =>
      have hshown := h.write t text
      rw [hwrite] at hshown
      cases answer with
      | ok _ => simp only [Stream.writeAll, hwrite, hshown, ih]
      | error e => simp only [Stream.writeAll, hwrite, hshown]

theorem Shows.subscribe {outer : Stream τ} {inner : Stream σ} {view : τ → σ}
    (h : Shows outer inner view) (f : Feed) (t : τ) :
    f.subscribe inner (view t) = (view (f.subscribe outer t).1, (f.subscribe outer t).2) := by
  cases hframes : f.subscribeFrames (outer.id t) with
  | error e => simp only [Feed.subscribe, h.id, hframes]
  | ok frames =>
    have hshown := h.writeAll t frames
    cases hwrite : outer.writeAll t frames with
    | mk t' answer =>
      rw [hwrite] at hshown
      cases answer <;> simp only [Feed.subscribe, h.id, hframes, hwrite, hshown]

namespace Setup

/-- A setup with a view of its stream. -/
def viewed (view : τ → σ) (x : Setup τ κ) : Setup σ κ := { x with stream := view x.stream }

section Following

variable {stream : Stream σ} {sink : Sink κ} {x : Setup σ κ} {s : σ}

theorem follow_of_interrupted (h : stream.receive x.stream = (.interrupted, s)) :
    x.follow stream sink = ({ x with stream := s }, .interrupted) := by
  rw [follow]
  split <;> next h' => cases h.symm.trans h'; try rfl

theorem follow_of_ended (h : stream.receive x.stream = (.ended, s)) :
    x.follow stream sink =
      finish stream { x with stream := s } (.channel (.closed (stream.id s))) := by
  rw [follow]
  split <;> next h' => cases h.symm.trans h'; try rfl

theorem follow_of_failed {e : Transport.Error} (h : stream.receive x.stream = (.failed e, s)) :
    x.follow stream sink = finish stream { x with stream := s } (.channel e) := by
  rw [follow]
  split <;> next h' => cases h.symm.trans h'; try rfl

theorem follow_of_frame {text : String} {receipt : UInt64}
    (h : stream.receive x.stream = (.frame text receipt, s)) :
    x.follow stream sink =
      match x.feed.handleWith sink x.sink text receipt with
      | (feed, kept, .ok ()) => follow stream sink { feed, stream := s, sink := kept }
      | (feed, kept, .error e) =>
        if e.isDropped then follow stream sink { feed, stream := s, sink := kept }
        else finish stream { feed, stream := s, sink := kept } e := by
  rw [follow]
  split <;> next h' => cases h.symm.trans h'; try rfl

end Following

section Showing

variable {outer : Stream τ} {inner : Stream σ} {view : τ → σ}

theorem finish_viewed (h : Shows outer inner view) (x : Setup τ κ) (e : Error) :
    finish inner (x.viewed view) e = ((finish outer x e).1.viewed view, (finish outer x e).2) := by
  simp [finish, viewed, h.close]

theorem follow_viewed (h : Shows outer inner view) (sink : Sink κ) (x : Setup τ κ) :
    (x.viewed view).follow inner sink =
      ((x.follow outer sink).1.viewed view, (x.follow outer sink).2) := by
  have hreceive : ∀ {x : Setup τ κ} {r : Transport.Received} {t : τ},
      outer.receive x.stream = (r, t) →
        inner.receive (x.viewed view).stream = (r, view t) := by
    intro x r t hx
    have hshown := h.receive x.stream
    rw [hx] at hshown
    exact hshown
  fun_induction follow outer sink x with
  | case1 x t hcame => exact follow_of_interrupted (hreceive hcame)
  | case2 x t hcame =>
    rw [follow_of_ended (hreceive hcame), h.id]
    exact finish_viewed h { x with stream := t } _
  | case3 x e t hcame =>
    rw [follow_of_failed (hreceive hcame)]
    exact finish_viewed h { x with stream := t } _
  | case4 x text receipt t hcame hpending feed kept hhandled ih =>
    rw [follow_of_frame (hreceive hcame)]
    have hsame : (x.viewed view).feed.handleWith sink (x.viewed view).sink text receipt =
        (feed, kept, .ok ()) := hhandled
    rw [hsame]
    exact ih
  | case5 x text receipt t hcame hpending feed kept e hhandled hdropped ih =>
    rw [follow_of_frame (hreceive hcame)]
    have hsame : (x.viewed view).feed.handleWith sink (x.viewed view).sink text receipt =
        (feed, kept, .error e) := hhandled
    simp only [hsame, hdropped, if_true]
    exact ih
  | case6 x text receipt t hcame hpending feed kept e hhandled hstops =>
    rw [follow_of_frame (hreceive hcame)]
    have hsame : (x.viewed view).feed.handleWith sink (x.viewed view).sink text receipt =
        (feed, kept, .error e) := hhandled
    simp only [hsame, hstops]
    exact finish_viewed h { feed, stream := t, sink := kept } e

/-- A session shows the same as a session on the stream that is shown. -/
theorem run_viewed (h : Shows outer inner view) (sink : Sink κ) (x : Setup τ κ) :
    (x.viewed view).run inner sink =
      ((x.run outer sink).1.viewed view, (x.run outer sink).2) := by
  have hopened : (if inner.isOpen (view x.stream) then (view x.stream, .ok ())
      else inner.connect (view x.stream)) =
        (view (if outer.isOpen x.stream then (x.stream, .ok ()) else outer.connect x.stream).1,
          (if outer.isOpen x.stream then (x.stream, .ok ()) else outer.connect x.stream).2) := by
    rw [h.isOpen, h.connect]
    split <;> rfl
  have hviewed : (x.viewed view).stream = view x.stream := rfl
  simp only [run]
  rw [hviewed, hopened]
  cases (if outer.isOpen x.stream then (x.stream, .ok ()) else outer.connect x.stream) with
  | mk t answer =>
    cases answer with
    | error e => rfl
    | ok _ =>
      have hsubscribed := h.subscribe x.feed.beginSession t
      have hfeed : (x.viewed view).feed = x.feed := rfl
      simp only [hfeed]
      rw [hsubscribed]
      cases x.feed.beginSession.subscribe outer t with
      | mk t' answer' =>
        cases answer' with
        | error e =>
          exact finish_viewed h { x with feed := x.feed.beginSession, stream := t' } e
        | ok _ =>
          exact follow_viewed h sink { x with feed := x.feed.fresh, stream := t' }

end Showing

section Keeping

variable {stream : Stream σ} {sink : Sink κ} {P : σ → Prop}

theorem Follows.kept {x : Setup σ κ} {came : List Arrival} {r : Setup σ κ × Ending}
    (h : Follows stream sink x came r) (hkept : Kept stream P) (hx : P x.stream) :
    P r.1.stream := by
  have hreceived : ∀ {s s' : σ} {received : Transport.Received},
      stream.receive s = (received, s') → P s → P s' := by
    intro s s' received hreceive hs
    have hnext := hkept.receive s hs
    rwa [hreceive] at hnext
  induction h with
  | interrupted x s hreceive => exact hreceived hreceive hx
  | ended x s hreceive => exact hkept.close s (hreceived hreceive hx)
  | failed x s e hreceive => exact hkept.close s (hreceived hreceive hx)
  | stopped x a s e hreceive herror hstops => exact hkept.close s (hreceived hreceive hx)
  | goesOn x a s rest r hreceive hgoes hrest ih => exact ih (hreceived hreceive hx)

theorem run_kept (hkept : Kept stream P) (sink : Sink κ) (x : Setup σ κ)
    (hopened : P (x.opened stream)) : P (x.run stream sink).1.stream := by
  by_cases hfails : x.OpenFails stream
  · obtain ⟨e, hrun⟩ := run_of_openFails sink hfails
    rw [hrun]
    simpa [opened, hfails.1] using hopened
  · rw [run_of_not_openFails hfails]
    have hsubscribed := hkept.subscribe x.feed.beginSession hopened
    cases hsubscribe : x.feed.beginSession.subscribe stream (x.opened stream) with
    | mk s answer =>
      rw [hsubscribe] at hsubscribed
      cases answer with
      | error e => exact hkept.close s hsubscribed
      | ok _ =>
        obtain ⟨came, hfollows⟩ :=
          follow_follows stream sink { x with feed := x.feed.fresh, stream := s }
        exact hfollows.kept hkept hsubscribed

theorem Follows.failed_end {x : Setup σ κ} {came : List Arrival} {r : Setup σ κ × Ending}
    (h : Follows stream sink x came r) (hclose : ∀ s, stream.isOpen (stream.close s) = false)
    {e : Error} (hend : r.2 = .failed e) :
    stream.isOpen r.1.stream = false ∧ r.1.feed.phase = endPhase e := by
  induction h with
  | interrupted x s hreceive => cases hend
  | ended x s hreceive =>
    cases hend
    exact ⟨hclose s, rfl⟩
  | failed x s e' hreceive =>
    cases hend
    exact ⟨hclose s, rfl⟩
  | stopped x a s e' hreceive herror hstops =>
    cases hend
    exact ⟨hclose s, rfl⟩
  | goesOn x a s rest r hreceive hgoes hrest ih => exact ih hend

theorem Follows.waits {x : Setup σ κ} {came : List Arrival} {r : Setup σ κ × Ending}
    (h : Follows stream sink x came r) (hend : r.2 = .interrupted) :
    ∃ s, (stream.receive s).1 = .interrupted := by
  induction h with
  | interrupted x s hreceive => exact ⟨x.stream, by rw [hreceive]⟩
  | ended x s hreceive => cases hend
  | failed x s e hreceive => cases hend
  | stopped x a s e hreceive herror hstops => cases hend
  | goesOn x a s rest r hreceive hgoes hrest ih => exact ih hend

/-- A session is interrupted only while it waits for the stream. -/
theorem run_interrupted {x : Setup σ κ} (hend : (x.run stream sink).2 = .interrupted) :
    ∃ s, (stream.receive s).1 = .interrupted := by
  by_cases hfails : x.OpenFails stream
  · obtain ⟨e, hrun⟩ := run_of_openFails sink hfails
    rw [hrun] at hend
    cases hend
  · rw [run_of_not_openFails hfails] at hend
    cases hsubscribe : x.feed.beginSession.subscribe stream (x.opened stream) with
    | mk s answer =>
      rw [hsubscribe] at hend
      cases answer with
      | error e => cases hend
      | ok _ =>
        obtain ⟨came, hfollows⟩ :=
          follow_follows stream sink { x with feed := x.feed.fresh, stream := s }
        exact hfollows.waits hend

/-- A session that fails leaves its stream closed, and the feed disconnected only if the stream
could not be opened. -/
theorem run_failed {x : Setup σ κ} {e : Error}
    (hclose : ∀ s, stream.isOpen (stream.close s) = false)
    (hconnect : ∀ s e, (stream.connect s).2 = .error e →
      stream.isOpen (stream.connect s).1 = false)
    (hend : (x.run stream sink).2 = .failed e) :
    stream.isOpen (x.run stream sink).1.stream = false ∧
      ((x.run stream sink).1.feed.phase = .disconnected ↔ x.OpenFails stream) := by
  have hphase : endPhase e ≠ .disconnected := by
    rcases endPhase_cases e with ⟨h, -⟩ | ⟨h, -⟩ <;> simp [h]
  by_cases hfails : x.OpenFails stream
  · obtain ⟨e', hrun⟩ := run_of_openFails sink hfails
    obtain ⟨-, cause, herror⟩ := id hfails
    rw [hrun]
    exact ⟨hconnect x.stream cause herror, by simp [hfails]⟩
  · rw [run_of_not_openFails hfails] at hend ⊢
    cases hsubscribe : x.feed.beginSession.subscribe stream (x.opened stream) with
    | mk s answer =>
      rw [hsubscribe] at hend
      cases answer with
      | error e' =>
        cases hend
        have hlast : (finish stream { x with feed := x.feed.beginSession, stream := s }
            e).1.feed.phase = endPhase e := rfl
        exact ⟨hclose s, by simpa [hlast, hfails] using hphase⟩
      | ok _ =>
        obtain ⟨came, hfollows⟩ :=
          follow_follows stream sink { x with feed := x.feed.fresh, stream := s }
        obtain ⟨hclosed, hlast⟩ := hfollows.failed_end hclose hend
        exact ⟨hclosed, by simpa [hlast, hfails] using hphase⟩

end Keeping

end Setup

end MarketFeed.Feed

namespace MarketFeed.Transport

theorem Traffic.isAccepted_of_not_handshake {t : Traffic} (h : t.isHandshake = false) :
    t.isAccepted = false := by
  cases t with
  | handshake outcome began => cases h
  | send _ _ _ | receive _ _ | close => rfl

namespace Socket

variable {ω : Type} {wire : Wire ω}

/-- A socket over a tapped wire, without the log. -/
def untapped (t : Socket (ω × List Traffic)) : Socket ω := { t with wire := t.wire.1 }

theorem perform_untapped (wire : Wire ω) (t : Socket (ω × List Traffic)) (c : Call) :
    t.untapped.perform wire c =
      ((t.perform wire.tapped c).1.untapped, (t.perform wire.tapped c).2) := by
  have htapped := (t.untapped.logs wire c).tapped t.wire.2
  have hsame : t.untapped.tapped t.wire.2 = t := rfl
  rw [hsame] at htapped
  rw [htapped]
  rfl

/-- Over a tapped wire a socket shows a socket over the wire itself. -/
theorem shows_untapped (wire : Wire ω) : Feed.Shows (stream wire.tapped) (stream wire) untapped where
  id _ := rfl
  isOpen _ := rfl
  connect t := by
    have h := perform_untapped wire t .connect
    simp only [perform, Prod.mk.injEq, Answer.done.injEq] at h
    exact Prod.ext h.1 h.2
  close t := congrArg Prod.fst (perform_untapped wire t .close)
  write t text := by
    have h := perform_untapped wire t (.write text)
    simp only [perform, Prod.mk.injEq, Answer.done.injEq] at h
    exact Prod.ext h.1 h.2
  receive t := by
    have h := perform_untapped wire t .receive
    simp only [perform, Prod.mk.injEq, Answer.received.injEq] at h
    exact Prod.ext h.2 h.1

theorem isOpen_close (wire : Wire ω) (s : Socket ω) : (s.close wire).isOpen = false := by
  unfold close
  split
  · rfl
  · next hopen => exact Bool.eq_false_iff.mpr hopen

theorem isOpen_connect (wire : Wire ω) (s : Socket ω) (e : Error)
    (h : (s.connect wire).2 = .error e) : (s.connect wire).1.isOpen = false := by
  cases hopen : s.isOpen with
  | true => simp [connect, hopen] at h
  | false =>
    unfold connect at h ⊢
    rw [hopen] at h ⊢
    cases hshake : wire.handshake s.wire s.address s.timeout with
    | mk outcome next => cases outcome <;> simp_all [note]

/-- A closed socket connects by one handshake. -/
theorem connect_of_closed (wire : Wire ω) {s : Socket ω} (hclosed : s.isOpen = false) :
    ∃ outcome began, (s.connect wire).2 = connected s.timeout outcome ∧
      s.Bears [.handshake outcome began] (s.connect wire).1 ∧
      ∀ log, (s.tapped log).connect wire.tapped =
        ((s.connect wire).1.tapped (log ++ [.handshake outcome began]), (s.connect wire).2) := by
  obtain ⟨l, hlogs⟩ := logs_connect wire s
  obtain ⟨outcome, began, rfl, hanswer⟩ : ∃ outcome began, l = [.handshake outcome began] ∧
      Answer.done (s.connect wire).2 = .done (connected s.timeout outcome) := by
    have hdoes : s.Does .connect l (.done (s.connect wire).2) := hlogs.does
    generalize (s.connect wire).2 = answer at hdoes ⊢
    cases hdoes with
    | connect _ outcome began => exact ⟨outcome, began, rfl, rfl⟩
    | connectOpen hopen =>
      rw [hclosed] at hopen
      cases hopen
  refine ⟨outcome, began, Answer.done.inj hanswer, hlogs.bears, fun log => ?_⟩
  have htapped := hlogs.tapped log
  simp only [perform, Prod.mk.injEq, Answer.done.injEq] at htapped
  exact Prod.ext htapped.1 htapped.2

/-- Only connecting shakes hands. -/
theorem Does.isHandshake {s : Socket ω} {c : Call} {l : List Traffic} {a : Answer}
    (h : s.Does c l a) (hc : c ≠ .connect) : ∀ t ∈ l, t.isHandshake = false := by
  cases h with
  | connect hclosed outcome began => exact absurd rfl hc
  | connectOpen hopen => exact absurd rfl hc
  | close hopen => simp [Traffic.isHandshake]
  | closeClosed hclosed => simp
  | write hopen text sent began => simp [Traffic.isHandshake]
  | writeClosed hclosed text => simp
  | receive hopen passed last time r hpassed hlast =>
    intro t ht
    rcases List.mem_append.mp ht with ht | ht
    · obtain ⟨p, -, rfl⟩ := List.mem_map.mp ht
      rfl
    · rw [Inbound.traffic] at ht
      split at ht <;> simp only [List.mem_cons, List.not_mem_nil, or_false] at ht
      · rcases ht with rfl | rfl <;> rfl
      · rw [ht]
        rfl
  | receiveClosed hclosed => simp

/-- Whether a socket over a tapped wire went on from another without a handshake. -/
def Continues (s t : Socket (ω × List Traffic)) : Prop :=
  ∃ rest, t.wire.2 = s.wire.2 ++ rest ∧ s.Bears rest t ∧ ∀ u ∈ rest, u.isHandshake = false

theorem Continues.perform {s t : Socket (ω × List Traffic)} (h : s.Continues t) {c : Call}
    (hc : c ≠ .connect) : s.Continues (t.perform wire.tapped c).1 := by
  obtain ⟨rest, hlog, hbears, hrest⟩ := h
  have hlogs := t.untapped.logs wire c
  have hperform := hlogs.tapped t.wire.2
  have hsame : t.untapped.tapped t.wire.2 = t := rfl
  rw [hsame] at hperform
  rw [hperform]
  refine ⟨rest ++ t.untapped.traffic wire c, ?_, hbears.trans hlogs.bears, fun u hu => ?_⟩
  · simp [tapped, hlog]
  · rcases List.mem_append.mp hu with hu | hu
    · exact hrest u hu
    · exact hlogs.does.isHandshake hc u hu

theorem continues_kept (wire : Wire ω) (s : Socket (ω × List Traffic)) :
    Feed.Kept (stream wire.tapped) s.Continues where
  close _ h := h.perform (c := .close) (by simp)
  write _ text h := h.perform (c := .write text) (by simp)
  receive _ h := h.perform (c := .receive) (by simp)

theorem Awaits.interrupted {s : Socket ω} {l : List Traffic} {r : Received × Socket ω}
    (h : Awaits wire s l r) (hend : r.1 = .interrupted) :
    ∃ w, (wire.receive w).1 = .interrupted := by
  induction h with
  | answered s inbound w a hreceive hanswer =>
    refine ⟨s.wire, ?_⟩
    cases hend
    rw [hreceive]
    cases inbound with
    | message m => cases m <;> simp [Inbound.answer?] at hanswer
    | failed | ended => cases hanswer
    | interrupted => rfl
  | passed s inbound w rest r hreceive hpassed hrest ih => exact ih hend

/-- Waiting for a text is given up only where waiting for a message is. -/
theorem receive_interrupted {s : Socket ω} (hend : (s.receive wire).1 = .interrupted) :
    ∃ w, (wire.receive w).1 = .interrupted := by
  cases hopen : s.isOpen with
  | false =>
    simp [receive, hopen] at hend
  | true =>
    rw [receive, hopen] at hend
    obtain ⟨l, hawaits⟩ := await_awaits wire s hopen
    exact hawaits.interrupted hend

/-- Without a handshake every message of data adds one to the counter. -/
theorem received_foldl_bear {l : List Traffic} (hl : ∀ t ∈ l, t.isHandshake = false)
    (s : Socket Unit) : (l.foldl bear s).identity.received =
      s.identity.received + .ofNat (l.countP Traffic.isData) := by
  induction l generalizing s with
  | nil => simp
  | cons t rest ih =>
    have haccepted := Traffic.isAccepted_of_not_handshake (hl t (by simp))
    have hbear : (s.bear t).identity.received =
        s.identity.received + if t.isData then 1 else 0 := by
      rw [bear, Traffic.count_eq, haccepted]
      rfl
    have hone : UInt64.ofNat (if t.isData then 1 else 0) = if t.isData then 1 else 0 := by
      split <;> rfl
    rw [List.foldl_cons, ih fun u hu => hl u (by simp [hu]), hbear, List.countP_cons,
      UInt64.ofNat_add, hone, UInt64.add_assoc, UInt64.add_comm (UInt64.ofNat _)]

/-- A session counts the messages of data that come in it. -/
theorem Bears.received {s s' : Socket ω} {began : UInt64} {rest : List Traffic}
    (h : s.Bears (.handshake .accepted began :: rest) s')
    (hrest : ∀ t ∈ rest, t.isHandshake = false) :
    s'.identity.received = .ofNat (rest.countP Traffic.isData) := by
  calc s'.identity.received = s'.bare.identity.received := rfl
    _ = (rest.foldl bear (s.bare.bear (.handshake .accepted began))).identity.received := by
      rw [h, List.foldl_cons]
    _ = .ofNat (rest.countP Traffic.isData) := by
      rw [received_foldl_bear hrest]
      exact UInt64.zero_add _

end Socket

end MarketFeed.Transport

namespace MarketFeed.Feed.Setup

open Transport (Socket Traffic Wire)

variable {ω κ : Type}

/-- What happens on the wire of a socket in a session. -/
def traffic (wire : Wire ω) (sink : Sink κ) (x : Setup (Socket ω) κ) : List Traffic :=
  ({ x with stream := x.stream.tapped [] }.run (Socket.stream wire.tapped) sink).1.stream.wire.2

variable {wire : Wire ω} {x : Setup (Socket ω) κ}

theorem run_untapped (wire : Wire ω) (sink : Sink κ) (x : Setup (Socket ω) κ) :
    x.run (Socket.stream wire) sink =
      (({ x with stream := x.stream.tapped [] }.run (Socket.stream wire.tapped)
          sink).1.viewed Socket.untapped,
        ({ x with stream := x.stream.tapped [] }.run (Socket.stream wire.tapped) sink).2) :=
  run_viewed (Socket.shows_untapped wire) sink { x with stream := x.stream.tapped [] }

/-- On a closed socket a session begins with its only handshake; unless that is accepted, nothing
else happens. -/
theorem traffic_of_closed (wire : Wire ω) (sink : Sink κ) (hclosed : x.stream.isOpen = false) :
    ∃ outcome began rest, x.traffic wire sink = .handshake outcome began :: rest ∧
      (∀ t ∈ rest, t.isHandshake = false) ∧
      (x.OpenFails (Socket.stream wire) ↔ outcome ≠ .accepted) ∧
      (outcome ≠ .accepted → rest = []) ∧
      x.stream.Bears (.handshake outcome began :: rest)
        (x.run (Socket.stream wire) sink).1.stream := by
  obtain ⟨outcome, began, hanswer, hbears, htapped⟩ := x.stream.connect_of_closed wire hclosed
  have hfails : x.OpenFails (Socket.stream wire) ↔ outcome ≠ .accepted := by
    have herror : (∃ e, (x.stream.connect wire).2 = .error e) ↔ outcome ≠ .accepted := by
      rw [hanswer]
      cases outcome <;> simp [Socket.connected]
    exact ⟨fun h => herror.mp h.2, fun h => ⟨hclosed, herror.mpr h⟩⟩
  -- Over the tapped wire the rest of the session goes on from what the handshake left.
  let y : Setup (Socket (ω × List Traffic)) κ := { x with stream := x.stream.tapped [] }
  have hclosed' : (Socket.stream wire.tapped).isOpen y.stream = false := hclosed
  have hconnected : (Socket.stream wire.tapped).connect y.stream =
      ((x.stream.connect wire).1.tapped [.handshake outcome began], (x.stream.connect wire).2) :=
    htapped []
  have hopened : y.opened (Socket.stream wire.tapped) =
      (x.stream.connect wire).1.tapped [.handshake outcome began] := by
    simp [opened, hclosed', hconnected]
  obtain ⟨rest, hlog, hrest, hquiet⟩ :=
    run_kept (Socket.continues_kept wire (y.opened (Socket.stream wire.tapped))) sink y
      ⟨[], by simp, rfl, by simp⟩
  rw [hopened] at hlog hrest
  have hafter : (x.run (Socket.stream wire) sink).1.stream.bare =
      rest.foldl Socket.bear (x.stream.connect wire).1.bare := by
    rw [run_untapped]
    exact hrest
  refine ⟨outcome, began, rest, hlog, hquiet, hfails, fun hrefused => ?_, ?_⟩
  · have hfails' : y.OpenFails (Socket.stream wire.tapped) := by
      obtain ⟨-, e, herror⟩ := hfails.mpr hrefused
      exact ⟨hclosed', e, by rw [hconnected]; exact herror⟩
    obtain ⟨e, hrun⟩ := run_of_openFails sink hfails'
    rw [hrun, hconnected] at hlog
    simpa [Socket.tapped] using hlog
  · rw [Socket.Bears, hafter, hbears]
    rfl

end MarketFeed.Feed.Setup
