import Mathlib
import MarketFeed.Proofs.Elementwise
import MarketFeed.Proofs.Traffic

/-!
The books of a socket. Whatever is asked of it and whatever its wire does, its state, its counters
and what it captured are what the traffic on the wire says: the counters are those of the latest
session, which began with the latest handshake that was accepted, and everything is captured in the
order in which it happened.
-/
namespace MarketFeed.Transport

section Logs

variable {α : Type}

/-- What a log holds from the latest entry of some sort on, or all of it if there is no such
entry. -/
def latest (begins : α → Bool) (log : List α) : List α :=
  log.foldl (fun l t => if begins t then [t] else l ++ [t]) []

theorem latest_snoc (begins : α → Bool) (log : List α) (t : α) :
    latest begins (log ++ [t]) = if begins t then [t] else latest begins log ++ [t] := by
  simp [latest, List.foldl_append]

/-- The entries of some sort in a log, counted in 64 bits, with one more entry. -/
theorem count_snoc (p : α → Bool) (log : List α) (t : α) :
    UInt64.ofNat ((log ++ [t]).countP p) =
      UInt64.ofNat (log.countP p) + if p t then 1 else 0 := by
  rw [List.countP_append, UInt64.ofNat_add, List.countP_singleton]
  split <;> rfl

theorem count_latest_snoc (begins p : α → Bool) (log : List α) (t : α) :
    UInt64.ofNat ((latest begins (log ++ [t])).countP p) =
      (if begins t then 0 else UInt64.ofNat ((latest begins log).countP p)) +
        if p t then 1 else 0 := by
  rw [latest_snoc]
  split
  · exact count_snoc p [] t
  · exact count_snoc p (latest begins log) t

theorem getLast?_latest_snoc {β : Type} (begins : α → Bool) (f : α → Option β) (log : List α)
    (t : α) (b : β) :
    ((latest begins (log ++ [t])).filterMap f).getLast?.getD b =
      (f t).getD (if begins t then b else ((latest begins log).filterMap f).getLast?.getD b) := by
  rw [latest_snoc]
  cases hvalue : f t <;> split <;> simp [hvalue]

/-- The records that are captured of a log, one more entry included. -/
theorem captured_snoc (captures : Bool) (record? : α → Option Record) (log : List α) (t : α) :
    (if captures then some (log.filterMap record?) else none).map (· ++ (record? t).toList) =
      if captures then some ((log ++ [t]).filterMap record?) else none := by
  cases captures with
  | false => rfl
  | true => cases hrecord : record? t <;> simp [hrecord]

/-- Whether something began in the course of a log and has not ended since. -/
def Lasts (begins ends : α → Bool) (log : List α) : Prop :=
  ∃ earlier t later, log = earlier ++ t :: later ∧ begins t = true ∧ ∀ u ∈ later, ends u = false

theorem lasts_snoc_of_begins {begins : α → Bool} (ends : α → Bool) {log : List α} {t : α}
    (h : begins t = true) : Lasts begins ends (log ++ [t]) :=
  ⟨log, t, [], rfl, h, by simp⟩

theorem lasts_snoc {begins : α → Bool} (ends : α → Bool) {log : List α} {t : α}
    (h : begins t = false) :
    Lasts begins ends (log ++ [t]) ↔ Lasts begins ends log ∧ ends t = false := by
  constructor
  · rintro ⟨earlier, u, later, heq, hu, hlater⟩
    rcases split_concat heq with ⟨-, -, rfl⟩ | ⟨later, rfl, hlog⟩
    · rw [h] at hu
      cases hu
    · exact ⟨⟨earlier, u, later, hlog, hu, fun v hv => hlater v (by simp [hv])⟩,
        hlater t (by simp)⟩
  · rintro ⟨⟨earlier, u, later, rfl, hu, hlater⟩, ht⟩
    refine ⟨earlier, u, later ++ [t], by simp, hu, fun v hv => ?_⟩
    rcases List.mem_append.mp hv with hv | hv
    · exact hlater v hv
    · rw [List.mem_singleton.mp hv, ht]

end Logs

namespace Traffic

theorem ends_of_accepted {t : Traffic} (h : t.isAccepted = true) : t.ends = false := by
  cases t with
  | handshake outcome began => rfl
  | send _ _ _ | receive _ _ | close => cases h

variable (i : Identity) (t : Traffic)

/-- What an entry makes of each counter. -/
theorem count_eq : t.count i =
    { i with
      sessions := i.sessions + if t.isAccepted then 1 else 0
      sent := (if t.isAccepted then 0 else i.sent) + if t.isSent then 1 else 0
      received := (if t.isAccepted then 0 else i.received) + if t.isData then 1 else 0
      lastReceipt := t.dataTime?.getD (if t.isAccepted then 0 else i.lastReceipt) } := by
  cases haccepted : t.isAccepted <;> cases hsent : t.isSent <;> cases htime : t.dataTime? <;>
    simp [count, haccepted, hsent, htime, isData, Identity.beginSession, Identity.markSent,
      Identity.markReceived]

end Traffic

namespace Socket

variable {ω : Type}

/-- A socket whose books agree with the traffic on its wire. The counters are those of the latest
session, in 64 bits. -/
structure Accounted (id address : String) (captures : Bool) (log : List Traffic)
    (s : Socket ω) : Prop where
  id_eq : s.identity.id = id
  address_eq : s.address = address
  isOpen_iff : s.isOpen = true ↔ Lasts Traffic.isAccepted Traffic.ends log
  sessions_eq : s.identity.sessions = .ofNat (log.countP Traffic.isAccepted)
  sent_eq : s.identity.sent = .ofNat ((latest Traffic.isAccepted log).countP Traffic.isSent)
  received_eq : s.identity.received =
    .ofNat ((latest Traffic.isAccepted log).countP Traffic.isData)
  lastReceipt_eq : s.identity.lastReceipt =
    ((latest Traffic.isAccepted log).filterMap Traffic.dataTime?).getLast?.getD 0
  records_eq : s.records =
    if captures then some (log.filterMap (Traffic.record? id address)) else none

namespace Accounted

variable {id address : String} {captures : Bool} {log : List Traffic}

/-- One more happening on the wire is accounted for. -/
theorem bear {s : Socket Unit} (h : Accounted id address captures log s) (t : Traffic) :
    Accounted id address captures (log ++ [t]) (s.bear t) where
  id_eq := by rw [Socket.bear, Traffic.count_eq, h.id_eq]
  address_eq := h.address_eq
  isOpen_iff := by
    cases haccepted : t.isAccepted with
    | true =>
      simp [Socket.bear, haccepted, Traffic.ends_of_accepted haccepted,
        lasts_snoc_of_begins Traffic.ends haccepted]
    | false => simp [Socket.bear, haccepted, h.isOpen_iff, lasts_snoc Traffic.ends haccepted]
  sessions_eq := by rw [Socket.bear, Traffic.count_eq, h.sessions_eq, count_snoc]
  sent_eq := by rw [Socket.bear, Traffic.count_eq, h.sent_eq, count_latest_snoc]
  received_eq := by rw [Socket.bear, Traffic.count_eq, h.received_eq, count_latest_snoc]
  lastReceipt_eq := by
    rw [Socket.bear, Traffic.count_eq, h.lastReceipt_eq, getLast?_latest_snoc]
  records_eq := by
    rw [Socket.bear, h.records_eq, h.id_eq, h.address_eq, captured_snoc]

theorem run {s : Socket Unit} (h : Accounted id address captures log s) (l : List Traffic) :
    Accounted id address captures (log ++ l) (l.foldl Socket.bear s) := by
  induction l generalizing log s with
  | nil => simpa using h
  | cons t rest ih => simpa using ih (h.bear t)

end Accounted

/-- A socket after calls one after the other. -/
def performAll (wire : Wire ω) (s : Socket ω) (calls : List Call) : Socket ω :=
  calls.foldl (fun s c => (s.perform wire c).1) s

/-- What happens on the wire during calls one after the other. -/
def history (wire : Wire ω) : Socket ω → List Call → List Traffic
  | _, [] => []
  | s, c :: rest => s.traffic wire c ++ history wire (s.perform wire c).1 rest

variable {wire : Wire ω}

theorem performAll_bears (wire : Wire ω) (s : Socket ω) (calls : List Call) :
    s.Bears (s.history wire calls) (s.performAll wire calls) := by
  induction calls generalizing s with
  | nil => rfl
  | cons c rest ih => exact (s.logs wire c).bears.trans (ih _)

theorem performAll_tapped (wire : Wire ω) (s : Socket ω) (calls : List Call)
    (log : List Traffic) :
    (s.tapped log).performAll wire.tapped calls =
      (s.performAll wire calls).tapped (log ++ s.history wire calls) := by
  induction calls generalizing s log with
  | nil => simp [performAll, history]
  | cons c rest ih =>
    have htapped := (s.logs wire c).tapped log
    simp only [performAll, List.foldl_cons, history] at ih ⊢
    rw [htapped, ih, List.append_assoc]

/-- A socket that is new. -/
def fresh (id : String) (kind : Kind) (address : String) (timeout : Nat) (captures : Bool)
    (w : ω) : Socket ω :=
  { identity := { id, kind }, address, timeout,
    records := if captures then some [] else none, wire := w }

theorem fresh_accounted (id : String) (kind : Kind) (address : String) (timeout : Nat)
    (captures : Bool) (w : ω) :
    Accounted id address captures [] (fresh id kind address timeout captures w) where
  id_eq := rfl
  address_eq := rfl
  isOpen_iff := by simp [fresh, Lasts]
  sessions_eq := rfl
  sent_eq := rfl
  received_eq := rfl
  lastReceipt_eq := rfl
  records_eq := rfl

/-- After any calls over any wire the books of a socket are what the traffic on the wire says. The
traffic is what a tapped wire sees of the same calls, and what each call contributes to it and
answers is as listed in `Does`. Connecting an open socket changes nothing, and neither does sending
or receiving over a closed one, which fails. -/
theorem books_agree_with_traffic (wire : Wire ω) (w : ω) (id : String) (kind : Kind)
    (address : String) (timeout : Nat) (captures : Bool) (calls : List Call) :
    let new := fresh id kind address timeout captures w
    let s := new.performAll wire calls
    let log := new.history wire calls
    (new.tapped []).performAll wire.tapped calls = s.tapped log ∧
      s.Accounted id address captures log ∧
      (∀ c, s.Does c (s.traffic wire c) (s.perform wire c).2) ∧
      (s.isOpen = true → s.connect wire = (s, .ok ())) ∧
      (s.isOpen = false → (∀ text, s.write wire text = (s, .error (.closed id))) ∧
        s.receive wire = (.failed (.closed id), s)) := by
  intro new s log
  have hbears : new.Bears log s := performAll_bears wire new calls
  have haccounted : s.Accounted id address captures log := by
    have hfresh : Accounted id address captures [] new.bare :=
      { fresh_accounted id kind address timeout captures w with }
    have hbare := hfresh.run log
    rw [List.nil_append, ← hbears] at hbare
    exact { hbare with }
  have hclosed : s.closedError = .closed id := by rw [closedError, haccounted.id_eq]
  refine ⟨performAll_tapped wire new calls [], haccounted, fun c => (s.logs wire c).does,
    fun hopen => ?_, fun hopen => ⟨fun text => ?_, ?_⟩⟩
  · simp [connect, hopen]
  · simp [write, hopen, hclosed]
  · simp [receive, hopen, hclosed]

end Socket

end MarketFeed.Transport
