import MarketFeed.Transport.AsyncHttp
import MarketFeed.Transport.BlockingHttp

/-!
The two forms of an HTTP channel agree. What one of them does and answers the other does and answers
too, operation for operation, in whatever state they are and whatever the network brings.
-/
namespace MarketFeed.Transport

variable {η α β : Type}

/-- The blocking channel in the same state. -/
def AsyncHttp.blocking (s : AsyncHttp η) : BlockingHttp η :=
  { identity := s.identity, agent := s.agent, timeout := s.timeout, records := s.records
    network := s.network }

/-- Whether operations on the two forms do the same. -/
def Agrees (m : Operation (AsyncHttp η) α) (m' : Operation (BlockingHttp η) α) : Prop :=
  ∀ s, m'.on s.blocking = ((m.on s).1.blocking, (m.on s).2)

theorem agrees_pure (a : α) : Agrees (η := η) (pure a) (pure a) := fun _ => rfl

theorem agrees_throw (e : Error) : Agrees (η := η) (α := α) (throw e) (throw e) := fun _ => rfl

theorem agrees_set (s : AsyncHttp η) :
    Agrees (set s : Operation (AsyncHttp η) PUnit) (set s.blocking) := fun _ => rfl

theorem agrees_modify {f : AsyncHttp η → AsyncHttp η} {f' : BlockingHttp η → BlockingHttp η}
    (h : ∀ s, f' s.blocking = (f s).blocking) :
    Agrees (modify f : Operation (AsyncHttp η) PUnit) (modify f') := by
  intro s
  rw [Operation.on_modify, Operation.on_modify, h s]

/-- What is done next may depend on the state. -/
theorem agrees_get {f : AsyncHttp η → Operation (AsyncHttp η) α}
    {f' : BlockingHttp η → Operation (BlockingHttp η) α} (h : ∀ s, Agrees (f s) (f' s.blocking)) :
    Agrees (get >>= f) (get >>= f') := fun s => h s s

theorem Agrees.bind {m : Operation (AsyncHttp η) α} {m' : Operation (BlockingHttp η) α}
    {f : α → Operation (AsyncHttp η) β} {f' : α → Operation (BlockingHttp η) β}
    (hm : Agrees m m') (hf : ∀ a, Agrees (f a) (f' a)) : Agrees (m >>= f) (m' >>= f') := by
  intro s
  rw [Operation.on_bind, Operation.on_bind, hm s]
  cases m.on s with
  | mk t answer =>
    cases answer with
    | ok a => exact hf a t
    | error e => rfl

theorem agrees_bytes (r : Response) : Agrees (η := η) r.bytes r.bytes := by
  unfold Response.bytes
  cases r.body with
  | ok body => exact agrees_pure body
  | error transient => exact agrees_throw (.http transient)

section Channels

variable (net : Network η)

theorem agrees_connect : Agrees (AsyncHttp.connect net) (BlockingHttp.connect net) := by
  unfold AsyncHttp.connect BlockingHttp.connect
  refine agrees_get fun s => ?_
  have hagent : s.blocking.agent = s.agent := rfl
  rw [hagent]
  split
  · exact agrees_pure ()
  · have hnetwork : s.blocking.network = s.network := rfl
    have htimeout : s.blocking.timeout = s.timeout := rfl
    simp only [hnetwork, htimeout]
    cases hbuilt : net.build s.network { timeout := s.timeout } with
    | mk built network =>
      cases built with
      | true => exact agrees_set _
      | false => exact (agrees_set _).bind fun _ => agrees_throw (.http false)

theorem agrees_session : Agrees (AsyncHttp.session net) (BlockingHttp.session net) := by
  unfold AsyncHttp.session BlockingHttp.session
  refine agrees_get fun s => ?_
  have hbefore : s.blocking.agent = s.agent := rfl
  rw [hbefore]
  split
  case' isTrue => refine (agrees_connect net).bind fun _ => ?_
  -- Whether or not the channel had to be opened, the agent it now has is taken.
  all_goals
    refine agrees_get fun s => ?_
    have hagent : s.blocking.agent = s.agent := rfl
    rw [hagent]
    cases s.agent with
    | some agent => exact agrees_pure agent
    | none => exact agrees_throw _

theorem agrees_capture (payload : Octets) (time : UInt64) (context : Context) :
    Agrees (η := η) (AsyncHttp.capture payload time context)
      (BlockingHttp.capture payload time context) := agrees_modify fun _ => rfl

theorem agrees_checkStatus (address : String) (status : Nat) :
    Agrees (η := η) (AsyncHttp.checkStatus address status)
      (BlockingHttp.checkStatus address status) := by
  unfold AsyncHttp.checkStatus BlockingHttp.checkStatus
  split
  · exact agrees_pure ()
  · exact agrees_get fun s => agrees_throw (.status s.identity.id address status)

theorem agrees_send (agent : Agent) (outgoing : Outgoing) :
    Agrees (AsyncHttp.send net agent outgoing) (BlockingHttp.send net agent outgoing) := by
  refine agrees_get fun s => ?_
  have hnetwork : s.blocking.network = s.network := rfl
  rw [hnetwork]
  cases net.send s.network agent outgoing with
  | mk answer network =>
    refine (agrees_set { s with network }).bind fun _ => ?_
    cases answer with
    | ok response => exact agrees_pure response
    | error transient => exact agrees_throw (.http transient)

theorem agrees_read (request : Request) :
    Agrees (AsyncHttp.read net request) (BlockingHttp.read net request) := by
  refine (agrees_session net).bind fun agent => (agrees_send net agent _).bind fun response => ?_
  refine (agrees_bytes response).bind fun body => agrees_get fun s => ?_
  refine (agrees_modify fun _ => rfl).bind fun _ => (agrees_capture _ _ _).bind fun _ => ?_
  exact (agrees_checkStatus request.address response.status).bind fun _ => agrees_pure _

theorem agrees_write (address : String) (body : Octets) (headers : Headers) :
    Agrees (AsyncHttp.write net address body headers)
      (BlockingHttp.write net address body headers) := by
  refine (agrees_session net).bind fun agent => (agrees_send net agent _).bind fun response => ?_
  refine (agrees_modify fun _ => rfl).bind fun _ => (agrees_bytes response).bind fun data => ?_
  refine agrees_get fun s => (agrees_capture _ _ _).bind fun _ => ?_
  exact (agrees_checkStatus address response.status).bind fun _ => agrees_pure data

end Channels

end MarketFeed.Transport
