import Dmdhcp.Lib.Run
import Dmdhcp.Moves

/-!
# Sequential runs of one lease

Every operation runs to completion before the next one starts.  A step is one datagram, one timer
fire or one `dmdhcp_renew`, together with the world's answers to the calls it makes.
-/

namespace Dmdhcp

/-- What can happen to a started lease.  A stale fire runs the callback without the timer having
been armed for it. -/
inductive Event
  | datagram (iface : Iface) (payload : List UInt8)
  | retransmit (stale : Bool)
  | leaseTimer (stale : Bool)
  | renew
  deriving DecidableEq, Repr

def Client.disarmRetransmit (c : Client) : Client :=
  c.update fun l => { l with retransmitTimer := l.retransmitTimer.disarm }

def Client.disarmLease (c : Client) : Client :=
  c.update fun l => { l with leaseTimer := l.leaseTimer.disarm }

/-- The client as the event's code finds it: a one-shot timer is disarmed as it fires. -/
def Client.before (c : Client) : Event → Client
  | .retransmit false => c.disarmRetransmit
  | .leaseTimer false => c.disarmLease
  | _ => c

def Client.step (c : Client) : Env × Event → Client
  | (env, .datagram iface payload) => c.receive env iface payload
  | (env, .retransmit stale) => retransmitTimerCallback env (c.before (.retransmit stale))
  | (env, .leaseTimer stale) => leaseTimerCallback env (c.before (.leaseTimer stale))
  | (env, .renew) => c.renew env

/-- The sequential runs of a lease. -/
abbrev Runs (c : Client) (inputs : List (Env × Event)) (c' : Client) : Prop :=
  Lts.Run (Lts.ofTotal Client.step) c inputs c'

/-- The ACK to its renewing or rebinding REQUEST that an event delivers to `c`, if it does. -/
def Client.renewalAck (c : Client) : Event → Option Reply
  | .datagram iface payload =>
    (parseReply payload).filter fun r =>
      c.matchesXid iface r.msg.xid ∧ messageType r.options = some MsgType.ack.toByte ∧
        (c.lease.state = .renewing ∨ c.lease.state = .rebinding)
  | _ => none

theorem Client.renewalAck_state {c : Client} {ev : Event} {r : Reply} (h : r ∈ c.renewalAck ev) :
    c.lease.state = .renewing ∨ c.lease.state = .rebinding := by
  cases ev with
  | datagram iface payload =>
    have hp := (Option.filter_eq_some_iff.mp h).2
    exact (of_decide_eq_true hp).2.2
  | retransmit stale => cases h
  | leaseTimer stale => cases h
  | renew => cases h

-- Only a datagram delivers an ACK, and it disarms no timer first.
theorem Client.before_of_renewalAck {c : Client} {ev : Event} {r : Reply}
    (h : r ∈ (c.before ev).renewalAck ev) : c.before ev = c := by
  cases ev with
  | datagram iface payload => rfl
  | retransmit stale => cases h
  | leaseTimer stale => cases h
  | renew => cases h

/-- Everything a sequential step can do to the client its code finds. -/
inductive Outcome (env : Env) (ev : Event) (c : Client) : Client → Prop
  | move {c' : Client} (h : Move env c c') : Outcome env ev c c'
  | failed {c' : Client} (error : Errno) (h : Move env c c') :
      Outcome env ev c (callOnError error c')
  | commit (h : c.lease.state = .checkingAck) (harp : env.arpReply = false) :
      Outcome env ev c (callOnBound false (commitProbed env c))
  | renewal (r : Reply) (h : r ∈ c.renewalAck ev) :
      Outcome env ev c (callOnBound true (acceptRenewal env r c))
  | lost (h : c.lease.state = .renewing ∨ c.lease.state = .rebinding) :
      Outcome env ev c (lifecycleHandleLost env c)

theorem receive_outcome (env : Env) (iface : Iface) (payload : List UInt8) (c : Client) :
    Outcome env (.datagram iface payload) c (c.receive env iface payload) := by
  unfold Client.receive
  split
  · exact .move .stay
  · rename_i r hr
    split_ifs with hx
    · unfold handleReply
      split
      · exact .move .stay
      · rename_i msgType ht
        -- The three outcomes of the locked section are the three kinds of outcome of the datagram.
        rcases datagramSection_cases env r msgType c with
          ⟨c', heq, hmove⟩ | ⟨heq, hack, hs⟩ | ⟨heq, hnak, hs⟩
        · rw [heq]
          exact .move hmove
        · rw [heq]
          refine .renewal r (Option.filter_eq_some_iff.mpr ⟨hr, ?_⟩)
          exact decide_eq_true ⟨hx, hack ▸ ht, hs⟩
        · rw [heq]
          exact .lost hs
    · exact .move .stay

theorem retransmitTimerCallback_outcome (env : Env) (ev : Event) (c : Client) :
    Outcome env ev c (retransmitTimerCallback env c) := by
  unfold retransmitTimerCallback
  rcases retransmitTimerSection_cases env c with
    ⟨c', after, heq, hmove, rfl | rfl⟩ | ⟨heq, hs, harp⟩
  · rw [heq]
    exact .move hmove
  · rw [heq]
    exact .failed _ hmove
  · rw [heq]
    exact .commit hs harp

theorem leaseTimerCallback_outcome (env : Env) (ev : Event) (c : Client) :
    Outcome env ev c (leaseTimerCallback env c) := by
  unfold leaseTimerCallback
  rcases leaseTimerSection_cases env c with ⟨c', heq, hmove⟩ | ⟨heq, hs⟩
  · rw [heq]
    exact .move hmove
  · rw [heq]
    exact .lost (.inr hs)

-- Every sequential step, by cases.
theorem Client.step_outcome (c : Client) (env : Env) (ev : Event) :
    Outcome env ev (c.before ev) (c.step (env, ev)) := by
  cases ev with
  | datagram iface payload => exact receive_outcome env iface payload c
  | retransmit stale => exact retransmitTimerCallback_outcome env _ _
  | leaseTimer stale => exact leaseTimerCallback_outcome env _ _
  | renew => exact .move (renew_move env c)

/-! ### A timer fire disarms and a callback records: nothing else -/

/-- The two clients differ in their timers only. -/
structure SameButTimers (c c' : Client) : Prop where
  netif : c'.netif = c.netif
  routes : c'.routes = c.routes
  log : c'.log = c.log
  lease : ∃ retransmitTimer leaseTimer, c'.lease = { c.lease with retransmitTimer, leaseTimer }

theorem Client.before_same (c : Client) (ev : Event) : SameButTimers c (c.before ev) := by
  cases ev with
  | retransmit stale => cases stale <;> exact ⟨rfl, rfl, rfl, _, _, rfl⟩
  | leaseTimer stale => cases stale <;> exact ⟨rfl, rfl, rfl, _, _, rfl⟩
  | datagram iface payload => exact ⟨rfl, rfl, rfl, _, _, rfl⟩
  | renew => exact ⟨rfl, rfl, rfl, _, _, rfl⟩

@[simp] theorem Client.before_state (c : Client) (ev : Event) :
    (c.before ev).lease.state = c.lease.state := by
  obtain ⟨_, _, h⟩ := (c.before_same ev).lease
  rw [h]

section
variable (isRenewal : Bool) (error : Errno) (c : Client)

@[simp] theorem callOnBound_lease : (callOnBound isRenewal c).lease = c.lease := by
  unfold callOnBound
  split_ifs <;> rfl

@[simp] theorem callOnBound_netif : (callOnBound isRenewal c).netif = c.netif := by
  unfold callOnBound
  split_ifs <;> rfl

@[simp] theorem callOnBound_routes : (callOnBound isRenewal c).routes = c.routes := by
  unfold callOnBound
  split_ifs <;> rfl

@[simp] theorem callOnError_lease : (callOnError error c).lease = c.lease := by
  unfold callOnError
  split_ifs <;> rfl

@[simp] theorem callOnError_netif : (callOnError error c).netif = c.netif := by
  unfold callOnError
  split_ifs <;> rfl

@[simp] theorem callOnError_routes : (callOnError error c).routes = c.routes := by
  unfold callOnError
  split_ifs <;> rfl

end

/-! ### The first state -/

/-- What `dmdhcp_start` leaves: a transaction under way and nothing installed. -/
structure Fresh (netif : Netif) (c : Client) : Prop where
  state : c.lease.state = .selecting ∨ c.lease.state = .rebooting
  ifaceConfigured : c.lease.ifaceConfigured = false
  defaultRoute : c.lease.defaultRoute = none
  netif : c.netif = netif
  routes : c.routes.entries = []

theorem start_fresh (env : Env) (iface : Iface) (netif : Netif) (callbacks : Callbacks)
    (userData : Nat) (options : Option StartOptions) :
    Fresh netif (Client.start env iface netif callbacks userData options) := by
  unfold Client.start startSection
  split
  · constructor <;> simp [outputStartReboot_lease, Lease.inExchange, Client.create, Lease.create]
  · constructor <;> simp [outputStartDiscovery_lease, Client.create, Lease.create]

theorem Fresh.holdsValidLease {netif : Netif} {c : Client} (h : Fresh netif c) :
    c.lease.state.holdsValidLease = false := by
  rcases h.state with hs | hs <;> rw [hs] <;> rfl

/-! ### A small network to run the model on -/

/-- A server's message, assembled as the tests' `build_dhcp_payload` does. -/
def replyPayload (msgType : MsgType) (xid : UInt32) (yiaddr : Ipv4) (options : List DhcpOption) :
    List UInt8 :=
  let header : Message :=
    { op := .bootreply, htype := 1, hlen := 6, hops := 0, xid, secs := 0, flags := flagBroadcast,
      ciaddr := .none, yiaddr := .v4 yiaddr, siaddr := .none, giaddr := .none,
      chaddr := Vector.replicate 16 0 }
  let encoded : Except Errno (List UInt8) := do
    let buffer ← buildMessage (List.replicate 320 0) header
    let (area, len) ← optionsWrite (buffer.drop 240)
      (⟨optMsgType, [msgType.toByte], Nat.le_of_ble_eq_true rfl⟩ :: options)
    pure ((buffer.take 240 ++ area).take (240 + len))
  encoded.toOption.getD []

/-- Every call succeeds, nobody answers an ARP probe, and `dmosi_rand32` returns `xid`. -/
def quietEnv (xid : UInt32) : Env where
  now := 0
  rand32 := xid
  arpReply := false
  setNetmask := true
  setIpAddress := true
  setBroadcast := true
  routeAdd := .create
  sendBuffer := true
  dnsRoom := 8
  ntpRoom := 8

def blankNetif : Netif := ⟨Vector.replicate 6 2, .none, .none, .none⟩

/-- Server identifier, netmask, router and lease time of a small network. -/
def grantOptions (router : Ipv4) (leaseTime : UInt32) : List DhcpOption :=
  [⟨optServerId, [10, 0, 0, 1], by decide⟩, ⟨optSubnetMask, [255, 255, 255, 0], by decide⟩,
    ⟨optRouter, router.bytes, by simp [Ipv4.bytes]⟩,
    ⟨optLeaseTime, u32Be leaseTime, by simp [u32Be]⟩]

/-- A lease started on interface 1 with all callbacks set. -/
def startedClient : Client := Client.start (quietEnv 7) 1 blankNetif ⟨true, true, true⟩ 0 none

/-- OFFER, clean probe, ACK, clean probe. -/
def acquireInputs (ip router : Ipv4) (leaseTime : UInt32) : List (Env × Event) :=
  [(quietEnv 7, .datagram 1 (replyPayload .offer 7 ip (grantOptions router leaseTime))),
    (quietEnv 7, .retransmit false),
    (quietEnv 7, .datagram 1 (replyPayload .ack 7 ip (grantOptions router leaseTime))),
    (quietEnv 7, .retransmit false)]

/-- A forced renewal that the server answers; `how` is what `dmroute_add` does then. -/
def renewInputs (how : RouteAdd) (ip router : Ipv4) (leaseTime : UInt32) : List (Env × Event) :=
  [(quietEnv 8, .renew),
    ({ quietEnv 8 with routeAdd := how },
      .datagram 1 (replyPayload .ack 8 ip (grantOptions router leaseTime)))]

end Dmdhcp
