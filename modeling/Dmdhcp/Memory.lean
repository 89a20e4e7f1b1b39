import Dmdhcp.Lib.Alloc
import Dmdhcp.Reactions

/-!
# The memory behind a lease

Every request to the allocator that the code of one lease makes, in the order the source makes
them, with the list of servers as the heap entries it consists of.  `Env` only says how many
servers could be stored and whether there was a send buffer; here the allocator answers each
request, and the `Env` an operation runs with is what came of them.
-/

namespace Dmdhcp.Memory

open Alloc

/-! ## 1. What a lease is made of -/

/-- What `Dmod_Malloc`, `Dmod_StrDup`, `dmosi_mutex_create`, `dmosi_timer_create` and
`dmlist_create` hand out. -/
inductive Kind
  | lease
  | mutex
  | list
  | timer
  | address
  | text
  | message
  deriving DecidableEq, Repr

abbrev Pointer := Option (Obj Kind)

abbrev Code := Prog Kind

/-- A `Dmod_Malloc`'d `dmroute_addr_t` in a list. -/
structure ServerEntry where
  memory : Obj Kind
  addr : Addr
  deriving DecidableEq, Repr

/-- A `dmlist` of server addresses. -/
structure ServerList where
  list : Pointer
  entries : List ServerEntry
  deriving DecidableEq, Repr

/-- The pointers in a `struct dmdhcp_lease`, and the address of the struct. -/
structure Block where
  memory : Obj Kind
  lock : Pointer
  dnsServers : ServerList
  ntpServers : ServerList
  retransmitTimer : Pointer
  leaseTimer : Pointer
  hostname : Pointer
  deriving DecidableEq, Repr

/-- `dmdhcp_teardown_context_t`. -/
inductive TeardownContext
  | normal
  | retransmitTimer
  | leaseTimer
  deriving DecidableEq, Repr

/-- The addresses in a list. -/
def ServerList.addrs (s : ServerList) : List Addr := s.entries.map ServerEntry.addr

def ServerList.entryObjs (s : ServerList) : List (Obj Kind) := s.entries.map ServerEntry.memory

def ServerList.owned (s : ServerList) : Multiset (Obj Kind) := held s.list + s.entryObjs

/-- Everything that is given back with a lease. -/
def Block.owned (b : Block) : Multiset (Obj Kind) :=
  {b.memory} + held b.lock + b.dnsServers.owned + b.ntpServers.owned +
    held b.retransmitTimer + held b.leaseTimer + held b.hostname

/-- The check of `dmdhcp_lease_table_create`. -/
def Block.complete (b : Block) : Bool :=
  b.lock.isSome && b.dnsServers.list.isSome && b.ntpServers.list.isSome &&
    b.retransmitTimer.isSome && b.leaseTimer.isSome

/-! ## 2. Creating and destroying -/

/-- The body of `dmdhcp_lease_table_clear_dns_servers` and `_clear_ntp_servers`: pop and free until
the list is empty. -/
def ServerList.clear (s : ServerList) : Code ServerList :=
  match s.list with
  | none => return s
  | some _ => do
    freeAll s.entryObjs
    return { s with entries := [] }

def leaseTableClearDnsServers (b : Block) : Code Block := do
  let dnsServers ← b.dnsServers.clear
  return { b with dnsServers }

def leaseTableClearNtpServers (b : Block) : Code Block := do
  let ntpServers ← b.ntpServers.clear
  return { b with ntpServers }

/-- `destroy_with_context`. -/
def destroyWithContext (context : TeardownContext) (b : Block) : Code Unit := do
  -- The timer whose callback is running cannot be joined: it is stopped only.
  freeOption (if context = .retransmitTimer then none else b.retransmitTimer)
  freeOption (if context = .leaseTimer then none else b.leaseTimer)
  let b ← leaseTableClearDnsServers b
  freeOption b.dnsServers.list
  let b ← leaseTableClearNtpServers b
  freeOption b.ntpServers.list
  freeOption b.hostname
  freeOption b.lock
  free b.memory

def leaseTableDestroy (b : Block) : Code Unit := destroyWithContext .normal b

def leaseTableCreate : Code (Option Block) := do
  match ← alloc .lease with
  | none => return none
  | some memory =>
    -- All five are asked for, whatever became of the ones before.
    let lock ← alloc .mutex
    let dnsServers ← alloc .list
    let ntpServers ← alloc .list
    let retransmitTimer ← alloc .timer
    let leaseTimer ← alloc .timer
    let b : Block :=
      ⟨memory, lock, ⟨dnsServers, []⟩, ⟨ntpServers, []⟩, retransmitTimer, leaseTimer, none⟩
    if b.complete then return some b
    else do
      leaseTableDestroy b
      return none

/-- `lease->hostname = Dmod_StrDup(options->hostname)`, if there is one to copy. -/
def copyHostname (hostname : Option (List UInt8)) (b : Block) : Code Block :=
  match hostname with
  | none => return b
  | some _ => do
    let hostname ← alloc .text
    return { b with hostname }

/-! ## 3. Servers and messages -/

/-- The loop of `populate_lease_from_options` over the addresses of one option. -/
def ServerList.store (s : ServerList) : List Addr → Code ServerList
  | [] => return s
  | addr :: rest => do
    match ← alloc .address with
    | none => return s
    | some memory =>
      -- `dmlist_push_back`
      if ← ask then ServerList.store { s with entries := s.entries ++ [⟨memory, addr⟩] } rest
      else do
        free memory
        return s

/-- The addresses the loop runs over. -/
def listedAddrs (opt : DhcpOption) : List Addr :=
  (List.range opt.addrCount).map fun i => (opt.getAddrAt i).toOption.getD .none

def dnsOffered (options : List UInt8) : List Addr :=
  match optionsFind options optDnsServer with
  | .ok opt => listedAddrs opt
  | .error _ => []

def ntpOffered (options : List UInt8) : List Addr :=
  match optionsFind options optNtpServer with
  | .ok opt => if opt.data.length > 0 ∧ opt.data.length % 4 = 0 then listedAddrs opt else []
  | .error _ => []

/-- The requests of `populate_lease_from_options`. -/
def populate (options : List UInt8) (env : Env) (b : Block) : Code (Env × Block) := do
  let b ← leaseTableClearDnsServers b
  let dnsServers ← b.dnsServers.store (dnsOffered options)
  let b ← leaseTableClearNtpServers { b with dnsServers }
  let ntpServers ← b.ntpServers.store (ntpOffered options)
  return ({ env with dnsRoom := dnsServers.entries.length, ntpRoom := ntpServers.entries.length },
    { b with ntpServers })

/-- The request of `send_message`. -/
def sendBuffer (env : Env) : Code Env := do
  match ← alloc .message with
  | none => return { env with sendBuffer := false }
  | some buffer => do
    -- Freed after the send, and on both ways out before it.
    free buffer
    return { env with sendBuffer := true }

def send (env : Env) (b : Block) : Code (Env × Block) := do
  let env ← sendBuffer env
  return (env, b)

/-- The requests of `dmdhcp_output_start_discovery`. -/
def outputStartDiscovery (env : Env) (b : Block) : Code (Env × Block) := do
  let b ← leaseTableClearDnsServers b
  let b ← leaseTableClearNtpServers b
  send env b

/-- The requests of `dmdhcp_lifecycle_handle_lost`. -/
def lifecycleHandleLost (env : Env) (b : Block) : Code (Env × Block) := do
  let b ← leaseTableClearNtpServers b
  outputStartDiscovery env b

/-! ## 4. Operations -/

/-- The requests of `dmdhcp_handle_datagram` from `dmosi_mutex_lock` on. -/
def datagram (env : Env) (r : Reply) (msgType : UInt8) (state : State) (b : Block) :
    Code (Env × Block) :=
  if msgType = MsgType.offer.toByte ∧ state = .selecting then populate r.options env b
  else if msgType = MsgType.ack.toByte ∧ (state = .requesting ∨ state = .rebooting) then
    populate r.options env b
  else if msgType = MsgType.nak.toByte ∧ (state = .requesting ∨ state = .rebooting) then
    outputStartDiscovery env b
  else if msgType = MsgType.ack.toByte ∧ (state = .renewing ∨ state = .rebinding) then
    populate r.options env b
  else if msgType = MsgType.nak.toByte ∧ (state = .renewing ∨ state = .rebinding) then
    lifecycleHandleLost env b
  else return (env, b)

/-- The requests of `run_conflict_probe`: a DECLINE, a REQUEST or, with the address ours, none. -/
def conflictProbe (env : Env) (state : State) (b : Block) : Code (Env × Block) :=
  if env.arpReply ∨ state = .checkingOffer then send env b else return (env, b)

/-- The requests of the two states whose resends are counted. -/
def resendRequest (env : Env) (l : Lease) (b : Block) : Code (Env × Block) :=
  if l.retransmitCount + 1 > maxRequestRetransmits then outputStartDiscovery env b else send env b

/-- The requests of `retransmit_timer_callback`. -/
def retransmitTimer (env : Env) (l : Lease) (b : Block) : Code (Env × Block) :=
  match l.state with
  | .selecting => send env b
  | .requesting => resendRequest env l b
  | .rebooting => resendRequest env l b
  | .renewing => send env b
  | .rebinding => send env b
  | .checkingOffer => conflictProbe env l.state b
  | .checkingAck => conflictProbe env l.state b
  | .declining => outputStartDiscovery env b
  | .init => return (env, b)
  | .initReboot => return (env, b)
  | .bound => return (env, b)
  | .failed => return (env, b)

/-- The requests of `lease_timer_callback`. -/
def leaseTimer (env : Env) (state : State) (b : Block) : Code (Env × Block) :=
  if state = .bound then send env b
  else if state = .renewing then send env b
  else if state = .rebinding then lifecycleHandleLost env b
  else return (env, b)

/-- The requests of `dmdhcp_renew`. -/
def renew (env : Env) (state : State) (b : Block) : Code (Env × Block) :=
  if state = .bound then send env b else return (env, b)

/-- The requests of an event. -/
def event (env : Env) (c : Client) (b : Block) : Event → Code (Env × Block)
  | .datagram iface payload =>
    match c.delivered (.datagram iface payload) with
    | some (r, msgType) => datagram env r msgType c.lease.state b
    | none => return (env, b)
  | .retransmit _ => retransmitTimer env c.lease b
  | .leaseTimer _ => leaseTimer env c.lease.state b
  | .renew => renew env c.lease.state b

/-- The requests of the locked section of `dmdhcp_start`. -/
def start (env : Env) (options : Option StartOptions) (b : Block) : Code (Env × Block) :=
  match options with
  | some ⟨_, .v4 _⟩ => send env b
  | _ => outputStartDiscovery env b

/-- The requests of the locked section of `dmdhcp_release`. -/
def release (env : Env) (l : Lease) (b : Block) : Code (Env × Block) :=
  if l.offeredIp.isV4 ∧ l.serverId.isV4 then send env b else return (env, b)

/-- A lease and what it is made of. -/
structure Holding where
  client : Client
  block : Block
  deriving DecidableEq, Repr

/-- An event, run with what became of its requests. -/
def Holding.step (s : Holding) (env : Env) (ev : Event) : Code Holding := do
  let (env, block) ← event env s.client s.block ev
  return ⟨s.client.step (env, ev), block⟩

end Dmdhcp.Memory
