import Dmdhcp.TableRace

/-!
# The module and the machine it runs on

All leases of the module at once.  dmnetif keeps a configuration for every interface and dmroute one
routing table for all of them; a lease reads and writes its own interface and finds its route among
those of the others.  Operations run to completion, in any order.
-/

namespace Dmdhcp

/-- What the lease table keeps of a lease: its fields, and the record of what it did. -/
structure TableEntry where
  lease : Lease
  log : List Effect
  deriving DecidableEq, Repr

def Client.entry (c : Client) : TableEntry := ⟨c.lease, c.log⟩

/-- The interfaces, the routing table and the lease table. -/
structure System where
  netifs : Iface → Netif
  routes : Routes
  table : List TableEntry

/-- A lease with the world as its code sees it. -/
def System.view (s : System) (e : TableEntry) : Client :=
  ⟨e.lease, s.netifs e.lease.iface, s.routes, e.log⟩

/-- The world as the code of a lease leaves it. -/
def System.leave (s : System) (c : Client) : System :=
  { s with netifs := Function.update s.netifs c.lease.iface c.netif, routes := c.routes }

/-- `compare_by_iface`. -/
def TableEntry.isOn (iface : Iface) (e : TableEntry) : Bool := e.lease.iface == iface

/-- `compare_by_xid`. -/
def TableEntry.matchesXid (iface : Iface) (xid : UInt32) (e : TableEntry) : Bool :=
  e.lease.iface == iface && e.lease.xid == xid

/-- `dmdhcp_lease_table_find_by_iface`. -/
def System.findByIface (s : System) (iface : Iface) : Option TableEntry :=
  s.table.find? (TableEntry.isOn iface)

/-- Work on the first lease that `dmlist_find` finds. -/
def System.onFirst (s : System) (p : TableEntry → Bool) (f : Client → Client) : System :=
  match s.table.find? p with
  | none => s
  | some e =>
    { s.leave (f (s.view e)) with
      table := modifyFirst p (fun _ => (f (s.view e)).entry) s.table }

/-- `dmdhcp_stop` or `dmdhcp_release` of the lease of an interface. -/
def System.teardown (s : System) (env : Env) (how : Teardown) (iface : Iface) : System :=
  match s.findByIface iface with
  | none => s
  | some e =>
    { s.leave (teardownSection env how (s.view e)) with
      table := s.table.eraseP (TableEntry.isOn iface) }

/-- The turn of the loop in `dmdhcp_lease_table_deinit` for one lease. -/
def System.unapply (envs : Iface → Env) (s : System) (e : TableEntry) : System :=
  s.leave (stopSection (envs e.lease.iface) (s.view e))

/-- `dmdhcp_lease_table_deinit`. -/
def System.deinit (s : System) (envs : Iface → Env) : System :=
  { s.table.foldl (System.unapply envs) s with table := [] }

/-- The lease that `dmdhcp_start` inserts, before its first locked section. -/
def System.create (s : System) (iface : Iface) (callbacks : Callbacks) (userData : Nat)
    (hostname : Option (List UInt8)) : Client :=
  { Client.create iface (s.netifs iface) callbacks userData hostname with routes := s.routes }

/-- `dmdhcp_start` on an interface.  `allocated` says whether there is memory for the lease and its
place in the table, `copied` whether there is some for the hostname. -/
def System.start (s : System) (env : Env) (iface : Iface) (callbacks : Callbacks) (userData : Nat)
    (options : Option StartOptions) (allocated copied : Bool) : System :=
  if allocated ∧ s.findByIface iface = none then
    let c := startSection env options (s.create iface callbacks userData
      (if copied then options.bind StartOptions.hostname else none))
    { s.leave c with table := s.table ++ [c.entry] }
  else s

/-- What can happen.  The application names a lease by its interface. -/
inductive SystemEvent
  | start (iface : Iface) (callbacks : Callbacks) (userData : Nat) (options : Option StartOptions)
      (allocated copied : Bool)
  | teardown (how : Teardown) (iface : Iface)
  | setCallbacks (iface : Iface) (callbacks : Option Callbacks) (userData : Nat)
  | renew (iface : Iface)
  | datagram (iface : Iface) (payload : List UInt8)
  | retransmit (iface : Iface) (stale : Bool)
  | leaseTimer (iface : Iface) (stale : Bool)
  | deinit (envs : Iface → Env)

def System.step (s : System) : Env × SystemEvent → System
  | (env, .start iface callbacks userData options allocated copied) =>
    s.start env iface callbacks userData options allocated copied
  | (env, .teardown how iface) => s.teardown env how iface
  | (_, .setCallbacks iface callbacks userData) =>
    s.onFirst (TableEntry.isOn iface) (Client.setCallbacks callbacks userData)
  | (env, .renew iface) => s.onFirst (TableEntry.isOn iface) fun c => c.step (env, .renew)
  | (env, .datagram iface payload) =>
    match parseReply payload with
    | none => s
    | some r => s.onFirst (TableEntry.matchesXid iface r.msg.xid) (handleReply env r)
  | (env, .retransmit iface stale) =>
    s.onFirst (TableEntry.isOn iface) fun c => c.step (env, .retransmit stale)
  | (env, .leaseTimer iface stale) =>
    s.onFirst (TableEntry.isOn iface) fun c => c.step (env, .leaseTimer stale)
  | (_, .deinit envs) => s.deinit envs

/-- No leases, no routes of theirs, and the interfaces as they are. -/
def System.initial (netifs : Iface → Netif) : System := ⟨netifs, ⟨[], 0⟩, []⟩

end Dmdhcp
