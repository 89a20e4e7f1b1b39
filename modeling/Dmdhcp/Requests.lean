import Dmdhcp.Lib.Simulation
import Mathlib.Data.List.Nodup
import Dmdhcp.TableRace
import Dmdhcp.TracedAlone

/-!
# Requests, one after the other

What reaches the module from outside: calls of its interface with any handle, `NULL` and handles of
leases that are gone included, datagrams and timer fires, under any outcome of the allocations.
Served one after the other, the code with its locks, handle checks and error paths does and answers
what a plain table of leases does and answers.
-/

namespace Dmdhcp.Traced

open Locking

/-! ## 1. Requests and answers -/

/-- What reaches the module.  A timer that fires is disarmed before, unless the fire is stale. -/
inductive Request
  | start (iface : Option Iface) (netif : Netif) (callbacks : Option Callbacks) (userData : Nat)
      (options : Option StartOptions)
  | stop (handle : Option LeaseId)
  | release (handle : Option LeaseId)
  | plain (op : PlainOp)
  | datagram (iface : Iface) (payload : List UInt8)
  | retransmit (id : LeaseId) (stale : Bool)
  | leaseTimer (id : LeaseId) (stale : Bool)
  deriving DecidableEq, Repr

/-- What the caller gets back. -/
inductive Answer
  | done
  | handle (id : Option LeaseId)
  | status (result : Except Errno Unit)
  | state (state : State)
  | iface (iface : Option Iface)
  | userData (userData : Nat)
  | xid (xid : UInt32)
  | info (result : Except Errno LeaseInfo)
  | count (n : Nat)
  | server (result : Except Errno Addr)
  | servers (result : Except Errno (Int × List Addr))
  deriving DecidableEq, Repr

def PlainOp.ask : PlainOp → Code Answer
  | .getState handle => do return .state (← Traced.getState handle)
  | .getIface handle => do return .iface (← Traced.getIface handle)
  | .getUserData handle => do return .userData (← Traced.getUserData handle)
  | .getXid handle => do return .xid (← Traced.getXid handle)
  | .getLeaseInfo handle out => do return .info (← Traced.getLeaseInfo handle out)
  | .getDnsServerCount handle => do return .count (← Traced.getDnsServerCount handle)
  | .getDnsServer handle index out => do return .server (← Traced.getDnsServer handle index out)
  | .getNtpServerCount handle => do return .count (← Traced.getNtpServerCount handle)
  | .getNtpServer handle index out => do return .server (← Traced.getNtpServer handle index out)
  | .getNtpServers out maxCount => do return .servers (← Traced.getNtpServers out maxCount)
  | .setCallbacks handle callbacks userData => do
    return .status (← Traced.setCallbacks handle callbacks userData)
  | .renew handle => do return .status (← Traced.renew handle)

def Request.run : Request → Code Answer
  | .start iface netif callbacks userData options => do
    return .handle (← Traced.start iface netif callbacks userData options)
  | .stop handle => do
    Traced.stop handle
    return .done
  | .release handle => do return .status (← Traced.release handle)
  | .plain op => op.ask
  | .datagram iface payload => do
    handleDatagram iface payload
    return .done
  | .retransmit id stale => do
    onLease id fun c => c.before (.retransmit stale)
    retransmitTimerCallback id
    return .done
  | .leaseTimer id stale => do
    onLease id fun c => c.before (.leaseTimer stale)
    leaseTimerCallback id
    return .done

/-- A request, with what the calls it leads to answer. -/
structure Turn where
  env : Env
  fresh : Option LeaseId
  pushed : Bool
  request : Request

def World.facing (w : World) (t : Turn) : World :=
  { w with env := t.env, fresh := t.fresh, pushed := t.pushed }

/-- Served with nobody interfering; `malloc` hands out no memory that is in use. -/
def Serves (w : World) (e : Turn × Answer) (w' : World) : Prop :=
  (∀ id ∈ e.1.fresh, id ∉ w.table) ∧ Alone e.1.request.run (w.facing e.1) e.2 w'

/-! ## 2. The plain table -/

/-- Handles and the leases they stand for, in order. -/
structure Table where
  handles : List LeaseId
  leases : List Client

/-- The lease a handle stands for. -/
def Table.at (s : Table) (handle : Option LeaseId) : Option Client :=
  handle.bind fun id => (s.handles.zip s.leases).lookup id

/-- A handle that stands for no lease is refused. -/
def Table.status (s : Table) (handle : Option LeaseId) : Except Errno Unit :=
  (s.at handle).elim (.error .einval) fun _ => .ok ()

/-- The entry of a list, where there is one and somewhere to put it. -/
def Table.serverAt (s : Table) (list : Lease → List Addr) (handle : Option LeaseId) (index : Nat)
    (out : Bool) : Except Errno Addr :=
  if out then
    (s.at handle).elim (.error .einval) fun c =>
      match (list c.lease)[index]? with
      | none => .error .einval
      | some a => .ok a
  else .error .einval

def PlainOp.answer (s : Table) : PlainOp → Answer
  | .getState handle => .state ((s.at handle).elim .failed fun c => c.lease.state)
  | .getIface handle => .iface ((s.at handle).map fun c => c.lease.iface)
  | .getUserData handle => .userData ((s.at handle).elim 0 fun c => c.lease.userData)
  | .getXid handle => .xid ((s.at handle).elim 0 fun c => c.lease.xid)
  | .getLeaseInfo handle out =>
    .info (if out then (s.at handle).elim (.error .einval) fun c => Dmdhcp.getLeaseInfo c.lease
      else .error .einval)
  | .getDnsServerCount handle => .count ((s.at handle).elim 0 fun c => c.lease.dnsServers.length)
  | .getDnsServer handle index out => .server (s.serverAt Lease.dnsServers handle index out)
  | .getNtpServerCount handle => .count ((s.at handle).elim 0 fun c => c.lease.ntpServers.length)
  | .getNtpServer handle index out => .server (s.serverAt Lease.ntpServers handle index out)
  | .getNtpServers out maxCount => .servers (Dmdhcp.getNtpServers out maxCount s.leases)
  | .setCallbacks handle _ _ => .status (s.status handle)
  | .renew handle => .status (s.status handle)

/-- The place in the table that `dmdhcp_start` gets on an interface, if it gets one. -/
def Turn.place (t : Turn) (s : Table) (iface : Iface) : Option LeaseId :=
  if t.pushed = true ∧ findByIface s.leases iface = none then t.fresh else none

def Turn.answer (t : Turn) (s : Table) : Answer :=
  match t.request with
  | .start iface _ _ _ _ => .handle (iface.bind (t.place s))
  | .release handle => .status (s.status handle)
  | .plain op => op.answer s
  | _ => .done

/-- What a request asks of the table: nothing, if its handle stands for no lease. -/
def Turn.op (t : Turn) (s : Table) : Option TableOp :=
  match t.request with
  | .start iface netif callbacks userData options =>
    iface.map fun iface => .event t.env (.start iface netif
      (callbacks.getD ⟨false, false, false⟩) userData options (t.fresh.isSome && t.pushed))
  | .stop handle => (s.at handle).map fun c => .teardown c.lease.iface
  | .release handle => (s.at handle).map fun c => .teardown c.lease.iface
  | .plain (.setCallbacks handle callbacks userData) =>
    (s.at handle).map fun c => .setCallbacks c.lease.iface callbacks userData
  | .plain (.renew handle) => (s.at handle).map fun c => .event t.env (.renew c.lease.iface)
  | .plain _ => none
  | .datagram iface payload => some (.event t.env (.datagram iface payload))
  | .retransmit id stale =>
    (s.at (some id)).map fun c => .event t.env (.retransmit c.lease.iface stale)
  | .leaseTimer id stale =>
    (s.at (some id)).map fun c => .event t.env (.leaseTimer c.lease.iface stale)

def Turn.handles (t : Turn) (s : Table) : List LeaseId :=
  match t.request with
  | .start (some iface) _ _ _ _ => s.handles ++ (t.place s iface).toList
  | .stop (some id) => s.handles.erase id
  | .release (some id) => s.handles.erase id
  | _ => s.handles

def Table.serve (s : Table) (t : Turn) : Table :=
  ⟨t.handles s, (t.op s).elim s.leases (tableOperate s.leases)⟩

def Table.Serves (s : Table) (e : Turn × Answer) (s' : Table) : Prop :=
  (∀ id ∈ e.1.fresh, id ∉ s.handles) ∧ e.2 = e.1.answer s ∧ s' = s.serve e.1

/-! ## 3. The relation between the two -/

/-- Handles that pass the check are those in the table, and each stands for an interface of its own.
No handler calls back. -/
structure World.Sound (w : World) : Prop where
  script : w.script = []
  live : ∀ id, w.magic id = true ↔ id ∈ w.table
  nodup : w.table.Nodup
  ifaces : (w.clients.map fun c => c.lease.iface).Nodup

def World.toTable (w : World) : Table := ⟨w.table, w.clients⟩

-- Run alone, a program has one outcome.
theorem alone_unique {α : Type} {p : Code α} {w w₁ w₂ : World} {a b : α} (h : Alone p w a w₁)
    (h' : Alone p w b w₂) : a = b ∧ w₁ = w₂ := by
  obtain ⟨trace₁, h₁⟩ := h []
  obtain ⟨trace₂, h₂⟩ := h' []
  obtain ⟨hanswer, hthread⟩ := Prod.mk.inj (h₁.symm.trans h₂)
  exact ⟨hanswer, (Thread.mk.inj hthread).1⟩

theorem lookup_zip_map (f : LeaseId → Client) (id : LeaseId) (ids : List LeaseId) :
    (ids.zip (ids.map f)).lookup id = if id ∈ ids then some (f id) else none := by
  induction ids with
  | nil => rfl
  | cons i ids ih =>
    rw [List.map_cons, List.zip_cons_cons, List.lookup_cons]
    by_cases hid : id = i
    · rw [beq_iff_eq.mpr hid, if_pos (hid ▸ List.mem_cons_self), hid]
    · rw [beq_eq_false_iff_ne.mpr hid, ih]
      simp only [List.mem_cons, hid, false_or]

section
variable {w : World} {id : LeaseId}

theorem World.at_listed (h : id ∈ w.table) : w.toTable.at (some id) = some (w.leases id) :=
  (lookup_zip_map w.leases id w.table).trans (if_pos h)

theorem World.at_gone (h : id ∉ w.table) : w.toTable.at (some id) = none :=
  (lookup_zip_map w.leases id w.table).trans (if_neg h)

-- The first lease on the interface of a listed lease is that lease.
theorem World.Sound.find (h : w.Sound) (hid : id ∈ w.table) :
    w.table.find? (fun i => (w.leases i).lease.iface == (w.leases id).lease.iface) = some id := by
  have hifaces : (w.table.map fun i => (w.leases i).lease.iface).Nodup := by
    have hnodup := h.ifaces
    rwa [World.clients, List.map_map] at hnodup
  have hinj := List.inj_on_of_nodup_map hifaces
  cases hfind : w.table.find? fun i => (w.leases i).lease.iface == (w.leases id).lease.iface with
  | none => exact absurd (beq_self_eq_true _) (List.find?_eq_none.mp hfind id hid)
  | some i =>
    have hi := List.mem_of_find?_eq_some hfind
    rw [hinj hi hid (beq_iff_eq.mp (List.find?_some (p := fun i =>
      (w.leases i).lease.iface == (w.leases id).lease.iface) hfind))]

/-- `p` answers `a` and leaves a world whose table is `s`. -/
def World.Answers (w : World) (p : Code Answer) (a : Answer) (s : Table) : Prop :=
  ∃ w', Alone p w a w' ∧ w'.Sound ∧ w'.toTable = s

-- A lease in the table changes, but not its interface.
theorem World.Sound.put (h : w.Sound) (hid : id ∈ w.table) (f : Client → Client)
    (hiface : (f (w.leases id)).lease.iface = (w.leases id).lease.iface) :
    (w.put id (f (w.leases id))).Sound ∧ (w.put id (f (w.leases id))).toTable =
      ⟨w.table, modifyFirst (fun c => c.lease.iface == (w.leases id).lease.iface) f w.clients⟩ := by
  have hclients : (w.put id (f (w.leases id))).clients =
      modifyFirst (fun c => c.lease.iface == (w.leases id).lease.iface) f w.clients :=
    World.put_clients (p := fun c => c.lease.iface == (w.leases id).lease.iface) h.nodup
      (h.find hid)
  refine ⟨⟨h.script, h.live, h.nodup, ?_⟩, congrArg (Table.mk w.table) hclients⟩
  have hsame : (w.put id (f (w.leases id))).clients.map (fun c => c.lease.iface) =
      w.clients.map fun c => c.lease.iface := by
    show (w.table.map _).map _ = (w.table.map _).map _
    rw [List.map_map, List.map_map]
    refine List.map_congr_left fun i hi => ?_
    by_cases heq : i = id
    · subst heq
      show ((w.put i (f (w.leases i))).leases i).lease.iface = _
      rw [World.put_leases]
      exact hiface
    · show (Function.update w.leases id (f (w.leases id)) i).lease.iface = _
      rw [Function.update_of_ne heq]
      rfl
  rw [hsame]
  exact h.ifaces

theorem World.Sound.not_live (h : w.Sound) (hid : id ∉ w.table) : w.magic id = false :=
  Bool.eq_false_iff.mpr fun hlive => hid ((h.live id).mp hlive)

/-! ## 4. What each request does -/

section
variable {α : Type} {invalid : α} {body : LeaseId → Code α}

theorem withLease_refuses (hmagic : w.magic id = false) :
    Alone (withLease (some id) invalid body) w invalid w := by
  apply Alone.bind (.read w)
  rw [if_neg (by rw [hmagic]; exact Bool.false_ne_true)]
  exact .pure _ _

theorem withLease_accepts (h : w.Sound) (hid : id ∈ w.table) {a : α} {w' : World}
    (hbody : Alone (body id) w a w') : Alone (withLease (some id) invalid body) w a w' := by
  apply Alone.bind (.read w)
  rw [if_pos ((h.live id).mpr hid)]
  exact hbody

-- An accessor reads the lease the handle stands for.
theorem withLease_reads (h : w.Sound) (handle : Option LeaseId) (f : Client → α)
    (hbody : ∀ id, Alone (body id) w (f (w.leases id)) w) :
    Alone (withLease handle invalid body) w ((w.toTable.at handle).elim invalid f) w := by
  cases handle with
  | none => exact .pure _ _
  | some id =>
    by_cases hid : id ∈ w.table
    · rw [World.at_listed hid]
      exact withLease_accepts h hid (hbody id)
    · rw [World.at_gone hid]
      exact withLease_refuses (h.not_live hid)

end

theorem readLocked_alone {α : Type} (w : World) (id : LeaseId) (f : Lease → α) :
    Alone (readLocked id f) w (f (w.leases id).lease) w := by
  have hlease := lease_alone w id (w.leases id)
  rw [World.put_self] at hlease
  exact .bind (.lock _ w) (.bind hlease (.bind (.unlock _ w) (.pure _ _)))

theorem readLocked_map {α : Type} (h : w.Sound) (handle : Option LeaseId) (invalid : α)
    (f : Lease → α) : Alone (withLease handle invalid fun id => readLocked id f) w
      ((w.toTable.at handle).elim invalid fun c => f c.lease) w :=
  withLease_reads h handle (fun c => f c.lease) fun id => readLocked_alone w id f

theorem serverAt_reads (h : w.Sound) (list : Lease → List Addr) (handle : Option LeaseId)
    (index : Nat) (out : Bool) : Alone (serverAt list handle index out) w
      (w.toTable.serverAt list handle index out) w := by
  unfold serverAt Table.serverAt
  split_ifs
  · exact readLocked_map h handle _ _
  · exact .pure _ _

theorem World.Answers.same (h : w.Sound) {p : Code Answer} {a : Answer} (hp : Alone p w a w) :
    w.Answers p a w.toTable := ⟨w, hp, h, rfl⟩

-- A request about a lease that is there.
theorem World.Sound.answers_put (h : w.Sound) (hid : id ∈ w.table) {p : Code Answer} {a : Answer}
    {f : Client → Client}
    (hiface : (f (w.leases id)).lease.iface = (w.leases id).lease.iface)
    (hp : Alone p w a (w.put id (f (w.leases id)))) : w.Answers p a
      ⟨w.table, modifyFirst (fun c => c.lease.iface == (w.leases id).lease.iface) f w.clients⟩ := by
  obtain ⟨hsound, htable⟩ := h.put hid f hiface
  exact ⟨_, hp, hsound, htable⟩

/-- The turn that `w` faces. -/
def World.turn (w : World) (request : Request) : Turn := ⟨w.env, w.fresh, w.pushed, request⟩

/-- The world serves the request as its table does. -/
def World.ServesAsTable (w : World) (request : Request) : Prop :=
  w.Answers request.run ((w.turn request).answer w.toTable) (w.toTable.serve (w.turn request))

theorem World.Sound.put_self_alone (h : w.Sound) (hid : id ∈ w.table) {α : Type} {p : Code α}
    {a : α} {w' : World}
    (hp : w.magic id = true → Alone p (w.put id (w.leases id)) a w') : Alone p w a w' := by
  have halone := hp ((h.live id).mpr hid)
  rwa [World.put_self] at halone

theorem alone_return {α : Type} {p : Code α} {a : α} {w' : World} (f : α → Answer)
    (hp : Alone p w a w') : Alone (do return f (← p)) w (f a) w' := .bind hp (.pure _ _)

theorem plain_served (h : w.Sound) (op : PlainOp) : w.ServesAsTable (.plain op) := by
  cases op with
  | getState handle => exact .same h (alone_return .state (readLocked_map h handle _ _))
  | getIface handle =>
    -- Read without the lock.
    have hread (id : LeaseId) : Alone (do let c ← lease id; return some c.lease.iface) w
        (some (w.leases id).lease.iface) w := by
      have hlease := lease_alone w id (w.leases id)
      rw [World.put_self] at hlease
      exact .bind hlease (.pure _ _)
    have hiface : Alone (getIface handle) w
        ((w.toTable.at handle).elim none fun c => some c.lease.iface) w :=
      withLease_reads h handle (fun c => some c.lease.iface) hread
    refine .same h (alone_return .iface ?_)
    cases hat : w.toTable.at handle <;> rw [hat] at hiface <;> exact hiface
  | getUserData handle => exact .same h (alone_return .userData (readLocked_map h handle _ _))
  | getXid handle => exact .same h (alone_return .xid (readLocked_map h handle _ _))
  | getLeaseInfo handle out =>
    refine .same h (alone_return .info ?_)
    unfold getLeaseInfo
    split_ifs
    · exact readLocked_map h handle _ _
    · exact .pure _ _
  | getDnsServerCount handle =>
    exact .same h (alone_return .count (readLocked_map h handle _ _))
  | getDnsServer handle index out =>
    exact .same h (alone_return .server (serverAt_reads h _ handle index out))
  | getNtpServerCount handle =>
    exact .same h (alone_return .count (readLocked_map h handle _ _))
  | getNtpServer handle index out =>
    exact .same h (alone_return .server (serverAt_reads h _ handle index out))
  | getNtpServers out maxCount =>
    exact .same h (alone_return .servers
      (getNtpServers_alone (fun id hid => (h.live id).mpr hid) out maxCount))
  | setCallbacks handle callbacks userData =>
    cases handle with
    | none => exact .same h (alone_return .status (.pure _ _))
    | some id =>
      show w.Answers _ (.status (w.toTable.status (some id))) ⟨w.table,
        ((w.toTable.at (some id)).map fun c => TableOp.setCallbacks c.lease.iface callbacks
          userData).elim w.clients (tableOperate w.clients)⟩
      rw [Table.status]
      by_cases hid : id ∈ w.table
      · rw [World.at_listed hid]
        exact h.answers_put hid (f := Client.setCallbacks callbacks userData) rfl
          (alone_return .status (h.put_self_alone hid fun hmagic =>
            setCallbacks_alone hmagic callbacks userData (w.leases id)))
      · rw [World.at_gone hid]
        exact .same h (alone_return .status (withLease_refuses (h.not_live hid)))
  | renew handle =>
    cases handle with
    | none => exact .same h (alone_return .status (.pure _ _))
    | some id =>
      show w.Answers _ (.status (w.toTable.status (some id))) ⟨w.table,
        ((w.toTable.at (some id)).map fun c => TableOp.event w.env (.renew c.lease.iface)).elim
          w.clients (tableOperate w.clients)⟩
      rw [Table.status]
      by_cases hid : id ∈ w.table
      · rw [World.at_listed hid]
        exact h.answers_put hid (f := fun c => c.step (w.env, .renew))
          (Client.operate_iface _ (.event w.env .renew))
          (alone_return .status (h.put_self_alone hid fun hmagic =>
            renew_alone hmagic (w.leases id)))
      · rw [World.at_gone hid]
        exact .same h (alone_return .status (withLease_refuses (h.not_live hid)))

-- A world that differs outside its table only.
theorem World.Sound.outside (h : w.Sound) {w' : World} (htable : w'.table = w.table)
    (hscript : w'.script = []) (hmagic : ∀ i, w'.magic i = w.magic i)
    (hleases : ∀ i ∈ w.table, w'.leases i = w.leases i) :
    w'.Sound ∧ w'.toTable = w.toTable := by
  have hclients : w'.clients = w.clients := by
    rw [World.clients, htable]
    exact List.map_congr_left hleases
  refine ⟨⟨hscript, fun i => ?_, htable ▸ h.nodup, ?_⟩, ?_⟩
  · rw [hmagic, htable]
    exact h.live i
  · rw [hclients]
    exact h.ifaces
  · rw [World.toTable, htable, hclients]
    rfl

-- A timer whose lease is gone does nothing.
theorem fire_refused (h : w.Sound) (hid : id ∉ w.table) (f : Client → Client)
    {body : LeaseId → Code Unit} : w.Answers
      (do
        onLease id f
        withLease (some id) () body
        return .done) .done w.toTable := by
  have hupdate : Alone (onLease id f) w () (w.put id (f (w.leases id))) := by
    have hput := onLease_alone w id (w.leases id) f
    rwa [World.put_self] at hput
  obtain ⟨hsound, htable⟩ := h.outside
    (show (w.put id (f (w.leases id))).table = w.table from rfl) h.script (fun _ => rfl)
    fun i hi => Function.update_of_ne (ne_of_mem_of_not_mem hi hid) _ _
  exact ⟨_, .bind hupdate (.bind (withLease_refuses (h.not_live hid)) (.pure _ _)), hsound, htable⟩

theorem handleDatagram_ifaces (env : Env) (iface : Iface) (payload : List UInt8)
    (leases : List Client) :
    (Dmdhcp.handleDatagram env iface payload leases).map (fun c => c.lease.iface) =
      leases.map fun c => c.lease.iface := by
  apply List.ext_getElem?
  intro i
  rw [List.getElem?_map, List.getElem?_map]
  cases hc : leases[i]? with
  | none =>
    rw [List.getElem?_eq_none_iff.mpr]
    rw [handleDatagram_length]
    exact List.getElem?_eq_none_iff.mp hc
  | some c =>
    rcases handleDatagram_getElem? env iface payload hc with heq | heq <;> rw [heq]
    exact congrArg some (c.operate_iface (.event env (.datagram iface payload)))

theorem datagram_served (h : w.Sound) (iface : Iface) (payload : List UInt8) :
    w.ServesAsTable (.datagram iface payload) := by
  obtain ⟨w', hp, htable, hmagic, hscript, hclients⟩ :=
    handleDatagram_alone h.script h.nodup iface payload
  refine ⟨w', .bind hp (.pure _ _),
    ⟨hscript.trans h.script, fun id => ?_, htable ▸ h.nodup, ?_⟩, ?_⟩
  · rw [hmagic, htable]
    exact h.live id
  · have hsame : w'.clients.map (fun c => c.lease.iface) =
        w.clients.map fun c => c.lease.iface := by
      rw [hclients]
      exact handleDatagram_ifaces w.env iface payload w.clients
    rw [hsame]
    exact h.ifaces
  · rw [World.toTable, htable, hclients]
    rfl

theorem retransmit_served (h : w.Sound) (id : LeaseId) (stale : Bool) :
    w.ServesAsTable (.retransmit id stale) := by
  show w.Answers _ .done ⟨w.table, ((w.toTable.at (some id)).map fun c =>
    TableOp.event w.env (.retransmit c.lease.iface stale)).elim w.clients (tableOperate w.clients)⟩
  by_cases hid : id ∈ w.table
  · rw [World.at_listed hid]
    refine h.answers_put hid (f := fun c => c.step (w.env, .retransmit stale))
      (Client.operate_iface _ (.event w.env (.retransmit stale)))
      (h.put_self_alone hid fun hmagic => ?_)
    apply Alone.bind (onLease_alone w id (w.leases id) _)
    exact .bind (retransmitTimerCallback_alone h.script hmagic _) (.pure _ _)
  · rw [World.at_gone hid]
    exact fire_refused h hid _

theorem leaseTimer_served (h : w.Sound) (id : LeaseId) (stale : Bool) :
    w.ServesAsTable (.leaseTimer id stale) := by
  show w.Answers _ .done ⟨w.table, ((w.toTable.at (some id)).map fun c =>
    TableOp.event w.env (.leaseTimer c.lease.iface stale)).elim w.clients (tableOperate w.clients)⟩
  by_cases hid : id ∈ w.table
  · rw [World.at_listed hid]
    refine h.answers_put hid (f := fun c => c.step (w.env, .leaseTimer stale))
      (Client.operate_iface _ (.event w.env (.leaseTimer stale)))
      (h.put_self_alone hid fun hmagic => ?_)
    apply Alone.bind (onLease_alone w id (w.leases id) _)
    exact .bind (leaseTimerCallback_alone h.script hmagic _) (.pure _ _)
  · rw [World.at_gone hid]
    exact fire_refused h hid _

theorem eraseP_of_find? {p : LeaseId → Bool} {ids : List LeaseId} (h : ids.find? p = some id) :
    ids.eraseP p = ids.erase id := by
  induction ids with
  | nil => rfl
  | cons i ids ih =>
    rw [List.find?_cons] at h
    cases hp : p i with
    | true =>
      rw [hp] at h
      obtain rfl := Option.some.inj h
      rw [List.eraseP_cons_of_pos hp, List.erase_cons_head]
    | false =>
      rw [hp] at h
      have hne : (i == id) = false := by
        refine beq_eq_false_iff_ne.mpr fun heq => ?_
        have hpid := List.find?_some h
        rw [← heq, hp] at hpid
        cases hpid
      rw [List.eraseP_cons_of_neg (by rw [hp]; exact Bool.false_ne_true), ih h,
        List.erase_cons_tail (by rw [hne]; exact Bool.false_ne_true)]

-- The lease is out of the table and freed.
theorem World.Sound.gone (h : w.Sound) (hid : id ∈ w.table) (c : Client) :
    (w.gone id c).Sound ∧ (w.gone id c).toTable = ⟨w.table.erase id,
      w.clients.eraseP fun c => c.lease.iface == (w.leases id).lease.iface⟩ := by
  have hout : id ∉ w.table.erase id := h.nodup.not_mem_erase
  have hclients : (w.gone id c).clients =
      w.clients.eraseP fun c => c.lease.iface == (w.leases id).lease.iface := by
    rw [World.clients, World.clients, List.eraseP_map]
    show (w.table.erase id).map _ = ((w.table.eraseP fun i =>
      (w.leases i).lease.iface == (w.leases id).lease.iface).map w.leases)
    rw [eraseP_of_find? (h.find hid)]
    exact List.map_congr_left fun i hi =>
      Function.update_of_ne (ne_of_mem_of_not_mem hi hout) _ _
  refine ⟨⟨h.script, fun i => ?_, h.nodup.erase id, ?_⟩,
    congrArg (Table.mk (w.table.erase id)) hclients⟩
  · show Function.update w.magic id false i = true ↔ i ∈ w.table.erase id
    by_cases hi : i = id
    · subst hi
      rw [Function.update_self]
      exact ⟨fun heq => absurd heq Bool.false_ne_true, fun hin => absurd hin hout⟩
    · rw [Function.update_of_ne hi, List.mem_erase_of_ne hi]
      exact h.live i
  · rw [hclients]
    exact h.ifaces.sublist (List.eraseP_sublist.map _)

theorem stop_served (h : w.Sound) (handle : Option LeaseId) : w.ServesAsTable (.stop handle) := by
  cases handle with
  | none => exact .same h (.bind (.pure _ _) (.pure _ _))
  | some id =>
    show w.Answers _ .done ⟨w.table.erase id, ((w.toTable.at (some id)).map fun c =>
      TableOp.teardown c.lease.iface).elim w.clients (tableOperate w.clients)⟩
    by_cases hid : id ∈ w.table
    · rw [World.at_listed hid]
      obtain ⟨hsound, htable⟩ := h.gone hid (stopSection w.env (w.leases id))
      exact ⟨_, .bind (h.put_self_alone hid fun hmagic => stop_alone hmagic (w.leases id))
        (.pure _ _), hsound, htable⟩
    · rw [World.at_gone hid, List.erase_of_not_mem hid]
      exact .same h (.bind (withLease_refuses (h.not_live hid)) (.pure _ _))

theorem release_served (h : w.Sound) (handle : Option LeaseId) :
    w.ServesAsTable (.release handle) := by
  cases handle with
  | none => exact .same h (alone_return .status (.pure _ _))
  | some id =>
    show w.Answers _ (.status (w.toTable.status (some id))) ⟨w.table.erase id,
      ((w.toTable.at (some id)).map fun c => TableOp.teardown c.lease.iface).elim w.clients
        (tableOperate w.clients)⟩
    rw [Table.status]
    by_cases hid : id ∈ w.table
    · rw [World.at_listed hid]
      obtain ⟨hsound, htable⟩ := h.gone hid (releaseSection w.env (w.leases id))
      exact ⟨_, alone_return .status (h.put_self_alone hid fun hmagic =>
        release_alone hmagic (w.leases id)), hsound, htable⟩
    · rw [World.at_gone hid, List.erase_of_not_mem hid]
      exact .same h (alone_return .status (withLease_refuses (h.not_live hid)))

-- An interface that is taken, or no room for one more.
theorem insert_refused {c : Client} (hnew : id ∉ w.table)
    (hno : ¬(w.pushed = true ∧ findByIface w.clients c.lease.iface = none)) :
    ∃ error, Alone (insert id) (w.created id c) (.error error) (w.created id c) := by
  have hself : (w.created id c).leases id = c := World.put_leases w id c
  have hresult : ∃ error, (if ((w.created id c).table.any fun other =>
        ((w.created id c).leases other).lease.iface ==
          ((w.created id c).leases id).lease.iface) = true then Except.error Errno.eexist
      else if (w.created id c).pushed = true then Except.ok () else Except.error Errno.enomem) =
        Except.error error := by
    rw [hself]
    split_ifs with htaken hpushed
    · exact ⟨_, rfl⟩
    · refine absurd ⟨hpushed, List.find?_eq_none.mpr fun other hother => ?_⟩ hno
      obtain ⟨i, hi, rfl⟩ := List.mem_map.mp hother
      rw [Bool.not_eq_true, List.any_eq_false] at htaken
      have hfree := htaken i hi
      rwa [show (w.created id c).leases i = w.leases i from
        Function.update_of_ne (ne_of_mem_of_not_mem hi hnew) _ _] at hfree
    · exact ⟨_, rfl⟩
  obtain ⟨error, hresult⟩ := hresult
  refine ⟨error, ?_⟩
  unfold insert
  apply Alone.bind (.lock _ _)
  apply Alone.bind (.read _)
  dsimp only
  rw [hresult]
  exact .bind (.write _ _) (.bind (.unlock _ _) (.pure _ _))

-- A lease that was not inserted is freed again.
theorem start_refused (h : w.Sound) {iface : Iface} (hnew : ∀ id ∈ w.fresh, id ∉ w.table)
    (hno : ¬((w.fresh.isSome && w.pushed) = true ∧ findByIface w.clients iface = none))
    (netif : Netif) (callbacks : Option Callbacks) (userData : Nat)
    (options : Option StartOptions) :
    ∃ w', Alone (start (some iface) netif callbacks userData options) w none w' ∧ w'.Sound ∧
      w'.toTable = w.toTable := by
  unfold start
  cases hnext : w.fresh with
  | none =>
    have hcreate : Alone (create iface netif callbacks userData options) w none w := by
      apply Alone.bind (.read w)
      rw [hnext]
      exact .pure _ _
    exact ⟨w, .bind hcreate (.pure _ _), h, rfl⟩
  | some id =>
    have hid := hnew id hnext
    obtain ⟨error, hinsert⟩ := insert_refused (c := Client.create iface netif
      (callbacks.getD ⟨false, false, false⟩) userData (options.bind StartOptions.hostname)) hid
      fun hroom => hno ⟨by rw [hnext, hroom.1]; rfl, hroom.2⟩
    refine ⟨_, .bind (create_alone hnext iface netif callbacks userData options)
      (.bind hinsert (.bind (.write _ _) (.pure _ _))), ?_⟩
    refine h.outside rfl h.script (fun i => ?_) fun i hi =>
      Function.update_of_ne (ne_of_mem_of_not_mem hi hid) _ _
    show Function.update (Function.update w.magic id true) id false i = w.magic i
    by_cases hi : i = id
    · rw [hi, Function.update_self, h.not_live hid]
    · rw [Function.update_of_ne hi, Function.update_of_ne hi]

theorem start_served (h : w.Sound) (hnew : ∀ id ∈ w.fresh, id ∉ w.table) (iface : Option Iface)
    (netif : Netif) (callbacks : Option Callbacks) (userData : Nat)
    (options : Option StartOptions) :
    w.ServesAsTable (.start iface netif callbacks userData options) := by
  cases iface with
  | none => exact .same h (alone_return .handle (.pure _ _))
  | some iface =>
    let place : Option LeaseId :=
      if w.pushed = true ∧ findByIface w.clients iface = none then w.fresh else none
    show w.Answers _ (.handle place) ⟨w.table ++ place.toList,
      if (w.fresh.isSome && w.pushed) = true ∧ findByIface w.clients iface = none then
        w.clients ++ [Client.start w.env iface netif (callbacks.getD ⟨false, false, false⟩)
          userData options]
      else w.clients⟩
    by_cases hroom : (w.fresh.isSome && w.pushed) = true ∧ findByIface w.clients iface = none
    · obtain ⟨hfresh, hpushed⟩ := (Bool.and_eq_true _ _).mp hroom.1
      obtain ⟨id, hnext⟩ := Option.isSome_iff_exists.mp hfresh
      have hid := hnew id hnext
      have hplace : place = some id := (if_pos ⟨hpushed, hroom.2⟩).trans hnext
      obtain ⟨w', hp, htable, hmagic, hscript, hclients⟩ :=
        start_alone hnext hid hpushed hroom.2 netif callbacks userData options
      rw [if_pos hroom, hplace]
      refine ⟨w', alone_return .handle hp, ⟨hscript.trans h.script, fun i => ?_, ?_, ?_⟩, ?_⟩
      · rw [hmagic, htable, List.mem_append, List.mem_singleton]
        by_cases hi : i = id
        · rw [hi, Function.update_self]
          exact ⟨fun _ => .inr rfl, fun _ => rfl⟩
        · rw [Function.update_of_ne hi, h.live i]
          exact ⟨.inl, fun hin => hin.resolve_right hi⟩
      · rw [htable]
        exact List.nodup_append.mpr ⟨h.nodup, List.nodup_singleton id, fun i hi j hj => by
          rw [List.mem_singleton.mp hj]
          exact ne_of_mem_of_not_mem hi hid⟩
      · rw [hclients, List.map_append, List.map_singleton]
        refine List.nodup_append.mpr ⟨h.ifaces, List.nodup_singleton _, fun i hi j hj => ?_⟩
        obtain ⟨c, hc, rfl⟩ := List.mem_map.mp hi
        rw [List.mem_singleton.mp hj, Client.start, startSection_iface]
        exact fun heq => List.find?_eq_none.mp hroom.2 c hc (beq_iff_eq.mpr heq)
      · rw [World.toTable, htable, hclients]
        rfl
    · have hplace : place = none := by
        show (if _ then _ else _) = _
        split_ifs with hfree
        · cases hnext : w.fresh with
          | none => rfl
          | some id => exact absurd ⟨by rw [hnext, hfree.1]; rfl, hfree.2⟩ hroom
        · rfl
      obtain ⟨w', hp, hsound, htable⟩ :=
        start_refused h hnew hroom netif callbacks userData options
      rw [if_neg hroom, hplace]
      exact ⟨w', alone_return .handle hp, hsound, htable.trans (by
        rw [Option.toList_none, List.append_nil]
        rfl)⟩

/-! ## 5. Whole runs -/

theorem request_served (h : w.Sound) (hnew : ∀ id ∈ w.fresh, id ∉ w.table) (request : Request) :
    w.ServesAsTable request := by
  cases request with
  | start iface netif callbacks userData options =>
    exact start_served h hnew iface netif callbacks userData options
  | stop handle => exact stop_served h handle
  | release handle => exact release_served h handle
  | plain op => exact plain_served h op
  | datagram iface payload => exact datagram_served h iface payload
  | retransmit id stale => exact retransmit_served h id stale
  | leaseTimer id stale => exact leaseTimer_served h id stale

theorem World.Sound.facing (h : w.Sound) (t : Turn) : (w.facing t).Sound :=
  ⟨h.script, h.live, h.nodup, h.ifaces⟩

end

theorem code_simulates_table : Lts.Simulates Serves Table.Serves Eq
    fun w s => w.Sound ∧ w.toTable = s := by
  rintro w e w' s ⟨h, rfl⟩ ⟨hnew, hp⟩
  obtain ⟨w₁, hp₁, hsound, htable⟩ := request_served (h.facing e.1) hnew e.1.request
  obtain ⟨hanswer, rfl⟩ := alone_unique hp hp₁
  exact ⟨e, _, rfl, ⟨hnew, hanswer, rfl⟩, hsound, htable⟩

theorem table_simulates_code : Lts.Simulates Table.Serves Serves Eq
    fun s w => w.Sound ∧ w.toTable = s := by
  rintro s e s' w ⟨h, rfl⟩ ⟨hnew, hanswer, rfl⟩
  obtain ⟨w₁, hp₁, hsound, htable⟩ := request_served (h.facing e.1) hnew e.1.request
  exact ⟨e, w₁, rfl, ⟨hnew, by rw [hanswer]; exact hp₁⟩, hsound, htable⟩

/-- Nothing has been started, and the handlers are done at once. -/
structure World.Empty (w : World) : Prop where
  script : w.script = []
  magic : ∀ id, w.magic id = false
  table : w.table = []

theorem World.Empty.sound {w : World} (h : w.Empty) : w.Sound ∧ w.toTable = ⟨[], []⟩ := by
  have hclients : w.clients = [] := by
    rw [World.clients, h.table]
    rfl
  refine ⟨⟨h.script, fun id => ?_, h.table ▸ List.nodup_nil, ?_⟩, ?_⟩
  · rw [h.magic, h.table]
    exact ⟨fun heq => absurd heq Bool.false_ne_true, fun hin => absurd hin List.not_mem_nil⟩
  · rw [hclients]
    exact List.nodup_nil
  · rw [World.toTable, hclients, h.table]

/-- An interface is started twice, and the lease asked for its state before and after its end. -/
def startedTwice : List (Turn × Answer) :=
  let start : Request := .start (some 1) blankNetif none 0 none
  [(⟨quietEnv 7, some 5, true, start⟩, .handle (some 5)),
    (⟨quietEnv 8, some 6, true, start⟩, .handle none),
    (⟨quietEnv 8, none, true, .plain (.getState (some 5))⟩, .state .selecting),
    (⟨quietEnv 8, none, true, .release (some 5)⟩, .status (.ok ())),
    (⟨quietEnv 8, none, true, .plain (.getState (some 5))⟩, .state .failed),
    (⟨quietEnv 8, none, true, .plain (.renew none)⟩, .status (.error .einval))]

def emptyWorld : World :=
  ⟨fun _ => startedClient, fun _ => false, [], quietEnv 7, none, true, []⟩

end Dmdhcp.Traced
