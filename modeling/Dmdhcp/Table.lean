import Dmdhcp.Sequential

/-!
# The lease table

`dmdhcp_lease_table.c`: the leases in table order, one for each interface.  Datagrams are
dispatched to the first entry with the right interface and xid.
-/

namespace Dmdhcp

section
variable {α : Type*} {p : α → Bool} {f : α → α}

@[simp] theorem modifyFirst_length (l : List α) : (modifyFirst p f l).length = l.length := by
  induction l with
  | nil => rfl
  | cons a as ih =>
    unfold modifyFirst
    split_ifs
    · rfl
    · rw [List.length_cons, List.length_cons, ih]

-- Each entry is kept, or is the match that changes.
theorem modifyFirst_getElem? {l : List α} {i : Nat} {a : α} (h : l[i]? = some a) :
    (modifyFirst p f l)[i]? = some a ∨ (p a = true ∧ (modifyFirst p f l)[i]? = some (f a)) := by
  induction l generalizing i with
  | nil => simp at h
  | cons b bs ih =>
    unfold modifyFirst
    cases i with
    | zero =>
      simp only [List.getElem?_cons_zero, Option.some.injEq] at h
      subst h
      split_ifs with hp
      · exact .inr ⟨hp, by simp⟩
      · exact .inl (by simp)
    | succ i =>
      rw [List.getElem?_cons_succ] at h
      split_ifs with hp
      · exact .inl (by rw [List.getElem?_cons_succ, h])
      · simpa only [List.getElem?_cons_succ] using ih h

-- If the first match (if any) is left alone, so is the whole list.
theorem modifyFirst_eq_self {l : List α} (h : ∀ a, l.find? p = some a → f a = a) :
    modifyFirst p f l = l := by
  induction l with
  | nil => rfl
  | cons b bs ih =>
    unfold modifyFirst
    split_ifs with hp
    · rw [h b (by simp [hp])]
    · rw [ih fun a ha => h a (by simpa [hp] using ha)]

end

/-- `dmdhcp_lease_table_find_by_iface`. -/
def findByIface (leases : List Client) (iface : Iface) : Option Client :=
  leases.find? fun c => c.lease.iface == iface

/-- `dmdhcp_lease_table_find_by_xid`. -/
def findByXid (leases : List Client) (iface : Iface) (xid : UInt32) : Option Client :=
  leases.find? (Client.matchesXid iface xid)

/-- What can happen to the table as a whole.  `allocated` says whether the allocations of
`dmdhcp_start` succeed. -/
inductive TableEvent
  | start (iface : Iface) (netif : Netif) (callbacks : Callbacks) (userData : Nat)
      (options : Option StartOptions) (allocated : Bool)
  | datagram (iface : Iface) (payload : List UInt8)
  | retransmit (iface : Iface) (stale : Bool)
  | leaseTimer (iface : Iface) (stale : Bool)
  | renew (iface : Iface)
  deriving DecidableEq, Repr

/-- An event of the lease on `iface`. -/
def stepOn (env : Env) (iface : Iface) (ev : Event) (leases : List Client) : List Client :=
  modifyFirst (fun c => c.lease.iface == iface) (fun c => c.step (env, ev)) leases

def tableStep (leases : List Client) : Env × TableEvent → List Client
  | (env, .start iface netif callbacks userData options allocated) =>
    if allocated ∧ findByIface leases iface = none then
      leases ++ [Client.start env iface netif callbacks userData options]
    else leases
  | (env, .datagram iface payload) => handleDatagram env iface payload leases
  | (env, .retransmit iface stale) => stepOn env iface (.retransmit stale) leases
  | (env, .leaseTimer iface stale) => stepOn env iface (.leaseTimer stale) leases
  | (env, .renew iface) => stepOn env iface .renew leases

-- A datagram acts on each lease as `Client.receive` does, or not at all.
theorem handleDatagram_getElem? (env : Env) (iface : Iface) (payload : List UInt8)
    {leases : List Client} {i : Nat} {c : Client} (h : leases[i]? = some c) :
    (handleDatagram env iface payload leases)[i]? = some c ∨
      (handleDatagram env iface payload leases)[i]? = some (c.receive env iface payload) := by
  unfold handleDatagram Client.receive
  split
  · exact .inl h
  · rename_i r hr
    -- A second lease with the same interface and xid is not reached by the lookup.
    rcases modifyFirst_getElem? (f := handleReply env r) h with hkeep | ⟨hp, hchange⟩
    · exact .inl hkeep
    · rw [if_pos hp]
      exact .inr hchange

@[simp] theorem handleDatagram_length (env : Env) (iface : Iface) (payload : List UInt8)
    (leases : List Client) : (handleDatagram env iface payload leases).length = leases.length := by
  unfold handleDatagram
  split
  · rfl
  · exact modifyFirst_length leases

-- On each lease already in the table, a table event is an event of that lease or nothing.
theorem tableStep_getElem? (leases : List Client) (env : Env) (ev : TableEvent) {i : Nat}
    {c : Client} (h : leases[i]? = some c) :
    ∃ c', (tableStep leases (env, ev))[i]? = some c' ∧ (c' = c ∨ ∃ e, c' = c.step (env, e)) := by
  have hon (iface : Iface) (e : Event) : ∃ c', (stepOn env iface e leases)[i]? = some c' ∧
      (c' = c ∨ ∃ e, c' = c.step (env, e)) := by
    unfold stepOn
    rcases modifyFirst_getElem? (p := fun c => c.lease.iface == iface)
      (f := fun c => c.step (env, e)) h with hkeep | ⟨-, hchange⟩
    · exact ⟨c, hkeep, .inl rfl⟩
    · exact ⟨_, hchange, .inr ⟨e, rfl⟩⟩
  cases ev with
  | start iface netif callbacks userData options allocated =>
    refine ⟨c, ?_, .inl rfl⟩
    simp only [tableStep]
    split_ifs
    · exact List.getElem?_append_left (List.getElem?_eq_some_iff.mp h).1 ▸ h
    · exact h
  | datagram iface payload =>
    rcases handleDatagram_getElem? env iface payload h with hk | hk
    · exact ⟨c, hk, .inl rfl⟩
    · exact ⟨_, hk, .inr ⟨.datagram iface payload, rfl⟩⟩
  | retransmit iface stale => exact hon iface _
  | leaseTimer iface stale => exact hon iface _
  | renew iface => exact hon iface _

end Dmdhcp
