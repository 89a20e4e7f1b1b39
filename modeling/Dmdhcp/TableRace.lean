import Dmdhcp.Machine
import Dmdhcp.Reactions
import Dmdhcp.Table
import Mathlib.Data.List.Nodup

/-!
# Concurrent starts and teardowns

`dmdhcp_start`, `dmdhcp_stop` and `dmdhcp_release` on any number of threads and interfaces, cut at the
table mutex: a call is in one of a few phases, and each step takes one call to its next phase.  A
lease is known by the number of its allocation, which is never used again, so that a lease that took
the place of a freed one is another lease; the memory of a freed one stays as it was left.  What a
teardown that is still running on a freed lease would do to the next one in its place is left out.
-/

namespace Dmdhcp

/-! ## 1. Calls and their phases -/

abbrev LeaseRef := Nat

/-- The arguments of `dmdhcp_start`; `none` for the interface is a `NULL`. -/
structure StartArgs where
  iface : Option Iface
  netif : Netif
  callbacks : Option Callbacks
  userData : Nat
  options : Option StartOptions
  deriving DecidableEq, Repr

/-- What a call does next, or what it has returned. -/
inductive CallPhase
  | create (args : StartArgs)
  | insert (args : StartArgs) (id : LeaseRef)
  | abandon (id : LeaseRef)
  | begin (args : StartArgs) (id : LeaseRef)
  | returned (result : Option LeaseRef)
  | guard (how : Teardown) (id : LeaseRef)
  | remove (how : Teardown) (id : LeaseRef)
  | unapply (how : Teardown) (id : LeaseRef)
  | destroy (id : LeaseRef)
  | finished (id : LeaseRef)
  deriving DecidableEq, Repr

/-- The memory of a lease.  `owner` is the call that allocated it. -/
structure Slot where
  client : Client
  owner : Nat
  magic : Bool
  freed : Bool
  deriving DecidableEq, Repr

/-- The memory, the next allocation, the table, the leases a `dmdhcp_lease_table_remove` was called
for, and the calls in the order they were made. -/
structure Race where
  slots : LeaseRef → Slot
  next : LeaseRef
  table : List LeaseRef
  removed : List LeaseRef
  calls : List CallPhase

def Race.client (p : Race) (id : LeaseRef) : Client := (p.slots id).client

def Race.iface (p : Race) (id : LeaseRef) : Iface := (p.client id).lease.iface

/-- The leases in table order. -/
def Race.clients (p : Race) : List Client := p.table.map p.client

/-- A `dmdhcp_start` has returned this lease. -/
def Race.HandedOut (p : Race) (id : LeaseRef) : Prop := .returned (some id) ∈ p.calls

instance (p : Race) (id : LeaseRef) : Decidable (p.HandedOut id) :=
  inferInstanceAs (Decidable (_ ∈ p.calls))

/-- What happens next: a call is made, a call does its next step, or something else happens to a lease.
`allocated`, `copied` and `pushed` say whether there is memory for the lease, for the copy of the
hostname and for the entry of the table. -/
inductive RaceEvent
  | start (args : StartArgs)
  | teardown (how : Teardown) (id : LeaseRef)
  | advance (i : Nat) (env : Env) (allocated copied pushed : Bool)
  | operate (id : LeaseRef) (o : Operation)
  deriving DecidableEq, Repr

def Race.setSlot (p : Race) (id : LeaseRef) (f : Slot → Slot) : Race :=
  { p with slots := Function.update p.slots id (f (p.slots id)) }

def Race.setClient (p : Race) (id : LeaseRef) (f : Client → Client) : Race :=
  p.setSlot id fun s => { s with client := f s.client }

/-- The memory of a lease is given back. -/
def Race.free (p : Race) (id : LeaseRef) : Race :=
  p.setSlot id fun s => { s with magic := false, freed := true }

def Race.setCall (p : Race) (i : Nat) (ph : CallPhase) : Race := { p with calls := p.calls.set i ph }

/-- A lease as `dmdhcp_start` inserts it.  It goes without a hostname if there is no memory for the
copy. -/
def StartArgs.create (args : StartArgs) (iface : Iface) (copied : Bool) : Client :=
  Client.create iface args.netif (args.callbacks.getD ⟨false, false, false⟩) args.userData
    (if copied then args.options.bind StartOptions.hostname else none)

/-- One step of call `i`. -/
def CallPhase.exec (p : Race) (i : Nat) (env : Env) (allocated copied pushed : Bool) :
    CallPhase → Option Race
  | .create args =>
    match args.iface, allocated with
    | some iface, true =>
      some (({ p with
        slots := Function.update p.slots p.next ⟨args.create iface copied, i, true, false⟩
        next := p.next + 1 }).setCall i (.insert args p.next))
    | _, _ => some (p.setCall i (.returned none))
  | .insert args id =>
    -- The check and the push are under one lock of the table mutex.
    if p.table.any fun other => p.iface other == p.iface id then
      some (p.setCall i (.abandon id))
    else if pushed then
      some (({ p with table := p.table ++ [id] }).setCall i (.begin args id))
    else some (p.setCall i (.abandon id))
  | .abandon id => some ((p.free id).setCall i (.returned none))
  | .begin args id =>
    some ((p.setClient id (startSection env args.options)).setCall i (.returned (some id)))
  | .guard how id =>
    some (p.setCall i (if (p.slots id).magic then .remove how id else .finished id))
  | .remove how id =>
    some (({ p with
      table := p.table.erase id
      removed := id :: p.removed }).setCall i (.unapply how id))
  | .unapply how id =>
    some ((p.setClient id (teardownSection env how)).setCall i (.destroy id))
  | .destroy id => some ((p.free id).setCall i (.finished id))
  | .returned _ => none
  | .finished _ => none

/-- The application tears down what a `dmdhcp_start` has returned and nobody has freed; other code
works on leases that are not freed.  A second teardown of a lease may begin while the first one runs.
It acts on the lease it was given, since no allocation takes the place of another one here; in the
code it could find another lease there, so that the application must not begin it is its contract. -/
def Race.step (p : Race) : RaceEvent → Option Race
  | .start args => some { p with calls := p.calls ++ [.create args] }
  | .teardown how id =>
    if p.HandedOut id ∧ (p.slots id).freed = false then
      some { p with calls := p.calls ++ [.guard how id] }
    else none
  | .advance i env allocated copied pushed =>
    match p.calls[i]? with
    | some ph => ph.exec p i env allocated copied pushed
    | none => none
  | .operate id o =>
    if id < p.next ∧ (p.slots id).freed = false then
      some (p.setClient id fun c => c.operate o)
    else none

/-- An empty table; the memory holds anything. -/
def Race.init (slots : LeaseRef → Slot) : Race := ⟨slots, 0, [], [], []⟩

/-- `dmdhcp_lease_table_find_by_xid`. -/
def Race.findByXid (p : Race) (iface : Iface) (xid : UInt32) : Option LeaseRef :=
  p.table.find? fun id => (p.client id).matchesXid iface xid

/-! ## 2. The interface of a lease does not change -/

theorem lifecycleUnapply_iface (env : Env) (c : Client) :
    (lifecycleUnapply env c).lease.iface = c.lease.iface := by
  obtain ⟨route, h⟩ := lifecycleUnapply_lease env c
  rw [h]

theorem After.finish_iface (env : Env) (after : After) (c : Client) :
    (after.finish env c).lease.iface = c.lease.iface := by
  by_cases hlost : after = .lost
  · subst hlost
    simp only [After.finish, lifecycleHandleLost, lostRestart, outputStartDiscovery_lease,
      callOnExpiredOrLost_lease, lostUnapply, Client.update_lease, lifecycleUnapply_iface]
  · rw [(After.finish_eq hlost c).1]

theorem commitLease_iface (env : Env) (c : Client) :
    (commitLease env c).lease.iface = c.lease.iface := by
  obtain ⟨configured, route, hl⟩ := commitLease_lease env c
  rw [hl]

theorem Client.operate_iface (c : Client) (o : Operation) :
    (c.operate o).lease.iface = c.lease.iface := by
  cases o with
  | setCallbacks callbacks userData => rfl
  | event env ev =>
    obtain ⟨c₁, after, hreaction, heq⟩ := c.operate_reaction env ev
    have hbefore : (c.before ev).lease.iface = c.lease.iface := by
      obtain ⟨_, _, h⟩ := (c.before_same ev).lease
      rw [h]
    rw [heq, After.finish_iface, ← hbefore]
    rcases hreaction.move_or_commit with ⟨hmove, -⟩ | ⟨rfl, -⟩ | ⟨r, rfl, -⟩ | ⟨rfl, -⟩
    · exact hmove.frame.iface
    · exact commitLease_iface env _
    · exact commitLease_iface env _
    · rfl

theorem teardownSection_iface (env : Env) (how : Teardown) (c : Client) :
    (teardownSection env how c).lease.iface = c.lease.iface := by
  obtain ⟨route, h⟩ := teardownSection_lease env how c
  rw [h]

theorem startSection_iface (env : Env) (options : Option StartOptions) (c : Client) :
    (startSection env options c).lease.iface = c.lease.iface := by
  unfold startSection
  split
  · rw [outputStartReboot_lease]
    rfl
  · rw [outputStartDiscovery_lease]

/-! ## 3. The invariant -/

/-- What is known of a lease while call `i` is in a phase.  Up to the push the lease is the caller's
own; it is in the table from there until a teardown, which only gets at a lease that was handed out,
removes it. -/
def CallPhase.Facts (p : Race) (i : Nat) : CallPhase → Prop
  | .create _ => True
  | .insert _ id =>
    id < p.next ∧ (p.slots id).owner = i ∧ id ∉ p.table ∧ id ∉ p.removed ∧
      (p.slots id).magic = true
  | .abandon id =>
    id < p.next ∧ (p.slots id).owner = i ∧ id ∉ p.table ∧ id ∉ p.removed
  | .begin _ id => id < p.next ∧ (p.slots id).owner = i ∧ id ∈ p.table ∧ id ∉ p.removed
  | .returned (some id) =>
    id < p.next ∧ (p.slots id).owner = i ∧ (id ∈ p.table ↔ id ∉ p.removed)
  | .returned none => True
  | .guard _ id => p.HandedOut id
  | .remove _ id => p.HandedOut id
  | .unapply _ id => p.HandedOut id ∧ id ∈ p.removed
  | .destroy id => p.HandedOut id ∧ id ∈ p.removed
  | .finished id => p.HandedOut id ∧ id ∈ p.removed

structure RaceInv (p : Race) : Prop where
  calls : ∀ (i : Nat) (ph : CallPhase), p.calls[i]? = some ph → ph.Facts p i
  listed : ∀ id ∈ p.table, id < p.next ∧ (p.slots id).magic = true
  removed : ∀ id ∈ p.removed, id < p.next
  ifaces : (p.table.map p.iface).Nodup

namespace RaceInv
variable {p : Race} (hinv : RaceInv p)
include hinv

theorem table_nodup : p.table.Nodup := List.Nodup.of_map _ hinv.ifaces

-- Two entries with one interface are one entry.
theorem eq_of_iface {id id' : LeaseRef} (h : id ∈ p.table) (h' : id' ∈ p.table)
    (heq : p.iface id = p.iface id') : id = id' :=
  List.inj_on_of_nodup_map hinv.ifaces h h' heq

theorem handedOut {id : LeaseRef} (h : p.HandedOut id) :
    id < p.next ∧ (id ∈ p.table ↔ id ∉ p.removed) ∧
      p.calls[(p.slots id).owner]? = some (.returned (some id)) := by
  obtain ⟨i, hi⟩ := List.mem_iff_getElem?.mp h
  obtain ⟨hlt, howner, hmem⟩ := hinv.calls i _ hi
  rw [howner]
  exact ⟨hlt, hmem, hi⟩

-- A lease that some call still has for itself was not handed out.
theorem not_handedOut {i : Nat} {ph : CallPhase} {id : LeaseRef} (hcall : p.calls[i]? = some ph)
    (howner : (p.slots id).owner = i) (hph : ph ≠ .returned (some id)) : ¬p.HandedOut id := by
  intro h
  have hreturned := (hinv.handedOut h).2.2
  rw [howner, hcall] at hreturned
  exact hph (Option.some.inj hreturned)

end RaceInv

/-- What the other calls rely on, from the view of call `j`: its own leases keep their place, unless
one was handed out and is removed now. -/
structure Relied (p p' : Race) (j : Nat) : Prop where
  next : p.next ≤ p'.next
  owner : ∀ id < p.next, (p'.slots id).owner = (p.slots id).owner
  handedOut : ∀ id, p.HandedOut id → p'.HandedOut id
  removed : ∀ id ∈ p.removed, id ∈ p'.removed
  magic : ∀ args id, p.calls[j]? = some (.insert args id) →
    (p'.slots id).magic = (p.slots id).magic
  place : ∀ id < p.next, (p.slots id).owner = j →
    ((id ∈ p'.table ↔ id ∈ p.table) ∧ (id ∈ p'.removed ↔ id ∈ p.removed)) ∨
      (p.HandedOut id ∧ id ∉ p'.table ∧ id ∈ p'.removed)

theorem CallPhase.Facts.relied {p p' : Race} {j : Nat} {ph : CallPhase} (hinv : RaceInv p)
    (hcall : p.calls[j]? = some ph) (h : Relied p p' j) : ph.Facts p' j := by
  have hfacts := hinv.calls j ph hcall
  -- A lease the call has for itself was not handed out, so it keeps its place.
  have hown {id : LeaseRef} (hlt : id < p.next) (howner : (p.slots id).owner = j)
      (hph : ph ≠ .returned (some id)) : id < p'.next ∧ (p'.slots id).owner = j ∧
        (id ∈ p'.table ↔ id ∈ p.table) ∧ (id ∈ p'.removed ↔ id ∈ p.removed) := by
    refine ⟨Nat.lt_of_lt_of_le hlt h.next, (h.owner id hlt).trans howner, ?_⟩
    rcases h.place id hlt howner with hplace | ⟨hout, -⟩
    · exact hplace
    · exact absurd hout (hinv.not_handedOut hcall howner hph)
  cases ph with
  | create args => trivial
  | insert args id =>
    obtain ⟨hlt, howner, htable, hremoved, hmagic⟩ := hfacts
    obtain ⟨hlt', howner', ht, hr⟩ := hown hlt howner (by simp)
    exact ⟨hlt', howner', fun hin => htable (ht.mp hin), fun hin => hremoved (hr.mp hin),
      (h.magic args id hcall).trans hmagic⟩
  | abandon id =>
    obtain ⟨hlt, howner, htable, hremoved⟩ := hfacts
    obtain ⟨hlt', howner', ht, hr⟩ := hown hlt howner (by simp)
    exact ⟨hlt', howner', fun hin => htable (ht.mp hin), fun hin => hremoved (hr.mp hin)⟩
  | begin args id =>
    obtain ⟨hlt, howner, htable, hremoved⟩ := hfacts
    obtain ⟨hlt', howner', ht, hr⟩ := hown hlt howner (by simp)
    exact ⟨hlt', howner', ht.mpr htable, fun hin => hremoved (hr.mp hin)⟩
  | returned result =>
    cases result with
    | none => trivial
    | some id =>
      obtain ⟨hlt, howner, hmem⟩ := hfacts
      refine ⟨Nat.lt_of_lt_of_le hlt h.next, (h.owner id hlt).trans howner, ?_⟩
      rcases h.place id hlt howner with ⟨ht, hr⟩ | ⟨-, htable, hremoved⟩
      · rw [ht, hr]
        exact hmem
      · exact ⟨fun hin => absurd hin htable, fun hno => absurd hremoved hno⟩
  | guard how id => exact h.handedOut id hfacts
  | remove how id => exact h.handedOut id hfacts
  | unapply how id => exact ⟨h.handedOut id hfacts.1, h.removed id hfacts.2⟩
  | destroy id => exact ⟨h.handedOut id hfacts.1, h.removed id hfacts.2⟩
  | finished id => exact ⟨h.handedOut id hfacts.1, h.removed id hfacts.2⟩

/-! ## 4. Each change keeps the invariant -/

-- Nothing that the other calls rely on changes with the slots, the allocations and the calls.
theorem Relied.of_same {p p' : Race} (hnext : p.next ≤ p'.next)
    (howner : ∀ id < p.next, (p'.slots id).owner = (p.slots id).owner)
    (hout : ∀ id, p.HandedOut id → p'.HandedOut id) (htable : p'.table = p.table)
    (hremoved : p'.removed = p.removed) {j : Nat}
    (hmagic : ∀ args id, p.calls[j]? = some (.insert args id) →
      (p'.slots id).magic = (p.slots id).magic) : Relied p p' j where
  next := hnext
  owner := howner
  handedOut := hout
  magic := hmagic
  removed id h := hremoved ▸ h
  place id _ _ := .inl ⟨by rw [htable], by rw [hremoved]⟩

-- A lease once handed out stays so: a call that has returned takes no further step.
theorem Race.HandedOut.set {p p' : Race} {i : Nat} {ph ph' : CallPhase}
    (hcall : p.calls[i]? = some ph) (hph : ∀ id, ph ≠ .returned (some id))
    (hcalls : p'.calls = p.calls.set i ph') {id : LeaseRef} (h : p.HandedOut id) :
    p'.HandedOut id := by
  obtain ⟨j, hj⟩ := List.mem_iff_getElem?.mp h
  have hne : i ≠ j := by
    rintro rfl
    rw [hcall] at hj
    exact hph id (Option.some.inj hj)
  rw [Race.HandedOut, hcalls]
  exact List.mem_of_getElem? ((List.getElem?_set_ne hne).trans hj)

-- A call moves on: what has to be shown of it, of the others and of the table.
theorem RaceInv.advance {p p' : Race} {i : Nat} {ph ph' : CallPhase} (hinv : RaceInv p)
    (hcall : p.calls[i]? = some ph) (hcalls : p'.calls = p.calls.set i ph')
    (hrelied : ∀ j, j ≠ i → Relied p p' j) (hself : ph'.Facts p' i)
    (hlisted : ∀ id ∈ p'.table, id < p'.next ∧ (p'.slots id).magic = true)
    (hremoved : ∀ id ∈ p'.removed, id < p'.next) (hifaces : (p'.table.map p'.iface).Nodup) :
    RaceInv p' where
  calls j phj hj := by
    rw [hcalls, List.getElem?_set] at hj
    by_cases hij : i = j
    · subst hij
      rw [if_pos rfl, if_pos (List.getElem?_eq_some_iff.mp hcall).1] at hj
      obtain rfl := Option.some.inj hj
      exact hself
    · rw [if_neg hij] at hj
      exact CallPhase.Facts.relied hinv hj (hrelied j (Ne.symm hij))
  listed := hlisted
  removed := hremoved
  ifaces := hifaces

-- A step of a call that leaves everything else as it is.
theorem RaceInv.setCall {p : Race} {i : Nat} {ph ph' : CallPhase} (hinv : RaceInv p)
    (hcall : p.calls[i]? = some ph) (hph : ∀ id, ph ≠ .returned (some id))
    (hself : ph'.Facts (p.setCall i ph') i) : RaceInv (p.setCall i ph') := by
  apply hinv.advance hcall rfl _ hself hinv.listed hinv.removed hinv.ifaces
  intro j _
  apply Relied.of_same
  · exact Nat.le_refl _
  · exact fun _ _ => rfl
  · exact fun _ => .set hcall hph rfl
  · rfl
  · rfl
  · exact fun _ _ _ => rfl

section
variable {p : Race} {id : LeaseRef} {f : Slot → Slot}

theorem Race.setSlot_self : (p.setSlot id f).slots id = f (p.slots id) := Function.update_self ..

theorem Race.setSlot_ne {id' : LeaseRef} (h : id' ≠ id) :
    (p.setSlot id f).slots id' = p.slots id' := Function.update_of_ne h _ _

theorem Race.setSlot_owner (howner : (f (p.slots id)).owner = (p.slots id).owner) (id' : LeaseRef) :
    ((p.setSlot id f).slots id').owner = (p.slots id').owner := by
  by_cases h : id' = id
  · subst h
    rw [Race.setSlot_self, howner]
  · rw [Race.setSlot_ne h]

theorem Race.setSlot_iface
    (hiface : (f (p.slots id)).client.lease.iface = (p.slots id).client.lease.iface) :
    (p.setSlot id f).iface = p.iface := by
  funext id'
  unfold Race.iface Race.client
  by_cases h : id' = id
  · subst h
    rw [Race.setSlot_self, hiface]
  · rw [Race.setSlot_ne h]

theorem Race.setClient_owner (g : Client → Client) (id' : LeaseRef) :
    ((p.setClient id g).slots id').owner = (p.slots id').owner := by
  unfold Race.setClient
  rw [Race.setSlot_owner rfl]

-- A slot changes, but neither its owner nor its interface, and it keeps its magic number while it
-- is in the table or about to be pushed.
theorem RaceInv.setSlot (hinv : RaceInv p)
    (howner : (f (p.slots id)).owner = (p.slots id).owner)
    (hiface : (f (p.slots id)).client.lease.iface = (p.slots id).client.lease.iface)
    (hmagic : id ∈ p.table ∨ (∃ (j : Nat) (args : StartArgs),
      p.calls[j]? = some (.insert args id)) → (f (p.slots id)).magic = (p.slots id).magic) :
    RaceInv (p.setSlot id f) where
  calls j ph hj := by
    apply CallPhase.Facts.relied hinv hj
    apply Relied.of_same
    · exact Nat.le_refl _
    · exact fun id' _ => Race.setSlot_owner howner id'
    · exact fun _ h => h
    · rfl
    · rfl
    · intro args id' hinsert
      by_cases h : id' = id
      · subst h
        rw [Race.setSlot_self, hmagic (.inr ⟨j, args, hinsert⟩)]
      · rw [Race.setSlot_ne h]
  listed id' hin := by
    refine ⟨(hinv.listed id' hin).1, ?_⟩
    by_cases h : id' = id
    · subst h
      rw [Race.setSlot_self, hmagic (.inl hin)]
      exact (hinv.listed id' hin).2
    · rw [Race.setSlot_ne h]
      exact (hinv.listed id' hin).2
  removed := hinv.removed
  ifaces := by
    show (p.table.map _).Nodup
    rw [Race.setSlot_iface hiface]
    exact hinv.ifaces

theorem RaceInv.setClient {g : Client → Client} (hinv : RaceInv p)
    (hiface : (g (p.client id)).lease.iface = (p.client id).lease.iface) :
    RaceInv (p.setClient id g) := hinv.setSlot rfl hiface fun _ => rfl

theorem RaceInv.free (hinv : RaceInv p) (hout : id ∉ p.table)
    (hinsert : ∀ (j : Nat) (args : StartArgs), p.calls[j]? ≠ some (.insert args id)) :
    RaceInv (p.free id) := by
  apply hinv.setSlot rfl rfl
  rintro (hin | ⟨j, args, hj⟩)
  · exact absurd hin hout
  · exact absurd hj (hinsert j args)

end

-- An allocation takes a slot that nobody has.
theorem RaceInv.alloc {p : Race} (hinv : RaceInv p) (slot : Slot) :
    RaceInv { p with slots := Function.update p.slots p.next slot, next := p.next + 1 } := by
  have hold (id : LeaseRef) (hlt : id < p.next) :
      Function.update p.slots p.next slot id = p.slots id :=
    Function.update_of_ne (Nat.ne_of_lt hlt) _ _
  constructor
  · intro j ph hj
    apply CallPhase.Facts.relied hinv hj
    apply Relied.of_same
    · exact Nat.le_succ _
    · intro id hlt
      show (Function.update p.slots p.next slot id).owner = _
      rw [hold id hlt]
    · exact fun _ h => h
    · rfl
    · rfl
    · intro args id hinsert
      show (Function.update p.slots p.next slot id).magic = _
      rw [hold id (hinv.calls j _ hinsert).1]
  · intro id hin
    obtain ⟨hlt, hmagic⟩ := hinv.listed id hin
    refine ⟨Nat.lt_succ_of_lt hlt, ?_⟩
    show (Function.update p.slots p.next slot id).magic = true
    rw [hold id hlt]
    exact hmagic
  · exact fun id hin => Nat.lt_succ_of_lt (hinv.removed id hin)
  · have hmap : p.table.map (Race.iface { p with
        slots := Function.update p.slots p.next slot, next := p.next + 1 }) =
        p.table.map p.iface := by
      apply List.map_congr_left
      intro id hin
      unfold Race.iface Race.client
      dsimp only
      rw [hold id (hinv.listed id hin).1]
    show (p.table.map _).Nodup
    rw [hmap]
    exact hinv.ifaces

-- The push of a lease whose interface nobody has.
theorem RaceInv.push {p : Race} {i : Nat} {args : StartArgs} {id : LeaseRef} (hinv : RaceInv p)
    (hcall : p.calls[i]? = some (.insert args id))
    (hfree : ∀ other ∈ p.table, p.iface other ≠ p.iface id) :
    RaceInv (({ p with table := p.table ++ [id] } : Race).setCall i (.begin args id)) := by
  obtain ⟨hlt, howner, htable, hremoved, hmagic⟩ := hinv.calls i _ hcall
  apply hinv.advance hcall rfl
  · intro j hj
    refine ⟨Nat.le_refl _, fun _ _ => rfl, fun _ => .set hcall (by simp) rfl, fun _ h => h,
      fun _ _ _ => rfl, ?_⟩
    -- The lease is not one of call `j`.
    intro id' _ howner'
    have hne : id' ≠ id := by
      rintro rfl
      exact hj (howner'.symm.trans howner)
    refine .inl ⟨?_, Iff.rfl⟩
    show id' ∈ p.table ++ [id] ↔ _
    simp [hne]
  · exact ⟨hlt, howner, List.mem_append_right _ List.mem_cons_self, hremoved⟩
  · intro id' hin
    rcases List.mem_append.mp hin with hin | hin
    · exact hinv.listed id' hin
    · rw [List.mem_singleton.mp hin]
      exact ⟨hlt, hmagic⟩
  · exact hinv.removed
  · show ((p.table ++ [id]).map p.iface).Nodup
    rw [List.map_append, List.map_singleton, ← List.concat_eq_append]
    refine List.Nodup.concat ?_ hinv.ifaces
    intro hin
    obtain ⟨other, hother, heq⟩ := List.mem_map.mp hin
    exact hfree other hother heq

-- The removal of a lease that was handed out.
theorem RaceInv.erase {p : Race} {i : Nat} {how : Teardown} {id : LeaseRef} (hinv : RaceInv p)
    (hcall : p.calls[i]? = some (.remove how id)) :
    RaceInv (({ p with table := p.table.erase id, removed := id :: p.removed } : Race).setCall i
      (.unapply how id)) := by
  have hout : p.HandedOut id := hinv.calls i _ hcall
  have hmem (id' : LeaseRef) : id' ∈ p.table.erase id ↔ id' ≠ id ∧ id' ∈ p.table :=
    hinv.table_nodup.mem_erase_iff
  apply hinv.advance hcall rfl
  · intro j hj
    refine ⟨Nat.le_refl _, fun _ _ => rfl, fun _ => .set hcall (by simp) rfl,
      fun _ h => List.mem_cons_of_mem _ h, fun _ _ _ => rfl, ?_⟩
    intro id' _ _
    by_cases hne : id' = id
    · subst hne
      refine .inr ⟨hout, ?_, List.mem_cons_self⟩
      show id' ∉ p.table.erase id'
      rw [hmem]
      exact fun h => h.1 rfl
    · refine .inl ⟨?_, ?_⟩
      · show id' ∈ p.table.erase id ↔ _
        rw [hmem]
        exact ⟨And.right, fun h => ⟨hne, h⟩⟩
      · show id' ∈ id :: p.removed ↔ _
        simp [hne]
  · exact ⟨.set hcall (by simp) rfl hout, List.mem_cons_self⟩
  · intro id' hin
    exact hinv.listed id' ((hmem id').mp hin).2
  · intro id' hin
    rcases List.mem_cons.mp hin with rfl | hin
    · exact (hinv.handedOut hout).1
    · exact hinv.removed id' hin
  · exact hinv.ifaces.sublist (List.erase_sublist.map p.iface)

/-! ## 5. Every step and every run -/

theorem Race.step_advance {p p' : Race} {i : Nat} {env : Env} {allocated copied pushed : Bool}
    (h : p.step (.advance i env allocated copied pushed) = some p') :
    ∃ ph, p.calls[i]? = some ph ∧ ph.exec p i env allocated copied pushed = some p' := by
  simp only [Race.step] at h
  split at h
  · rename_i ph hcall
    exact ⟨ph, hcall, h⟩
  · cases h

-- A lease that was handed out is with no call that is about to push it.
theorem RaceInv.not_inserting {p : Race} (hinv : RaceInv p) {id : LeaseRef} (hout : p.HandedOut id)
    (j : Nat) (args : StartArgs) : p.calls[j]? ≠ some (.insert args id) := by
  intro hj
  obtain ⟨-, howner, -⟩ := hinv.calls j _ hj
  exact hinv.not_handedOut hj howner (by simp) hout

theorem RaceInv.exec {p p' : Race} {i : Nat} {env : Env} {allocated copied pushed : Bool}
    {ph : CallPhase}
    (hinv : RaceInv p) (hcall : p.calls[i]? = some ph)
    (h : ph.exec p i env allocated copied pushed = some p') : RaceInv p' := by
  have hfacts := hinv.calls i ph hcall
  cases ph with
  | create args =>
    simp only [CallPhase.exec] at h
    split at h
    · obtain rfl := Option.some.inj h
      apply (hinv.alloc _).setCall hcall (by simp)
      refine ⟨Nat.lt_succ_self _, ?_, ?_, ?_, ?_⟩
      · show (Function.update p.slots p.next _ p.next).owner = i
        rw [Function.update_self]
      · exact fun hin => Nat.lt_irrefl _ (hinv.listed _ hin).1
      · exact fun hin => Nat.lt_irrefl _ (hinv.removed _ hin)
      · show (Function.update p.slots p.next _ p.next).magic = true
        rw [Function.update_self]
    · obtain rfl := Option.some.inj h
      exact hinv.setCall hcall (by simp) trivial
  | insert args id =>
    obtain ⟨hlt, howner, htable, hremoved, -⟩ := hfacts
    simp only [CallPhase.exec] at h
    split_ifs at h with htaken hpushed
    · obtain rfl := Option.some.inj h
      exact hinv.setCall hcall (by simp) ⟨hlt, howner, htable, hremoved⟩
    · obtain rfl := Option.some.inj h
      apply hinv.push hcall
      intro other hother heq
      exact htaken (List.any_eq_true.mpr ⟨other, hother, beq_iff_eq.mpr heq⟩)
    · obtain rfl := Option.some.inj h
      exact hinv.setCall hcall (by simp) ⟨hlt, howner, htable, hremoved⟩
  | abandon id =>
    obtain ⟨-, howner, htable, -⟩ := hfacts
    obtain rfl := Option.some.inj h
    have hfree : RaceInv (p.free id) := by
      apply hinv.free htable
      intro j args hj
      obtain ⟨-, howner', -⟩ := hinv.calls j _ hj
      -- The lease has one owner, and that call is not about to push it.
      rw [← howner', howner, hcall] at hj
      cases hj
    exact hfree.setCall hcall (by simp) trivial
  | begin args id =>
    obtain ⟨hlt, howner, htable, hremoved⟩ := hfacts
    obtain rfl := Option.some.inj h
    apply (hinv.setClient (startSection_iface env args.options _)).setCall hcall (by simp)
    refine ⟨hlt, ?_, fun _ => hremoved, fun _ => htable⟩
    show ((p.setClient id _).slots id).owner = i
    rw [Race.setClient_owner, howner]
  | returned result => cases h
  | guard how id =>
    obtain rfl := Option.some.inj h
    apply hinv.setCall hcall (by simp)
    have hout (ph' : CallPhase) : (p.setCall i ph').HandedOut id := .set hcall (by simp) rfl hfacts
    by_cases hmagic : (p.slots id).magic = true
    · rw [if_pos hmagic]
      exact hout _
    · rw [if_neg hmagic]
      refine ⟨hout _, ?_⟩
      -- What is not removed is still in the table, with its magic number set.
      by_contra hremoved
      have htable := (hinv.handedOut hfacts).2.1.mpr hremoved
      exact hmagic (hinv.listed id htable).2
  | remove how id =>
    obtain rfl := Option.some.inj h
    exact hinv.erase hcall
  | unapply how id =>
    obtain rfl := Option.some.inj h
    apply (hinv.setClient (teardownSection_iface env how _)).setCall hcall (by simp)
    exact ⟨.set hcall (by simp) rfl hfacts.1, hfacts.2⟩
  | destroy id =>
    obtain ⟨hout, hremoved⟩ := hfacts
    obtain rfl := Option.some.inj h
    have htable : id ∉ p.table := fun hin => (hinv.handedOut hout).2.1.mp hin hremoved
    apply (hinv.free htable (hinv.not_inserting hout)).setCall hcall (by simp)
    exact ⟨.set hcall (by simp) rfl hout, hremoved⟩
  | finished id => cases h

-- A new call.
theorem RaceInv.append {p : Race} (hinv : RaceInv p) {ph : CallPhase}
    (hself : ∀ i, ph.Facts { p with calls := p.calls ++ [ph] } i) :
    RaceInv { p with calls := p.calls ++ [ph] } := by
  refine ⟨fun j phj hj => ?_, hinv.listed, hinv.removed, hinv.ifaces⟩
  by_cases hlt : j < p.calls.length
  · have hold : p.calls[j]? = some phj := (List.getElem?_append_left hlt).symm.trans hj
    apply CallPhase.Facts.relied hinv hold
    apply Relied.of_same
    · exact Nat.le_refl _
    · exact fun _ _ => rfl
    · exact fun _ h => List.mem_append_left _ h
    · rfl
    · rfl
    · exact fun _ _ _ => rfl
  · have hmem : phj ∈ [ph] := by
      rw [show ({ p with calls := p.calls ++ [ph] } : Race).calls = p.calls ++ [ph] from rfl,
        List.getElem?_append_right (Nat.le_of_not_lt hlt)] at hj
      exact List.mem_of_getElem? hj
    rw [List.mem_singleton.mp hmem]
    exact hself j

theorem RaceInv.step {p p' : Race} {e : RaceEvent} (hinv : RaceInv p)
    (hstep : p.step e = some p') : RaceInv p' := by
  cases e with
  | start args =>
    obtain rfl := Option.some.inj hstep
    exact hinv.append fun _ => trivial
  | teardown how id =>
    simp only [Race.step] at hstep
    split_ifs at hstep with hok
    obtain rfl := Option.some.inj hstep
    exact hinv.append fun _ => List.mem_append_left _ hok.1
  | advance i env allocated copied pushed =>
    obtain ⟨ph, hcall, hexec⟩ := Race.step_advance hstep
    exact hinv.exec hcall hexec
  | operate id o =>
    simp only [Race.step] at hstep
    split_ifs at hstep
    obtain rfl := Option.some.inj hstep
    exact hinv.setClient (Client.operate_iface _ o)

theorem init_raceInv (slots : LeaseRef → Slot) : RaceInv (Race.init slots) where
  calls i ph h := by cases h
  listed id h := by cases h
  removed id h := by cases h
  ifaces := .nil

/-! ## 6. Who removed a lease -/

/-- The lease a `dmdhcp_stop` or `dmdhcp_release` was called for. -/
def CallPhase.target : CallPhase → Option LeaseRef
  | .guard _ id => some id
  | .remove _ id => some id
  | .unapply _ id => some id
  | .destroy id => some id
  | .finished id => some id
  | _ => none

-- A step of a call: the call's next phase, which is for the same lease if the call tears one down,
-- and a lease is removed only by the call that tears it down.
theorem CallPhase.exec_calls {p p' : Race} {i : Nat} {env : Env} {allocated copied pushed : Bool}
    {ph : CallPhase} (h : ph.exec p i env allocated copied pushed = some p') :
    ∃ ph', p'.calls = p.calls.set i ph' ∧
      (∀ id, ph.target = some id → ph'.target = some id) ∧
      ∀ id ∈ p'.removed, id ∈ p.removed ∨ ph'.target = some id := by
  have hplain {ph' : CallPhase} (hcalls : p'.calls = p.calls.set i ph')
      (hremoved : p'.removed = p.removed)
      (htarget : ∀ id, ph.target = some id → ph'.target = some id) :
      ∃ ph', p'.calls = p.calls.set i ph' ∧ (∀ id, ph.target = some id → ph'.target = some id) ∧
        ∀ id ∈ p'.removed, id ∈ p.removed ∨ ph'.target = some id :=
    ⟨ph', hcalls, htarget, fun id hin => .inl (hremoved ▸ hin)⟩
  cases ph with
  | create args =>
    simp only [CallPhase.exec] at h
    split at h <;> obtain rfl := Option.some.inj h
    · exact hplain rfl rfl fun _ ht => nomatch ht
    · exact hplain rfl rfl fun _ ht => nomatch ht
  | insert args id =>
    simp only [CallPhase.exec] at h
    split_ifs at h <;> obtain rfl := Option.some.inj h
    · exact hplain rfl rfl fun _ ht => nomatch ht
    · exact hplain rfl rfl fun _ ht => nomatch ht
    · exact hplain rfl rfl fun _ ht => nomatch ht
  | abandon id =>
    obtain rfl := Option.some.inj h
    exact hplain rfl rfl fun _ ht => nomatch ht
  | begin args id =>
    obtain rfl := Option.some.inj h
    exact hplain rfl rfl fun _ ht => nomatch ht
  | returned result => cases h
  | guard how id =>
    obtain rfl := Option.some.inj h
    refine hplain rfl rfl fun _ ht => ?_
    split_ifs <;> exact ht
  | remove how id =>
    obtain rfl := Option.some.inj h
    refine ⟨_, rfl, fun _ ht => ht, fun id' hin => ?_⟩
    rcases List.mem_cons.mp hin with rfl | hin
    · exact .inr rfl
    · exact .inl hin
  | unapply how id =>
    obtain rfl := Option.some.inj h
    exact hplain rfl rfl fun _ ht => ht
  | destroy id =>
    obtain rfl := Option.some.inj h
    exact hplain rfl rfl fun _ ht => ht
  | finished id => cases h

/-- Every lease that was removed has been stopped or released. -/
def RemovedByCall (p : Race) : Prop := ∀ id ∈ p.removed, ∃ ph ∈ p.calls, ph.target = some id

theorem RemovedByCall.step {p p' : Race} {e : RaceEvent} (hinv : RemovedByCall p)
    (hstep : p.step e = some p') : RemovedByCall p' := by
  cases e with
  | start args =>
    obtain rfl := Option.some.inj hstep
    intro id hin
    obtain ⟨ph, hph, ht⟩ := hinv id hin
    exact ⟨ph, List.mem_append_left _ hph, ht⟩
  | teardown how id =>
    simp only [Race.step] at hstep
    split_ifs at hstep
    obtain rfl := Option.some.inj hstep
    intro id hin
    obtain ⟨ph, hph, ht⟩ := hinv id hin
    exact ⟨ph, List.mem_append_left _ hph, ht⟩
  | advance i env allocated copied pushed =>
    obtain ⟨ph, hcall, hexec⟩ := Race.step_advance hstep
    obtain ⟨ph', hcalls, htarget, hremoved⟩ := CallPhase.exec_calls hexec
    have hmem : ph' ∈ p'.calls := by
      rw [hcalls]
      exact List.mem_set (List.getElem?_eq_some_iff.mp hcall).1 ph'
    intro id hin
    rcases hremoved id hin with hold | hnow
    · obtain ⟨pho, hpho, ht⟩ := hinv id hold
      obtain ⟨j, hj⟩ := List.mem_iff_getElem?.mp hpho
      by_cases hij : i = j
      · subst hij
        obtain rfl : ph = pho := Option.some.inj (hcall.symm.trans hj)
        exact ⟨ph', hmem, htarget id ht⟩
      · refine ⟨pho, ?_, ht⟩
        rw [hcalls]
        exact List.mem_of_getElem? ((List.getElem?_set_ne hij).trans hj)
    · exact ⟨ph', hmem, hnow⟩
  | operate id o =>
    simp only [Race.step] at hstep
    split_ifs at hstep
    obtain rfl := Option.some.inj hstep
    exact hinv

/-! ## 7. A start that returns `NULL` -/

/-- The call may still return `NULL`, or has. -/
def CallPhase.mayFail : CallPhase → Bool
  | .create _ => true
  | .insert _ _ => true
  | .abandon _ => true
  | .returned none => true
  | _ => false

/-- A step of call `i` that changes neither the table nor a lease of another call, and sends
nothing. -/
structure Invisible (i : Nat) (p p' : Race) : Prop where
  table : p'.table = p.table
  others : ∀ id < p.next, (p.slots id).owner ≠ i → p'.slots id = p.slots id
  log : ∀ id < p'.next, (p'.client id).log = if id < p.next then (p.client id).log else []

theorem Invisible.of_call {p : Race} {i : Nat} {ph : CallPhase} : Invisible i p (p.setCall i ph) :=
  ⟨rfl, fun _ _ _ => rfl, fun _ hlt => (if_pos hlt).symm⟩

-- The lease that was just allocated has done nothing.
theorem Invisible.of_create {p : Race} {i : Nat} {ph : CallPhase} {slot : Slot}
    (hlog : slot.client.log = []) :
    Invisible i p (({ p with
      slots := Function.update p.slots p.next slot
      next := p.next + 1 }).setCall i ph) := by
  refine ⟨rfl, fun id hid _ => Function.update_of_ne (Nat.ne_of_lt hid) _ _, ?_⟩
  intro id hbound
  have hle : id < p.next + 1 := hbound
  show (Function.update p.slots p.next slot id).client.log = _
  by_cases hid : id < p.next
  · rw [if_pos hid, Function.update_of_ne (Nat.ne_of_lt hid)]
    rfl
  · have hnew : id = p.next := Nat.le_antisymm (Nat.le_of_lt_succ hle) (Nat.le_of_not_lt hid)
    rw [if_neg hid, hnew, Function.update_self]
    exact hlog

-- A call frees its own lease.
theorem Invisible.of_free {p : Race} {i : Nat} {ph : CallPhase} {id : LeaseRef}
    (howner : (p.slots id).owner = i) : Invisible i p ((p.free id).setCall i ph) := by
  refine ⟨rfl, fun id' _ hother => ?_, fun id' hid => ?_⟩
  · have hne : id' ≠ id := fun heq => hother (heq ▸ howner)
    show (p.free id).slots id' = _
    unfold Race.free
    rw [Race.setSlot_ne hne]
  · rw [if_pos (show id' < p.next from hid)]
    show ((p.free id).slots id').client.log = _
    unfold Race.free
    by_cases heq : id' = id
    · subst heq
      rw [Race.setSlot_self]
      rfl
    · rw [Race.setSlot_ne heq]
      rfl

-- A step after which the call may still fail is invisible.
theorem CallPhase.exec_invisible {p p' : Race} {i : Nat} {env : Env}
    {allocated copied pushed : Bool} {ph ph' : CallPhase} (hinv : RaceInv p)
    (hcall : p.calls[i]? = some ph) (h : ph.exec p i env allocated copied pushed = some p')
    (hcall' : p'.calls[i]? = some ph') (hfail : ph'.mayFail = true) : Invisible i p p' := by
  have hlt : i < p.calls.length := (List.getElem?_eq_some_iff.mp hcall).1
  have hset {next : CallPhase} (hcalls : p'.calls = p.calls.set i next) : ph' = next := by
    rw [hcalls, List.getElem?_set_self hlt] at hcall'
    exact (Option.some.inj hcall').symm
  have hfacts := hinv.calls i ph hcall
  cases ph with
  | create args =>
    simp only [CallPhase.exec] at h
    split at h
    · obtain rfl := Option.some.inj h
      exact .of_create rfl
    · obtain rfl := Option.some.inj h
      exact .of_call
  | insert args id =>
    simp only [CallPhase.exec] at h
    split_ifs at h
    · obtain rfl := Option.some.inj h
      exact .of_call
    · -- The push was the success of the call.
      obtain rfl := Option.some.inj h
      rw [hset rfl] at hfail
      cases hfail
    · obtain rfl := Option.some.inj h
      exact .of_call
  | abandon id =>
    obtain rfl := Option.some.inj h
    exact .of_free hfacts.2.1
  | returned result => cases h
  | finished id => cases h
  | guard how id =>
    obtain rfl := Option.some.inj h
    rw [hset rfl] at hfail
    split_ifs at hfail
    all_goals cases hfail
  | _ =>
    obtain rfl := Option.some.inj h
    rw [hset rfl] at hfail
    cases hfail

-- A call that can no longer fail does not.
theorem Race.step_mayFail {p p' : Race} {e : RaceEvent} (hstep : p.step e = some p') {i : Nat}
    (h : ∃ ph, p.calls[i]? = some ph ∧ ph.mayFail = false) :
    ∃ ph, p'.calls[i]? = some ph ∧ ph.mayFail = false := by
  obtain ⟨ph, hcall, hph⟩ := h
  have hlt : i < p.calls.length := (List.getElem?_eq_some_iff.mp hcall).1
  cases e with
  | start args =>
    obtain rfl := Option.some.inj hstep
    exact ⟨ph, (List.getElem?_append_left hlt).trans hcall, hph⟩
  | teardown how id =>
    simp only [Race.step] at hstep
    split_ifs at hstep
    obtain rfl := Option.some.inj hstep
    exact ⟨ph, (List.getElem?_append_left hlt).trans hcall, hph⟩
  | operate id o =>
    simp only [Race.step] at hstep
    split_ifs at hstep
    obtain rfl := Option.some.inj hstep
    exact ⟨ph, hcall, hph⟩
  | advance j env allocated copied pushed =>
    obtain ⟨phj, hcallj, hexec⟩ := Race.step_advance hstep
    by_cases hij : j = i
    · subst hij
      obtain rfl : ph = phj := Option.some.inj (hcall.symm.trans hcallj)
      have hself {next : CallPhase} (hcalls : p'.calls = p.calls.set j next)
          (hnext : next.mayFail = false) : ∃ ph, p'.calls[j]? = some ph ∧ ph.mayFail = false :=
        ⟨next, by rw [hcalls, List.getElem?_set_self hlt], hnext⟩
      cases ph with
      | create args => cases hph
      | insert args id => cases hph
      | abandon id => cases hph
      | returned result => cases hexec
      | finished id => cases hexec
      | guard how id =>
        obtain rfl := Option.some.inj hexec
        refine hself rfl ?_
        split_ifs <;> rfl
      | _ =>
        obtain rfl := Option.some.inj hexec
        exact hself rfl rfl
    · obtain ⟨ph', hcalls, -⟩ := CallPhase.exec_calls hexec
      exact ⟨ph, by rw [hcalls, List.getElem?_set_ne hij, hcall], hph⟩

-- Every step of a call that returns `NULL` in the end was invisible.
theorem invisible_of_null {p p' q : Race} {i : Nat} {env : Env} {allocated copied pushed : Bool}
    {events : List RaceEvent} (hinv : RaceInv p)
    (hstep : p.step (.advance i env allocated copied pushed) = some p')
    (hrest : Lts.Run (Lts.ofPartial Race.step) p' events q)
    (hnull : q.calls[i]? = some (.returned none)) : Invisible i p p' := by
  obtain ⟨ph, hcall, hexec⟩ := Race.step_advance hstep
  obtain ⟨ph', hcalls, -⟩ := CallPhase.exec_calls hexec
  have hcall' : p'.calls[i]? = some ph' := by
    rw [hcalls, List.getElem?_set_self (List.getElem?_eq_some_iff.mp hcall).1]
  apply CallPhase.exec_invisible hinv hcall hexec hcall'
  by_contra hno
  have hlast := hrest.invariant (I := fun r => ∃ ph, r.calls[i]? = some ph ∧ ph.mayFail = false)
    (fun _ _ _ hs hstep => Race.step_mayFail hstep hs) ⟨ph', hcall', Bool.not_eq_true _ ▸ hno⟩
  obtain ⟨phq, hq, hfail⟩ := hlast
  rw [hnull] at hq
  obtain rfl := Option.some.inj hq
  cases hfail

/-! ## 8. The table -/

theorem RaceInv.findByXid_iff {p : Race} (hinv : RaceInv p) (iface : Iface) (xid : UInt32)
    (id : LeaseRef) : p.findByXid iface xid = some id ↔
      id ∈ p.table ∧ p.iface id = iface ∧ (p.client id).lease.xid = xid := by
  have hmatch (id : LeaseRef) : (p.client id).matchesXid iface xid = true ↔
      p.iface id = iface ∧ (p.client id).lease.xid = xid := by
    unfold Client.matchesXid Race.iface
    rw [Bool.and_eq_true, beq_iff_eq, beq_iff_eq]
  unfold Race.findByXid
  constructor
  · intro hfind
    have hfound := List.find?_some hfind
    exact ⟨List.mem_of_find?_eq_some hfind, (hmatch id).mp hfound⟩
  · intro h
    -- The first match is a lease on the same interface, so it is this one.
    cases hfind : p.table.find? fun id => (p.client id).matchesXid iface xid with
    | none => exact absurd ((hmatch id).mpr h.2) (List.find?_eq_none.mp hfind id h.1)
    | some id' =>
      have hfound := List.find?_some hfind
      have heq := hinv.eq_of_iface (List.mem_of_find?_eq_some hfind) h.1
        (((hmatch id').mp hfound).1.trans h.2.1.symm)
      rw [heq]

/-- **The lease table.**  In every interleaving of starts, stops and releases, with everything else
that can happen to the leases in between: no interface has two leases in the table; a lease that was
handed out is in the table until its removal, hence as long as nobody has stopped or released it, and
not once a stop or release of it has returned; of the starts on one interface whose leases were not
removed only one succeeds; a start that returns `NULL` has changed neither the table nor a lease of
another call and has sent nothing; and a lookup by xid finds the one lease of the interface if it has
that xid, and nothing otherwise. -/
theorem lease_table_race (slots : LeaseRef → Slot) (events : List RaceEvent) (p : Race)
    (hrun : Lts.Run (Lts.ofPartial Race.step) (.init slots) events p) :
    (p.table.map p.iface).Nodup ∧
      (∀ id, p.HandedOut id → (id ∈ p.table ↔ id ∉ p.removed)) ∧
      (∀ id, p.HandedOut id → (∀ ph ∈ p.calls, ph.target ≠ some id) → id ∈ p.table) ∧
      (∀ id, .finished id ∈ p.calls → id ∉ p.table) ∧
      (∀ (i j : Nat) (id id' : LeaseRef), p.calls[i]? = some (.returned (some id)) →
        p.calls[j]? = some (.returned (some id')) → p.iface id = p.iface id' →
        id ∉ p.removed → id' ∉ p.removed → i = j) ∧
      (∀ i : Nat, p.calls[i]? = some (.returned none) →
        ∀ before after env allocated copied pushed s s',
          events = before ++ .advance i env allocated copied pushed :: after →
          Lts.Run (Lts.ofPartial Race.step) (.init slots) before s →
          s.step (.advance i env allocated copied pushed) = some s' →
          Lts.Run (Lts.ofPartial Race.step) s' after p → Invisible i s s') ∧
      ∀ iface xid id, p.findByXid iface xid = some id ↔
        id ∈ p.table ∧ p.iface id = iface ∧ (p.client id).lease.xid = xid := by
  have hinv : RaceInv p :=
    hrun.invariant (fun _ _ _ hs hstep => hs.step hstep) (init_raceInv slots)
  have hbycall : RemovedByCall p :=
    hrun.invariant (fun _ _ _ hs hstep => hs.step hstep) (fun _ h => by cases h)
  refine ⟨hinv.ifaces, ?_, ?_, ?_, ?_, ?_, hinv.findByXid_iff⟩
  · exact fun id hout => (hinv.handedOut hout).2.1
  · intro id hout hnone
    apply (hinv.handedOut hout).2.1.mpr
    intro hremoved
    obtain ⟨ph, hph, htarget⟩ := hbycall id hremoved
    exact hnone ph hph htarget
  · intro id hfinished hin
    obtain ⟨i, hi⟩ := List.mem_iff_getElem?.mp hfinished
    obtain ⟨hout, hremoved⟩ := hinv.calls i _ hi
    exact (hinv.handedOut hout).2.1.mp hin hremoved
  · intro i j id id' hi hj hiface hid hid'
    obtain ⟨-, howner, hmem⟩ := hinv.calls i _ hi
    obtain ⟨-, howner', hmem'⟩ := hinv.calls j _ hj
    -- Both leases are in the table, so they are one lease, and a lease has one owner.
    have heq := hinv.eq_of_iface (hmem.mpr hid) (hmem'.mpr hid') hiface
    rw [← howner, ← howner', heq]
  · intro i hnull before after env allocated copied pushed s s' _ hbefore hstep hafter
    have hs : RaceInv s :=
      hbefore.invariant (fun _ _ _ hs hstep => hs.step hstep) (init_raceInv slots)
    exact invisible_of_null hs hstep hafter hnull

/-- Two starts on interface 1 at once: both allocate a lease, the second one pushes first. -/
def raceEvents : List RaceEvent :=
  let args : StartArgs := ⟨some 1, blankNetif, none, 0, none⟩
  let advance (i : Nat) : RaceEvent := .advance i (quietEnv 7) true true true
  [.start args, .start args, advance 0, advance 1, advance 1, advance 0, advance 1, advance 0]

/-- One of them succeeds, the other one returns `NULL`, and a reply finds the lease that is left. -/
theorem lease_table_race_two :
    ∃ p, Lts.Run (Lts.ofPartial Race.step) (.init fun _ => ⟨startedClient, 0, false, true⟩)
        raceEvents p ∧
      p.calls = [.returned none, .returned (some 1)] ∧ (p.table.map p.iface).Nodup ∧
      1 ∈ p.table ∧ p.findByXid 1 7 = some 1 := by
  obtain ⟨p, hrun, hresult⟩ := Lts.Passes.run Race.step (fun _ _ => True)
    (.init fun _ => ⟨startedClient, 0, false, true⟩) raceEvents
    (fun p => (p.calls, p.iface 1, (p.client 1).lease.xid))
    ([.returned none, .returned (some 1)], 1, 7) (by decide +kernel) (by decide +kernel)
  obtain ⟨hcalls, hrest⟩ := Prod.mk.inj hresult
  obtain ⟨hiface, hxid⟩ := Prod.mk.inj hrest
  obtain ⟨hnodup, -, hlisted, -, -, -, hfind⟩ := lease_table_race _ _ p hrun.unguard
  have hin : 1 ∈ p.table := by
    apply hlisted
    · rw [Race.HandedOut, hcalls]
      decide
    · rw [hcalls]
      decide
  exact ⟨p, hrun.unguard, hcalls, hnodup, hin, (hfind 1 7 1).mpr ⟨hin, hiface, hxid⟩⟩

/-- **A start that nobody interferes with** is the start of the sequential table. -/
theorem start_undisturbed {p : Race} (hinv : RaceInv p) {args : StartArgs} {iface : Iface}
    (hargs : args.iface = some iface) (env : Env) (hfree : findByIface p.clients iface = none) :
    let advance : RaceEvent := .advance p.calls.length env true true true
    ∃ p', Lts.exec Race.step p [.start args, advance, advance, advance] = some p' ∧
      p'.clients = tableStep p.clients (env, .start iface args.netif
        (args.callbacks.getD ⟨false, false, false⟩) args.userData args.options true) := by
  have hlast (ph : CallPhase) : (p.calls ++ [ph])[p.calls.length]? = some ph := by simp
  have hset (ph ph' : CallPhase) : (p.calls ++ [ph]).set p.calls.length ph' = p.calls ++ [ph'] := by
    simp
  let slots := Function.update p.slots p.next ⟨args.create iface true, p.calls.length, true, false⟩
  have hnew (id : LeaseRef) (hin : id ∈ p.table) : slots id = p.slots id :=
    Function.update_of_ne (Nat.ne_of_lt (hinv.listed id hin).1) _ _
  have hself : slots p.next = ⟨args.create iface true, p.calls.length, true, false⟩ :=
    Function.update_self ..
  -- The state after the allocation; its check of the interfaces finds none.
  let q : Race := ⟨slots, p.next + 1, p.table, p.removed, p.calls ++ [.insert args p.next]⟩
  have htaken : (q.table.any fun other => q.iface other == q.iface p.next) = false := by
    rw [List.any_eq_false]
    intro other hother
    have hno := List.find?_eq_none.mp hfree (p.client other) (List.mem_map_of_mem hother)
    unfold Race.iface Race.client
    rw [show q.slots = slots from rfl, hnew other hother, hself]
    exact hno
  let r : Race := { q with
    table := p.table ++ [p.next]
    calls := p.calls ++ [.begin args p.next] }
  refine ⟨(r.setClient p.next (startSection env args.options)).setCall p.calls.length
    (.returned (some p.next)), ?_, ?_⟩
  · simp only [Lts.exec, Race.step, Option.bind_some, hlast]
    simp only [CallPhase.exec, hargs, Option.bind_some, Race.setCall, hset, hlast]
    rw [show (⟨slots, p.next + 1, p.table, p.removed, p.calls ++ [.insert args p.next]⟩ : Race) = q
      from rfl, htaken]
    simp only [Bool.false_eq_true, if_false, if_true, Option.bind_some, hlast]
    rfl
  · rw [tableStep, if_pos ⟨rfl, hfree⟩]
    show List.map (Race.client (r.setClient p.next _)) (p.table ++ [p.next]) = _
    rw [List.map_append, List.map_singleton]
    unfold Race.setClient Race.client
    congr 1
    · apply List.map_congr_left
      intro id hin
      rw [Race.setSlot_ne (Nat.ne_of_lt (hinv.listed id hin).1), show r.slots = slots from rfl,
        hnew id hin]
      rfl
    · rw [Race.setSlot_self, show r.slots = slots from rfl, hself]
      rfl

end Dmdhcp
