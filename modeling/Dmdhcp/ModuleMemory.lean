import Dmdhcp.Ownership
import Dmdhcp.Projection

/-!
# The memory of the module

The lease table with the objects behind it, from `dmod_init` to `dmod_deinit`, and what is allocated
after any sequence of calls and events, whatever the allocator answers.
-/

namespace Dmdhcp.Memory

open Alloc

/-! ## 1. The module -/

/-- A lease in the table, and what it is made of. -/
structure Row where
  entry : TableEntry
  block : Block
  deriving DecidableEq, Repr

/-- `g_leases` and `g_leases_mutex`. -/
structure LeaseTable where
  list : Obj Kind
  mutex : Obj Kind
  rows : List Row
  deriving DecidableEq, Repr

/-- The module and the machine; there is a table from `dmod_init` to `dmod_deinit`. -/
structure Module where
  netifs : Iface → Netif
  routes : Routes
  table : Option LeaseTable
  /-- What the `dmod_init`s that failed have allocated: nothing gives it back. -/
  abandoned : List (Obj Kind)

def Module.rows (m : Module) : List Row := m.table.elim [] LeaseTable.rows

/-- The module without its memory. -/
def Module.system (m : Module) : System := ⟨m.netifs, m.routes, m.rows.map Row.entry⟩

/-- The module with the world that `s` leaves, and these leases. -/
def Module.put (m : Module) (t : LeaseTable) (s : System) (rows : List Row) : Module :=
  { m with netifs := s.netifs, routes := s.routes, table := some { t with rows } }

/-- `dmod_init`; `bound` says whether `dmudp_bind` returns 0. -/
def Module.init (bound : Bool) (m : Module) : Code Module := do
  let list ← alloc .list
  let mutex ← alloc .mutex
  match list, mutex with
  | some list, some mutex =>
    if bound then return { m with table := some ⟨list, mutex, []⟩ }
    else return { m with abandoned := list :: mutex :: m.abandoned }
  | list, mutex => return { m with abandoned := list.toList ++ mutex.toList ++ m.abandoned }

/-- `dmdhcp_lease_table_insert`. -/
def leaseTableInsert (t : LeaseTable) (iface : Iface) : Code Bool :=
  match t.rows.find? fun r => r.entry.isOn iface with
  | some _ => return false
  | none => ask

/-- `dmdhcp_start`. -/
def Module.start (env : Env) (iface : Iface) (callbacks : Callbacks) (userData : Nat)
    (options : Option StartOptions) (t : LeaseTable) (m : Module) : Code Module := do
  match ← leaseTableCreate with
  | none => return m
  | some b => do
    let b ← copyHostname (options.bind StartOptions.hostname) b
    if ← leaseTableInsert t iface then do
      let hostname := if b.hostname.isSome then options.bind StartOptions.hostname else none
      let (env, b) ← Memory.start env options b
      let c := startSection env options (m.system.create iface callbacks userData hostname)
      return m.put t (m.system.leave c) (t.rows ++ [⟨c.entry, b⟩])
    else do
      leaseTableDestroy b
      return m

/-- Work on the first lease that `dmlist_find` finds. -/
def Module.onFirst (p : TableEntry → Bool) (f : Holding → Code Holding) (t : LeaseTable)
    (m : Module) : Code Module :=
  match t.rows.find? fun r => p r.entry with
  | none => return m
  | some r => do
    let h ← f ⟨m.system.view r.entry, r.block⟩
    return m.put t (m.system.leave h.client)
      (modifyFirst (fun r => p r.entry) (fun _ => ⟨h.client.entry, h.block⟩) t.rows)

/-- The requests of the locked section of `dmdhcp_stop` or `dmdhcp_release`. -/
def teardown (env : Env) (how : Teardown) (l : Lease) (b : Block) : Code (Env × Block) :=
  match how with
  | .stop => return (env, b)
  | .release => release env l b

def Module.teardown (env : Env) (how : Teardown) (iface : Iface) (t : LeaseTable) (m : Module) :
    Code Module :=
  match t.rows.find? fun r => r.entry.isOn iface with
  | none => return m
  | some r => do
    let (env, b) ← Memory.teardown env how r.entry.lease r.block
    leaseTableDestroy b
    return m.put t (m.system.leave (teardownSection env how (m.system.view r.entry)))
      (t.rows.eraseP fun r => r.entry.isOn iface)

/-- The loop of `dmdhcp_lease_table_deinit`. -/
def popAll (envs : Iface → Env) (s : System) : List Row → Code System
  | [] => return s
  | r :: rs => do
    let s := s.unapply envs r.entry
    leaseTableDestroy r.block
    popAll envs s rs

/-- `dmod_deinit`. -/
def Module.deinit (envs : Iface → Env) (t : LeaseTable) (m : Module) : Code Module := do
  let s ← popAll envs m.system t.rows
  free t.list
  free t.mutex
  return { m with netifs := s.netifs, routes := s.routes, table := none }

/-- What can happen. -/
inductive Call
  | init (bound : Bool)
  | start (iface : Iface) (callbacks : Callbacks) (userData : Nat) (options : Option StartOptions)
  | teardown (how : Teardown) (iface : Iface)
  | setCallbacks (iface : Iface) (callbacks : Option Callbacks) (userData : Nat)
  | renew (iface : Iface)
  | datagram (iface : Iface) (payload : List UInt8)
  | retransmit (iface : Iface) (stale : Bool)
  | leaseTimer (iface : Iface) (stale : Bool)
  | deinit (envs : Iface → Env)

/-- A call on the module once it has a table. -/
def Module.call (env : Env) (t : LeaseTable) (m : Module) : Call → Code Module
  | .init _ => return m
  | .start iface callbacks userData options => m.start env iface callbacks userData options t
  | .teardown how iface => m.teardown env how iface t
  | .setCallbacks iface callbacks userData =>
    m.onFirst (TableEntry.isOn iface) (fun h =>
      return { h with client := h.client.setCallbacks callbacks userData }) t
  | .renew iface => m.onFirst (TableEntry.isOn iface) (fun h => h.step env .renew) t
  | .datagram iface payload =>
    match parseReply payload with
    | none => return m
    | some r =>
      m.onFirst (TableEntry.matchesXid iface r.msg.xid)
        (fun h => h.step env (.datagram iface payload)) t
  | .retransmit iface stale =>
    m.onFirst (TableEntry.isOn iface) (fun h => h.step env (.retransmit stale)) t
  | .leaseTimer iface stale =>
    m.onFirst (TableEntry.isOn iface) (fun h => h.step env (.leaseTimer stale)) t
  | .deinit envs => m.deinit envs t

/-- The module is initialised once, and nothing else is called before. -/
def Module.step (m : Module) (env : Env) (call : Call) : Code Module :=
  match m.table with
  | some t => m.call env t call
  | none =>
    match call with
    | .init bound => m.init bound
    | _ => return m

/-- No module yet, and the interfaces as they are. -/
def Module.initial (netifs : Iface → Netif) : Module := ⟨netifs, ⟨[], 0⟩, none, []⟩

/-- The module and the heap; the allocator answers each call anew. -/
def stepHeap (s : Module × Heap Kind) (e : Env × List Bool × Call) : Module × Heap Kind :=
  s.1.step e.1 e.2.2 (s.2.answering e.2.1)

/-! ## 2. What the module owns -/

def rowsOwned (rows : List Row) : Multiset (Obj Kind) := (rows.map fun r => r.block.owned).sum

/-- Everything the module can still get at, and what it has lost. -/
def Module.owned (m : Module) : Multiset (Obj Kind) :=
  m.table.elim 0 (fun t => {t.list} + {t.mutex} + rowsOwned t.rows) + m.abandoned

/-- Behind every lease is the memory its fields speak of. -/
def Module.Backed (m : Module) : Prop := ∀ r ∈ m.rows, Backs r.block r.entry.lease

/-- The event of the module that a call amounts to. -/
def Call.event (allocated copied : Bool) : Call → Option SystemEvent
  | .init _ => none
  | .start iface callbacks userData options =>
    some (.start iface callbacks userData options allocated copied)
  | .teardown how iface => some (.teardown how iface)
  | .setCallbacks iface callbacks userData => some (.setCallbacks iface callbacks userData)
  | .renew iface => some (.renew iface)
  | .datagram iface payload => some (.datagram iface payload)
  | .retransmit iface stale => some (.retransmit iface stale)
  | .leaseTimer iface stale => some (.leaseTimer iface stale)
  | .deinit envs => some (.deinit envs)

/-- A step, or none. -/
def stepOption (s : System) (d : Option (Env × SystemEvent)) : System := d.elim s s.step

/-- The event of a call, in a world that is the same but for what the allocator does. -/
def Answers (env : Env) (call : Call) (d : Option (Env × SystemEvent)) : Prop :=
  ∃ env' allocated copied, SameButMemory env env' ∧
    d = (call.event allocated copied).map fun ev => (env', ev)

/-- What a call on the table leaves, whatever else it does. -/
structure Kept (m m' : Module) : Prop where
  backed : m'.Backed
  abandoned : m'.abandoned = m.abandoned

/-- What a call leaves.  Only a `dmod_init` loses anything, and never what belongs to a lease. -/
structure Answered (m : Module) (env : Env) (call : Call) (m' : Module) : Prop where
  backed : m'.Backed
  abandoned : ∀ o ∈ m'.abandoned, o ∈ m.abandoned ∨ o.kind = .list ∨ o.kind = .mutex
  system : ∃ d, Answers env call d ∧ m'.system = stepOption m.system d

section
variable {α M : Type*} [AddCommMonoid M] (w : α → M) {p : α → Bool} {a b : α} {l : List α}

theorem sum_find? (h : l.find? p = some a) :
    (l.map w).sum = w a + ((l.eraseP p).map w).sum := by
  induction l with
  | nil => cases h
  | cons c cs ih =>
    by_cases hc : p c = true
    · rw [List.find?_cons_of_pos hc] at h
      obtain rfl := Option.some.inj h
      rw [List.eraseP_cons_of_pos hc, List.map_cons, List.sum_cons]
    · rw [List.find?_cons_of_neg hc] at h
      rw [List.eraseP_cons_of_neg hc, List.map_cons, List.map_cons, List.sum_cons, List.sum_cons,
        ih h, add_left_comm]

theorem sum_modifyFirst (h : l.find? p = some a) :
    ((modifyFirst p (fun _ => b) l).map w).sum = w b + ((l.eraseP p).map w).sum := by
  induction l with
  | nil => cases h
  | cons c cs ih =>
    unfold modifyFirst
    by_cases hc : p c = true
    · rw [if_pos hc, List.eraseP_cons_of_pos hc, List.map_cons, List.sum_cons]
    · rw [List.find?_cons_of_neg hc] at h
      rw [if_neg hc, List.eraseP_cons_of_neg hc, List.map_cons, List.map_cons, List.sum_cons,
        List.sum_cons, ih h, add_left_comm]

end

/-! ## 3. The hostname stays -/

theorem Move.hostname {env : Env} {c c' : Client} (h : Move env c c') :
    c'.lease.hostname = c.lease.hostname := by
  cases h with
  | stay => rfl
  | offer r h => rfl
  | ack r h => rfl
  | restart h => rw [outputStartDiscovery_lease]
  | resend h => rw [rearmBackoff_lease, sendMessage_lease]; rfl
  | conflict h harp =>
    obtain ⟨state, timer, -, hl⟩ := handleConflict_lease env
      (c.emit (.probe c.lease.offeredIp true))
    rw [hl]
    rfl
  | request h harp => rw [requestOffered_lease]; rfl
  | renew h => rw [outputStartRenew_lease]; rfl
  | t1 h => rw [outputStartRenew_armT2_lease]; rfl
  | t2 h => rw [outputStartRebind_armExpiry_lease]; rfl

theorem commitLease_hostname (env : Env) (c : Client) :
    (commitLease env c).lease.hostname = c.lease.hostname := by
  obtain ⟨configured, route, hl⟩ := commitLease_lease env c
  rw [hl]

theorem step_hostname (env : Env) (c : Client) (ev : Event) :
    (c.step (env, ev)).lease.hostname = c.lease.hostname := by
  obtain ⟨_, _, hl⟩ := (c.before_same ev).lease
  have hbefore : (c.before ev).lease.hostname = c.lease.hostname := by rw [hl]
  have houtcome := c.step_outcome env ev
  rw [← hbefore]
  generalize c.step (env, ev) = c' at houtcome ⊢
  cases houtcome with
  | move h => exact Move.hostname h
  | failed error h =>
    rw [callOnError_lease]
    exact Move.hostname h
  | commit h harp =>
    rw [callOnBound_lease]
    exact commitLease_hostname env _
  | renewal r h =>
    rw [callOnBound_lease]
    exact commitLease_hostname env _
  | lost h =>
    obtain ⟨route, hun⟩ := lifecycleUnapply_lease env (c.before ev)
    simp only [Dmdhcp.lifecycleHandleLost, lostRestart, outputStartDiscovery_lease,
      callOnExpiredOrLost_lease, lostUnapply, Client.update_lease, hun]

theorem startSection_hostname (env : Env) (options : Option StartOptions) (c : Client) :
    (startSection env options c).lease.hostname = c.lease.hostname := by
  unfold startSection
  split
  · rw [outputStartReboot_lease]
    rfl
  · rw [outputStartDiscovery_lease]

/-! ## 4. Calls on the module -/

theorem Holding.step_spec (env : Env) (ev : Event) {s : Holding} (h : Backs s.block s.client.lease) :
    Spec s.block.owned (s.step env ev)
      (fun s' => ∃ env', SameButMemory env env' ∧ s'.client = s.client.step (env', ev) ∧
        Backs s'.block s'.client.lease)
      (fun s' => s'.block.owned) := by
  refine (event_spec env h ev).bind fun r hr => .pure _ ⟨r.1, hr.world, rfl, hr.complete,
    hr.servers, ?_⟩ rfl
  rw [hr.hostname, step_hostname]
  exact h.hostname

theorem teardown_spec (env : Env) (how : Teardown) (l : Lease) {b : Block}
    (h : b.complete = true) :
    Spec b.owned (teardown env how l b)
      (fun r => SameButMemory env r.1 ∧ r.2.complete = true) (fun r => r.2.owned) := by
  have hweaken (r : Env × Block) (hr : Leaves env b (fun _ => b.servers) r) :
      (SameButMemory env r.1 ∧ r.2.complete = true) ∧ r.2.owned = r.2.owned :=
    ⟨⟨hr.world, hr.complete⟩, rfl⟩
  have hidle := (idle_spec h env).conseq rfl hweaken
  cases how with
  | stop => exact hidle
  | release => exact .ite (fun _ => (send_spec h env).conseq rfl hweaken) fun _ => hidle

-- A start clears the lists, or leaves those of the new lease.
theorem start_spec (env : Env) (options : Option StartOptions) {b : Block} (c : Client)
    (h : b.complete = true) (hservers : b.servers = serversOf c.lease) :
    Spec b.owned (start env options b)
      (Leaves env b fun env' => serversOf (startSection env' options c).lease)
      (fun r => r.2.owned) := by
  have hdiscovery : Spec b.owned (outputStartDiscovery env b)
      (Leaves env b fun env' => serversOf (Dmdhcp.outputStartDiscovery env' c).lease)
      (fun r => r.2.owned) := by
    simp only [outputStartDiscovery_servers]
    exact outputStartDiscovery_spec h env
  cases options with
  | none => exact hdiscovery
  | some o =>
    obtain ⟨hostname, requestedIp⟩ := o
    cases requestedIp with
    | none => exact hdiscovery
    | v6 a => exact hdiscovery
    | v4 a =>
      have hsend := send_spec h env
      rw [hservers] at hsend
      simp only [startSection, outputStartReboot_lease]
      exact hsend

theorem leaseTableInsert_spec (t : LeaseTable) (iface : Iface) :
    Spec (0 : Multiset (Obj Kind)) (leaseTableInsert t iface)
      (fun inserted => inserted = true → (t.rows.find? fun r => r.entry.isOn iface) = none)
      (fun _ => 0) := by
  unfold leaseTableInsert
  cases hfind : t.rows.find? fun r => r.entry.isOn iface with
  | none => exact ask_spec.conseq rfl fun _ _ => ⟨fun _ => rfl, rfl⟩
  | some r => exact .pure false (fun h => by cases h) rfl

theorem popAll_spec (envs : Iface → Env) (rows : List Row) (s : System)
    (hrows : ∀ r ∈ rows, Backs r.block r.entry.lease) :
    Spec (rowsOwned rows) (popAll envs s rows)
      (fun s' => s' = (rows.map Row.entry).foldl (System.unapply envs) s) (fun _ => 0) := by
  induction rows generalizing s with
  | nil => exact .pure s rfl rfl
  | cons r rs ih =>
    obtain ⟨hdns, hntp⟩ := Block.complete_rooted (hrows r List.mem_cons_self).complete
    refine (leaseTableDestroy_spec hdns hntp).call (rowsOwned rs) ?_ fun _ _ => ?_
    · rw [rowsOwned, List.map_cons, List.sum_cons]
      rfl
    · rw [zero_add]
      exact ih _ fun r' hr' => hrows r' (List.mem_cons_of_mem r hr')

section
variable {m : Module} {t : LeaseTable} (hbacked : m.Backed) (ht : m.table = some t)
include ht

theorem Module.rows_eq : m.rows = t.rows := by
  rw [Module.rows, ht]
  rfl

theorem Module.owned_eq : m.owned = {t.list} + {t.mutex} + rowsOwned t.rows + m.abandoned := by
  rw [Module.owned, ht]
  rfl

theorem Module.find_eq (p : TableEntry → Bool) :
    m.system.table.find? p = (t.rows.find? fun r => p r.entry).map Row.entry := by
  show (m.rows.map Row.entry).find? p = _
  rw [Module.rows_eq ht, List.find?_map]
  rfl

include hbacked

theorem Module.onFirst_spec (env : Env) (p : TableEntry → Bool) {f : Holding → Code Holding}
    {g : Env → Client → Client}
    (hf : ∀ s : Holding, Backs s.block s.client.lease → Spec s.block.owned (f s)
      (fun s' => ∃ env', SameButMemory env env' ∧ s'.client = g env' s.client ∧
        Backs s'.block s'.client.lease) (fun s' => s'.block.owned)) :
    Spec m.owned (m.onFirst p f t)
      (fun m' => Kept m m' ∧
        ∃ env', SameButMemory env env' ∧ m'.system = m.system.onFirst p (g env'))
      Module.owned := by
  have hsystem := Module.find_eq ht p
  unfold Module.onFirst System.onFirst
  rw [hsystem]
  cases hfind : t.rows.find? fun r => p r.entry with
  | none => exact .pure m ⟨⟨hbacked, rfl⟩, env, .refl env, rfl⟩ rfl
  | some r =>
    have hr := hbacked r (by
      rw [Module.rows_eq ht]
      exact List.mem_of_find?_eq_some hfind)
    have hsum : rowsOwned t.rows = r.block.owned +
        rowsOwned (t.rows.eraseP fun r => p r.entry) := sum_find? _ hfind
    refine (hf ⟨m.system.view r.entry, r.block⟩ hr).call ({t.list} + {t.mutex} +
      rowsOwned (t.rows.eraseP fun r => p r.entry) + m.abandoned) ?_ fun s' hs' => ?_
    · rw [Module.owned_eq ht, hsum]
      abel
    obtain ⟨env', hworld, hclient, hbacks⟩ := hs'
    refine .pure _ ⟨⟨fun r' hr' => ?_, rfl⟩, env', hworld, ?_⟩ ?_
    · rcases mem_modifyFirst (show r' ∈ modifyFirst _ _ _ from hr') with hold | ⟨-, -, rfl⟩
      · exact hbacked r' (by rw [Module.rows_eq ht]; exact hold)
      · exact hbacks
    · show System.mk _ _ ((modifyFirst _ _ t.rows).map Row.entry) = _
      have hmap : (modifyFirst (fun r => p r.entry) (fun _ => ⟨s'.client.entry, s'.block⟩)
          t.rows).map Row.entry = modifyFirst p (fun _ => s'.client.entry) (t.rows.map Row.entry) :=
        map_modifyFirst Row.entry (fun _ _ => rfl) t.rows
      rw [hmap, ← Module.rows_eq ht, hclient]
      rfl
    · rw [Module.owned]
      show {t.list} + {t.mutex} + rowsOwned (modifyFirst _ _ t.rows) + _ = _
      rw [rowsOwned, sum_modifyFirst _ hfind]
      show {t.list} + {t.mutex} + (s'.block.owned + rowsOwned _) + _ = _
      abel

theorem Module.teardown_spec (env : Env) (how : Teardown) (iface : Iface) :
    Spec m.owned (m.teardown env how iface t)
      (fun m' => Kept m m' ∧
        ∃ env', SameButMemory env env' ∧ m'.system = m.system.teardown env' how iface)
      Module.owned := by
  have hsystem := Module.find_eq ht (TableEntry.isOn iface)
  unfold Module.teardown System.teardown System.findByIface
  rw [hsystem]
  cases hfind : t.rows.find? fun r => r.entry.isOn iface with
  | none => exact .pure m ⟨⟨hbacked, rfl⟩, env, .refl env, rfl⟩ rfl
  | some r =>
    have hr := hbacked r (by
      rw [Module.rows_eq ht]
      exact List.mem_of_find?_eq_some hfind)
    have hsum : rowsOwned t.rows = r.block.owned +
        rowsOwned (t.rows.eraseP fun r => r.entry.isOn iface) := sum_find? _ hfind
    refine (Memory.teardown_spec env how r.entry.lease hr.complete).call ({t.list} + {t.mutex} +
      rowsOwned (t.rows.eraseP fun r => r.entry.isOn iface) + m.abandoned) ?_ fun d hd => ?_
    · rw [Module.owned_eq ht, hsum]
      abel
    obtain ⟨hdns, hntp⟩ := Block.complete_rooted hd.2
    refine (leaseTableDestroy_spec hdns hntp).call _ rfl fun _ _ => ?_
    refine .pure _ ⟨⟨fun r' hr' => ?_, rfl⟩, d.1, hd.1, ?_⟩ ?_
    · exact hbacked r' (by rw [Module.rows_eq ht]; exact List.mem_of_mem_eraseP hr')
    · show System.mk _ _ ((t.rows.eraseP _).map Row.entry) = System.mk _ _ (m.system.table.eraseP _)
      show _ = System.mk _ _ ((m.rows.map Row.entry).eraseP _)
      rw [Module.rows_eq ht, List.eraseP_map]
      rfl
    · rw [zero_add]
      rfl

theorem Module.deinit_spec (envs : Iface → Env) :
    Spec m.owned (m.deinit envs t)
      (fun m' => Kept m m' ∧ m'.system = m.system.deinit envs) Module.owned := by
  refine (popAll_spec envs t.rows m.system ?_).call ({t.list} + {t.mutex} + m.abandoned) ?_
    fun s hs => ?_
  · rw [← Module.rows_eq ht]
    exact hbacked
  · rw [Module.owned_eq ht]
    abel
  refine (free_spec t.list).call ({t.mutex} + m.abandoned) (by abel) fun _ _ => ?_
  refine (free_spec t.mutex).call m.abandoned (by abel) fun _ _ => ?_
  refine .pure _ ⟨⟨fun r hr => absurd hr List.not_mem_nil, rfl⟩, ?_⟩ rfl
  rw [System.deinit, show m.system.table = t.rows.map Row.entry by
    rw [← Module.rows_eq ht]; rfl, ← hs]
  rfl

theorem Module.start_spec (env : Env) (iface : Iface) (callbacks : Callbacks) (userData : Nat)
    (options : Option StartOptions) :
    Spec m.owned (m.start env iface callbacks userData options t)
      (fun m' => Kept m m' ∧ ∃ env' allocated copied, SameButMemory env env' ∧
        m'.system = m.system.start env' iface callbacks userData options allocated copied)
      Module.owned := by
  -- Nothing is left of a start that fails.
  have hfailed : Kept m m ∧ ∃ env' allocated copied, SameButMemory env env' ∧
      m.system = m.system.start env' iface callbacks userData options allocated copied :=
    ⟨⟨hbacked, rfl⟩, env, false, false, .refl env, (if_neg fun h => by cases h.1).symm⟩
  refine leaseTableCreate_spec.call m.owned (zero_add _).symm fun created hcreated => ?_
  cases created with
  | none => exact .pure m hfailed (zero_add _).symm
  | some b =>
    obtain ⟨hcomplete, hdns, hntp, hnone⟩ := hcreated b rfl
    refine (copyHostname_spec (options.bind StartOptions.hostname) hnone).call m.owned rfl
      fun b' hb' => ?_
    obtain ⟨text, rfl, htext⟩ := hb'
    refine (leaseTableInsert_spec t iface).call _ (zero_add _).symm fun inserted hinserted => ?_
    refine .ite (fun hin => ?_) (fun _ => ?_)
    · set hostname := if text.isSome then options.bind StartOptions.hostname else none with hname
      set c := m.system.create iface callbacks userData hostname
      have hservers : Block.servers { b with hostname := text } = serversOf c.lease := by
        show (b.dnsServers.addrs, b.ntpServers.addrs) = ([], [])
        rw [ServerList.addrs, ServerList.addrs, hdns, hntp]
        rfl
      refine (Memory.start_spec (b := { b with hostname := text }) env options c hcomplete
        hservers).call m.owned (zero_add _) fun r hr => ?_
      refine .pure _ ⟨⟨fun r' hr' => ?_, rfl⟩, r.1, true, text.isSome, hr.world, ?_⟩ ?_
      · rcases List.mem_append.mp (show r' ∈ t.rows ++ _ from hr') with hold | hnew
        · exact hbacked r' (by rw [Module.rows_eq ht]; exact hold)
        · obtain rfl := List.mem_singleton.mp hnew
          refine ⟨hr.complete, hr.servers, ?_⟩
          show r.2.hostname.isSome = (startSection r.1 options c).lease.hostname.isSome
          rw [hr.hostname, startSection_hostname]
          show text.isSome = hostname.isSome
          cases text with
          | none => rfl
          | some o =>
            cases hopt : options.bind StartOptions.hostname with
            | none => cases htext hopt
            | some name => rw [hname, hopt]; rfl
      · have hfree : m.system.findByIface iface = none := by
          rw [System.findByIface, Module.find_eq ht, hinserted hin]
          rfl
        rw [System.start, if_pos ⟨rfl, hfree⟩]
        show System.mk _ _ ((t.rows ++ [_]).map Row.entry) = System.mk _ _ (m.rows.map Row.entry ++ _)
        rw [Module.rows_eq ht, List.map_append]
        rfl
      · show ({t.list} + {t.mutex} + rowsOwned (t.rows ++ [_]) + _ : Multiset _) = _
        rw [Module.owned_eq ht, rowsOwned, List.map_append, List.sum_append, List.map_singleton,
          List.sum_singleton]
        show _ = r.2.owned + ({t.list} + {t.mutex} + rowsOwned t.rows + _)
        rw [rowsOwned]
        abel
    · obtain ⟨hdns', hntp'⟩ := Block.complete_rooted hcomplete
      refine (leaseTableDestroy_spec (b := { b with hostname := text }) hdns' hntp').call m.owned
        (zero_add _) fun _ _ => .pure m hfailed (zero_add _).symm

theorem Module.call_spec (env : Env) (call : Call) :
    Spec m.owned (m.call env t call) (Answered m env call) Module.owned := by
  -- A call that keeps what is abandoned and comes to one event.
  have hevent (allocated copied : Bool) {ev : SystemEvent}
      (hev : call.event allocated copied = some ev) (m' : Module) (h : Kept m m' ∧
        ∃ env', SameButMemory env env' ∧ m'.system = m.system.step (env', ev)) :
      Answered m env call m' ∧ m'.owned = m'.owned := by
    obtain ⟨hkept, env', hworld, hsystem⟩ := h
    refine ⟨⟨hkept.backed, fun o ho => .inl (hkept.abandoned ▸ ho), some (env', ev),
      ⟨env', allocated, copied, hworld, by rw [hev]; rfl⟩, hsystem⟩, rfl⟩
  have hstep (ev : Event) (p : TableEntry → Bool) := Module.onFirst_spec hbacked ht env p
    (f := fun s => s.step env ev) (g := fun env' c => c.step (env', ev))
    fun _ hs => Holding.step_spec env ev hs
  cases call with
  | init bound =>
    exact .pure m ⟨hbacked, fun o ho => .inl ho, none, ⟨env, false, false, .refl env, rfl⟩, rfl⟩ rfl
  | start iface callbacks userData options =>
    refine (Module.start_spec hbacked ht env iface callbacks userData options).conseq rfl
      fun m' ⟨hkept, env', allocated, copied, hworld, hsystem⟩ =>
        hevent allocated copied rfl m' ⟨hkept, env', hworld, hsystem⟩
  | teardown how iface =>
    exact (Module.teardown_spec hbacked ht env how iface).conseq rfl
      (hevent true true rfl)
  | setCallbacks iface callbacks userData =>
    refine (Module.onFirst_spec hbacked ht env (TableEntry.isOn iface)
      (g := fun _ => Client.setCallbacks callbacks userData) fun s hs => ?_).conseq rfl
      (hevent true true rfl)
    exact .pure _ ⟨env, .refl env, rfl, hs.complete, hs.servers, hs.hostname⟩ rfl
  | renew iface =>
    exact (hstep .renew (TableEntry.isOn iface)).conseq rfl
      (hevent true true rfl)
  | retransmit iface stale =>
    exact (hstep (.retransmit stale) (TableEntry.isOn iface)).conseq rfl
      (hevent true true rfl)
  | leaseTimer iface stale =>
    exact (hstep (.leaseTimer stale) (TableEntry.isOn iface)).conseq rfl
      (hevent true true rfl)
  | deinit envs =>
    exact (Module.deinit_spec hbacked ht envs).conseq rfl fun m' h =>
      hevent true true rfl m' ⟨h.1, env, .refl env, h.2⟩
  | datagram iface payload =>
    simp only [Module.call]
    cases hr : parseReply payload with
    | none =>
      refine .pure m (hevent true true rfl m
        ⟨⟨hbacked, rfl⟩, env, .refl env, ?_⟩).1 rfl
      simp only [System.step, hr]
    | some r =>
      refine (hstep (.datagram iface payload) (TableEntry.matchesXid iface r.msg.xid)).conseq rfl
        fun m' h => hevent true true rfl m' ?_
      obtain ⟨hkept, env', hworld, hsystem⟩ := h
      refine ⟨hkept, env', hworld, hsystem.trans ?_⟩
      simp only [System.step, hr]
      exact (System.datagram_eq hr).symm

end

theorem Module.init_spec (env : Env) (bound : Bool) {m : Module} (ht : m.table = none) :
    Spec m.owned (m.init bound) (Answered m env (.init bound)) Module.owned := by
  have hrows : m.rows = [] := by rw [Module.rows, ht]; rfl
  have howned : m.owned = m.abandoned := by rw [Module.owned, ht]; exact zero_add _
  have hkeep (m' : Module) (hrows' : m'.rows = []) (hworld : m'.netifs = m.netifs ∧
      m'.routes = m.routes) (hlost : ∀ o ∈ m'.abandoned, o ∈ m.abandoned ∨ o.kind = .list ∨
        o.kind = .mutex) : Answered m env (.init bound) m' := by
    refine ⟨fun r hr => ?_, hlost, none, ⟨env, false, false, .refl env, rfl⟩, ?_⟩
    · rw [hrows'] at hr
      exact absurd hr List.not_mem_nil
    · show System.mk _ _ (m'.rows.map Row.entry) = System.mk _ _ (m.rows.map Row.entry)
      rw [hrows, hrows', hworld.1, hworld.2]
  rw [howned]
  refine (alloc_spec Kind.list).call _ (zero_add _).symm fun list hlist => ?_
  refine (alloc_spec Kind.mutex).call _ (zero_add _).symm fun mutex hmutex => ?_
  have hlost (l : Pointer) (u : Pointer) (hl : ∀ o ∈ l, o.kind = .list)
      (hu : ∀ o ∈ u, o.kind = .mutex) (o : Obj Kind)
      (ho : o ∈ l.toList ++ u.toList ++ m.abandoned) :
      o ∈ m.abandoned ∨ o.kind = .list ∨ o.kind = .mutex := by
    rcases List.mem_append.mp ho with ho | ho
    · rcases List.mem_append.mp ho with ho | ho
      · exact .inr (.inl (hl o (Option.mem_toList.mp ho)))
      · exact .inr (.inr (hu o (Option.mem_toList.mp ho)))
    · exact .inl ho
  have hsum (l : Pointer) (u : Pointer) :
      ((l.toList ++ u.toList ++ m.abandoned : List (Obj Kind)) : Multiset (Obj Kind)) =
        held u + (held l + m.abandoned) := by
    rw [← Multiset.coe_add, ← Multiset.coe_add]
    show held l + held u + _ = _
    abel
  cases list with
  | none =>
    refine .pure _ (hkeep _ hrows ⟨rfl, rfl⟩ (hlost none mutex hlist hmutex)) ?_
    rw [Module.owned, ht]
    exact (zero_add _).trans (hsum none mutex)
  | some list =>
    cases mutex with
    | none =>
      refine .pure _ (hkeep _ hrows ⟨rfl, rfl⟩ (hlost (some list) none hlist hmutex)) ?_
      rw [Module.owned, ht]
      exact (zero_add _).trans (hsum (some list) none)
    | some mutex =>
      refine .ite (fun _ => ?_) (fun _ => ?_)
      · refine .pure _ (hkeep _ rfl ⟨rfl, rfl⟩ fun o ho => .inl ho) ?_
        show ({list} + {mutex} + 0 + m.abandoned : Multiset (Obj Kind)) = {mutex} + ({list} + _)
        abel
      · refine .pure _ (hkeep _ hrows ⟨rfl, rfl⟩ (hlost (some list) (some mutex) hlist hmutex)) ?_
        rw [Module.owned, ht]
        exact (zero_add _).trans (hsum (some list) (some mutex))

-- Before `dmod_init` there is no lease for anything to happen to.
theorem Call.event_unloaded {s : System} (h : s.table = []) (env : Env) (call : Call) :
    stepOption s ((call.event false false).map fun ev => (env, ev)) = s := by
  obtain ⟨netifs, routes, table⟩ := s
  obtain rfl : table = [] := h
  cases call with
  | datagram iface payload =>
    show System.step _ (env, .datagram iface payload) = _
    simp only [System.step]
    cases parseReply payload with
    | none => rfl
    | some r => rfl
  | start iface callbacks userData options => rfl
  | init bound => rfl
  | teardown how iface => rfl
  | setCallbacks iface callbacks userData => rfl
  | renew iface => rfl
  | retransmit iface stale => rfl
  | leaseTimer iface stale => rfl
  | deinit envs => rfl

theorem Module.step_spec {m : Module} (hbacked : m.Backed) (env : Env) (call : Call) :
    Spec m.owned (m.step env call) (Answered m env call) Module.owned := by
  unfold Module.step
  cases ht : m.table with
  | some t => exact Module.call_spec hbacked ht env call
  | none =>
    have hempty : m.system.table = [] := by
      show m.rows.map Row.entry = []
      rw [Module.rows, ht]
      rfl
    have hidle : Spec m.owned (return m) (Answered m env call) Module.owned :=
      .pure m ⟨hbacked, fun o ho => .inl ho, _, ⟨env, false, false, .refl env, rfl⟩,
        (Call.event_unloaded hempty env call).symm⟩ rfl
    cases call with
    | init bound => exact Module.init_spec env bound ht
    | start iface callbacks userData options => exact hidle
    | teardown how iface => exact hidle
    | setCallbacks iface callbacks userData => exact hidle
    | renew iface => exact hidle
    | datagram iface payload => exact hidle
    | retransmit iface stale => exact hidle
    | leaseTimer iface stale => exact hidle
    | deinit envs => exact hidle

/-! ## 5. Runs -/

/-- What holds of the module and the heap between calls. -/
structure Accounted (s : Module × Heap Kind) : Prop where
  backed : s.1.Backed
  owned : s.2.Owned s.1.owned
  abandoned : ∀ o ∈ s.1.abandoned, o.kind = .list ∨ o.kind = .mutex

theorem Accounted.initial (netifs : Iface → Netif) :
    Accounted (Module.initial netifs, Heap.empty) where
  backed _ hr := absurd hr List.not_mem_nil
  owned := Heap.empty_owned
  abandoned _ ho := absurd ho List.not_mem_nil

theorem stepHeap_simulates : Lts.Simulates (Lts.ofTotal stepHeap) (Lts.ofTotal stepOption)
    (fun e d => Answers e.1 e.2.2 d) fun s t => Accounted s ∧ t = s.1.system := by
  rintro s ⟨env, answers, call⟩ s' t ⟨hs, rfl⟩ rfl
  obtain ⟨hanswered, howned⟩ :=
    (Module.step_spec hs.backed env call).run (hs.owned.answering answers)
  obtain ⟨d, hd, hsystem⟩ := hanswered.system
  refine ⟨d, _, hd, rfl, ⟨hanswered.backed, howned, fun o ho => ?_⟩, hsystem.symm⟩
  rcases hanswered.abandoned o ho with hold | hkind
  · exact hs.abandoned o hold
  · exact hkind

/-- **Nothing is freed twice and no lease leaks.**  Whatever is called, in any order, and whichever
requests the allocator refuses: nothing is given back that is not allocated, and what is allocated is
exactly what hangs on the lease table, each object once, besides the list and the mutex that a failed
`dmod_init` leaves.  After `dmod_deinit` nothing else is left. -/
theorem module_memory_accounted (netifs : Iface → Netif) (calls : List (Env × List Bool × Call))
    (m : Module) (h : Heap Kind)
    (hrun : Lts.Run (Lts.ofTotal stepHeap) (Module.initial netifs, Heap.empty) calls (m, h)) :
    h.fault = false ∧ h.live.Nodup ∧ (h.live : Multiset (Obj Kind)) = m.owned ∧
      (∀ o ∈ m.abandoned, o.kind = .list ∨ o.kind = .mutex) ∧
      (m.table = none → ∀ o ∈ h.live, o.kind = .list ∨ o.kind = .mutex) := by
  obtain ⟨-, -, -, -, hacc, -⟩ := stepHeap_simulates.run hrun ⟨.initial netifs, rfl⟩
  refine ⟨hacc.owned.fault, hacc.owned.nodup, hacc.owned.live, hacc.abandoned, fun hnone o ho => ?_⟩
  have hlive : o ∈ m.owned := hacc.owned.live ▸ Multiset.mem_coe.mpr ho
  rw [Module.owned, hnone] at hlive
  refine hacc.abandoned o (Multiset.mem_coe.mp ?_)
  rwa [Option.elim_none, zero_add] at hlive

/-- Two servers for each list, and a lease that is refused memory in the middle. -/
def memoryCalls : List (Env × List Bool × Call) :=
  let yes (n : Nat) := List.replicate n true
  let ack (msgType : MsgType) := replyPayload msgType 7 ⟨10, 0, 0, 5⟩
    [⟨optDnsServer, [10, 0, 0, 1, 10, 0, 0, 2], by decide⟩,
      ⟨optNtpServer, [10, 0, 0, 3, 10, 0, 0, 4], by decide⟩]
  [(quietEnv 7, [true, true], .init false),
    (quietEnv 7, [true, true], .init true),
    (quietEnv 7, yes 10, .start 1 ⟨true, true, true⟩ 0 (some ⟨some [97], .none⟩)),
    -- There is a lease on the interface; then there is no memory for the second timer.
    (quietEnv 7, yes 10, .start 1 ⟨true, true, true⟩ 0 (some ⟨some [97], .none⟩)),
    (quietEnv 7, yes 5, .start 2 ⟨true, true, true⟩ 0 none),
    -- One address too many for the memory, and one for the list.
    (quietEnv 7, yes 3, .datagram 1 (ack .offer)),
    (quietEnv 7, yes 1, .retransmit 1 false),
    (quietEnv 7, [true, true, true, false, true, true, true, true], .datagram 1 (ack .ack)),
    (quietEnv 7, [], .retransmit 1 false)]

/-- While the lease is held, its ten objects and those of the table are allocated. -/
theorem memory_calls_accounted :
    ∃ m h, Lts.Run (Lts.ofTotal stepHeap) (Module.initial fun _ => blankNetif, Heap.empty)
        memoryCalls (m, h) ∧ h.fault = false ∧ h.live.length = 14 ∧ m.owned = h.live ∧
      m.rows.map (fun r => (r.block.dnsServers.addrs.length, r.block.ntpServers.addrs.length)) =
        [(1, 2)] := by
  have hrun := Lts.foldl_run stepHeap (Module.initial fun _ => blankNetif, Heap.empty) memoryCalls
  have h : (memoryCalls.foldl stepHeap
        (Module.initial fun _ => blankNetif, Heap.empty)).2.live.length = 14 ∧
      (memoryCalls.foldl stepHeap (Module.initial fun _ => blankNetif, Heap.empty)).1.rows.map
        (fun r => (r.block.dnsServers.addrs.length, r.block.ntpServers.addrs.length)) = [(1, 2)] := by
    decide +kernel
  generalize memoryCalls.foldl stepHeap (Module.initial fun _ => blankNetif, Heap.empty) = s at hrun h
  obtain ⟨hfault, -, hlive, -⟩ := module_memory_accounted _ _ s.1 s.2 hrun
  exact ⟨s.1, s.2, hrun, hfault, h.1, hlive.symm, h.2⟩

/-- **The allocator decides nothing else.**  A run with any answers of the allocator is a run of the
module in which the leases have the same fields and the interfaces the same configuration, only the
outcome of the requests being given from outside; and every lease then has the memory its fields
speak of: all its parts, its server lists entry by entry, and its hostname. -/
theorem module_memory_refines (netifs : Iface → Netif) (calls : List (Env × List Bool × Call))
    (m : Module) (h : Heap Kind)
    (hrun : Lts.Run (Lts.ofTotal stepHeap) (Module.initial netifs, Heap.empty) calls (m, h)) :
    (∃ ds, List.Forall₂ (fun e d => Answers e.1 e.2.2 d) calls ds ∧
      Lts.Run (Lts.ofTotal stepOption) (System.initial netifs) ds m.system) ∧
    ∀ r ∈ m.rows, Backs r.block r.entry.lease := by
  obtain ⟨ds, s, hds, hrun', hacc, hs⟩ :=
    stepHeap_simulates.run hrun (t := System.initial netifs) ⟨.initial netifs, rfl⟩
  subst hs
  exact ⟨⟨ds, hds, hrun'⟩, hacc.backed⟩

/-- The same calls: the second server of an option is left out where memory ends. -/
theorem memory_calls_refine :
    ∃ m h, Lts.Run (Lts.ofTotal stepHeap) (Module.initial fun _ => blankNetif, Heap.empty)
        memoryCalls (m, h) ∧
      (∃ ds, List.Forall₂ (fun e d => Answers e.1 e.2.2 d) memoryCalls ds ∧
        Lts.Run (Lts.ofTotal stepOption) (System.initial fun _ => blankNetif) ds m.system) ∧
      m.system.table.map (fun e => (e.lease.state, e.lease.dnsServers)) =
        [(.bound, [.v4 ⟨10, 0, 0, 1⟩])] := by
  have hrun := Lts.foldl_run stepHeap (Module.initial fun _ => blankNetif, Heap.empty) memoryCalls
  have h : (memoryCalls.foldl stepHeap
      (Module.initial fun _ => blankNetif, Heap.empty)).1.system.table.map
        (fun e => (e.lease.state, e.lease.dnsServers)) = [(.bound, [.v4 ⟨10, 0, 0, 1⟩])] := by
    decide +kernel
  generalize memoryCalls.foldl stepHeap (Module.initial fun _ => blankNetif, Heap.empty) = s at hrun h
  exact ⟨s.1, s.2, hrun, (module_memory_refines _ _ s.1 s.2 hrun).1, h⟩

end Dmdhcp.Memory
