import Dmdhcp.Memory

/-!
# What each operation of a lease owns

One triple for each piece of code that allocates: from the objects it is given to the objects it
leaves, whatever the allocator answers.
-/

namespace Dmdhcp.Memory

open Alloc

/-! ## 1. Server lists -/

/-- Entries hang on a list. -/
def ServerList.Rooted (s : ServerList) : Prop := s.list = none → s.entries = []

theorem ServerList.owned_append (s : ServerList) (memory : Obj Kind) (addr : Addr) :
    ({ s with entries := s.entries ++ [⟨memory, addr⟩] } : ServerList).owned =
      s.owned + {memory} := by
  unfold ServerList.owned ServerList.entryObjs
  rw [List.map_append, ← Multiset.coe_add, ← add_assoc]
  rfl

theorem ServerList.owned_empty (list : Pointer) :
    (⟨list, []⟩ : ServerList).owned = held list := add_zero _

theorem ServerList.clear_spec {s : ServerList} (h : s.Rooted) :
    Spec s.owned s.clear (fun s' => s' = ⟨s.list, []⟩) ServerList.owned := by
  unfold ServerList.clear
  cases hlist : s.list with
  | none =>
    have hs : s = ⟨none, []⟩ := by rw [← hlist, ← h hlist]
    exact .pure s hs rfl
  | some list =>
    refine (freeAll_spec s.entryObjs).call {list} ?_ fun _ _ => ?_
    · rw [ServerList.owned, hlist, held_some, add_comm]
    · refine .pure _ rfl ?_
      rw [ServerList.owned_empty, held_some, zero_add]

-- As many of the addresses as the allocator allowed are stored, in order.
theorem ServerList.store_spec (addrs : List Addr) (s : ServerList) :
    Spec s.owned (s.store addrs)
      (fun s' => s'.list = s.list ∧ s.entries.length ≤ s'.entries.length ∧
        s'.addrs = s.addrs ++ addrs.take (s'.entries.length - s.entries.length))
      ServerList.owned := by
  have hstop : s.list = s.list ∧ s.entries.length ≤ s.entries.length ∧
      s.addrs = s.addrs ++ addrs.take (s.entries.length - s.entries.length) :=
    ⟨rfl, le_refl _, by rw [Nat.sub_self, List.take_zero, List.append_nil]⟩
  induction addrs generalizing s with
  | nil => exact .pure s hstop rfl
  | cons addr rest ih =>
    refine (alloc_spec Kind.address).call s.owned (zero_add _).symm fun memory _ => ?_
    cases memory with
    | none => exact .pure s hstop (by rw [held_none, zero_add])
    | some memory =>
      refine ask_spec.call _ (zero_add _).symm fun pushed _ => ?_
      refine .ite (fun _ => ?_) (fun _ => ?_)
      · refine (ih { s with entries := s.entries ++ [⟨memory, addr⟩] }
          ⟨rfl, le_refl _, ?_⟩).conseq ?_ fun s' hs' => ⟨⟨hs'.1, ?_, ?_⟩, rfl⟩
        · rw [Nat.sub_self, List.take_zero, List.append_nil]
        · rw [ServerList.owned_append, held_some, zero_add, add_comm]
        · exact Nat.le_of_succ_le (by simpa using hs'.2.1)
        · obtain ⟨-, hlen, haddrs⟩ := hs'
          rw [List.length_append, List.length_singleton] at hlen haddrs
          -- One more than were stored from there on.
          rw [haddrs, show s'.entries.length - s.entries.length =
            s'.entries.length - (s.entries.length + 1) + 1 from by omega, List.take_succ_cons]
          simp [ServerList.addrs]
      · refine (free_spec memory).call s.owned ?_ fun _ _ => .pure s hstop (zero_add _).symm
        rw [held_some, zero_add]

-- `Env` gives the room, the allocator the number of entries stored: the list is the same.
theorem dnsServersOf_take (options : List UInt8) (room : Nat) :
    dnsServersOf options room = (dnsOffered options).take room := by
  unfold dnsServersOf dnsOffered
  cases optionsFind options optDnsServer with
  | ok opt => rfl
  | error e => exact List.take_nil.symm

theorem ntpServersOf_take (options : List UInt8) (room : Nat) :
    ntpServersOf options room = (ntpOffered options).take room := by
  unfold ntpServersOf ntpOffered
  cases optionsFind options optNtpServer with
  | ok opt =>
    dsimp only
    split_ifs
    · rfl
    · exact List.take_nil.symm
  | error e => exact List.take_nil.symm

/-! ## 2. Creating and destroying -/

/-- What a teardown from a timer's own callback leaves behind. -/
def leftBehind (context : TeardownContext) (b : Block) : Multiset (Obj Kind) :=
  match context with
  | .normal => 0
  | .retransmitTimer => held b.retransmitTimer
  | .leaseTimer => held b.leaseTimer

section
variable (context : TeardownContext) (b : Block)

theorem retransmitTimer_split : held b.retransmitTimer =
    held (if context = .retransmitTimer then none else b.retransmitTimer) +
      (if context = .retransmitTimer then held b.retransmitTimer else 0) := by
  split_ifs
  · exact (zero_add _).symm
  · exact (add_zero _).symm

theorem leaseTimer_split : held b.leaseTimer =
    held (if context = .leaseTimer then none else b.leaseTimer) +
      (if context = .leaseTimer then held b.leaseTimer else 0) := by
  split_ifs
  · exact (zero_add _).symm
  · exact (add_zero _).symm

theorem leftBehind_eq : leftBehind context b =
    (if context = .retransmitTimer then held b.retransmitTimer else 0) +
      (if context = .leaseTimer then held b.leaseTimer else 0) := by
  cases context with
  | normal => exact (zero_add _).symm
  | retransmitTimer => exact (add_zero _).symm
  | leaseTimer => exact (zero_add _).symm

end

def Block.withoutDns (b : Block) : Block := { b with dnsServers := ⟨b.dnsServers.list, []⟩ }

def Block.withoutNtp (b : Block) : Block := { b with ntpServers := ⟨b.ntpServers.list, []⟩ }

theorem Block.withoutDns_owned (b : Block) :
    b.withoutDns.dnsServers.owned = held b.dnsServers.list := ServerList.owned_empty _

theorem Block.withoutNtp_owned (b : Block) :
    b.withoutNtp.ntpServers.owned = held b.ntpServers.list := ServerList.owned_empty _

theorem leaseTableClearDnsServers_spec {b : Block} (h : b.dnsServers.Rooted) :
    Spec b.dnsServers.owned (leaseTableClearDnsServers b)
      (fun b' => b' = b.withoutDns)
      (fun b' => b'.dnsServers.owned) :=
  (ServerList.clear_spec h).bind fun _ hs => .pure _ (by rw [hs]; rfl) rfl

theorem leaseTableClearNtpServers_spec {b : Block} (h : b.ntpServers.Rooted) :
    Spec b.ntpServers.owned (leaseTableClearNtpServers b)
      (fun b' => b' = b.withoutNtp)
      (fun b' => b'.ntpServers.owned) :=
  (ServerList.clear_spec h).bind fun _ hs => .pure _ (by rw [hs]; rfl) rfl

-- Every part may be missing: a lease whose creation failed halfway is destroyed the same way.
theorem destroyWithContext_spec (context : TeardownContext) {b : Block}
    (hdns : b.dnsServers.Rooted) (hntp : b.ntpServers.Rooted) :
    Spec b.owned (destroyWithContext context b) (fun _ => True)
      (fun _ => leftBehind context b) := by
  unfold destroyWithContext
  refine (freeOption_spec _).call ({b.memory} + held b.lock + b.dnsServers.owned +
    b.ntpServers.owned + held b.hostname +
      held (if context = .leaseTimer then none else b.leaseTimer) + leftBehind context b) ?_
    fun _ _ => ?_
  · rw [Block.owned, retransmitTimer_split context b, leaseTimer_split context b,
      leftBehind_eq context b]
    abel
  refine (freeOption_spec _).call ({b.memory} + held b.lock + b.dnsServers.owned +
    b.ntpServers.owned + held b.hostname + leftBehind context b) (by abel) fun _ _ => ?_
  refine (leaseTableClearDnsServers_spec hdns).call ({b.memory} + held b.lock +
    b.ntpServers.owned + held b.hostname + leftBehind context b) (by abel) fun b₁ h₁ => ?_
  subst h₁
  refine (freeOption_spec b.dnsServers.list).call ({b.memory} + held b.lock +
    b.ntpServers.owned + held b.hostname + leftBehind context b)
    (by rw [b.withoutDns_owned]) fun _ _ => ?_
  refine (leaseTableClearNtpServers_spec (b := b.withoutDns) hntp).call ({b.memory} +
    held b.lock + held b.hostname + leftBehind context b) (by rw [Block.withoutDns]; abel)
    fun b₂ h₂ => ?_
  subst h₂
  refine (freeOption_spec b.ntpServers.list).call ({b.memory} + held b.lock + held b.hostname +
    leftBehind context b) (by rw [b.withoutDns.withoutNtp_owned]; rfl) fun _ _ => ?_
  refine (freeOption_spec b.hostname).call ({b.memory} + held b.lock + leftBehind context b)
    (by abel) fun _ _ => ?_
  refine (freeOption_spec b.lock).call ({b.memory} + leftBehind context b) (by abel) fun _ _ => ?_
  exact ((free_spec b.memory).frame (leftBehind context b)).conseq (zero_add _)
    fun _ _ => ⟨trivial, (zero_add _).symm⟩

theorem leaseTableDestroy_spec {b : Block} (hdns : b.dnsServers.Rooted)
    (hntp : b.ntpServers.Rooted) :
    Spec b.owned (leaseTableDestroy b) (fun _ => True) (fun _ => 0) :=
  destroyWithContext_spec .normal hdns hntp

/-- The addresses in both lists of a lease. -/
def Block.servers (b : Block) : List Addr × List Addr := (b.dnsServers.addrs, b.ntpServers.addrs)

/-- What a call that may fail leaves to its caller. -/
def ownedOption (b : Option Block) : Multiset (Obj Kind) := b.elim 0 Block.owned

-- A lease with every part and nothing stored, or nothing at all.
theorem leaseTableCreate_spec :
    Spec 0 leaseTableCreate (fun b => ∀ b' ∈ b, b'.complete = true ∧ b'.dnsServers.entries = [] ∧
      b'.ntpServers.entries = [] ∧ b'.hostname = none) ownedOption := by
  refine (alloc_spec Kind.lease).bind fun memory _ => ?_
  cases memory with
  | none => exact .pure none (fun _ hb => by cases hb) rfl
  | some memory =>
    refine (alloc_spec Kind.mutex).call {memory} (zero_add _).symm fun lock _ => ?_
    refine (alloc_spec Kind.list).call (held lock + {memory}) (zero_add _).symm fun dns _ => ?_
    refine (alloc_spec Kind.list).call (held dns + (held lock + {memory})) (zero_add _).symm
      fun ntp _ => ?_
    refine (alloc_spec Kind.timer).call (held ntp + (held dns + (held lock + {memory})))
      (zero_add _).symm fun rt _ => ?_
    refine (alloc_spec Kind.timer).call (held rt + (held ntp + (held dns + (held lock + {memory}))))
      (zero_add _).symm fun lt _ => ?_
    have howned : Block.owned ⟨memory, lock, ⟨dns, []⟩, ⟨ntp, []⟩, rt, lt, none⟩ =
        held lt + (held rt + (held ntp + (held dns + (held lock + {memory})))) := by
      simp only [Block.owned, ServerList.owned_empty, held_none, add_zero]
      abel
    refine .ite (fun hcomplete => ?_) (fun _ => ?_)
    · refine .pure _ (fun b' hb => ?_) howned
      obtain rfl := Option.some.inj hb
      exact ⟨hcomplete, rfl, rfl, rfl⟩
    · refine ((leaseTableDestroy_spec (fun _ => rfl) (fun _ => rfl)).conseq howned.symm
        fun _ h => ⟨h, rfl⟩).bind fun _ _ => .pure none (fun _ hb => by cases hb) rfl

-- The lease is there if every one of the six requests was granted.
theorem leaseTableCreate_isSome (h : Heap Kind) :
    (leaseTableCreate h).1.isSome = true ↔ ∀ i < 6, h.answers[i]? = some true := by
  obtain ⟨r₀, h₁, q₀, s₀, a₁⟩ := alloc_answer .lease h
  obtain ⟨r₁, h₂, q₁, s₁, a₂⟩ := alloc_answer .mutex h₁
  obtain ⟨r₂, h₃, q₂, s₂, a₃⟩ := alloc_answer .list h₂
  obtain ⟨r₃, h₄, q₃, s₃, a₄⟩ := alloc_answer .list h₃
  obtain ⟨r₄, h₅, q₄, s₄, a₅⟩ := alloc_answer .timer h₄
  obtain ⟨r₅, h₆, q₅, s₅, -⟩ := alloc_answer .timer h₅
  have hcreate : (leaseTableCreate h).1.isSome =
      (r₀.isSome && (r₁.isSome && r₂.isSome && r₃.isSome && r₄.isSome && r₅.isSome)) := by
    unfold leaseTableCreate
    rw [Prog.bind_run, q₀]
    cases r₀ with
    | none => rfl
    | some memory =>
      simp only [Prog.bind_run, q₁, q₂, q₃, q₄, q₅]
      split
      next hc => exact (show _ = true from hc).symm
      next hc => exact (Bool.eq_false_iff.mpr hc).symm
  rw [hcreate, s₀, s₁, s₂, s₃, s₄, s₅, a₅, a₄, a₃, a₂, a₁]
  simp only [List.getElem?_tail, Bool.and_eq_true, Option.getD_eq_iff, Bool.false_eq_true,
    and_false, or_false]
  constructor
  · rintro ⟨h0, ⟨⟨⟨h1, h2⟩, h3⟩, h4⟩, h5⟩ i hi
    match i, hi with
    | 0, _ => exact h0
    | 1, _ => exact h1
    | 2, _ => exact h2
    | 3, _ => exact h3
    | 4, _ => exact h4
    | 5, _ => exact h5
  · intro hall
    exact ⟨hall 0 (by decide), ⟨⟨⟨hall 1 (by decide), hall 2 (by decide)⟩, hall 3 (by decide)⟩,
      hall 4 (by decide)⟩, hall 5 (by decide)⟩

/-- **A lease is created whole or not at all.**  Whatever else is allocated: `dmdhcp_lease_table_create`
returns a lease exactly if its six requests are all granted, and then with every part; if one of them
is refused, at any place, everything granted before it has been given back. -/
theorem lease_created_whole (h : Heap Kind) (others : Multiset (Obj Kind)) (hown : h.Owned others) :
    ((leaseTableCreate h).1.isSome = true ↔ ∀ i < 6, h.answers[i]? = some true) ∧
    ((leaseTableCreate h).1 = none → (leaseTableCreate h).2.Owned others) ∧
    ∀ b, (leaseTableCreate h).1 = some b → b.complete = true ∧ b.servers = ([], []) ∧
      b.hostname = none ∧ (leaseTableCreate h).2.Owned (b.owned + others) := by
  obtain ⟨hparts, hafter⟩ := leaseTableCreate_spec others h (by rwa [zero_add])
  refine ⟨leaseTableCreate_isSome h, fun hnone => ?_, fun b hb => ?_⟩
  · rw [hnone] at hafter
    exact zero_add others ▸ hafter
  · obtain ⟨hcomplete, hdns, hntp, hhost⟩ := hparts b hb
    rw [hb] at hafter
    refine ⟨hcomplete, ?_, hhost, hafter⟩
    rw [Block.servers, ServerList.addrs, ServerList.addrs, hdns, hntp]
    rfl

/-- The mutex of a second lease is refused: its struct and everything else has been given back. -/
theorem refused_lease_leaves_the_first :
    let first := leaseTableCreate (Heap.empty.answering (List.replicate 6 true))
    let second := leaseTableCreate (first.2.answering [true, false, true, true, true, true])
    second.1 = none ∧ ∃ b, first.1 = some b ∧ second.2.Owned b.owned := by
  have hfirst := lease_created_whole (Heap.empty.answering (List.replicate 6 true)) 0
    (Heap.empty_owned.answering _)
  obtain ⟨b, hb⟩ := Option.isSome_iff_exists.mp (hfirst.1.mpr (by decide))
  obtain ⟨-, -, -, hown⟩ := hfirst.2.2 b hb
  rw [add_zero] at hown
  have hsecond := lease_created_whole _ b.owned
    (hown.answering [true, false, true, true, true, true])
  have hnone : (leaseTableCreate ((leaseTableCreate
      (Heap.empty.answering (List.replicate 6 true))).2.answering
        [true, false, true, true, true, true])).1 = none := by decide +kernel
  exact ⟨hnone, b, hb, hsecond.2.1 hnone⟩

/-- **A teardown leaks the timer it runs on, and nothing else.**  Whatever is stored in the lease and
whichever of its parts there are: `destroy_with_context` gives back all of it once, but for the timer
whose callback it is told to be running on. -/
theorem lease_destroyed (context : TeardownContext) (b : Block) (hdns : b.dnsServers.Rooted)
    (hntp : b.ntpServers.Rooted) (h : Heap Kind) (others : Multiset (Obj Kind))
    (hown : h.Owned (b.owned + others)) :
    (destroyWithContext context b h).2.Owned (leftBehind context b + others) :=
  (destroyWithContext_spec context hdns hntp others h hown).2

/-- A lease with a hostname, two DNS servers and an NTP server. -/
def storedLease : Code (Option Block) := do
  match ← leaseTableCreate with
  | none => return none
  | some b => do
    let b ← copyHostname (some [104, 111, 115, 116]) b
    let dnsServers ← b.dnsServers.store [.v4 ⟨10, 0, 0, 1⟩, .v4 ⟨10, 0, 0, 2⟩]
    let ntpServers ← b.ntpServers.store [.v4 ⟨10, 0, 0, 3⟩]
    return some { b with dnsServers, ntpServers }

/-- Destroyed from its retransmit timer, it leaves that timer. -/
theorem destroyed_lease_leaves_timer :
    let stored := storedLease (Heap.empty.answering (List.replicate 13 true))
    ∃ b, stored.1 = some b ∧ b.hostname.isSome = true ∧ b.dnsServers.entries.length = 2 ∧
      b.ntpServers.entries.length = 1 ∧ stored.2.live.length = 10 ∧
      (destroyWithContext .retransmitTimer b stored.2).2.live.length = 1 ∧
      (destroyWithContext .retransmitTimer b stored.2).2.Owned (held b.retransmitTimer) := by
  intro stored
  obtain ⟨b, hb⟩ := Option.isSome_iff_exists.mp (show stored.1.isSome = true by decide +kernel)
  -- What the ten objects are, by evaluation.
  have hparts : ∀ b ∈ stored.1, b.hostname.isSome = true ∧ b.dnsServers.entries.length = 2 ∧
      b.ntpServers.entries.length = 1 ∧ b.dnsServers.list.isSome = true ∧
      b.ntpServers.list.isSome = true ∧ (stored.2.live : Multiset (Obj Kind)) = b.owned ∧
      (destroyWithContext .retransmitTimer b stored.2).2.live.length = 1 := by decide +kernel
  obtain ⟨hhost, hdns, hntp, hdlist, hnlist, hlive, hleft⟩ := hparts b hb
  have hown : stored.2.Owned (b.owned + 0) :=
    ⟨by decide +kernel, hlive.trans (add_zero _).symm, by decide +kernel, by decide +kernel⟩
  have hrooted {s : ServerList} (hs : s.list.isSome = true) : s.Rooted := by
    intro hnone
    rw [hnone] at hs
    cases hs
  have hdestroyed :=
    lease_destroyed .retransmitTimer b (hrooted hdlist) (hrooted hnlist) stored.2 0 hown
  rw [add_zero] at hdestroyed
  exact ⟨b, hb, hhost, hdns, hntp, by decide +kernel, hleft, hdestroyed⟩

theorem copyHostname_spec (hostname : Option (List UInt8)) {b : Block} (h : b.hostname = none) :
    Spec b.owned (copyHostname hostname b) (fun b' => ∃ text, b' = { b with hostname := text } ∧
      (hostname = none → text = none)) Block.owned := by
  cases hostname with
  | none => exact .pure b ⟨none, by rw [← h], fun _ => rfl⟩ rfl
  | some name =>
    refine (alloc_spec Kind.text).call b.owned (zero_add _).symm fun text _ => ?_
    refine .pure _ ⟨text, rfl, fun hno => by cases hno⟩ ?_
    rw [Block.owned, Block.owned, h, held_none, add_zero, add_comm]

/-! ## 3. The requests of an operation -/

/-- Both server lists of a lease. -/
def serversOf (l : Lease) : List Addr × List Addr := (l.dnsServers, l.ntpServers)

section
variable (env : Env) (c : Client)

theorem acceptRenewal_servers (r : Reply) : serversOf (acceptRenewal env r c).lease =
    (dnsServersOf r.options env.dnsRoom, ntpServersOf r.options env.ntpRoom) := by
  obtain ⟨configured, route, hl⟩ :=
    commitLease_lease env (c.update (populateLeaseFromOptions env r.msg r.options))
  rw [acceptRenewal, hl]
  rfl

theorem outputStartDiscovery_servers :
    serversOf (Dmdhcp.outputStartDiscovery env c).lease = ([], []) := by
  rw [outputStartDiscovery_lease]
  rfl

theorem lifecycleHandleLost_servers :
    serversOf (Dmdhcp.lifecycleHandleLost env c).lease = ([], []) :=
  outputStartDiscovery_servers env _

theorem rearmBackoff_servers (s : Sender) :
    serversOf (rearmBackoff env (s.send env c)).lease = serversOf c.lease := by
  rw [rearmBackoff_lease, Sender.send, sendMessage_lease]
  rfl

theorem resendRequest_servers : serversOf (Dmdhcp.resendRequest env c).lease =
    if c.lease.retransmitCount + 1 > maxRequestRetransmits then ([], [])
    else serversOf c.lease := by
  show serversOf (if c.lease.retransmitCount + 1 > maxRequestRetransmits then _ else _ :
    Client).lease = _
  by_cases hc : c.lease.retransmitCount + 1 > maxRequestRetransmits
  · rw [if_pos hc, if_pos hc]
    exact outputStartDiscovery_servers env _
  · rw [if_neg hc, if_neg hc]
    split_ifs
    · exact rearmBackoff_servers env _ .requestSelecting
    · exact rearmBackoff_servers env _ .requestReboot

-- Whatever a probe ends with, the lists stay.
theorem runConflictProbe_servers :
    serversOf ((runConflictProbe env c).2.finish env (runConflictProbe env c).1).lease =
      serversOf c.lease := by
  unfold runConflictProbe
  dsimp only
  split_ifs
  · obtain ⟨state, timer, -, hl⟩ :=
      handleConflict_lease env (c.emit (.probe c.lease.offeredIp env.arpReply))
    rw [(After.finish_eq (handleConflict_ne_lost env _) _).1, hl]
    rfl
  · rw [After.finish, requestOffered_lease]
    rfl
  · obtain ⟨configured, route, hl⟩ :=
      commitLease_lease env (c.emit (.probe c.lease.offeredIp env.arpReply))
    rw [After.finish, callOnBound_lease, hl]
    rfl

end

/-- The worlds differ in the answers of the allocator only. -/
def SameButMemory (env env' : Env) : Prop :=
  ∃ sendBuffer dnsRoom ntpRoom, env' = { env with sendBuffer, dnsRoom, ntpRoom }

theorem SameButMemory.refl (env : Env) : SameButMemory env env := ⟨_, _, _, rfl⟩

/-- What the requests of an operation leave: the world but for the allocator, the same parts, and
these servers. -/
structure Leaves (env : Env) (b : Block) (servers : Env → List Addr × List Addr)
    (r : Env × Block) : Prop where
  world : SameButMemory env r.1
  complete : r.2.complete = true
  hostname : r.2.hostname = b.hostname
  servers : r.2.servers = servers r.1

section
variable {b : Block}

-- The two lists of a block are its own: what is said of one of them frames the rest.
theorem Block.clearDns_spec (h : b.dnsServers.Rooted) :
    Spec b.owned (leaseTableClearDnsServers b) (fun b' => b' = b.withoutDns) Block.owned := by
  refine ((leaseTableClearDnsServers_spec h).frame ({b.memory} + held b.lock +
    b.ntpServers.owned + held b.retransmitTimer + held b.leaseTimer + held b.hostname)).conseq ?_
    fun b' hb => ⟨hb, ?_⟩
  · rw [Block.owned]
    abel
  · rw [hb, Block.owned, Block.withoutDns]
    abel

theorem Block.clearNtp_spec (h : b.ntpServers.Rooted) :
    Spec b.owned (leaseTableClearNtpServers b) (fun b' => b' = b.withoutNtp) Block.owned := by
  refine ((leaseTableClearNtpServers_spec h).frame ({b.memory} + held b.lock +
    b.dnsServers.owned + held b.retransmitTimer + held b.leaseTimer + held b.hostname)).conseq ?_
    fun b' hb => ⟨hb, ?_⟩
  · rw [Block.owned]
    abel
  · rw [hb, Block.owned, Block.withoutNtp]
    abel

theorem sendBuffer_spec (env : Env) : Spec (0 : Multiset (Obj Kind)) (sendBuffer env)
    (SameButMemory env) (fun _ => 0) := by
  refine (alloc_spec Kind.message).bind fun buffer _ => ?_
  cases buffer with
  | none => exact .pure _ ⟨_, _, _, rfl⟩ rfl
  | some buffer => exact (free_spec buffer).bind fun _ _ => .pure _ ⟨_, _, _, rfl⟩ rfl

variable (h : b.complete = true) (env : Env)
include h

theorem Block.complete_rooted : b.dnsServers.Rooted ∧ b.ntpServers.Rooted := by
  simp only [Block.complete, Bool.and_eq_true] at h
  obtain ⟨⟨⟨⟨-, hdns⟩, hntp⟩, -⟩, -⟩ := h
  refine ⟨fun hnone => ?_, fun hnone => ?_⟩
  · rw [hnone] at hdns
    cases hdns
  · rw [hnone] at hntp
    cases hntp

theorem idle_spec : Spec b.owned (return (env, b)) (Leaves env b fun _ => b.servers)
    (fun r => r.2.owned) :=
  .pure _ ⟨.refl env, h, rfl, rfl⟩ rfl

theorem send_spec : Spec b.owned (send env b) (Leaves env b fun _ => b.servers)
    (fun r => r.2.owned) :=
  (sendBuffer_spec env).call b.owned (zero_add _).symm fun _ hworld =>
    .pure _ ⟨hworld, h, rfl, rfl⟩ (zero_add _).symm

theorem outputStartDiscovery_spec : Spec b.owned (outputStartDiscovery env b)
    (Leaves env b fun _ => ([], [])) (fun r => r.2.owned) := by
  obtain ⟨hdns, hntp⟩ := Block.complete_rooted h
  refine (Block.clearDns_spec hdns).bind fun b₁ h₁ => ?_
  subst h₁
  refine (Block.clearNtp_spec (b := b.withoutDns) hntp).bind fun b₂ h₂ => ?_
  subst h₂
  exact (send_spec (b := b.withoutDns.withoutNtp) h env).conseq rfl fun r hr =>
    ⟨⟨hr.world, hr.complete, hr.hostname, hr.servers⟩, rfl⟩

theorem lifecycleHandleLost_spec : Spec b.owned (lifecycleHandleLost env b)
    (Leaves env b fun _ => ([], [])) (fun r => r.2.owned) := by
  refine (Block.clearNtp_spec (Block.complete_rooted h).2).bind fun b₁ h₁ => ?_
  subst h₁
  exact (outputStartDiscovery_spec (b := b.withoutNtp) h env).conseq rfl fun r hr =>
    ⟨⟨hr.world, hr.complete, hr.hostname, hr.servers⟩, rfl⟩

-- What was stored is what the lease gets, with the room there was.
theorem populate_spec (options : List UInt8) : Spec b.owned (populate options env b)
    (Leaves env b fun env' => (dnsServersOf options env'.dnsRoom, ntpServersOf options env'.ntpRoom))
    (fun r => r.2.owned) := by
  obtain ⟨hdns, hntp⟩ := Block.complete_rooted h
  refine (Block.clearDns_spec hdns).bind fun b₁ h₁ => ?_
  subst h₁
  refine (ServerList.store_spec (dnsOffered options) ⟨b.dnsServers.list, []⟩).call
    ({b.memory} + held b.lock + b.ntpServers.owned + held b.retransmitTimer + held b.leaseTimer +
      held b.hostname) ?_ fun dns hdns' => ?_
  · rw [Block.owned, Block.withoutDns]
    abel
  refine (leaseTableClearNtpServers_spec (b := { b with dnsServers := dns }) hntp).call
    ({b.memory} + held b.lock + dns.owned + held b.retransmitTimer + held b.leaseTimer +
      held b.hostname) (by abel) fun b₂ h₂ => ?_
  subst h₂
  refine (ServerList.store_spec (ntpOffered options) ⟨b.ntpServers.list, []⟩).call
    ({b.memory} + held b.lock + dns.owned + held b.retransmitTimer + held b.leaseTimer +
      held b.hostname) rfl fun ntp hntp' => ?_
  obtain ⟨hdlist, -, hdaddrs⟩ := hdns'
  obtain ⟨hnlist, -, hnaddrs⟩ := hntp'
  refine .pure _ ⟨⟨_, _, _, rfl⟩, ?_, rfl, ?_⟩ ?_
  · show Block.complete _ = true
    simpa only [Block.complete, Block.withoutNtp, hdlist, hnlist] using h
  · show (dns.addrs, ntp.addrs) = _
    rw [hdaddrs, hnaddrs]
    show (_, _) = (dnsServersOf options _, ntpServersOf options _)
    rw [dnsServersOf_take, ntpServersOf_take]
    rfl
  · show Block.owned _ = _
    rw [Block.owned, Block.withoutNtp]
    abel

theorem datagram_spec (r : Reply) (msgType : UInt8) (c : Client)
    (hservers : b.servers = serversOf c.lease) :
    Spec b.owned (datagram env r msgType c.lease.state b)
      (Leaves env b fun env' =>
        serversOf ((datagramSection env' r msgType c).2.finish env'
          (datagramSection env' r msgType c).1).lease)
      (fun r => r.2.owned) := by
  unfold datagram datagramSection
  dsimp only
  refine .ite (fun h1 => ?_) (fun h1 => ?_)
  · simp only [if_pos h1]
    exact populate_spec h env r.options
  simp only [if_neg h1]
  refine .ite (fun h2 => ?_) (fun h2 => ?_)
  · simp only [if_pos h2]
    exact populate_spec h env r.options
  simp only [if_neg h2]
  refine .ite (fun h3 => ?_) (fun h3 => ?_)
  · simp only [if_pos h3, After.finish, outputStartDiscovery_servers]
    exact outputStartDiscovery_spec h env
  simp only [if_neg h3]
  refine .ite (fun h4 => ?_) (fun h4 => ?_)
  · simp only [if_pos h4, After.finish, callOnBound_lease, acceptRenewal_servers]
    exact populate_spec h env r.options
  simp only [if_neg h4]
  refine .ite (fun h5 => ?_) (fun h5 => ?_)
  · simp only [if_pos h5, After.finish, lifecycleHandleLost_servers]
    exact lifecycleHandleLost_spec h env
  · simp only [if_neg h5, After.finish, ← hservers]
    exact idle_spec h env

theorem retransmitTimer_spec (c : Client) (hservers : b.servers = serversOf c.lease) :
    Spec b.owned (retransmitTimer env c.lease b)
      (Leaves env b fun env' => serversOf (retransmitTimerCallback env' c).lease)
      (fun r => r.2.owned) := by
  have hsend := send_spec h env
  have hidle := idle_spec h env
  rw [hservers] at hsend hidle
  have hprobe (state : State) : Spec b.owned (conflictProbe env state b) (Leaves env b fun env' =>
      serversOf ((runConflictProbe env' c).2.finish env' (runConflictProbe env' c).1).lease)
      (fun r => r.2.owned) := by
    simp only [runConflictProbe_servers]
    exact .ite (fun _ => hsend) (fun _ => hidle)
  have hresend : Spec b.owned (resendRequest env c.lease b) (Leaves env b fun env' =>
      serversOf (Dmdhcp.resendRequest env' c).lease) (fun r => r.2.owned) := by
    simp only [resendRequest_servers]
    refine .ite (fun hc => ?_) (fun hc => ?_)
    · simp only [if_pos hc]
      exact outputStartDiscovery_spec h env
    · simp only [if_neg hc]
      exact hsend
  unfold retransmitTimer retransmitTimerCallback retransmitTimerSection
  cases hs : c.lease.state with
  | selecting =>
    simp only [After.finish, sendDiscover_eq, rearmBackoff_servers]
    exact hsend
  | renewing =>
    simp only [After.finish, sendRequestRenew_eq, rearmBackoff_servers]
    exact hsend
  | rebinding =>
    simp only [After.finish, sendRequestRebind_eq, rearmBackoff_servers]
    exact hsend
  | requesting => exact hresend
  | rebooting => exact hresend
  | checkingOffer => exact hprobe _
  | checkingAck => exact hprobe _
  | declining =>
    simp only [After.finish, outputStartDiscovery_servers]
    exact outputStartDiscovery_spec h env
  | init => exact hidle
  | initReboot => exact hidle
  | bound => exact hidle
  | failed => exact hidle

theorem leaseTimer_spec (c : Client) (hservers : b.servers = serversOf c.lease) :
    Spec b.owned (leaseTimer env c.lease.state b)
      (Leaves env b fun env' => serversOf (leaseTimerCallback env' c).lease)
      (fun r => r.2.owned) := by
  have hsend := send_spec h env
  have hidle := idle_spec h env
  rw [hservers] at hsend hidle
  unfold leaseTimer leaseTimerCallback leaseTimerSection
  refine .ite (fun h1 => ?_) (fun h1 => ?_)
  · simp only [if_pos h1, After.finish, outputStartRenew_armT2_lease]
    exact hsend
  simp only [if_neg h1]
  refine .ite (fun h2 => ?_) (fun h2 => ?_)
  · simp only [if_pos h2, After.finish, outputStartRebind_armExpiry_lease]
    exact hsend
  simp only [if_neg h2]
  refine .ite (fun h3 => ?_) (fun h3 => ?_)
  · simp only [if_pos h3, After.finish, lifecycleHandleLost_servers]
    exact lifecycleHandleLost_spec h env
  · simp only [if_neg h3, After.finish]
    exact hidle

theorem renew_spec (c : Client) (hservers : b.servers = serversOf c.lease) :
    Spec b.owned (renew env c.lease.state b)
      (Leaves env b fun env' => serversOf (c.renew env').lease) (fun r => r.2.owned) := by
  have hsend := send_spec h env
  have hidle := idle_spec h env
  rw [hservers] at hsend hidle
  unfold renew Client.renew
  refine .ite (fun hs => ?_) (fun hs => ?_)
  · simp only [if_pos hs, outputStartRenew_lease]
    exact hsend
  · simp only [if_neg hs]
    exact hidle

end

/-- The heap holds what the fields of the lease say. -/
structure Backs (b : Block) (l : Lease) : Prop where
  complete : b.complete = true
  servers : b.servers = serversOf l
  hostname : b.hostname.isSome = l.hostname.isSome

-- A timer is disarmed without a request.
theorem before_servers (c : Client) (ev : Event) :
    serversOf (c.before ev).lease = serversOf c.lease := by
  obtain ⟨_, _, hl⟩ := (c.before_same ev).lease
  rw [hl]
  rfl

theorem event_spec (env : Env) {c : Client} {b : Block} (h : Backs b c.lease) (ev : Event) :
    Spec b.owned (event env c b ev)
      (Leaves env b fun env' => serversOf (c.step (env', ev)).lease) (fun r => r.2.owned) := by
  cases ev with
  | datagram iface payload =>
    simp only [event, Client.step_eq, Client.eventSection]
    cases c.delivered (.datagram iface payload) with
    | none =>
      have hidle := idle_spec h.complete env
      rw [h.servers] at hidle
      exact hidle
    | some d => exact datagram_spec h.complete env d.1 d.2 c h.servers
  | retransmit stale =>
    have hservers := h.servers.trans (before_servers c (.retransmit stale)).symm
    have hspec := retransmitTimer_spec h.complete env (c.before (.retransmit stale)) hservers
    cases stale <;> exact hspec
  | leaseTimer stale =>
    have hservers := h.servers.trans (before_servers c (.leaseTimer stale)).symm
    have hspec := leaseTimer_spec h.complete env (c.before (.leaseTimer stale)) hservers
    cases stale <;> exact hspec
  | renew => exact renew_spec h.complete env c h.servers

end Dmdhcp.Memory
