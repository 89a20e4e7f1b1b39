import Dmdhcp.Teardown
import Dmdhcp.Provider

/-!
# Which leases are advertised

`dmdhcp_get_lease_info` and the visitors judge a lease by its state; whether its address is on the
interface is kept in `iface_configured`.  The lost path and the teardowns clear the second and leave
the first, so a lease that has just been unapplied is still advertised.
-/

namespace Dmdhcp

/-! ## 1. What is advertised -/

/-- The servers `dmdhcp_lease_table_visit_dns_servers` reports of one lease. -/
def Client.reportedDns (c : Client) : List Addr :=
  visitDnsServers (fun seen a => seen ++ [a]) [] [c]

/-- The same of `dmdhcp_lease_table_visit_ntp_servers`, for a sink that returns `answer a` to `a`. -/
def Client.reportedNtp (answer : Ipv4 → Int) (c : Client) : List Ipv4 :=
  visitNtpServers (fun seen a => (answer a, seen ++ [a])) [] [c]

/-- `dmdhcp_get_lease_info` succeeds on the lease, or a visitor reports one of its servers. -/
def Shared.Advertises (s : Shared) : Prop :=
  s.magic = true ∧
    ((∃ info, getLeaseInfo s.client.lease = .ok info) ∨
      s.inTable = true ∧
        (s.client.reportedDns ≠ [] ∨ ∃ answer, s.client.reportedNtp answer ≠ []))

/-- What is advertised is on the interface. -/
def AdvertisedConfigured (m : Machine) : Prop :=
  m.shared.Advertises → m.shared.client.lease.ifaceConfigured = true

theorem getLeaseInfo_ok_iff {l : Lease} :
    (∃ info, getLeaseInfo l = .ok info) ↔ l.state.holdsValidLease = true := by
  rw [State.holdsValidLease_iff]
  unfold getLeaseInfo
  constructor
  · rintro ⟨info, h⟩
    split_ifs at h with hstate
    by_contra hno
    exact hstate ⟨fun hs => hno (.inl hs), fun hs => hno (.inr (.inl hs)),
      fun hs => hno (.inr (.inr hs))⟩
  · intro hs
    rw [if_neg (by rcases hs with hs | hs | hs <;> simp [hs])]
    exact ⟨_, rfl⟩

theorem Client.reportedDns_of_not_held {c : Client}
    (h : ¬c.lease.state.holdsValidLease = true) : c.reportedDns = [] :=
  if_neg h

theorem Client.reportedNtp_of_not_held {c : Client} (answer : Ipv4 → Int)
    (h : ¬c.lease.state.holdsValidLease = true) : c.reportedNtp answer = [] :=
  if_neg h

-- All three look at the state alone.
theorem Shared.advertises_iff {s : Shared} :
    s.Advertises ↔ s.magic = true ∧ s.client.lease.state.holdsValidLease = true := by
  constructor
  · rintro ⟨hmagic, hinfo | ⟨-, hdns | ⟨answer, hntp⟩⟩⟩
    · exact ⟨hmagic, getLeaseInfo_ok_iff.mp hinfo⟩
    · exact ⟨hmagic, not_not.mp fun hno => hdns (Client.reportedDns_of_not_held hno)⟩
    · exact ⟨hmagic, not_not.mp fun hno => hntp (Client.reportedNtp_of_not_held answer hno)⟩
  · rintro ⟨hmagic, hheld⟩
    exact ⟨hmagic, .inl (getLeaseInfo_ok_iff.mpr hheld)⟩

/-! ## 2. Runs of a lease -/

/-- An event of the interleaving model, or a `dmdhcp_set_callbacks`. -/
inductive LeaseEvent
  | machine (e : MachineEvent)
  | setCallbacks (callbacks : Option Callbacks) (userData : Nat)
  deriving DecidableEq, Repr

def Machine.stepLease (m : Machine) : LeaseEvent → Option Machine
  | .machine e => m.step e
  | .setCallbacks callbacks userData =>
    if m.shared.freed then none
    else some (m.setClient (m.shared.client.setCallbacks callbacks userData))

/-- Every interface call of the step succeeds. -/
def LeaseEvent.SetsSucceed : LeaseEvent → Prop
  | .machine e => e.SetsSucceed
  | .setCallbacks _ _ => True

instance : DecidablePred LeaseEvent.SetsSucceed
  | .machine e => inferInstanceAs (Decidable e.SetsSucceed)
  | .setCallbacks _ _ => isTrue trivial

/-- The steps of a lease on an interface that takes every configuration. -/
def LeaseStep : Machine → LeaseEvent → Machine → Prop :=
  Lts.Guarded (Lts.ofPartial Machine.stepLease) fun _ e => e.SetsSucceed

/-- The sections that unapply a lease: the first of the lost path, and those of `dmdhcp_stop` and
`dmdhcp_release`. -/
def Section.unapplies : Section → Bool
  | .lostUnapply _ => true
  | .teardown _ => true
  | _ => false

/-- The step does not unapply a lease that is held and not yet destroyed. -/
def KeepsHeldApplied (m : Machine) : LeaseEvent → Prop
  | .machine (.advance i _ _) => ∀ x ∈ m.next i, x.unapplies = true →
      ¬(m.shared.magic = true ∧ m.shared.client.lease.state.holdsValidLease = true)
  | _ => True

/-! ## 3. One section -/

theorem lifecycleUnapply_state (env : Env) (c : Client) :
    (lifecycleUnapply env c).lease.state = c.lease.state := by
  obtain ⟨route, h⟩ := lifecycleUnapply_lease env c
  rw [h]

theorem teardownSection_state (env : Env) (how : Teardown) (c : Client) :
    (teardownSection env how c).lease.state = c.lease.state := by
  obtain ⟨route, h⟩ := teardownSection_lease env how c
  rw [h]

-- A section that ends with the lease held has configured the interface, or found the lease held and
-- kept the interface, unless it is one that unapplies.
theorem Change.held {env : Env} (henv : env.SetsSucceed) {c c' : Client} {x : Section}
    (h : Change env c x c') (hheld : c'.lease.state.holdsValidLease = true) :
    c'.lease.ifaceConfigured = true ∨
      c.lease.state.holdsValidLease = true ∧
        (c'.lease.ifaceConfigured = c.lease.ifaceConfigured ∨ x.unapplies = true) := by
  cases h with
  | move h => exact .inr ⟨h.holds ▸ hheld, .inl h.frame.ifaceConfigured⟩
  | commit h harp =>
    left
    rw [commitProbed, commitLease_lease_of_succeed henv]
  | renewal r h =>
    left
    rw [acceptRenewal, commitLease_lease_of_succeed henv]
  | unapply nak =>
    have hstate : (lostUnapply env c).lease.state = c.lease.state := lifecycleUnapply_state env c
    exact .inr ⟨hstate ▸ hheld, .inr rfl⟩
  | restart nak =>
    rw [lostRestart, outputStartDiscovery_lease] at hheld
    cases hheld
  | teardown how => exact .inr ⟨teardownSection_state env how c ▸ hheld, .inr rfl⟩
  | record e => exact .inr ⟨hheld, .inl rfl⟩
  | disarm t => cases t <;> exact .inr ⟨hheld, .inl rfl⟩

-- A section that unapplies leaves the state alone.
theorem Section.exec_unapplies (env : Env) (reentry : Option Teardown) (s : Shared)
    (caller : Origin) (x : Section) (h : x.unapplies = true) :
    (x.exec env reentry s caller).1.magic = s.magic ∧
      (x.exec env reentry s caller).1.client.lease.state = s.client.lease.state ∧
      (x.exec env reentry s caller).1.client.lease.ifaceConfigured = false := by
  cases x with
  | lostUnapply nak =>
    exact ⟨rfl, lifecycleUnapply_state env s.client, lifecycleUnapply_ifaceConfigured env s.client⟩
  | teardown how =>
    exact ⟨rfl, teardownSection_state env how s.client,
      teardownSection_ifaceConfigured env how s.client⟩
  | _ => cases h

/-! ## 4. Whole runs -/

theorem advertisedConfigured_iff {m : Machine} : AdvertisedConfigured m ↔
    (m.shared.magic = true → m.shared.client.lease.state.holdsValidLease = true →
      m.shared.client.lease.ifaceConfigured = true) := by
  unfold AdvertisedConfigured
  rw [Shared.advertises_iff, and_imp]

theorem AdvertisedConfigured.step {m m' : Machine} {e : LeaseEvent}
    (hinv : AdvertisedConfigured m) (hstep : LeaseStep m e m') (hok : KeepsHeldApplied m e) :
    AdvertisedConfigured m' := by
  rw [advertisedConfigured_iff] at hinv ⊢
  obtain ⟨hstep, hset⟩ := hstep
  cases e with
  | setCallbacks callbacks userData =>
    simp only [Lts.ofPartial, Machine.stepLease] at hstep
    split_ifs at hstep
    obtain rfl := Option.some.inj hstep
    exact hinv
  | machine e =>
    rcases Machine.step_cases hstep with
      ⟨c, hsame, hshared, -⟩ | ⟨i, env, reentry, kind, x, rfl, -, hnext, hshared, -⟩
    · obtain ⟨-, -, -, rt, lt, hlease⟩ := hsame
      rw [hshared, hlease]
      exact hinv
    · intro hmagic hheld
      have hchange := Section.exec_change env reentry m.shared kind x
      rw [hshared] at hmagic
      rw [← hshared] at hchange
      -- A lease that is not marked now was not marked before.
      have hbefore : m.shared.magic = true := by
        by_contra hno
        rw [Section.exec_magic.mpr (.inr (Bool.not_eq_true _ ▸ hno))] at hmagic
        cases hmagic
      rcases hchange.held hset hheld with hconf | ⟨hc, hkeeps | hunapplies⟩
      · exact hconf
      · rw [hkeeps]
        exact hinv hbefore hc
      · exact absurd ⟨hbefore, hc⟩ (hok x hnext hunapplies)

-- Unapplying a held lease is seen at once.
theorem not_advertisedConfigured_of_unapply {m m' : Machine} {e : LeaseEvent}
    (hstep : LeaseStep m e m') (hbad : ¬KeepsHeldApplied m e) : ¬AdvertisedConfigured m' := by
  obtain ⟨hstep, -⟩ := hstep
  cases e with
  | setCallbacks callbacks userData => exact absurd trivial hbad
  | machine e =>
    cases e with
    | advance i env reentry =>
      simp only [Lts.ofPartial, Machine.stepLease, Machine.step] at hstep
      split_ifs at hstep
      obtain ⟨kind, x, hnext, hshared, -⟩ := Lts.Pool.advance_cases hstep
      have hx : x.unapplies = true ∧
          (m.shared.magic = true ∧ m.shared.client.lease.state.holdsValidLease = true) := by
        by_contra hno
        refine hbad fun y hy hunapplies hheld => hno ?_
        obtain rfl : x = y := Option.some.inj (hnext.symm.trans hy)
        exact ⟨hunapplies, hheld⟩
      obtain ⟨hunapplies, hmagic, hheld⟩ := hx
      obtain ⟨h1, h2, h3⟩ := x.exec_unapplies env reentry m.shared kind hunapplies
      rw [advertisedConfigured_iff, hshared, h1, h2, h3]
      intro hall
      cases hall hmagic hheld
    | _ => exact absurd trivial hbad

-- Nothing is advertised before an ACK.
theorem start_advertisedConfigured (env : Env) (iface : Iface) (netif : Netif)
    (callbacks : Callbacks) (userData : Nat) (options : Option StartOptions) :
    AdvertisedConfigured (.start (Client.start env iface netif callbacks userData options)) := by
  rw [advertisedConfigured_iff]
  intro _ hheld
  have hfresh := (start_fresh env iface netif callbacks userData options).holdsValidLease
  rw [Machine.start, hfresh] at hheld
  cases hheld

/-- **A lost lease is not advertised, until one is lost.**  With every interface call succeeding, the
runs in which no step unapplies a held lease are exactly the runs in which, at every unlocked point,
a lease that `dmdhcp_get_lease_info` or a visitor presents is applied to the interface. -/
theorem advertised_configured_iff (env₀ : Env) (iface : Iface) (netif : Netif)
    (callbacks : Callbacks) (userData : Nat) (options : Option StartOptions)
    (events : List LeaseEvent) (m : Machine) :
    let s := Machine.start (Client.start env₀ iface netif callbacks userData options)
    AdvertisedConfigured s ∧
      (Lts.Run (Lts.Guarded LeaseStep KeepsHeldApplied) s events m ↔
        Lts.Run (Lts.Ensuring LeaseStep AdvertisedConfigured) s events m) := by
  intro s
  have hstart := start_advertisedConfigured env₀ iface netif callbacks userData options
  refine ⟨hstart, ?_⟩
  apply Lts.Run.guarded_iff_ensuring (I := AdvertisedConfigured)
  · exact fun _ _ _ hinv hstep hok => hinv.step hstep hok
  · exact fun _ hinv => hinv
  · exact fun _ _ _ _ hstep hbad => not_advertisedConfigured_of_unapply hstep hbad
  · exact hstart

/-- A message of the small network's server that also names a DNS server. -/
def dnsMessage (msgType : MsgType) (xid : UInt32) : LeaseEvent :=
  .machine (.datagram 1 (replyPayload msgType xid ⟨10, 0, 0, 5⟩
    (grantOptions ⟨10, 0, 0, 1⟩ 3600 ++ [⟨optDnsServer, [10, 0, 0, 2], by decide⟩])))

/-- Acquire on threads 0 to 3, renew on thread 4, and a NAK on thread 5, up to the point where
`on_expired_or_lost` is to be called. -/
def nakEvents : List LeaseEvent :=
  let run (i n : Nat) (xid : UInt32) : List LeaseEvent :=
    (runSections i n (quietEnv xid)).map .machine
  [dnsMessage .offer 7] ++ run 0 2 7 ++ [.machine (.fire .retransmit false)] ++ run 1 2 7 ++
    [dnsMessage .ack 7] ++ run 2 2 7 ++ [.machine (.fire .retransmit false)] ++ run 3 4 7 ++
    [.machine .renew] ++ run 4 2 8 ++ [dnsMessage .nak 8] ++ run 5 3 8

/-- The handler that is told of the loss still finds the lease and its DNS server. -/
theorem lost_lease_advertised :
    ∃ m, Lts.Run LeaseStep (.start startedClient) nakEvents m ∧ m.next 5 = some .onExpired ∧
      (getLeaseInfo m.shared.client.lease).toOption.map LeaseInfo.ipAddress =
        some (.v4 ⟨10, 0, 0, 5⟩) ∧
      m.shared.inTable = true ∧ m.shared.client.reportedDns = [.v4 ⟨10, 0, 0, 2⟩] ∧
      m.shared.client.netif.ipAddress = .none ∧ ¬AdvertisedConfigured m := by
  obtain ⟨m, hrun, hresult⟩ := Lts.Passes.run Machine.stepLease
    (fun _ e => e.SetsSucceed) (.start startedClient) nakEvents
    (fun m => decide (m.next 5 = some .onExpired ∧ m.shared.magic = true ∧
      m.shared.client.lease.state = .renewing ∧ m.shared.client.lease.ifaceConfigured = false ∧
      (getLeaseInfo m.shared.client.lease).toOption.map LeaseInfo.ipAddress =
        some (.v4 ⟨10, 0, 0, 5⟩) ∧
      m.shared.inTable = true ∧ m.shared.client.reportedDns = [.v4 ⟨10, 0, 0, 2⟩] ∧
      m.shared.client.netif.ipAddress = .none))
    true (by decide +kernel) (by decide +kernel)
  obtain ⟨hnext, hmagic, hstate, hconf, hinfo, hin, hdns, hip⟩ := of_decide_eq_true hresult
  refine ⟨m, hrun, hnext, hinfo, hin, hdns, hip, ?_⟩
  rw [advertisedConfigured_iff, hmagic, hstate, hconf]
  intro hall
  cases hall rfl rfl

/-! ## 5. The NTP servers -/

/-- What keeps the NTP visitor right: the first section of the lost path clears the list, and a
teardown takes the lease out of the table first. -/
structure NtpInv (m : Machine) : Prop where
  removed : ∀ t ∈ m.threads, ∀ x ∈ t.todo, x.isTeardown = true → m.shared.inTable = false
  listed : m.shared.inTable = true → m.shared.client.lease.state.holdsValidLease = true →
    m.shared.client.lease.ntpServers ≠ [] → m.shared.client.lease.ifaceConfigured = true

-- A held lease keeps its NTP servers in every move.
theorem Move.ntpServers {env : Env} {c c' : Client} (h : Move env c c')
    (hheld : c'.lease.state.holdsValidLease = true) :
    c'.lease.ntpServers = c.lease.ntpServers := by
  have hbefore : c.lease.state.holdsValidLease = true := h.holds ▸ hheld
  cases h with
  | stay => rfl
  | offer r h => rw [h] at hbefore; cases hbefore
  | ack r h => rcases h with h | h <;> rw [h] at hbefore <;> cases hbefore
  | restart h => rcases h with h | h | h <;> rw [h] at hbefore <;> cases hbefore
  | resend h => rw [rearmBackoff_lease, sendMessage_lease]; rfl
  | conflict h harp => rcases h with h | h <;> rw [h] at hbefore <;> cases hbefore
  | request h harp => rw [h] at hbefore; cases hbefore
  | renew h => rw [outputStartRenew_lease]; rfl
  | t1 h =>
    rw [outputStartRenew_armT2_lease]
    rfl
  | t2 h =>
    rw [outputStartRebind_armExpiry_lease]
    rfl

-- A section that ends with NTP servers of a held lease has configured the interface, or found both
-- as they are, unless it is a teardown.
theorem Change.ntpServers {env : Env} (henv : env.SetsSucceed) {c c' : Client} {x : Section}
    (h : Change env c x c') (hheld : c'.lease.state.holdsValidLease = true)
    (hntp : c'.lease.ntpServers ≠ []) :
    c'.lease.ifaceConfigured = true ∨ x.isTeardown = true ∨
      (c.lease.state.holdsValidLease = true ∧ c.lease.ntpServers ≠ [] ∧
        c'.lease.ifaceConfigured = c.lease.ifaceConfigured) := by
  rcases h.held henv hheld with hconf | ⟨hc, hkeeps | hunapplies⟩
  · exact .inl hconf
  · cases h with
    | move h => exact .inr (.inr ⟨hc, h.ntpServers hheld ▸ hntp, hkeeps⟩)
    | commit h harp => rw [h] at hc; cases hc
    | renewal r h =>
      rw [acceptRenewal, commitLease_lease_of_succeed henv]
      exact .inl rfl
    | unapply nak => exact absurd rfl hntp
    | restart nak =>
      rw [lostRestart, outputStartDiscovery_lease] at hntp
      exact absurd rfl hntp
    | teardown how => exact .inr (.inl rfl)
    | record e => exact .inr (.inr ⟨hc, hntp, hkeeps⟩)
    | disarm t => cases t <;> exact .inr (.inr ⟨hc, hntp, hkeeps⟩)
  · cases x with
    | lostUnapply nak =>
      cases h with
      | unapply => exact absurd rfl hntp
      | move h => exact .inr (.inr ⟨hc, h.ntpServers hheld ▸ hntp, h.frame.ifaceConfigured⟩)
      | record e => exact .inr (.inr ⟨hc, hntp, rfl⟩)
    | teardown how => exact .inr (.inl rfl)
    | _ => cases hunapplies

theorem NtpInv.step {m m' : Machine} {e : LeaseEvent} (hinv : NtpInv m)
    (hstep : LeaseStep m e m') : NtpInv m' := by
  obtain ⟨hstep, hset⟩ := hstep
  cases e with
  | setCallbacks callbacks userData =>
    simp only [Lts.ofPartial, Machine.stepLease] at hstep
    split_ifs at hstep
    obtain rfl := Option.some.inj hstep
    exact ⟨hinv.removed, hinv.listed⟩
  | machine e =>
    rcases Machine.step_cases hstep with
      ⟨c, hsame, hshared, hthreads⟩ | ⟨i, env, reentry, kind, x, rfl, -, hnext, hshared, hadv⟩
    · obtain ⟨-, -, -, rt, lt, hlease⟩ := hsame
      constructor
      · intro t ht x hx hteardown
        rw [hshared]
        rcases hthreads t ht with hold | hentry
        · exact hinv.removed t hold x hx hteardown
        · cases hentry <;> rw [List.mem_singleton.mp hx] at hteardown <;> cases hteardown
      · rw [hshared, hlease]
        exact hinv.listed
    · have hchange := Section.exec_change env reentry m.shared kind x
      rw [← hshared] at hchange
      have htable (h : m'.shared.inTable = true) : m.shared.inTable = true := by
        by_contra hout
        rw [hshared, Section.exec_inTable (.inl (Bool.not_eq_true _ ▸ hout))] at h
        cases h
      constructor
      · intro t ht y hy hteardown
        by_contra hin
        have hin' := Bool.not_eq_false _ ▸ hin
        rcases hadv.mem_todo ht hy with hnew | ⟨t', ht', -, hy'⟩
        · have hleaves := Section.exec_leaves hnew
          cases hleaves with
          | teardown how =>
            rw [hshared] at hin'
            cases hin'
          | _ => cases hteardown
        · rw [hinv.removed t' ht' y hy' hteardown] at htable
          cases htable hin'
      · intro hin hheld hntp
        rcases hchange.ntpServers hset hheld hntp with hconf | hteardown | ⟨hc, hservers, hkeeps⟩
        · exact hconf
        · obtain ⟨t, ht, -, hx⟩ := hadv.mem
          rw [hinv.removed t ht x hx hteardown] at htable
          cases htable hin
        · rw [hkeeps]
          exact hinv.listed (htable hin) hc hservers

/-- **The NTP half.**  With every interface call succeeding, the NTP visitor reports a server of the
lease only while the address is applied: the list is cleared where the DNS list is kept. -/
theorem reportedNtp_configured (env₀ : Env) (iface : Iface) (netif : Netif)
    (callbacks : Callbacks) (userData : Nat) (options : Option StartOptions)
    {events : List LeaseEvent} {m : Machine}
    (hrun : Lts.Run LeaseStep
      (.start (Client.start env₀ iface netif callbacks userData options)) events m)
    (hin : m.shared.inTable = true) {answer : Ipv4 → Int}
    (hntp : m.shared.client.reportedNtp answer ≠ []) :
    m.shared.client.lease.ifaceConfigured = true := by
  have hstart : NtpInv (.start (Client.start env₀ iface netif callbacks userData options)) := by
    constructor
    · intro t ht
      cases ht
    · intro _ hheld
      have hfresh := (start_fresh env₀ iface netif callbacks userData options).holdsValidLease
      rw [Machine.start, hfresh] at hheld
      cases hheld
  have hinv := hrun.invariant (fun _ _ _ hs hstep => hs.step hstep) hstart
  have hheld : m.shared.client.lease.state.holdsValidLease = true :=
    not_not.mp fun hno => hntp (Client.reportedNtp_of_not_held answer hno)
  refine hinv.listed hin hheld fun hempty => hntp ?_
  simp only [Client.reportedNtp, visitNtpServers, List.foldl_cons, List.foldl_nil, if_pos hheld,
    hempty, visitLeaseNtpServers]

end Dmdhcp
