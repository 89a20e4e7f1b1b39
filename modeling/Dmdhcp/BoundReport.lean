import Dmdhcp.Callbacks
import Dmdhcp.CleanExit

/-!
# What `on_bound` finds

Both callers of `dmdhcp_lifecycle_apply` enter `bound` and call `on_bound` whatever it returned.  The
invocations of a session record the client that the callback found, so that what is reported can be
compared with what the interface carries.
-/

namespace Dmdhcp

/-! ## 1. What is reported -/

/-- The interface has the address and the netmask that `dmdhcp_get_lease_info` returns. -/
def Client.Configured (c : Client) : Prop :=
  ∃ info, getLeaseInfo c.lease = .ok info ∧ c.netif.ipAddress = info.ipAddress ∧
    c.netif.netmask = info.netmask

/-- Every `on_bound` found the interface configured as reported. -/
def Session.ReportsConfigured (s : Session) : Prop :=
  ∀ i ∈ s.invocations, ∀ isRenewal, i.callback = .onBound isRenewal → i.found.Configured

/-- If the step applies a lease and `on_bound` is set: each of the two `dmnetif_set_*` calls was made
and returned 0, or the interface has the value already.  The address is not set where the netmask
was refused. -/
def Client.AppliesLease (c : Client) (env : Env) (ev : Event) : Prop :=
  ∀ l ∈ c.committed env ev, c.lease.callbacks.onBound = true →
    (env.setNetmask = true ∨ c.netif.netmask = l.netmask) ∧
    (env.setNetmask = true ∧ env.setIpAddress = true ∨ c.netif.ipAddress = l.offeredIp)

def Session.AppliesLease (s : Session) : SessionOp → Prop
  | .event env ev _ => s.client.AppliesLease env ev
  | .call _ => True

/-! ## 2. One step -/

theorem setBroadcast_addresses (env : Env) (c : Client) :
    (setBroadcast env c).netif.netmask = c.netif.netmask ∧
      (setBroadcast env c).netif.ipAddress = c.netif.ipAddress := by
  unfold setBroadcast
  split_ifs
  · exact ⟨rfl, rfl⟩
  · exact ⟨rfl, rfl⟩

-- What applying a lease makes of the address and the netmask of the interface.
theorem commitLease_addresses (env : Env) (c : Client) :
    (commitLease env c).netif.netmask =
        (if env.setNetmask = true then c.lease.netmask else c.netif.netmask) ∧
    (commitLease env c).netif.ipAddress =
        if env.setNetmask = true ∧ env.setIpAddress = true then c.lease.offeredIp
        else c.netif.ipAddress := by
  unfold commitLease lifecycleArmT1 Client.armLease lifecycleApply
  cases env.setNetmask with
  | false => simp
  | true =>
    cases env.setIpAddress with
    | false => simp
    | true => simp [installDefaultRoute_eq, setBroadcast_addresses]

-- A committed lease is reported as it is, so the interface has to have been set to it.
theorem commitLease_configured_iff (env : Env) (c : Client) : (commitLease env c).Configured ↔
    (env.setNetmask = true ∨ c.netif.netmask = c.lease.netmask) ∧
    (env.setNetmask = true ∧ env.setIpAddress = true ∨ c.netif.ipAddress = c.lease.offeredIp) := by
  obtain ⟨configured, route, hl⟩ := commitLease_lease env c
  obtain ⟨hmask, hip⟩ := commitLease_addresses env c
  have hinfo : getLeaseInfo (commitLease env c).lease = .ok
      ⟨c.lease.offeredIp, c.lease.netmask, c.lease.gateway, c.lease.serverId,
        c.lease.leaseTimeSec, c.lease.t1Sec, c.lease.t2Sec⟩ := by
    rw [hl]
    rfl
  have hconf : (commitLease env c).Configured ↔
      (commitLease env c).netif.ipAddress = c.lease.offeredIp ∧
        (commitLease env c).netif.netmask = c.lease.netmask := by
    unfold Client.Configured
    rw [hinfo]
    constructor
    · rintro ⟨info, ⟨⟩, h⟩
      exact h
    · exact fun h => ⟨_, rfl, h⟩
  rw [hconf, hmask, hip, ite_eq_left_iff, ite_eq_left_iff, ← or_iff_not_imp_left,
    ← or_iff_not_imp_left, and_comm]

-- A callback that is not `on_bound` reports nothing about the interface.
theorem Session.invoke_reports_iff {callback : Callback} {script : List UserCall} {s : Session}
    (h : s.ReportsConfigured) : (s.invoke callback script).ReportsConfigured ↔
      ∀ isRenewal, callback = .onBound isRenewal → s.client.lease.callbacks.onBound = true →
        s.client.Configured := by
  unfold Session.invoke
  by_cases hset : callback.isSet s.client.lease.callbacks = true
  · rw [if_pos hset]
    constructor
    · intro hall isRenewal heq _
      exact hall ⟨callback, s.client⟩ List.mem_cons_self isRenewal heq
    · intro hnew i hi isRenewal heq
      rcases List.mem_cons.mp hi with rfl | hi
      · have heq' : callback = .onBound isRenewal := heq
        rw [heq'] at hset
        exact hnew isRenewal heq' hset
      · exact h i hi isRenewal heq
  · rw [if_neg hset]
    refine iff_of_true h fun isRenewal heq hon => ?_
    rw [heq] at hset
    exact absurd hon hset

-- What is left to be done after the locked section, seen from the invocations.
theorem After.deliver_reports_iff {env : Env} {script : List UserCall} {after : After} {s : Session}
    (h : s.ReportsConfigured) : (after.deliver env script s).ReportsConfigured ↔
      ∀ isRenewal, after = .onBound isRenewal → s.client.lease.callbacks.onBound = true →
        s.client.Configured := by
  cases after with
  | done => exact iff_of_true h fun isRenewal heq => (by cases heq)
  | onBound isRenewal =>
    refine (Session.invoke_reports_iff h).trans ⟨?_, ?_⟩
    · intro hnew b heq
      exact hnew isRenewal rfl
    · intro hnew b heq
      exact hnew isRenewal rfl
  | onError error =>
    refine iff_of_true ((Session.invoke_reports_iff h).mpr fun _ heq => ?_) fun _ heq => ?_
    · cases heq
    · cases heq
  | lost =>
    have hunapplied : Session.ReportsConfigured { s with client := lostUnapply env s.client } := h
    have hinvoked : (Session.invoke .onExpiredOrLost script
        { s with client := lostUnapply env s.client }).ReportsConfigured :=
      (Session.invoke_reports_iff hunapplied).mpr fun _ heq => (by cases heq)
    exact iff_of_true hinvoked fun _ heq => (by cases heq)

/-- **One step.**  The report is right exactly if the lease was applied, in whole or in effect. -/
theorem Session.step_reports_iff {s : Session} {op : SessionOp} (h : s.ReportsConfigured) :
    (s.step op).ReportsConfigured ↔ s.AppliesLease op := by
  cases op with
  | call u => exact iff_of_true h trivial
  | event env ev script =>
    have hfound : Session.ReportsConfigured { s with client := (s.client.eventSection env ev).1 } := h
    refine (After.deliver_reports_iff hfound).trans ?_
    show (∀ isRenewal, (s.client.eventSection env ev).2 = .onBound isRenewal →
      (s.client.eventSection env ev).1.lease.callbacks.onBound = true →
      (s.client.eventSection env ev).1.Configured) ↔ s.client.AppliesLease env ev
    cases hcommitted : s.client.committed env ev with
    | none =>
      refine iff_of_true (fun isRenewal hafter => ?_) fun l hl => ?_
      · obtain ⟨l, hl⟩ := Client.committed_of_onBound hafter
        rw [hcommitted] at hl
        cases hl
      · rw [hcommitted] at hl
        cases hl
    | some l =>
      obtain ⟨c₀, isRenewal, hsec, htakes⟩ := Client.eventSection_of_committed hcommitted
      obtain ⟨configured, route, hlease⟩ := commitLease_lease env c₀
      have hcallbacks : (commitLease env c₀).lease.callbacks = s.client.lease.callbacks := by
        rw [hlease]
        exact htakes.callbacks
      rw [hsec]
      dsimp only
      rw [hcallbacks, commitLease_configured_iff, htakes.netif, htakes.netmask, htakes.offeredIp]
      constructor
      · intro hnew l' hl'
        rw [hcommitted] at hl'
        cases hl'
        exact hnew isRenewal rfl
      · intro hok b _
        exact hok l hcommitted

/-- **BOUND is reported for a configured interface exactly if every apply goes through.**  The runs
in which every step that applies a lease ends with its address and netmask on the interface are
those in which every `on_bound`, first or renewal, finds them there. -/
theorem bound_reported_iff {env : Env} {iface : Iface} {netif : Netif} {callbacks : Callbacks}
    {userData : Nat} {options : Option StartOptions} {ops : List SessionOp} {s : Session} :
    Lts.Run (Lts.Guarded (Lts.ofTotal Session.step) Session.AppliesLease)
        ⟨Client.start env iface netif callbacks userData options, []⟩ ops s ↔
      Lts.Run (Lts.Ensuring (Lts.ofTotal Session.step) Session.ReportsConfigured)
        ⟨Client.start env iface netif callbacks userData options, []⟩ ops s := by
  have hstart : Session.ReportsConfigured
      ⟨Client.start env iface netif callbacks userData options, []⟩ :=
    fun i hi => absurd hi List.not_mem_nil
  refine Lts.Run.guarded_iff_ensuring ?_ (fun s h => h) ?_ hstart
  · rintro s op s' h rfl hok
    exact (Session.step_reports_iff h).mpr hok
  · rintro s op s' h rfl hbad
    exact fun hreports => hbad ((Session.step_reports_iff h).mp hreports)

/-- An acquisition at whose end the address is refused by the interface. -/
def refusedAddress : List SessionOp :=
  (acquireInputs ⟨10, 0, 0, 5⟩ ⟨10, 0, 0, 1⟩ 3600).map fun input =>
    .event { input.1 with setIpAddress := false } input.2 []

/-- `on_bound` is called for 10.0.0.5 on an interface without an address. -/
theorem bound_reported_unconfigured :
    Lts.Run (Lts.ofTotal Session.step) (Session.start (quietEnv 7) 1 blankNetif 0 none)
        refusedAddress
        (refusedAddress.foldl Session.step (Session.start (quietEnv 7) 1 blankNetif 0 none)) ∧
      ¬(refusedAddress.foldl Session.step
        (Session.start (quietEnv 7) 1 blankNetif 0 none)).ReportsConfigured := by
  refine ⟨Lts.foldl_run Session.step _ refusedAddress, fun hreports => ?_⟩
  have hinvoked : (refusedAddress.foldl Session.step
      (Session.start (quietEnv 7) 1 blankNetif 0 none)).invocations.map (fun i =>
        (i.callback, (getLeaseInfo i.found.lease).toOption.map LeaseInfo.ipAddress,
          i.found.netif.ipAddress)) =
      [(.onBound false, some (.v4 ⟨10, 0, 0, 5⟩), .none)] := by
    decide +kernel
  obtain ⟨i, hi, hfields⟩ := List.mem_map.mp (hinvoked ▸ List.mem_singleton_self _)
  obtain ⟨hcallback, hrest⟩ := Prod.mk.inj hfields
  obtain ⟨hinfo, hnetif⟩ := Prod.mk.inj hrest
  obtain ⟨info, hok, hip, -⟩ := hreports i hi false hcallback
  rw [hok] at hinfo
  have hreported : info.ipAddress = .v4 ⟨10, 0, 0, 5⟩ := Option.some.inj hinfo
  rw [hnetif, hreported] at hip
  cases hip

end Dmdhcp
