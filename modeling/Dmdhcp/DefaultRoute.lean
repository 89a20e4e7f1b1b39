import Dmdhcp.Mirror

/-!
# The default route of a lease

`lifecycleApply` stores the handle of the route it adds over the handle it held before, and it runs
again on every renewal.  A renewal that gets the same route back keeps the table exact; any other
renewal of a lease that has a route leaves the old route behind.
-/

namespace Dmdhcp

/-- The entry of the default route via `gateway`. -/
def defaultRouteEntry (handle : RouteHandle) (gateway : Addr) (iface : Iface) : Route :=
  ⟨handle, .v4 .zero, .v4 .zero, gateway, iface⟩

/-- The entries that a stored handle accounts for. -/
def accountedRoutes (l : Lease) : List Route :=
  match l.defaultRoute with
  | some handle => [defaultRouteEntry handle l.gateway l.iface]
  | none => []

/-- The routes a lease should have installed: the default route via its gateway while it is held,
its gateway is IPv4 and the last `dmroute_add` returned a route (the handle it stored). -/
def expectedRoutes (l : Lease) : List Route :=
  if l.state.holdsValidLease ∧ l.gateway.isV4 then accountedRoutes l else []

/-- The invariant behind exactness. -/
structure RouteInv (c : Client) : Prop where
  configured : c.lease.ifaceConfigured = c.lease.state.holdsValidLease
  entries : c.routes.entries = accountedRoutes c.lease
  idle : c.lease.state.holdsValidLease = false → c.lease.defaultRoute = none
  gateway : c.lease.defaultRoute ≠ none → c.lease.gateway.isV4 = true

theorem RouteInv.exact {c : Client} (h : RouteInv c) : c.routes.entries = expectedRoutes c.lease := by
  rw [h.entries, expectedRoutes]
  split_ifs with hheld
  · rfl
  · have hroute : c.lease.defaultRoute = none := by
      by_contra hne
      refine hheld ⟨?_, h.gateway hne⟩
      by_contra hs
      exact hne (h.idle (Bool.not_eq_true _ ▸ hs))
    rw [accountedRoutes, hroute]

-- What the stored handle accounts for after the `dmroute_add` step, if nothing was installed.
theorem routeResult_entries (env : Env) {c : Client} (hempty : c.routes.entries = []) :
    (routeResult env c).2.entries =
        accountedRoutes { c.lease with defaultRoute := (routeResult env c).1 } ∧
      ((routeResult env c).1 ≠ none → c.lease.gateway.isV4 = true) := by
  unfold routeResult accountedRoutes
  split_ifs with hg
  · refine ⟨?_, fun _ => hg⟩
    unfold Routes.add
    cases env.routeAdd with
    | fail => exact hempty
    | create => simp only [hempty, defaultRouteEntry]
    | reuse => simp only [hempty, List.find?_nil, defaultRouteEntry]
  · exact ⟨hempty, fun h => absurd rfl h⟩

-- Asking for the route that is installed, and getting that entry back.
theorem routeResult_reuse {env : Env} {c : Client} {handle : RouteHandle}
    (henv : env.routeAdd = .reuse) (hg : c.lease.gateway.isV4 = true)
    (hentries : c.routes.entries = [defaultRouteEntry handle c.lease.gateway c.lease.iface]) :
    routeResult env c = (some handle, c.routes) := by
  unfold routeResult
  rw [if_pos hg]
  simp [Routes.add, henv, hentries, defaultRouteEntry]

theorem RouteInv.commit {env : Env} (henv : env.SetsSucceed) {c : Client}
    (h : (routeResult env c).2.entries =
        accountedRoutes { c.lease with defaultRoute := (routeResult env c).1 } ∧
      ((routeResult env c).1 ≠ none → c.lease.gateway.isV4 = true)) :
    RouteInv (commitLease env c) := by
  have hl := commitLease_lease_of_succeed henv c
  refine ⟨?_, ?_, fun hs => ?_, ?_⟩
  · rw [hl]
    rfl
  · rw [commitLease_routes henv, hl]
    exact h.1
  · rw [commitLease_state] at hs
    cases hs
  · rw [hl]
    exact h.2

theorem RouteInv.congr {c c' : Client} (h : RouteInv c) {retransmitTimer leaseTimer : Timer}
    (hlease : c'.lease = { c.lease with retransmitTimer, leaseTimer })
    (hroutes : c'.routes = c.routes) : RouteInv c' := by
  refine ⟨?_, ?_, ?_, ?_⟩
  · rw [hlease]
    exact h.configured
  · rw [hroutes, hlease]
    exact h.entries
  · rw [hlease]
    exact h.idle
  · rw [hlease]
    exact h.gateway

theorem RouteInv.move {env : Env} {c c' : Client} (h : RouteInv c) (hmove : Move env c c') :
    RouteInv c' := by
  have hf := hmove.frame
  cases hs : c.lease.state.holdsValidLease with
  | true =>
    have ht := hmove.terms hs
    refine ⟨?_, ?_, ?_, ?_⟩
    · rw [hf.ifaceConfigured, hmove.holds, h.configured]
    · rw [hf.routes, h.entries, accountedRoutes, accountedRoutes, hf.defaultRoute, ht.gateway,
        hf.iface]
    · rw [hmove.holds, hf.defaultRoute]
      exact h.idle
    · rw [hf.defaultRoute, ht.gateway]
      exact h.gateway
  | false =>
    have hnone := h.idle hs
    refine ⟨?_, ?_, ?_, ?_⟩
    · rw [hf.ifaceConfigured, hmove.holds, h.configured]
    -- The gateway may change here (an OFFER), but no handle is stored that it belongs to.
    · rw [hf.routes, h.entries, accountedRoutes, accountedRoutes, hf.defaultRoute, hnone]
    · rw [hf.defaultRoute]
      exact fun _ => hnone
    · rw [hf.defaultRoute]
      exact fun hne => absurd hnone hne

-- Removing the stored handle removes every route it accounts for.
theorem removeDefaultRoute_entries {c : Client} (h : c.routes.entries = accountedRoutes c.lease) :
    (removeDefaultRoute c).routes.entries = [] ∧
      (removeDefaultRoute c).lease.defaultRoute = none := by
  unfold removeDefaultRoute
  cases hroute : c.lease.defaultRoute with
  | none =>
    rw [accountedRoutes, hroute] at h
    exact ⟨h, hroute⟩
  | some handle =>
    rw [accountedRoutes, hroute] at h
    simp [Routes.remove, h, defaultRouteEntry]

theorem lifecycleUnapply_routes (env : Env) {c : Client} (h : RouteInv c) :
    (lifecycleUnapply env c).routes.entries = [] ∧
      (lifecycleUnapply env c).lease.defaultRoute = none ∧
      (lifecycleUnapply env c).lease.ifaceConfigured = false := by
  unfold lifecycleUnapply
  split_ifs with hc
  · obtain ⟨h1, h2⟩ := removeDefaultRoute_entries h.entries
    exact ⟨h1, h2, rfl⟩
  · have hconf : c.lease.ifaceConfigured = false := Bool.not_eq_true _ ▸ hc
    have hnone := h.idle (h.configured ▸ hconf)
    exact ⟨by rw [h.entries, accountedRoutes, hnone], hnone, hconf⟩

theorem RouteInv.lost {env : Env} {c : Client} (h : RouteInv c) :
    RouteInv (lifecycleHandleLost env c) := by
  obtain ⟨hentries, hroute, hconf⟩ := lifecycleUnapply_routes env h
  have hl : (lifecycleHandleLost env c).lease.defaultRoute = none := by
    simpa [lifecycleHandleLost, lostRestart, outputStartDiscovery_lease, lostUnapply] using hroute
  refine ⟨?_, ?_, fun _ => hl, fun hne => absurd hl hne⟩
  · rw [lifecycleHandleLost_state]
    change _ = false
    simpa [lifecycleHandleLost, lostRestart, outputStartDiscovery_lease, lostUnapply] using hconf
  · rw [accountedRoutes, hl]
    simpa [lifecycleHandleLost, lostRestart, lostUnapply] using hentries

/-- The renewal keeps the route: the lease had none, or the ACK names the same gateway again and
`dmroute_add` hands back the entry that is installed. -/
def KeepsRoute (c : Client) (env : Env) (r : Reply) : Prop :=
  c.lease.defaultRoute = none ∨
    (gatewayOf r.options c.lease.gateway = c.lease.gateway ∧ env.routeAdd = .reuse)

instance (c : Client) (env : Env) (r : Reply) : Decidable (KeepsRoute c env r) :=
  inferInstanceAs (Decidable (_ ∨ _ ∧ _))

theorem RouteInv.renewal {env : Env} (henv : env.SetsSucceed) {c : Client} (h : RouteInv c)
    {r : Reply} (hkeeps : KeepsRoute c env r) : RouteInv (acceptRenewal env r c) := by
  apply RouteInv.commit henv
  rcases hkeeps with hnone | ⟨hgw, hreuse⟩
  · have hempty : c.routes.entries = [] := by rw [h.entries, accountedRoutes, hnone]
    exact routeResult_entries env hempty
  · cases hroute : c.lease.defaultRoute with
    | none =>
      have hempty : c.routes.entries = [] := by rw [h.entries, accountedRoutes, hroute]
      exact routeResult_entries env hempty
    | some handle =>
      have hv4 : c.lease.gateway.isV4 = true := h.gateway (by rw [hroute]; simp)
      have hres : routeResult env (c.update (populateLeaseFromOptions env r.msg r.options)) =
          (some handle, c.routes) := by
        apply routeResult_reuse hreuse
        · rw [Client.update_lease, populateLeaseFromOptions, hgw]
          exact hv4
        · rw [Client.update_routes, h.entries, accountedRoutes, hroute]
          simp only [Client.update_lease, populateLeaseFromOptions, hgw]
      rw [hres]
      refine ⟨?_, fun _ => ?_⟩
      · rw [h.entries]
        simp only [accountedRoutes, hroute, Client.update_lease, populateLeaseFromOptions, hgw]
      · rw [Client.update_lease, populateLeaseFromOptions, hgw]
        exact hv4

theorem RouteInv.outcome {env : Env} (henv : env.SetsSucceed) {ev : Event} {c c' : Client}
    (h : RouteInv c) (hkeeps : ∀ r ∈ c.renewalAck ev, KeepsRoute c env r)
    (hout : Outcome env ev c c') : RouteInv c' := by
  cases hout with
  | move hmove => exact h.move hmove
  | failed error hmove =>
    exact (h.move hmove).congr (callOnError_lease _ _) (callOnError_routes _ _)
  | commit hs harp =>
    -- Nothing is installed before the first commit.
    have hempty : c.routes.entries = [] := by
      rw [h.entries, accountedRoutes, h.idle (by rw [hs]; rfl)]
    have hcommit : RouteInv (commitProbed env c) := RouteInv.commit henv (routeResult_entries env hempty)
    exact hcommit.congr (callOnBound_lease _ _) (callOnBound_routes _ _)
  | renewal r hr =>
    exact (h.renewal henv (hkeeps r hr)).congr (callOnBound_lease _ _) (callOnBound_routes _ _)
  | lost hs => exact h.lost

/-- The condition on one step of a run: the interface calls succeed, and an ACK to a renewal keeps
the route. -/
def RouteKept (c : Client) (input : Env × Event) : Prop :=
  input.1.SetsSucceed ∧ ∀ r ∈ c.renewalAck input.2, KeepsRoute c input.1 r

instance (c : Client) (input : Env × Event) : Decidable (RouteKept c input) :=
  inferInstanceAs (Decidable (_ ∧ _))

theorem RouteInv.step {env : Env} {ev : Event} {c : Client} (h : RouteInv c)
    (hkept : RouteKept c (env, ev)) : RouteInv (c.step (env, ev)) := by
  obtain ⟨-, hroutes, -, rt, lt, hlease⟩ := c.before_same ev
  refine (h.congr hlease hroutes).outcome hkept.1 (fun r hr => ?_) (c.step_outcome env ev)
  have hsame := Client.before_of_renewalAck hr
  rw [hsame] at hr ⊢
  exact hkept.2 r hr

theorem start_routeInv (env : Env) (iface : Iface) (netif : Netif) (callbacks : Callbacks)
    (userData : Nat) (options : Option StartOptions) :
    RouteInv (Client.start env iface netif callbacks userData options) := by
  have hfresh := start_fresh env iface netif callbacks userData options
  have hnone := hfresh.defaultRoute
  refine ⟨?_, ?_, fun _ => hnone, fun hne => absurd hnone hne⟩
  · rw [hfresh.ifaceConfigured, hfresh.holdsValidLease]
  · rw [hfresh.routes, accountedRoutes, hnone]

theorem stopSection_routes {env : Env} {c : Client} (h : RouteInv c) :
    (stopSection env c).routes.entries = [] := by
  have hunapply := (lifecycleUnapply_routes env h).1
  unfold stopSection
  split_ifs with hc
  · exact hunapply
  · rwa [lifecycleUnapply, if_neg hc] at hunapply

theorem releaseSection_routes {env : Env} {c : Client} (h : RouteInv c) :
    (releaseSection env c).routes.entries = [] := by
  unfold releaseSection
  dsimp only
  split_ifs with hsend
  · exact stopSection_routes (h.congr (sendMessage_lease ..) (sendMessage_routes ..))
  · exact stopSection_routes h

/-- **No stale default route.**  In every run whose interface calls succeed and whose renewals keep
the route, the routes installed are exactly the expected ones in every state reached, and
`dmdhcp_stop` and `dmdhcp_release` leave none. -/
theorem default_route_exact (env₀ : Env) (iface : Iface) (netif : Netif) (callbacks : Callbacks)
    (userData : Nat) (options : Option StartOptions) (inputs : List (Env × Event)) (c : Client)
    (hrun : Lts.Run (Lts.Guarded (Lts.ofTotal Client.step) RouteKept)
      (Client.start env₀ iface netif callbacks userData options) inputs c) :
    c.routes.entries = expectedRoutes c.lease ∧
      ∀ env : Env, (stopSection env c).routes.entries = [] ∧
        (releaseSection env c).routes.entries = [] := by
  have hinv : RouteInv c := by
    refine hrun.invariant (fun s i s' hs hstep => ?_)
      (start_routeInv env₀ iface netif callbacks userData options)
    obtain ⟨rfl, hkept⟩ := hstep
    exact hs.step hkept
  exact ⟨hinv.exact, fun env => ⟨stopSection_routes hinv, releaseSection_routes hinv⟩⟩

/-- Acquire, renew with the same gateway and get the same entry back. -/
theorem default_route_exact_renewed :
    ∃ c, Lts.Run (Lts.Guarded (Lts.ofTotal Client.step) RouteKept) startedClient
        (acquireInputs ⟨10, 0, 0, 5⟩ ⟨10, 0, 0, 1⟩ 3600 ++
          renewInputs .reuse ⟨10, 0, 0, 5⟩ ⟨10, 0, 0, 1⟩ 3600) c ∧
      c.lease.state = .bound ∧
      c.routes.entries = [defaultRouteEntry 0 (.v4 ⟨10, 0, 0, 1⟩) 1] := by
  have hrun := Lts.foldl_run_guarded Client.step RouteKept startedClient
    (acquireInputs ⟨10, 0, 0, 5⟩ ⟨10, 0, 0, 1⟩ 3600 ++
      renewInputs .reuse ⟨10, 0, 0, 5⟩ ⟨10, 0, 0, 1⟩ 3600) (by decide +kernel)
  refine ⟨_, hrun, by decide +kernel, ?_⟩
  rw [(default_route_exact _ _ blankNetif _ _ _ _ _ hrun).1]
  decide +kernel

/-- The gateway changes in a renewal: the old route stays behind, and `dmdhcp_stop` does not remove
it either. -/
theorem default_route_stale_after_gateway_change :
    ∃ c, Lts.Run (Lts.Guarded (Lts.ofTotal Client.step) fun _ i => i.1.SetsSucceed) startedClient
        (acquireInputs ⟨10, 0, 0, 5⟩ ⟨10, 0, 0, 1⟩ 3600 ++
          renewInputs .create ⟨10, 0, 0, 5⟩ ⟨10, 0, 0, 2⟩ 3600) c ∧
      c.routes.entries ≠ expectedRoutes c.lease ∧
      (stopSection (quietEnv 9) c).routes.entries = [defaultRouteEntry 0 (.v4 ⟨10, 0, 0, 1⟩) 1] :=
  ⟨_, Lts.foldl_run_guarded _ _ _ _ (by decide +kernel), by decide +kernel, by decide +kernel⟩

end Dmdhcp
