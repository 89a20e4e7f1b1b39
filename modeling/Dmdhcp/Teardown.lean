import Dmdhcp.LostRace
import Dmdhcp.DefaultRoute
import Dmdhcp.Lib.Record

/-!
# Teardown is complete

`dmdhcp_stop` and `dmdhcp_release` unapply the lease in their locked section, and only then clear
`magic` and wait for the timers.  A callback that has passed its check of `magic`, or a datagram
that has been looked up, may therefore apply the lease again and deliver `on_bound`.
-/

namespace Dmdhcp

/-! ### What the lease has installed -/

/-- The stored handle accounts for every installed route, whatever its gateway. -/
def RoutesAccounted (route : Option RouteHandle) (iface : Iface) (entries : List Route) : Prop :=
  match route with
  | some handle => ∃ gateway, entries = [defaultRouteEntry handle gateway iface]
  | none => entries = []

/-- Every installed route is accounted for, and a lease that is not configured has installed
nothing: its interface is as the lease found it (`netif`), or blank. -/
structure Accounted (netif : Netif) (c : Client) : Prop where
  routes : RoutesAccounted c.lease.defaultRoute c.lease.iface c.routes.entries
  idle : c.lease.ifaceConfigured = false →
    c.lease.defaultRoute = none ∧ (c.netif = netif ∨ c.netif.Unconfigured)

theorem Accounted.frame {netif : Netif} {c c' : Client} (h : Accounted netif c)
    (hf : Frame c c') : Accounted netif c' := by
  refine ⟨?_, ?_⟩
  · rw [hf.defaultRoute, hf.routes, hf.iface]
    exact h.routes
  · rw [hf.ifaceConfigured, hf.defaultRoute, hf.netif]
    exact h.idle

theorem SameButTimers.frame {c c' : Client} (h : SameButTimers c c') : Frame c c' := by
  obtain ⟨hnetif, hroutes, -, rt, lt, hlease⟩ := h
  exact ⟨hnetif, hroutes, by rw [hlease], by rw [hlease], by rw [hlease], by rw [hlease]⟩

/-- The gateway of the lease that an applying section applies. -/
def Section.appliedGateway (c : Client) : Section → Addr
  | .datagram r _ => gatewayOf r.options c.lease.gateway
  | _ => c.lease.gateway

/-- No route is installed, or it is the one that is asked for and `dmroute_add` hands it back. -/
def InstalledRouteKept (env : Env) (gateway : Addr) (c : Client) : Prop :=
  c.routes.entries = [] ∨ (env.routeAdd = .reuse ∧ gateway.isV4 = true ∧
    ∀ route ∈ c.routes.entries, route.gateway = gateway)

instance (env : Env) (gateway : Addr) (c : Client) :
    Decidable (InstalledRouteKept env gateway c) :=
  inferInstanceAs (Decidable (_ ∨ _ ∧ _ ∧ _))

theorem accountedRoutes_accounted (l : Lease) :
    RoutesAccounted l.defaultRoute l.iface (accountedRoutes l) := by
  unfold RoutesAccounted accountedRoutes
  cases l.defaultRoute with
  | none => rfl
  | some handle => exact ⟨l.gateway, rfl⟩

theorem routeResult_accounted {env : Env} {c : Client}
    (h : RoutesAccounted c.lease.defaultRoute c.lease.iface c.routes.entries)
    (hkept : InstalledRouteKept env c.lease.gateway c) :
    RoutesAccounted (routeResult env c).1 c.lease.iface (routeResult env c).2.entries := by
  by_cases hempty : c.routes.entries = []
  · rw [(routeResult_entries env hempty).1]
    exact accountedRoutes_accounted { c.lease with defaultRoute := (routeResult env c).1 }
  -- An installed route is the one asked for again, under the same handle.
  · obtain ⟨hreuse, hv4, hgw⟩ := hkept.resolve_left hempty
    cases hroute : c.lease.defaultRoute with
    | none =>
      rw [hroute] at h
      exact absurd h hempty
    | some handle =>
      rw [hroute] at h
      obtain ⟨gateway, hentries⟩ := h
      have hsame : gateway = c.lease.gateway :=
        hgw (defaultRouteEntry handle gateway c.lease.iface) (by rw [hentries]; simp)
      rw [hsame] at hentries
      rw [routeResult_reuse hreuse hv4 hentries]
      exact ⟨c.lease.gateway, hentries⟩

theorem Accounted.commit {netif : Netif} {env : Env} (henv : env.SetsSucceed) {c : Client}
    (h : Accounted netif c) (hkept : InstalledRouteKept env c.lease.gateway c) :
    Accounted netif (commitLease env c) := by
  have hl := commitLease_lease_of_succeed henv c
  refine ⟨?_, fun hno => ?_⟩
  · rw [hl, commitLease_routes henv]
    exact routeResult_accounted h.routes hkept
  · rw [hl] at hno
    cases hno

theorem Accounted.unapply {netif : Netif} {env : Env} (henv : env.SetsSucceed) {c : Client}
    (h : Accounted netif c) : Accounted netif (lifecycleUnapply env c) := by
  unfold lifecycleUnapply
  split_ifs with hc
  · have hroute : (removeDefaultRoute c).lease.defaultRoute = none ∧
        (removeDefaultRoute c).routes.entries = [] := by
      have hroutes := h.routes
      unfold removeDefaultRoute
      cases hr : c.lease.defaultRoute with
      | none =>
        rw [hr] at hroutes
        exact ⟨hr, hroutes⟩
      | some handle =>
        rw [hr] at hroutes
        obtain ⟨gateway, hentries⟩ := hroutes
        simp [Routes.remove, hentries, defaultRouteEntry]
    refine ⟨?_, fun _ => ⟨hroute.1, .inr (clearInterface_unconfigured henv _)⟩⟩
    simp only [Client.update_lease, Client.emit_lease, Client.update_routes, Client.emit_routes,
      hroute.1, hroute.2]
    rfl
  · exact h

theorem Accounted.stop {netif : Netif} {env : Env} (henv : env.SetsSucceed) {c : Client}
    (h : Accounted netif c) : Accounted netif (stopSection env c) := by
  unfold stopSection
  split_ifs
  · exact h.unapply henv
  · exact h

-- Anything a section does, if the routes it finds are kept where it applies the lease.
theorem Accounted.change {netif : Netif} {env : Env} (henv : env.SetsSucceed) {c c' : Client}
    {x : Section} (h : Accounted netif c) (hchange : Change env c x c')
    (hkept : x.applies env c = true → InstalledRouteKept env (x.appliedGateway c) c) :
    Accounted netif c' := by
  cases hchange with
  | move hmove => exact h.frame hmove.frame
  | commit hs harp =>
    have hprobe : Accounted netif (c.emit (.probe c.lease.offeredIp false)) :=
      h.frame ⟨rfl, rfl, rfl, rfl, rfl, rfl⟩
    exact hprobe.commit henv (hkept (decide_eq_true ⟨hs, harp⟩))
  | renewal r hs =>
    have hpopulated : Accounted netif (c.update (populateLeaseFromOptions env r.msg r.options)) :=
      h.frame ⟨rfl, rfl, rfl, rfl, rfl, rfl⟩
    exact hpopulated.commit henv (hkept (decide_eq_true ⟨rfl, hs⟩))
  | unapply nak => exact (h.unapply henv).frame ⟨rfl, rfl, rfl, rfl, rfl, rfl⟩
  | restart nak =>
    refine h.frame ?_
    constructor <;> simp [lostRestart, outputStartDiscovery_lease]
  | teardown how =>
    cases how with
    | stop => exact h.stop henv
    | release =>
      refine Accounted.stop henv ?_
      split_ifs
      · exact h.frame (by constructor <;> simp [outputSendRelease])
      · exact h
  | record e => exact h.frame ⟨rfl, rfl, rfl, rfl, rfl, rfl⟩
  | disarm t => exact h.frame (Client.disarm_same t c).frame

/-! ### Nothing comes after the locked section -/

def Section.isOnBound : Section → Bool
  | .onBound _ => true
  | _ => false

/-- The locked section of `dmdhcp_stop` or `dmdhcp_release`. -/
def Section.isTeardown : Section → Bool
  | .teardown _ => true
  | _ => false

/-- The sections of `destroy_with_context`. -/
def Section.isDestroy : Section → Bool
  | .clearMagic => true
  | .destroyTimer _ => true
  | .free => true
  | _ => false

/-- `on_bound` is not delivered once the locked section of a teardown has run. -/
def Access.NotLate (a : Access) (older : List Access) : Prop := a = .onBound → .teardown ∉ older

instance (a : Access) (older : List Access) : Decidable (a.NotLate older) :=
  inferInstanceAs (Decidable (_ → _))

/-- The interface calls succeed, a section that applies the lease keeps the installed route and does
not come after the locked section of a teardown, and when that one runs no `on_bound` is still to be
delivered. -/
def Orderly (m : Machine) : MachineEvent → Prop
  | .advance i env _ => env.SetsSucceed ∧ ∀ x ∈ m.next i,
      (x.applies env m.shared.client = true → .teardown ∉ m.shared.trace ∧
        InstalledRouteKept env (x.appliedGateway m.shared.client) m.shared.client) ∧
      (x.isTeardown = true → m.Beside i fun y => y.isOnBound = false)
  | _ => True

instance (m : Machine) : (e : MachineEvent) → Decidable (Orderly m e)
  | .advance _ _ _ => inferInstanceAs (Decidable (_ ∧ ∀ x ∈ _, _))
  | .datagram _ _ => inferInstanceAs (Decidable True)
  | .fire _ _ => inferInstanceAs (Decidable True)
  | .renew => inferInstanceAs (Decidable True)
  | .teardown _ => inferInstanceAs (Decidable True)

structure TeardownInv (netif : Netif) (m : Machine) : Prop where
  accounted : Accounted netif m.shared.client
  torn : .teardown ∈ m.shared.trace → m.shared.client.lease.ifaceConfigured = false ∧
    ∀ t ∈ m.threads, ∀ x ∈ t.todo, x.isOnBound = false
  record : Lts.Historically Access.NotLate m.shared.trace
  order : ∀ t ∈ m.threads, ∀ x ∈ t.todo, x.isDestroy = true → .teardown ∈ m.shared.trace
  freed : m.shared.freed = true → .teardown ∈ m.shared.trace

theorem Section.isTeardown_iff {x : Section} :
    x.isTeardown = true ↔ ∃ how, x = .teardown how := by
  cases x <;> simp [Section.isTeardown]

-- The destroy sections follow the locked section of a teardown.
theorem Leaves.isDestroy {env : Env} {reentry : Option Teardown} {s : Shared} {x y : Section}
    (h : Leaves env reentry s x y) (hy : y.isDestroy = true) :
    x.isTeardown = true ∨ x.isDestroy = true := by
  cases h with
  | clearMagic how => exact .inl rfl
  | destroyRetransmit => exact .inr rfl
  | destroyLease => exact .inr rfl
  | free => exact .inr rfl
  | _ => cases hy

theorem Leaves.isOnBound {env : Env} {reentry : Option Teardown} {s : Shared} {x y : Section}
    (h : Leaves env reentry s x y) (hy : y.isOnBound = true) : x.applies env s.client = true := by
  cases h with
  | renewed r h => exact h
  | bound h => exact h
  | _ => cases hy

theorem Made.isOnBound {s : Shared} {caller : Origin} {x : Section}
    (h : Made s caller .onBound x) : x.isOnBound = true := by
  cases h with
  | onBound isRenewal => rfl
  | locked _ _ ha _ => cases ha

theorem Made.isTeardown {s : Shared} {caller : Origin} {x : Section}
    (h : Made s caller .teardown x) : x.isTeardown = true := by
  cases h with
  | teardown how => rfl
  | locked _ _ ha _ => cases ha

theorem TeardownInv.arrive {netif : Netif} {m m' : Machine} (hinv : TeardownInv netif m)
    {c : Client} (hsame : SameButTimers m.shared.client c)
    (hshared : m'.shared = { m.shared with client := c })
    (hthreads : ∀ t ∈ m'.threads, t ∈ m.threads ∨ Entry m.shared t) : TeardownInv netif m' := by
  have hf := hsame.frame
  refine ⟨?_, fun htorn => ?_, ?_, ?_, ?_⟩
  · rw [hshared]
    exact hinv.accounted.frame hf
  · rw [hshared] at htorn ⊢
    obtain ⟨hconf, hno⟩ := hinv.torn htorn
    refine ⟨hf.ifaceConfigured.trans hconf, fun t ht x hx => ?_⟩
    rcases hthreads t ht with hold | hentry
    · exact hno t hold x hx
    · cases hentry <;> rw [List.mem_singleton.mp hx] <;> rfl
  · rw [hshared]
    exact hinv.record
  · intro t ht x hx hdestroy
    rw [hshared]
    rcases hthreads t ht with hold | hentry
    · exact hinv.order t hold x hx hdestroy
    · cases hentry <;> rw [List.mem_singleton.mp hx] at hdestroy <;> cases hdestroy
  · rw [hshared]
    exact hinv.freed

section
variable {netif : Netif} {m m' : Machine} (hinv : TeardownInv netif m) {i : Nat} {env : Env}
  {reentry : Option Teardown} {kind : Origin} {x : Section} (hnext : m.next i = some x)
  (hshared : m'.shared = (x.exec env reentry m.shared kind).1)
  (hadv : m.Advanced i kind x (x.exec env reentry m.shared kind).2 m')
  (hok : Orderly m (.advance i env reentry))
include hinv hnext hshared hadv hok

-- After the locked section of a teardown nothing applies the lease, so nothing is left to deliver.
theorem TeardownInv.torn_advance (htorn : .teardown ∈ m'.shared.trace) :
    m'.shared.client.lease.ifaceConfigured = false ∧
      ∀ t ∈ m'.threads, ∀ y ∈ t.todo, y.isOnBound = false := by
  have hchange := Section.exec_change env reentry m.shared kind x
  rw [← hshared] at hchange
  by_cases hnow : x.isTeardown = true
  · obtain ⟨how, rfl⟩ := Section.isTeardown_iff.mp hnow
    refine ⟨?_, fun t ht y hy => ?_⟩
    · rw [hshared]
      exact teardownSection_ifaceConfigured env how _
    · rcases hadv.mem_todo_beside ((hok.2 _ hnext).2 rfl) ht hy with hnew | hbeside
      · rw [List.mem_singleton.mp hnew]
        rfl
      · exact hbeside
  · have hold : .teardown ∈ m.shared.trace := by
      rw [hshared, Section.exec_trace] at htorn
      rcases List.mem_append.mp htorn with hnew | hold
      · exact absurd (Section.made (List.mem_reverse.mp hnew)).isTeardown hnow
      · exact hold
    -- Orderly: whatever runs after a teardown's locked section does not apply the lease.
    have hno : x.applies env m.shared.client = false := by
      by_contra happlies
      exact ((hok.2 x hnext).1 (Bool.not_eq_false _ ▸ happlies)).1 hold
    obtain ⟨hconf, hbound⟩ := hinv.torn hold
    refine ⟨?_, fun t ht y hy => ?_⟩
    · by_contra hc
      rcases hchange.configured (Bool.not_eq_false _ ▸ hc) with ⟨happlies, -⟩ | ⟨hc', -⟩
      · rw [hno] at happlies
        cases happlies
      · rw [hconf] at hc'
        cases hc'
    · rcases hadv.mem_todo ht hy with hnew | ⟨t', ht', -, hy'⟩
      · by_contra hb
        rw [(Section.exec_leaves hnew).isOnBound (Bool.not_eq_false _ ▸ hb)] at hno
        cases hno
      · exact hbound t' ht' y hy'

theorem TeardownInv.advance : TeardownInv netif m' := by
  have hchange := Section.exec_change env reentry m.shared kind x
  have htrace : m'.shared.trace = (x.accesses env m.shared kind).reverse ++ m.shared.trace := by
    rw [hshared, Section.exec_trace]
  have hgrows : .teardown ∈ m.shared.trace → .teardown ∈ m'.shared.trace := by
    intro h
    rw [htrace]
    exact List.mem_append_right _ h
  obtain ⟨tx, htx, -, hx⟩ := hadv.mem
  refine ⟨?_, hinv.torn_advance hnext hshared hadv hok, ?_, ?_, ?_⟩
  · rw [hshared]
    exact hinv.accounted.change hok.1 hchange fun happlies => ((hok.2 x hnext).1 happlies).2
  · rw [htrace]
    refine hinv.record.append fun a ha older holder => ?_
    rintro rfl htorn
    have hmade := Section.made (List.mem_reverse.mp ha)
    have hbound := hmade.isOnBound
    rcases List.mem_append.mp (holder htorn) with hnew | hold
    · -- A section that delivers `on_bound` is not the locked section of a teardown.
      have htear := (Section.made (List.mem_reverse.mp hnew)).isTeardown
      obtain ⟨how, rfl⟩ := Section.isTeardown_iff.mp htear
      cases hbound
    · rw [(hinv.torn hold).2 tx htx x hx] at hbound
      cases hbound
  -- The destroy sections are only ever left to do by the locked section or by one another.
  · intro t ht y hy hdestroy
    rcases hadv.mem_todo ht hy with hnew | ⟨t', ht', -, hy'⟩
    · rcases (Section.exec_leaves hnew).isDestroy hdestroy with hnow | hbefore
      · obtain ⟨how, rfl⟩ := Section.isTeardown_iff.mp hnow
        rw [htrace]
        simp [Section.accesses]
      · exact hgrows (hinv.order tx htx x hx hbefore)
    · exact hgrows (hinv.order t' ht' y hy' hdestroy)
  · intro hfreed
    rw [hshared] at hfreed
    rcases Section.exec_freed.mp hfreed with rfl | hbefore
    · exact hgrows (hinv.order tx htx _ hx rfl)
    · exact hgrows (hinv.freed hbefore)

end

theorem TeardownInv.step {netif : Netif} {m m' : Machine} {e : MachineEvent}
    (hinv : TeardownInv netif m) (hstep : m.step e = some m') (hok : Orderly m e) :
    TeardownInv netif m' := by
  rcases Machine.step_cases hstep with
    ⟨c, hsame, hshared, hthreads⟩ | ⟨i, env, reentry, kind, x, rfl, -, hnext, hshared, hadv⟩
  · exact hinv.arrive hsame hshared hthreads
  · exact hinv.advance hnext hshared hadv hok

theorem start_teardownInv (env : Env) (iface : Iface) (netif : Netif) (callbacks : Callbacks)
    (userData : Nat) (options : Option StartOptions) :
    TeardownInv netif (.start (Client.start env iface netif callbacks userData options)) := by
  have hfresh := start_fresh env iface netif callbacks userData options
  refine ⟨⟨?_, fun _ => ⟨hfresh.defaultRoute, .inl hfresh.netif⟩⟩, fun htorn => ?_, trivial,
    fun t ht => ?_, fun hfreed => ?_⟩
  · rw [Machine.start, hfresh.defaultRoute]
    exact hfresh.routes
  · cases htorn
  · cases ht
  · cases hfreed

/-- **Teardown is complete.**  In every interleaving that is orderly, once `dmdhcp_stop` or
`dmdhcp_release` has returned the interface carries nothing the lease installed and no route of its
is left; and `on_bound` is never delivered after the lease was unapplied for good. -/
theorem teardown_complete (env₀ : Env) (iface : Iface) (netif : Netif) (callbacks : Callbacks)
    (userData : Nat) (options : Option StartOptions) (events : List MachineEvent) (m : Machine)
    (hrun : Lts.Run (Lts.Guarded (Lts.ofPartial Machine.step) Orderly)
      (.start (Client.start env₀ iface netif callbacks userData options)) events m) :
    (m.shared.freed = true →
      (m.shared.client.netif = netif ∨ m.shared.client.netif.Unconfigured) ∧
        m.shared.client.lease.ifaceConfigured = false ∧
        m.shared.client.routes.entries = []) ∧
      ∀ newer older, m.shared.trace = newer ++ .onBound :: older → .teardown ∉ older := by
  have hinv : TeardownInv netif m := hrun.invariant (fun _ _ _ hs hstep => hs.step hstep.1 hstep.2)
    (start_teardownInv env₀ iface netif callbacks userData options)
  refine ⟨fun hfreed => ?_, fun newer older htrace => ?_⟩
  · have hconf := (hinv.torn (hinv.freed hfreed)).1
    obtain ⟨hroute, hnetif⟩ := hinv.accounted.idle hconf
    have hroutes := hinv.accounted.routes
    rw [hroute] at hroutes
    exact ⟨hnetif, hconf, hroutes⟩
  · have hrecord := hinv.record
    rw [htrace] at hrecord
    exact hrecord.at rfl

/-- Acquire and stop: the theorem at a run that returns from `dmdhcp_stop`. -/
theorem teardown_complete_stopped :
    ∃ m, Lts.Run (Lts.Guarded (Lts.ofPartial Machine.step) Orderly) (.start startedClient)
        (boundEvents ++ [.teardown .stop] ++ runSections 4 7 (quietEnv 8)) m ∧
      m.shared.freed = true ∧
      (m.shared.client.netif = blankNetif ∨ m.shared.client.netif.Unconfigured) := by
  obtain ⟨m, hrun, hfreed⟩ := Lts.Passes.run Machine.step Orderly
    (.start startedClient) (boundEvents ++ [.teardown .stop] ++ runSections 4 7 (quietEnv 8))
    (fun m => m.shared.freed) true (by decide +kernel) (by decide +kernel)
  exact ⟨m, hrun, hfreed, ((teardown_complete _ _ blankNetif _ _ _ _ _ hrun).1 hfreed).1⟩

/-- The final probe has passed its check of `magic` when `dmdhcp_stop` runs its locked section; it
applies the lease and delivers `on_bound` while `dmdhcp_stop` waits for its timer. -/
def teardownRaceEvents : List MachineEvent :=
  ackEvents ++ [.fire .retransmit false] ++ runSections 3 1 (quietEnv 7) ++
    [.teardown .stop] ++ runSections 4 3 (quietEnv 7) ++ runSections 3 3 (quietEnv 7) ++
    runSections 4 4 (quietEnv 7)

/-- `dmdhcp_stop` returns with the address still on the interface and a route installed, and
`on_bound` has been delivered after it unapplied the lease. -/
theorem stopped_lease_left_applied :
    ∃ m, Lts.Run (Lts.Guarded (Lts.ofPartial Machine.step) fun _ e => e.SetsSucceed)
        (.start startedClient) teardownRaceEvents m ∧
      m.shared.freed = true ∧ m.shared.client.netif.ipAddress = .v4 ⟨10, 0, 0, 5⟩ ∧
      m.shared.client.routes.entries = [defaultRouteEntry 0 (.v4 ⟨10, 0, 0, 1⟩) 1] ∧
      ¬Lts.Historically Access.NotLate m.shared.trace := by
  obtain ⟨m, hrun, hresult⟩ := Lts.Passes.run Machine.step
    (fun _ e => e.SetsSucceed) (.start startedClient) teardownRaceEvents
    (fun m => (m.shared.freed, m.shared.client.netif.ipAddress,
      m.shared.client.routes.entries, decide (Lts.Historically Access.NotLate m.shared.trace)))
    (true, .v4 ⟨10, 0, 0, 5⟩, [defaultRouteEntry 0 (.v4 ⟨10, 0, 0, 1⟩) 1], false)
    (by decide +kernel) (by decide +kernel)
  obtain ⟨hfreed, hrest⟩ := Prod.mk.inj hresult
  obtain ⟨hip, hrest⟩ := Prod.mk.inj hrest
  obtain ⟨hroutes, hlate⟩ := Prod.mk.inj hrest
  exact ⟨m, hrun, hfreed, hip, hroutes, of_decide_eq_false hlate⟩

end Dmdhcp
