import Dmdhcp.DefaultRoute
import Dmdhcp.Projection

/-!
# The network configuration of the machine

What the interfaces and the routing table hold after any run of the module, read off its lease table:
the two facts about a single lease, that its interface mirrors it and that its routes are the expected
ones, carried through the side of every interface.
-/

namespace Dmdhcp

/-! ## 1. A new lease -/

section
variable (env : Env) (iface : Iface) (netif : Netif) (routes : Routes) (callbacks : Callbacks)
  (userData : Nat) (hostname : Option (List UInt8)) (options : Option StartOptions)

/-- The lease that `dmdhcp_start` leaves, with the routes there are. -/
def Client.begun : Client :=
  startSection env options { Client.create iface netif callbacks userData hostname with routes }

theorem begun_fresh : Fresh netif { Client.begun env iface netif routes callbacks userData hostname
    options with routes := ⟨[], 0⟩ } := by
  unfold Client.begun startSection
  split
  · constructor <;> simp [outputStartReboot_lease, Lease.inExchange, Client.create, Lease.create]
  · constructor <;> simp [outputStartDiscovery_lease, Client.create, Lease.create]

theorem begun_routes :
    (Client.begun env iface netif routes callbacks userData hostname options).routes = routes :=
  (startSection_change env options _).1

theorem begun_mirrors (hblank : netif.Unconfigured) :
    Mirrors (Client.begun env iface netif routes callbacks userData hostname options) := by
  have hfresh := begun_fresh env iface netif routes callbacks userData hostname options
  refine ⟨fun hs => ?_, fun _ => ⟨hfresh.ifaceConfigured, ?_⟩, fun hs => ?_⟩
  · rw [hfresh.holdsValidLease] at hs
    cases hs
  · rw [hfresh.netif]
    exact hblank
  · rcases hfresh.state with hstate | hstate <;> rw [hstate] at hs <;> cases hs

theorem begun_routeInv (hempty : routes.entries = []) :
    RouteInv (Client.begun env iface netif routes callbacks userData hostname options) := by
  have hfresh := begun_fresh env iface netif routes callbacks userData hostname options
  have hnone := hfresh.defaultRoute
  refine ⟨?_, ?_, fun _ => hnone, fun hne => absurd hnone hne⟩
  · rw [hfresh.ifaceConfigured, hfresh.holdsValidLease]
  · rw [begun_routes, hempty, accountedRoutes, hnone]

end

/-! ## 2. An invariant of every interface -/

/-- `I` of the lease of the interface, and `J` of an interface without one. -/
structure Side.Holds (I : Client → Prop) (J : Netif → Routes → Prop) (s : Side) : Prop where
  free : s.lease = none → J s.netif s.routes
  leased : ∀ e, s.lease = some e → I (s.view e)

section
variable {I : Client → Prop} {J : Netif → Routes → Prop} {s : Side} {iface : Iface}

theorem Side.Holds.step (h : s.Holds I J) (ev : SideEvent)
    (hstart : ∀ env callbacks userData hostname options, J s.netif s.routes →
      I (Client.begun env iface s.netif s.routes callbacks userData hostname options))
    (hteardown : ∀ env how, ev = .teardown env how → ∀ c, I c →
      J (teardownSection env how c).netif (teardownSection env how c).routes)
    (hoperate : ∀ o, ev = .operate o → ∀ e, s.lease = some e → I (s.view e) →
      I ((s.view e).operate o)) : (s.step iface ev).Holds I J := by
  cases ev with
  | start env callbacks userData options allocated copied =>
    rw [Side.step]
    generalize (if copied = true then options.bind StartOptions.hostname else none) = hostname
    split_ifs with hnew
    · refine ⟨fun hnone => (by cases hnone), fun e he => ?_⟩
      obtain rfl := Option.some.inj he
      exact hstart env callbacks userData hostname options (h.free hnew.2)
    · exact h
  | teardown env how =>
    cases hlease : s.lease with
    | none =>
      rw [Side.step, hlease]
      exact h
    | some e =>
      rw [Side.step, hlease]
      exact ⟨fun _ => hteardown env how rfl _ (h.leased e hlease), fun e' he' => by cases he'⟩
  | operate o =>
    cases hlease : s.lease with
    | none =>
      rw [Side.step, hlease]
      exact h
    | some e =>
      rw [Side.step, hlease]
      refine ⟨fun hnone => (by cases hnone), fun e' he' => ?_⟩
      obtain rfl := Option.some.inj he'
      exact hoperate o rfl e hlease (h.leased e hlease)

-- What happens on other interfaces uses up handles only.
theorem Side.Holds.next (h : s.Holds I J) (next : RouteHandle)
    (hI : ∀ c, I c → I { c with routes := { c.routes with next } })
    (hJ : ∀ netif routes, J netif routes → J netif { routes with next }) :
    Side.Holds I J { s with routes := { s.routes with next } } :=
  ⟨fun hnone => hJ _ _ (h.free hnone), fun e he => hI _ (h.leased e he)⟩

end

/-- The interface is blank without a lease, and mirrors the lease otherwise. -/
def Side.Mirrored : Side → Prop := Side.Holds Mirrors fun netif _ => netif.Unconfigured

/-- There is no route without a lease, and those of the lease otherwise. -/
def Side.Routed : Side → Prop := Side.Holds RouteInv fun _ routes => routes.entries = []

/-- Every `dmnetif_set_*` call of the event succeeds. -/
def SideEvent.SetsSucceed : SideEvent → Prop
  | .start env _ _ _ _ _ => env.SetsSucceed
  | .teardown env _ => env.SetsSucceed
  | .operate (.event env _) => env.SetsSucceed
  | .operate (.setCallbacks _ _) => True

section
variable {s : Side} {iface : Iface}

theorem Side.Mirrored.step (h : s.Mirrored) {ev : SideEvent} (hsets : ev.SetsSucceed) :
    (s.step iface ev).Mirrored := by
  refine Side.Holds.step h ev (fun env callbacks userData hostname options hblank =>
    begun_mirrors env iface s.netif s.routes callbacks userData hostname options hblank) ?_ ?_
  · rintro env how rfl c hm
    cases how with
    | stop => exact (stopSection_clears hsets hm).2
    | release => exact (releaseSection_clears hsets hm).2
  · rintro o rfl e - hm
    cases o with
    | event env ev => exact hm.step hsets ev
    | setCallbacks callbacks userData => exact ⟨hm.held, hm.idle, hm.probed⟩

theorem Side.Routed.step (h : s.Routed) {ev : SideEvent}
    (hkept : ∀ env e', ev = .operate (.event env e') → ∀ e, s.lease = some e →
      RouteKept (s.view e) (env, e')) : (s.step iface ev).Routed := by
  refine Side.Holds.step h ev (fun env callbacks userData hostname options hempty =>
    begun_routeInv env iface s.netif s.routes callbacks userData hostname options hempty) ?_ ?_
  · rintro env how rfl c hinv
    cases how with
    | stop => exact stopSection_routes hinv
    | release => exact releaseSection_routes hinv
  · rintro o rfl e he hinv
    cases o with
    | event env ev => exact hinv.step (hkept env ev rfl e he)
    | setCallbacks callbacks userData =>
      exact ⟨hinv.configured, hinv.entries, hinv.idle, hinv.gateway⟩

end

/-! ## 3. Every interface in every run -/

/-- Every `dmnetif_set_*` call of the event succeeds. -/
def System.SetsSucceed (_ : System) (e : Env × SystemEvent) : Prop :=
  e.1.SetsSucceed ∧ ∀ envs, e.2 = .deinit envs → ∀ iface, (envs iface).SetsSucceed

theorem SystemEvent.at_setsSucceed {s : System} {env : Env} {ev : SystemEvent}
    (h : s.SetsSucceed (env, ev)) {iface : Iface} {sev : SideEvent}
    (hat : ev.at env iface = some sev) : sev.SetsSucceed := by
  have hif {j : Iface} {sev' : SideEvent}
      (hat' : (if j = iface then some sev' else none) = some sev) (hsev : sev'.SetsSucceed) :
      sev.SetsSucceed := by
    split_ifs at hat'
    exact Option.some.inj hat' ▸ hsev
  cases ev with
  | setCallbacks j callbacks userData => exact hif hat trivial
  | deinit envs => exact Option.some.inj hat ▸ h.2 envs rfl iface
  | start j callbacks userData options allocated copied => exact hif hat h.1
  | teardown how j => exact hif hat h.1
  | renew j => exact hif hat h.1
  | datagram j payload => exact hif hat h.1
  | retransmit j stale => exact hif hat h.1
  | leaseTimer j stale => exact hif hat h.1

/-- What the datagram of an event is and where it arrives. -/
def SystemEvent.received : SystemEvent → Option (Iface × List UInt8)
  | .datagram iface payload => some (iface, payload)
  | _ => none

/-- The calls succeed, and a renewal keeps the route of the lease it renews. -/
def System.KeepsRoutes (s : System) (e : Env × SystemEvent) : Prop :=
  e.1.SetsSucceed ∧ ∀ d ∈ e.2.received, ∀ row ∈ s.findByIface d.1,
    ∀ r ∈ (s.view row).renewalAck (.datagram d.1 d.2), KeepsRoute (s.view row) e.1 r

instance (s : System) (e : Env × SystemEvent) : Decidable (s.KeepsRoutes e) :=
  inferInstanceAs (Decidable (_ ∧ _))

theorem System.mirrored {netifs : Iface → Netif} (hblank : ∀ iface, (netifs iface).Unconfigured)
    {events : List (Env × SystemEvent)} {s : System}
    (hrun : Lts.Run (Lts.Guarded (Lts.ofTotal System.step) System.SetsSucceed)
      (System.initial netifs) events s) :
    Separate s ∧ ∀ iface, (s.side iface).Mirrored := by
  have hinit : Separate (System.initial netifs) ∧
      ∀ iface, ((System.initial netifs).side iface).Mirrored :=
    ⟨System.initial_separate netifs, fun iface => ⟨fun _ => hblank iface, fun e he => by cases he⟩⟩
  refine Lts.Run.invariant (I := fun s => Separate s ∧ ∀ iface, (s.side iface).Mirrored)
    (fun s e s' hs hstep => ?_) hrun hinit
  obtain ⟨hsep, hsides⟩ := hs
  obtain ⟨env, ev⟩ := e
  obtain ⟨rfl, hsets⟩ := hstep
  refine ⟨hsep.step env ev, fun iface => ?_⟩
  have hside := System.step_side hsep env ev iface
  cases hat : ev.at env iface with
  | none =>
    rw [hat] at hside
    obtain ⟨next, -, heq⟩ := hside
    rw [heq]
    exact Side.Holds.next (I := Mirrors) (hsides iface) next
      (fun c hm => ⟨hm.held, hm.idle, hm.probed⟩) fun _ _ h => h
  | some sev =>
    rw [hat] at hside
    rw [show (s.step (env, ev)).side iface = _ from hside]
    exact (hsides iface).step (SystemEvent.at_setsSucceed hsets hat)

theorem SystemEvent.at_event {env env' : Env} {ev : SystemEvent} {iface : Iface} {e : Event}
    (hat : ev.at env iface = some (.operate (.event env' e))) :
    env' = env ∧ ∀ j payload, e = .datagram j payload →
      j = iface ∧ (iface, payload) ∈ ev.received := by
  have hif {j : Iface} {e' : Event}
      (hat' : (if j = iface then some (.operate (.event env e')) else none : Option SideEvent) =
        some (.operate (.event env' e))) : j = iface ∧ env' = env ∧ e = e' := by
    split_ifs at hat' with hj
    cases hat'
    exact ⟨hj, rfl, rfl⟩
  have hnever {j : Iface} {sev : SideEvent} (hsev : sev ≠ .operate (.event env' e))
      (hat' : (if j = iface then some sev else none) = some (.operate (.event env' e))) : False := by
    split_ifs at hat'
    exact hsev (Option.some.inj hat')
  cases ev with
  | setCallbacks j callbacks userData => exact (hnever (fun h => by cases h) hat).elim
  | deinit envs => cases hat
  | start j callbacks userData options allocated copied =>
    exact (hnever (fun h => by cases h) hat).elim
  | teardown how j => exact (hnever (fun h => by cases h) hat).elim
  | renew j =>
    obtain ⟨-, henv, rfl⟩ := hif hat
    exact ⟨henv, fun _ _ h => by cases h⟩
  | datagram j payload =>
    obtain ⟨rfl, henv, rfl⟩ := hif hat
    refine ⟨henv, fun _ _ h => ?_⟩
    cases h
    exact ⟨rfl, rfl⟩
  | retransmit j stale =>
    obtain ⟨-, henv, rfl⟩ := hif hat
    exact ⟨henv, fun _ _ h => by cases h⟩
  | leaseTimer j stale =>
    obtain ⟨-, henv, rfl⟩ := hif hat
    exact ⟨henv, fun _ _ h => by cases h⟩

theorem System.routed {netifs : Iface → Netif} {events : List (Env × SystemEvent)} {s : System}
    (hrun : Lts.Run (Lts.Guarded (Lts.ofTotal System.step) System.KeepsRoutes)
      (System.initial netifs) events s) :
    Separate s ∧ ∀ iface, (s.side iface).Routed := by
  have hinit : Separate (System.initial netifs) ∧
      ∀ iface, ((System.initial netifs).side iface).Routed :=
    ⟨System.initial_separate netifs, fun iface => ⟨fun _ => rfl, fun e he => by cases he⟩⟩
  refine Lts.Run.invariant (I := fun s => Separate s ∧ ∀ iface, (s.side iface).Routed)
    (fun s e s' hs hstep => ?_) hrun hinit
  obtain ⟨hsep, hsides⟩ := hs
  obtain ⟨env, ev⟩ := e
  obtain ⟨rfl, henv, hkeeps⟩ := hstep
  refine ⟨hsep.step env ev, fun iface => ?_⟩
  have hside := System.step_side hsep env ev iface
  cases hat : ev.at env iface with
  | none =>
    rw [hat] at hside
    obtain ⟨next, -, heq⟩ := hside
    rw [heq]
    exact Side.Holds.next (I := RouteInv) (hsides iface) next
      (fun c hm => ⟨hm.configured, hm.entries, hm.idle, hm.gateway⟩) fun _ _ h => h
  | some sev =>
    rw [hat] at hside
    rw [show (s.step (env, ev)).side iface = _ from hside]
    refine (hsides iface).step fun env' e' hsev e he => ?_
    subst hsev
    obtain ⟨rfl, hreceived⟩ := SystemEvent.at_event hat
    refine ⟨henv, fun r hr => ?_⟩
    -- Only a datagram renews.
    cases e' with
    | datagram j payload =>
      obtain ⟨rfl, hin⟩ := hreceived j payload rfl
      exact hkeeps _ hin e he r hr
    | retransmit stale => cases hr
    | leaseTimer stale => cases hr
    | renew => cases hr

/-! ## 4. The network and the lease table -/

section
variable {α β : Type*} {k : α → Nat} {l : List α}

theorem find?_key_of_mem (hnodup : (l.map k).Nodup) {a : α} (ha : a ∈ l) :
    l.find? (fun b => k b == k a) = some a := by
  induction l with
  | nil => cases ha
  | cons c cs ih =>
    obtain ⟨hnot, hrest⟩ := List.nodup_cons.mp hnodup
    rcases List.mem_cons.mp ha with rfl | ha
    · exact List.find?_cons_of_pos (p := fun b => k b == k a) (beq_self_eq_true (k a))
    · have hne : ¬(k c == k a) = true := fun h =>
        hnot (beq_iff_eq.mp h ▸ List.mem_map_of_mem ha)
      rw [List.find?_cons_of_neg (p := fun b => k b == k a) hne, ih hrest ha]

-- What carries a key comes from the entry with that key.
theorem count_flatMap_of_key [BEq β] [LawfulBEq β] {f : α → List β} {g : β → Nat}
    (hkey : ∀ a, ∀ b ∈ f a, g b = k a) (hnodup : (l.map k).Nodup) (b : β) :
    (l.flatMap f).count b = (l.find? fun a => k a == g b).elim 0 fun a => (f a).count b := by
  induction l with
  | nil => rfl
  | cons c cs ih =>
    obtain ⟨hnot, hrest⟩ := List.nodup_cons.mp hnodup
    rw [List.flatMap_cons, List.count_append]
    by_cases hc : k c = g b
    · have hcs : (cs.flatMap f).count b = 0 := by
        refine List.count_eq_zero.mpr fun hin => hnot ?_
        obtain ⟨a, ha, hb⟩ := List.mem_flatMap.mp hin
        rw [hc, hkey a b hb]
        exact List.mem_map_of_mem ha
      rw [List.find?_cons_of_pos (p := fun a => k a == g b) (beq_iff_eq.mpr hc), hcs, add_zero]
      rfl
    · have hfc : (f c).count b = 0 := List.count_eq_zero.mpr fun hin => hc (hkey c b hin).symm
      rw [List.find?_cons_of_neg (p := fun a => k a == g b) fun h => hc (beq_iff_eq.mp h), hfc,
        zero_add, ih hrest]

end

theorem expectedRoutes_iface (l : Lease) : ∀ r ∈ expectedRoutes l, r.iface = l.iface := by
  intro r hr
  unfold expectedRoutes accountedRoutes at hr
  split_ifs at hr
  · split at hr
    · obtain rfl := List.mem_singleton.mp hr
      rfl
    · cases hr
  · cases hr

/-- **The machine carries exactly the configuration of its leases.**  In every run of the module over
any number of interfaces, all blank at first and with every `dmnetif_set_*` call succeeding: an
interface with a held lease carries what `dmdhcp_get_lease_info` reports of it, and every other
interface, with a lease or without, is blank. -/
theorem network_mirrors_leases (netifs : Iface → Netif)
    (hblank : ∀ iface, (netifs iface).Unconfigured) (events : List (Env × SystemEvent)) (s : System)
    (hrun : Lts.Run (Lts.Guarded (Lts.ofTotal System.step) System.SetsSucceed)
      (System.initial netifs) events s) :
    (∀ e ∈ s.table, e.lease.state.holdsValidLease = true →
      ∃ info, getLeaseInfo e.lease = .ok info ∧
        (s.netifs e.lease.iface).ipAddress = info.ipAddress ∧ info.ipAddress.isV4 = true ∧
        (s.netifs e.lease.iface).netmask = info.netmask ∧
        (s.netifs e.lease.iface).broadcast = broadcastOf e.lease .none) ∧
    ∀ iface, (∀ e ∈ s.table, e.lease.iface = iface → e.lease.state.holdsValidLease = false) →
      (s.netifs iface).Unconfigured := by
  obtain ⟨hsep, hsides⟩ := System.mirrored hblank hrun
  refine ⟨fun e he hheld => ?_, fun iface hnone => ?_⟩
  · have hfind : (s.side e.lease.iface).lease = some e :=
      find?_key_of_mem (k := fun e : TableEntry => e.lease.iface) hsep.nodup he
    obtain ⟨-, hv4, hip, hmask, hbc⟩ := ((hsides e.lease.iface).leased e hfind).held hheld
    have hs := State.holdsValidLease_iff.mp hheld
    refine ⟨_, if_neg fun hnot => ?_, hip, hv4, hmask, hbc⟩
    rcases hs with hs | hs | hs
    · exact hnot.1 hs
    · exact hnot.2.1 hs
    · exact hnot.2.2 hs
  · cases hfind : s.findByIface iface with
    | none => exact (hsides iface).free hfind
    | some e =>
      have hnot := hnone e (List.mem_of_find?_eq_some hfind) (System.findByIface_iface hfind)
      exact (((hsides iface).leased e hfind).idle hnot).2

/-- After both interfaces were bound and the first stopped, the second alone is configured. -/
theorem second_interface_configured :
    ∃ s, Lts.Run (Lts.Guarded (Lts.ofTotal System.step) System.SetsSucceed)
        (System.initial fun _ => blankNetif) twoInterfaces s ∧
      s.table.map (fun e => (e.lease.iface, e.lease.state)) = [(2, .bound)] ∧
      ∀ iface, iface ≠ 2 → (s.netifs iface).Unconfigured := by
  have hrun := (Lts.foldl_run System.step (System.initial fun _ => blankNetif) twoInterfaces).guard
    System.SetsSucceed (fun e he _ => ?_)
  · have htable : (twoInterfaces.foldl System.step (System.initial fun _ => blankNetif)).table.map
        (fun e => (e.lease.iface, e.lease.state)) = [(2, .bound)] := by decide +kernel
    generalize twoInterfaces.foldl System.step (System.initial fun _ => blankNetif) = s at hrun htable
    have hblank := (network_mirrors_leases _ (fun _ => by decide) _ s hrun).2
    refine ⟨s, hrun, htable, fun iface hne => hblank iface fun e he hiface => ?_⟩
    have hin := htable ▸ List.mem_map_of_mem
      (f := fun e : TableEntry => (e.lease.iface, e.lease.state)) he
    have h2 : e.lease.iface = 2 := congrArg Prod.fst (List.mem_singleton.mp hin)
    exact absurd (hiface.symm.trans h2) hne
  · simp only [twoInterfaces, List.mem_cons, List.not_mem_nil, or_false] at he
    rcases he with rfl | rfl | rfl | rfl | rfl | rfl | rfl | rfl | rfl | rfl | rfl <;>
      exact ⟨by decide, fun envs h => by cases h⟩

/-- **The routing table is exactly what the leases account for.**  In every run of the module over any
number of interfaces whose calls succeed and whose renewals keep the route: the routes installed are,
up to order, the default routes of the held leases, each once, and none after `dmod_deinit`. -/
theorem routing_table_exact (netifs : Iface → Netif) (events : List (Env × SystemEvent)) (s : System)
    (hrun : Lts.Run (Lts.Guarded (Lts.ofTotal System.step) System.KeepsRoutes)
      (System.initial netifs) events s) :
    s.routes.entries.Perm (s.table.flatMap fun e => expectedRoutes e.lease) ∧
      ∀ envs, (s.deinit envs).routes.entries = [] := by
  obtain ⟨hsep, hsides⟩ := System.routed hrun
  refine ⟨List.perm_iff_count.mpr fun r => ?_, fun envs => ?_⟩
  · have hon : ((s.side r.iface).routes.entries).count r = s.routes.entries.count r :=
      List.count_filter (beq_self_eq_true r.iface)
    rw [count_flatMap_of_key (k := fun e : TableEntry => e.lease.iface) (g := Route.iface)
      (fun e => expectedRoutes_iface e.lease) hsep.nodup, ← hon]
    cases hfind : s.table.find? fun e => e.lease.iface == r.iface with
    | none =>
      rw [(hsides r.iface).free hfind]
      rfl
    | some e => exact congrArg (List.count r) ((hsides r.iface).leased e hfind).exact
  · -- Every side is torn down, and a route belongs to a side.
    refine List.eq_nil_iff_forall_not_mem.mpr fun r hr => ?_
    have hside := System.deinit_side hsep envs r.iface
    have hempty : ((s.side r.iface).step r.iface (.teardown (envs r.iface) .stop)).Routed :=
      (hsides r.iface).step fun env e' h => by cases h
    rw [← hside] at hempty
    have hin : r ∈ ((s.deinit envs).side r.iface).routes.entries :=
      List.mem_filter.mpr ⟨hr, beq_self_eq_true r.iface⟩
    rw [hempty.free rfl] at hin
    cases hin

/-- With both interfaces bound there are two routes, and one once the first is stopped. -/
theorem routing_table_of_two_interfaces :
    (∃ s, Lts.Run (Lts.Guarded (Lts.ofTotal System.step) System.KeepsRoutes)
        (System.initial fun _ => blankNetif) twoInterfaces.dropLast s ∧
      s.routes.entries.Perm [defaultRouteEntry 0 (.v4 ⟨10, 0, 0, 1⟩) 1,
        defaultRouteEntry 1 (.v4 ⟨10, 0, 1, 1⟩) 2]) ∧
    ∃ s, Lts.Run (Lts.Guarded (Lts.ofTotal System.step) System.KeepsRoutes)
        (System.initial fun _ => blankNetif) twoInterfaces s ∧
      s.routes.entries.Perm [defaultRouteEntry 1 (.v4 ⟨10, 0, 1, 1⟩) 2] := by
  have hrun := Lts.foldl_run_guarded System.step System.KeepsRoutes
    (System.initial fun _ => blankNetif) twoInterfaces (by decide +kernel)
  have hboth := Lts.foldl_run_guarded System.step System.KeepsRoutes
    (System.initial fun _ => blankNetif) twoInterfaces.dropLast (by decide +kernel)
  have h : (twoInterfaces.foldl System.step (System.initial fun _ => blankNetif)).table.flatMap
      (fun e => expectedRoutes e.lease) = [defaultRouteEntry 1 (.v4 ⟨10, 0, 1, 1⟩) 2] := by
    decide +kernel
  have h' : (twoInterfaces.dropLast.foldl System.step
      (System.initial fun _ => blankNetif)).table.flatMap (fun e => expectedRoutes e.lease) =
        [defaultRouteEntry 0 (.v4 ⟨10, 0, 0, 1⟩) 1,
          defaultRouteEntry 1 (.v4 ⟨10, 0, 1, 1⟩) 2] := by
    decide +kernel
  exact ⟨⟨_, hboth, h' ▸ (routing_table_exact _ _ _ hboth).1⟩,
    ⟨_, hrun, h ▸ (routing_table_exact _ _ _ hrun).1⟩⟩

end Dmdhcp
