import Dmdhcp.Isolation
import Dmdhcp.Lib.Simulation
import Dmdhcp.Provider

/-!
# One interface of the module

A `Side` is what the module, dmnetif and dmroute hold for one interface.  Every event of the module
is an event of that side or leaves it alone, so that a run of the whole module is, seen from an
interface, a run of its side.
-/

namespace Dmdhcp

/-! ## 1. Operations that stay on their interface -/

/-- The code of a lease: it sees the routes of its own interface only, and changes its own. -/
structure Local (f : Client → Client) : Prop where
  alone : ∀ c, f c.alone = (f c).alone
  iface : ∀ c, (f c).lease.iface = c.lease.iface
  change : ∀ c, RouteChange c.lease.iface c.routes c.lease.defaultRoute (f c).routes
    (f c).lease.defaultRoute

theorem RouteChange.of_eq {iface : Iface} {rs rs' : Routes} {stored stored' : Option RouteHandle}
    (hroutes : rs' = rs) (hstored : stored' = stored) :
    RouteChange iface rs stored rs' stored' := by
  subst hroutes hstored
  exact .keep

section
variable (env : Env) (c : Client)

theorem commitLease_change : RouteChange c.lease.iface c.routes c.lease.defaultRoute
    (commitLease env c).routes (commitLease env c).lease.defaultRoute := by
  show RouteChange c.lease.iface c.routes c.lease.defaultRoute (lifecycleApply env c).routes
    (lifecycleApply env c).lease.defaultRoute
  unfold lifecycleApply
  split_ifs
  · simp only [Client.update_routes, Client.update_lease, installDefaultRoute_eq, routeResult,
      setBroadcast_lease, setBroadcast_routes, Client.emit_lease, Client.emit_routes]
    split_ifs
    · exact .add _ _
    · exact .forget
  · exact .keep
  · exact .keep

theorem lifecycleUnapply_change : RouteChange c.lease.iface c.routes c.lease.defaultRoute
    (lifecycleUnapply env c).routes (lifecycleUnapply env c).lease.defaultRoute := by
  unfold lifecycleUnapply
  split_ifs
  · show RouteChange c.lease.iface c.routes c.lease.defaultRoute (removeDefaultRoute c).routes
      (removeDefaultRoute c).lease.defaultRoute
    unfold removeDefaultRoute
    cases hroute : c.lease.defaultRoute with
    | none => exact .of_eq rfl hroute
    | some handle => exact .remove handle rfl
  · exact .keep

theorem step_change (ev : Event) : RouteChange c.lease.iface c.routes c.lease.defaultRoute
    (c.step (env, ev)).routes (c.step (env, ev)).lease.defaultRoute := by
  obtain ⟨-, hroutes, -, rt, lt, hl⟩ := c.before_same ev
  have hbefore : (c.before ev).lease.iface = c.lease.iface ∧
      (c.before ev).lease.defaultRoute = c.lease.defaultRoute := by rw [hl]; exact ⟨rfl, rfl⟩
  have houtcome := c.step_outcome env ev
  rw [← hbefore.1, ← hbefore.2, ← hroutes]
  generalize c.step (env, ev) = c' at houtcome ⊢
  cases houtcome with
  | move h => exact .of_eq h.frame.routes h.frame.defaultRoute
  | failed error h =>
    rw [callOnError_routes, callOnError_lease]
    exact .of_eq h.frame.routes h.frame.defaultRoute
  | commit h harp =>
    rw [callOnBound_routes, callOnBound_lease]
    exact commitLease_change env ((c.before ev).emit (.probe (c.before ev).lease.offeredIp false))
  | renewal r h =>
    rw [callOnBound_routes, callOnBound_lease]
    exact commitLease_change env ((c.before ev).update (populateLeaseFromOptions env r.msg r.options))
  | lost h =>
    simp only [lifecycleHandleLost, lostRestart, outputStartDiscovery_routes,
      outputStartDiscovery_lease, callOnExpiredOrLost_routes, callOnExpiredOrLost_lease]
    exact lifecycleUnapply_change env _

theorem stopSection_change : RouteChange c.lease.iface c.routes c.lease.defaultRoute
    (stopSection env c).routes (stopSection env c).lease.defaultRoute := by
  unfold stopSection
  split_ifs
  · exact lifecycleUnapply_change env c
  · exact .keep

end

theorem Local.step (env : Env) (ev : Event) : Local fun c => c.step (env, ev) where
  alone c := c.step_alone env ev
  iface c := c.operate_iface (.event env ev)
  change c := step_change env c ev

theorem Local.operate (o : Operation) : Local fun c => c.operate o := by
  cases o with
  | event env ev => exact Local.step env ev
  | setCallbacks callbacks userData => exact ⟨fun _ => rfl, fun _ => rfl, fun _ => .keep⟩

theorem Local.teardown (env : Env) (how : Teardown) : Local (teardownSection env how) where
  alone c := teardownSection_alone env c how
  iface c := teardownSection_iface env how c
  change c := by
    cases how with
    | stop => exact stopSection_change env c
    | release =>
      show RouteChange _ _ _ (releaseSection env c).routes (releaseSection env c).lease.defaultRoute
      unfold releaseSection
      dsimp only
      split_ifs
      · -- The RELEASE goes out first; it leaves the lease and the routes as they are.
        have hstop := stopSection_change env (outputSendRelease env c)
        rw [outputSendRelease_eq, Sender.send, sendMessage_lease, sendMessage_routes] at hstop
        exact hstop
      · exact stopSection_change env c

theorem startSection_change (env : Env) (options : Option StartOptions) (c : Client) :
    (startSection env options c).routes = c.routes ∧
      (startSection env options c).lease.defaultRoute = c.lease.defaultRoute := by
  unfold startSection
  split
  · rw [outputStartReboot_routes, outputStartReboot_lease]
    exact ⟨rfl, rfl⟩
  · rw [outputStartDiscovery_routes, outputStartDiscovery_lease]
    exact ⟨rfl, rfl⟩

/-! ## 2. The side of an interface -/

/-- What the module and the machine hold for one interface. -/
structure Side where
  netif : Netif
  routes : Routes
  lease : Option TableEntry
  deriving DecidableEq, Repr

def Side.view (s : Side) (e : TableEntry) : Client := ⟨e.lease, s.netif, s.routes, e.log⟩

/-- The side that the code of its lease leaves. -/
def Side.of (c : Client) : Side := ⟨c.netif, c.routes, some c.entry⟩

inductive SideEvent
  | start (env : Env) (callbacks : Callbacks) (userData : Nat) (options : Option StartOptions)
      (allocated copied : Bool)
  | teardown (env : Env) (how : Teardown)
  | operate (o : Operation)
  deriving DecidableEq, Repr

def Side.step (iface : Iface) (s : Side) : SideEvent → Side
  | .start env callbacks userData options allocated copied =>
    if allocated ∧ s.lease = none then
      .of (startSection env options { Client.create iface s.netif callbacks userData
        (if copied then options.bind StartOptions.hostname else none) with routes := s.routes })
    else s
  | .teardown env how =>
    match s.lease with
    | none => s
    | some e => { Side.of (teardownSection env how (s.view e)) with lease := none }
  | .operate o =>
    match s.lease with
    | none => s
    | some e => .of ((s.view e).operate o)

/-- An event of the side, or of another interface: then only handles may have been used up. -/
def Side.Step (iface : Iface) (s : Side) (ev : Option SideEvent) (s' : Side) : Prop :=
  match ev with
  | some ev => s' = s.step iface ev
  | none => ∃ next, s.routes.next ≤ next ∧ s' = { s with routes := { s.routes with next } }

def System.side (s : System) (iface : Iface) : Side where
  netif := s.netifs iface
  routes := s.routes.on iface
  lease := s.findByIface iface

/-- What an event of the module is for one interface. -/
def SystemEvent.at (env : Env) (iface : Iface) : SystemEvent → Option SideEvent
  | .start j callbacks userData options allocated copied =>
    if j = iface then some (.start env callbacks userData options allocated copied) else none
  | .teardown how j => if j = iface then some (.teardown env how) else none
  | .setCallbacks j callbacks userData =>
    if j = iface then some (.operate (.setCallbacks callbacks userData)) else none
  | .renew j => if j = iface then some (.operate (.event env .renew)) else none
  | .datagram j payload =>
    if j = iface then some (.operate (.event env (.datagram j payload))) else none
  | .retransmit j stale =>
    if j = iface then some (.operate (.event env (.retransmit stale))) else none
  | .leaseTimer j stale =>
    if j = iface then some (.operate (.event env (.leaseTimer stale))) else none
  -- The lease of every interface is unapplied and destroyed, as by `dmdhcp_stop`.
  | .deinit envs => some (.teardown (envs iface) .stop)

/-! ## 3. Finding by key -/

section
variable {α : Type*} {k : α → Nat} {p : α → Bool} {i j : Nat} {a b : α} {l : List α}

-- With one entry for a key, a search among the entries of the key tests that entry.
theorem find?_of_key (hnodup : (l.map k).Nodup) (hp : ∀ a, p a = true → k a = i) :
    l.find? p = (l.find? fun a => k a == i).filter p := by
  induction l with
  | nil => rfl
  | cons c cs ih =>
    obtain ⟨hnot, hrest⟩ := List.nodup_cons.mp hnodup
    by_cases hkey : k c = i
    · rw [List.find?_cons_of_pos (p := fun a => k a == i) (beq_iff_eq.mpr hkey)]
      by_cases hc : p c = true
      · rw [List.find?_cons_of_pos hc, Option.filter_some, if_pos hc]
      · rw [List.find?_cons_of_neg hc, Option.filter_some, if_neg hc]
        refine List.find?_eq_none.mpr fun d hd hpd => hnot ?_
        rw [hkey, ← hp d hpd]
        exact List.mem_map_of_mem hd
    · rw [List.find?_cons_of_neg (p := fun a => k a == i) fun h => hkey (beq_iff_eq.mp h),
        List.find?_cons_of_neg fun h => hkey (hp c h), ih hrest]

variable (hp : ∀ a, p a = true → k a = i) (hb : k b = i)
include hp hb

theorem map_key_modifyFirst : (modifyFirst p (fun _ => b) l).map k = l.map k := by
  induction l with
  | nil => rfl
  | cons c cs ih =>
    unfold modifyFirst
    split_ifs with hc
    · rw [List.map_cons, List.map_cons, hb, hp c hc]
    · rw [List.map_cons, List.map_cons, ih]

theorem find?_modifyFirst_same (hnodup : (l.map k).Nodup) (h : l.find? p = some a) :
    (modifyFirst p (fun _ => b) l).find? (fun a => k a == i) = some b := by
  induction l with
  | nil => cases h
  | cons c cs ih =>
    obtain ⟨hnot, hrest⟩ := List.nodup_cons.mp hnodup
    unfold modifyFirst
    split_ifs with hc
    · exact List.find?_cons_of_pos (p := fun a => k a == i) (beq_iff_eq.mpr hb)
    · rw [List.find?_cons_of_neg hc] at h
      have hkey : k c ≠ i := by
        intro hkey
        rw [hkey, ← hp a (List.find?_some h)] at hnot
        exact hnot (List.mem_map_of_mem (List.mem_of_find?_eq_some h))
      rw [List.find?_cons_of_neg (p := fun a => k a == i) fun hin => hkey (beq_iff_eq.mp hin),
        ih hrest h]

theorem find?_modifyFirst_other (hj : j ≠ i) :
    (modifyFirst p (fun _ => b) l).find? (fun a => k a == j) =
      l.find? (fun a => k a == j) := by
  have hother {x : α} (hx : k x = i) : ¬(k x == j) = true :=
    fun h => hj ((beq_iff_eq.mp h).symm.trans hx)
  induction l with
  | nil => rfl
  | cons c cs ih =>
    unfold modifyFirst
    split_ifs with hc
    · rw [List.find?_cons_of_neg (p := fun a => k a == j) (hother hb),
        List.find?_cons_of_neg (p := fun a => k a == j) (hother (hp c hc))]
    · rw [List.find?_cons, List.find?_cons, ih]

end

section
variable {α : Type*} {k : α → Nat} {i j : Nat} {l : List α}

theorem find?_eraseP_same (hnodup : (l.map k).Nodup) :
    (l.eraseP fun a => k a == i).find? (fun a => k a == i) = none := by
  induction l with
  | nil => rfl
  | cons c cs ih =>
    obtain ⟨hnot, hrest⟩ := List.nodup_cons.mp hnodup
    by_cases hc : (k c == i) = true
    · rw [List.eraseP_cons_of_pos (p := fun a => k a == i) hc]
      refine List.find?_eq_none.mpr fun d hd hkey => hnot ?_
      rw [beq_iff_eq.mp hc, ← beq_iff_eq.mp hkey]
      exact List.mem_map_of_mem hd
    · rw [List.eraseP_cons_of_neg (p := fun a => k a == i) hc,
        List.find?_cons_of_neg (p := fun a => k a == i) hc, ih hrest]

theorem find?_eraseP_other (hj : j ≠ i) :
    (l.eraseP fun a => k a == i).find? (fun a => k a == j) =
      l.find? (fun a => k a == j) := by
  induction l with
  | nil => rfl
  | cons c cs ih =>
    by_cases hc : (k c == i) = true
    · rw [List.eraseP_cons_of_pos (p := fun a => k a == i) hc,
        List.find?_cons_of_neg (p := fun a => k a == j)
          fun h => hj ((beq_iff_eq.mp h).symm.trans (beq_iff_eq.mp hc))]
    · rw [List.eraseP_cons_of_neg (p := fun a => k a == i) hc, List.find?_cons, List.find?_cons,
        ih]

end

/-! ## 4. The invariant of the table -/

/-- One lease for an interface, and no lease holds a route of another interface. -/
structure Separate (s : System) : Prop where
  nodup : (s.table.map fun e => e.lease.iface).Nodup
  routes : s.routes.Sound
  owns : ∀ e ∈ s.table, s.routes.Owns e.lease.iface e.lease.defaultRoute

theorem System.initial_separate (netifs : Iface → Netif) : Separate (System.initial netifs) where
  nodup := .nil
  routes := ⟨fun _ hr => absurd hr List.not_mem_nil, fun _ hr => absurd hr List.not_mem_nil⟩
  owns _ he := absurd he List.not_mem_nil

section
variable {s : System} (hs : Separate s) {p : TableEntry → Bool} {f : Client → Client}
  {iface : Iface} (hp : ∀ e, p e = true → e.lease.iface = iface) (hf : Local f)
include hs hp hf

theorem Separate.onFirst : Separate (s.onFirst p f) := by
  unfold System.onFirst
  cases hfind : s.table.find? p with
  | none => exact hs
  | some e =>
    have he := List.mem_of_find?_eq_some hfind
    have hchange := hf.change (s.view e)
    have hiface : (f (s.view e)).lease.iface = iface :=
      (hf.iface _).trans (hp e (List.find?_some hfind))
    refine ⟨?_, hchange.sound hs.routes, fun e' he' => ?_⟩
    · show ((modifyFirst p (fun _ => (f (s.view e)).entry) s.table).map _).Nodup
      rw [map_key_modifyFirst (k := fun e : TableEntry => e.lease.iface) hp hiface]
      exact hs.nodup
    · rcases mem_modifyFirst he' with hold | ⟨-, -, rfl⟩
      · exact hchange.owns_old (hs.owns e' hold)
      · show (f (s.view e)).routes.Owns (f (s.view e)).lease.iface _
        rw [hf.iface]
        exact hchange.owns hs.routes (hs.owns e he)

theorem System.onFirst_side : (s.onFirst p f).side iface =
    match (s.findByIface iface).filter p with
    | none => s.side iface
    | some e => .of (f ((s.side iface).view e)) := by
  have hkey := find?_of_key hs.nodup hp
  unfold System.onFirst
  rw [show s.table.find? p = (s.findByIface iface).filter p from hkey]
  cases hfind : (s.findByIface iface).filter p with
  | none => rfl
  | some e =>
    rw [show (s.findByIface iface).filter p = s.table.find? p from hkey.symm] at hfind
    have hiface : e.lease.iface = iface := hp e (List.find?_some hfind)
    have hview : (s.side iface).view e = (s.view e).alone := by
      subst hiface
      rfl
    have hc : (f (s.view e)).lease.iface = iface := (hf.iface _).trans hiface
    dsimp only
    rw [hview, hf.alone]
    simp only [System.side, Side.of, System.leave, Client.alone, Client.among, hc,
      Function.update_self, Client.entry, Side.mk.injEq, true_and]
    exact find?_modifyFirst_same (k := fun e : TableEntry => e.lease.iface) hp hc hs.nodup hfind

theorem System.onFirst_other {j : Iface} (hj : j ≠ iface) :
    Side.Step j (s.side j) none ((s.onFirst p f).side j) := by
  unfold System.onFirst
  cases hfind : s.table.find? p with
  | none => exact ⟨s.routes.next, Nat.le_refl _, rfl⟩
  | some e =>
    have hiface : e.lease.iface = iface := hp e (List.find?_some hfind)
    have hchange := hf.change (s.view e)
    have hc : (f (s.view e)).lease.iface = iface := (hf.iface _).trans hiface
    refine ⟨(f (s.view e)).routes.next, hchange.next_le, ?_⟩
    have hentries : ((f (s.view e)).routes.on j).entries = (s.routes.on j).entries :=
      hchange.on_other (hs.owns e (List.mem_of_find?_eq_some hfind)) (by rw [← hiface] at hj; exact hj)
    simp only [System.side, System.leave, hc, Function.update_of_ne hj, Side.mk.injEq, true_and]
    refine ⟨?_, find?_modifyFirst_other (k := fun e : TableEntry => e.lease.iface) hp hc hj⟩
    show Routes.mk _ _ = Routes.mk _ _
    rw [← hentries]
    rfl

end

/-! ## 5. Teardown, deinitialisation and start -/

theorem System.findByIface_iface {s : System} {iface : Iface} {e : TableEntry}
    (h : s.findByIface iface = some e) : e.lease.iface = iface :=
  beq_iff_eq.mp (List.find?_some (p := TableEntry.isOn iface) h)

section
variable {s : System} (hs : Separate s) (env : Env) (how : Teardown) (iface : Iface)
include hs

theorem Separate.teardown : Separate (s.teardown env how iface) := by
  unfold System.teardown
  cases hfind : s.findByIface iface with
  | none => exact hs
  | some e =>
    have hchange := (Local.teardown env how).change (s.view e)
    refine ⟨hs.nodup.sublist (List.eraseP_sublist.map _), hchange.sound hs.routes, fun e' he' => ?_⟩
    exact hchange.owns_old (hs.owns e' (List.mem_of_mem_eraseP he'))

theorem System.teardown_side : (s.teardown env how iface).side iface =
    (s.side iface).step iface (.teardown env how) := by
  unfold System.teardown
  simp only [Side.step, show (s.side iface).lease = s.findByIface iface from rfl]
  cases hfind : s.findByIface iface with
  | none => rfl
  | some e =>
    have hiface : e.lease.iface = iface := System.findByIface_iface hfind
    have hview : (s.side iface).view e = (s.view e).alone := by
      subst hiface
      rfl
    have hc : (teardownSection env how (s.view e)).lease.iface = iface :=
      (teardownSection_iface env how _).trans hiface
    dsimp only
    rw [hview, teardownSection_alone]
    simp only [System.side, Side.of, System.leave, Client.alone, Client.among, hc,
      Function.update_self, Side.mk.injEq, true_and]
    exact find?_eraseP_same (k := fun e : TableEntry => e.lease.iface) hs.nodup

theorem System.teardown_other {j : Iface} (hj : j ≠ iface) :
    Side.Step j (s.side j) none ((s.teardown env how iface).side j) := by
  unfold System.teardown
  cases hfind : s.findByIface iface with
  | none => exact ⟨s.routes.next, Nat.le_refl _, rfl⟩
  | some e =>
    have hiface : e.lease.iface = iface := System.findByIface_iface hfind
    have hchange := (Local.teardown env how).change (s.view e)
    have hc : (teardownSection env how (s.view e)).lease.iface = iface :=
      (teardownSection_iface env how _).trans hiface
    refine ⟨(teardownSection env how (s.view e)).routes.next, hchange.next_le, ?_⟩
    have hentries : ((teardownSection env how (s.view e)).routes.on j).entries =
        (s.routes.on j).entries :=
      hchange.on_other (hs.owns e (List.mem_of_find?_eq_some hfind)) (by rw [← hiface] at hj; exact hj)
    simp only [System.side, System.leave, hc, Function.update_of_ne hj, Side.mk.injEq, true_and]
    refine ⟨?_, find?_eraseP_other (k := fun e : TableEntry => e.lease.iface) hj⟩
    show Routes.mk _ _ = Routes.mk _ _
    rw [← hentries]
    rfl

end

theorem stopSection_next (env : Env) (c : Client) :
    (stopSection env c).routes.next = c.routes.next := by
  unfold stopSection lifecycleUnapply
  split_ifs
  · show (removeDefaultRoute c).routes.next = c.routes.next
    unfold removeDefaultRoute
    split <;> rfl
  · rfl

-- What the loop of `dmdhcp_lease_table_deinit` over `l` leaves of each interface.
theorem unapply_side (envs : Iface → Env) {l : List TableEntry}
    (hnodup : (l.map fun e => e.lease.iface).Nodup) {s : System} (hsound : s.routes.Sound)
    (howns : ∀ e ∈ l, s.routes.Owns e.lease.iface e.lease.defaultRoute) (j : Iface) :
    (l.foldl (System.unapply envs) s).routes.Sound ∧
    match l.find? (TableEntry.isOn j) with
    | none => (l.foldl (System.unapply envs) s).netifs j = s.netifs j ∧
        (l.foldl (System.unapply envs) s).routes.on j = s.routes.on j
    | some e =>
      let c := stopSection (envs j) ⟨e.lease, s.netifs j, s.routes.on j, e.log⟩
      (l.foldl (System.unapply envs) s).netifs j = c.netif ∧
        (l.foldl (System.unapply envs) s).routes.on j = c.routes := by
  induction l generalizing s with
  | nil => exact ⟨hsound, rfl, rfl⟩
  | cons e es ih =>
    obtain ⟨hnot, hrest⟩ := List.nodup_cons.mp hnodup
    have hmine := howns e List.mem_cons_self
    have hchange := (Local.teardown (envs e.lease.iface) .stop).change (s.view e)
    have hiface : (stopSection (envs e.lease.iface) (s.view e)).lease.iface = e.lease.iface :=
      teardownSection_iface (envs e.lease.iface) .stop _
    obtain ⟨hsound', hloop⟩ := ih hrest (s := s.unapply envs e) (hchange.sound hsound)
      fun e' he' => hchange.owns_old (howns e' (List.mem_cons_of_mem e he'))
    refine ⟨hsound', ?_⟩
    rw [List.foldl_cons]
    by_cases hj : e.lease.iface = j
    · -- The lease of this interface; none that follows is on it.
      subst hj
      have hnone : es.find? (TableEntry.isOn e.lease.iface) = none := by
        refine List.find?_eq_none.mpr fun d hd hkey => hnot ?_
        exact List.mem_map.mpr ⟨d, hd, beq_iff_eq.mp hkey⟩
      rw [hnone] at hloop
      rw [List.find?_cons_of_pos (p := TableEntry.isOn e.lease.iface)
        (show (e.lease.iface == e.lease.iface) = true from beq_self_eq_true _)]
      have halone := stopSection_alone (envs e.lease.iface) (s.view e)
      dsimp only
      rw [hloop.1, hloop.2, show (⟨e.lease, s.netifs e.lease.iface, s.routes.on e.lease.iface,
        e.log⟩ : Client) = (s.view e).alone from rfl, halone]
      simp only [System.unapply, System.leave, hiface, Function.update_self, Client.alone,
        Client.among, and_self]
    · have hother : ¬TableEntry.isOn j e = true := fun h => hj (beq_iff_eq.mp h)
      have hnetif : (s.unapply envs e).netifs j = s.netifs j := by
        simp only [System.unapply, System.leave, hiface]
        exact Function.update_of_ne (Ne.symm hj) _ _
      have hroutes : (s.unapply envs e).routes.on j = s.routes.on j := by
        have hentries := hchange.on_other hmine (Ne.symm hj)
        have hnext := stopSection_next (envs e.lease.iface) (s.view e)
        show Routes.mk _ _ = Routes.mk _ _
        exact congrArg₂ Routes.mk hentries hnext
      rw [List.find?_cons_of_neg hother, ← hnetif, ← hroutes]
      exact hloop

section
variable {s : System} (hs : Separate s)
include hs

theorem Separate.deinit (envs : Iface → Env) : Separate (s.deinit envs) where
  nodup := .nil
  routes := (unapply_side envs hs.nodup hs.routes hs.owns 0).1
  owns _ he := absurd he List.not_mem_nil

theorem System.deinit_side (envs : Iface → Env) (iface : Iface) :
    (s.deinit envs).side iface = (s.side iface).step iface (.teardown (envs iface) .stop) := by
  have hloop := (unapply_side envs hs.nodup hs.routes hs.owns iface).2
  simp only [Side.step, show (s.side iface).lease = s.table.find? (TableEntry.isOn iface) from rfl]
  cases hfind : s.table.find? (TableEntry.isOn iface) with
  | none =>
    rw [hfind] at hloop
    show Side.mk _ _ _ = Side.mk _ _ _
    rw [show s.findByIface iface = none from hfind]
    exact congrArg₂ (Side.mk · · none) hloop.1 hloop.2
  | some e =>
    rw [hfind] at hloop
    exact congrArg₂ (Side.mk · · none) hloop.1 hloop.2

end

section
variable {s : System} (env : Env) (iface : Iface) (callbacks : Callbacks) (userData : Nat)
  (options : Option StartOptions) (allocated copied : Bool)

-- A new lease has no route, and its start looks at none.
theorem System.create_start (hostname : Option (List UInt8)) :
    (startSection env options (s.create iface callbacks userData hostname)).routes = s.routes ∧
    (startSection env options (s.create iface callbacks userData hostname)).lease.defaultRoute =
      none ∧
    (startSection env options (s.create iface callbacks userData hostname)).lease.iface = iface :=
  have hchange := startSection_change env options (s.create iface callbacks userData hostname)
  ⟨hchange.1, hchange.2, startSection_iface env options _⟩

theorem System.start_side :
    (s.start env iface callbacks userData options allocated copied).side iface =
      (s.side iface).step iface (.start env callbacks userData options allocated copied) := by
  unfold System.start
  simp only [Side.step, show (s.side iface).lease = s.findByIface iface from rfl]
  generalize (if copied = true then options.bind StartOptions.hostname else none) = hostname
  by_cases h : allocated = true ∧ s.findByIface iface = none
  · rw [if_pos h, if_pos h]
    have hview : ({ Client.create iface (s.side iface).netif callbacks userData hostname with
        routes := (s.side iface).routes } : Client) =
          (s.create iface callbacks userData hostname).alone := rfl
    rw [hview, startSection_alone]
    obtain ⟨-, -, hiface⟩ := s.create_start env iface callbacks userData options hostname
    generalize startSection env options (s.create iface callbacks userData hostname) = c at *
    simp only [System.side, Side.of, System.leave, Client.alone, Client.among, hiface,
      Function.update_self, Side.mk.injEq, true_and]
    show (s.table ++ [c.entry]).find? (TableEntry.isOn iface) = some c.entry
    have hmine : TableEntry.isOn iface c.entry = true := beq_iff_eq.mpr hiface
    rw [List.find?_append, show s.table.find? (TableEntry.isOn iface) = none from h.2,
      Option.none_or, List.find?_cons_of_pos hmine]
  · rw [if_neg h, if_neg h]

theorem System.start_other {j : Iface} (hj : j ≠ iface) : Side.Step j (s.side j) none
    ((s.start env iface callbacks userData options allocated copied).side j) := by
  unfold System.start
  generalize (if copied = true then options.bind StartOptions.hostname else none) = hostname
  obtain ⟨hroutes, -, hiface⟩ := s.create_start env iface callbacks userData options hostname
  generalize startSection env options (s.create iface callbacks userData hostname) = c at *
  refine ⟨s.routes.next, Nat.le_refl _, ?_⟩
  by_cases h : allocated = true ∧ s.findByIface iface = none
  · rw [if_pos h]
    simp only [System.side, System.leave, hroutes, hiface, Function.update_of_ne hj, Side.mk.injEq,
      true_and]
    refine ⟨rfl, ?_⟩
    show (s.table ++ [c.entry]).find? (TableEntry.isOn j) = s.table.find? (TableEntry.isOn j)
    have hother : ¬TableEntry.isOn j c.entry = true :=
      fun hin => hj ((beq_iff_eq.mp hin).symm.trans hiface)
    rw [List.find?_append, List.find?_cons_of_neg hother, List.find?_nil, Option.or_none]
  · rw [if_neg h]
    rfl

theorem Separate.start (hs : Separate s) :
    Separate (s.start env iface callbacks userData options allocated copied) := by
  unfold System.start
  generalize (if copied = true then options.bind StartOptions.hostname else none) = hostname
  obtain ⟨hroutes, hstored, hiface⟩ :=
    s.create_start env iface callbacks userData options hostname
  generalize startSection env options (s.create iface callbacks userData hostname) = c at *
  refine iteInduction (fun h => ⟨?_, ?_, fun e he => ?_⟩) fun _ => hs
  · show ((s.table ++ [c.entry]).map fun e => e.lease.iface).Nodup
    rw [List.map_append]
    refine List.nodup_append.mpr ⟨hs.nodup, List.nodup_singleton _, ?_⟩
    intro i hi i' hi' heq
    obtain ⟨e, he, rfl⟩ := List.mem_map.mp hi
    rw [List.map_singleton, List.mem_singleton] at hi'
    have hfree := List.find?_eq_none.mp h.2 e he
    exact hfree (beq_iff_eq.mpr (heq.trans (hi'.trans hiface)))
  · show c.routes.Sound
    rw [hroutes]
    exact hs.routes
  · show c.routes.Owns _ _
    rw [hroutes]
    rcases List.mem_append.mp he with he | he
    · exact hs.owns e he
    · obtain rfl := List.mem_singleton.mp he
      intro handle hin
      rw [show c.entry.lease.defaultRoute = none from hstored] at hin
      cases hin

end

/-! ## 6. The simulation -/

-- The lookup has compared the xid already, so the test in `receive` passes.
theorem System.datagram_eq {s : System} {env : Env} {iface : Iface} {payload : List UInt8}
    {r : Reply} (hr : parseReply payload = some r) :
    s.onFirst (TableEntry.matchesXid iface r.msg.xid) (handleReply env r) =
      s.onFirst (TableEntry.matchesXid iface r.msg.xid)
        fun c => c.step (env, .datagram iface payload) := by
  unfold System.onFirst
  cases hfind : s.table.find? (TableEntry.matchesXid iface r.msg.xid) with
  | none => rfl
  | some e =>
    have hmatch : (s.view e).matchesXid iface r.msg.xid = true :=
      List.find?_some (p := TableEntry.matchesXid iface r.msg.xid) hfind
    have hstep : (s.view e).step (env, .datagram iface payload) = handleReply env r (s.view e) := by
      show (s.view e).receive env iface payload = _
      simp only [Client.receive, hr, if_pos hmatch]
    simp only [hstep]

-- An operation that does nothing to the lease does nothing to the side.
theorem Side.operate_idle {s : Side} {iface : Iface} {o : Operation}
    (h : ∀ e, s.lease = some e → (s.view e).operate o = s.view e) :
    s.step iface (.operate o) = s := by
  rw [Side.step]
  cases hlease : s.lease with
  | none => rfl
  | some e =>
    dsimp only
    rw [h e hlease, Side.of, Client.entry]
    show Side.mk s.netif s.routes (some e) = s
    rw [← hlease]

theorem TableEntry.isOn_iface {iface : Iface} (e : TableEntry) (h : e.isOn iface = true) :
    e.lease.iface = iface := beq_iff_eq.mp h

theorem TableEntry.matchesXid_iface {iface : Iface} {xid : UInt32} (e : TableEntry)
    (h : e.matchesXid iface xid = true) : e.lease.iface = iface :=
  beq_iff_eq.mp (Bool.and_eq_true_iff.mp h).1

section
variable {s : System} (hs : Separate s) (env : Env) (ev : SystemEvent)
include hs

theorem Separate.step : Separate (s.step (env, ev)) := by
  cases ev with
  | start iface callbacks userData options allocated copied =>
    exact Separate.start env iface callbacks userData options allocated copied hs
  | teardown how iface => exact hs.teardown env how iface
  | setCallbacks iface callbacks userData =>
    exact hs.onFirst TableEntry.isOn_iface (Local.operate (.setCallbacks callbacks userData))
  | renew iface => exact hs.onFirst TableEntry.isOn_iface (Local.step env .renew)
  | datagram iface payload =>
    simp only [System.step]
    cases hr : parseReply payload with
    | none => exact hs
    | some r =>
      dsimp only
      rw [System.datagram_eq hr]
      exact hs.onFirst TableEntry.matchesXid_iface (Local.step env (.datagram iface payload))
  | retransmit iface stale =>
    exact hs.onFirst TableEntry.isOn_iface (Local.step env (.retransmit stale))
  | leaseTimer iface stale =>
    exact hs.onFirst TableEntry.isOn_iface (Local.step env (.leaseTimer stale))
  | deinit envs => exact hs.deinit envs

-- An operation on the lease of an interface, seen from an interface.
theorem System.on_side (j iface : Iface) (o : Operation) : Side.Step iface (s.side iface)
    (if j = iface then some (.operate o) else none)
    ((s.onFirst (TableEntry.isOn j) fun c => c.operate o).side iface) := by
  by_cases hj : j = iface
  · subst hj
    rw [if_pos rfl]
    show System.side _ _ = Side.step _ _ _
    rw [System.onFirst_side hs TableEntry.isOn_iface (Local.operate o), Side.step]
    show _ = match s.findByIface j with | none => _ | some e => _
    cases hfind : s.findByIface j with
    | none => rfl
    | some e =>
      have hmine : e.isOn j = true := beq_iff_eq.mpr (System.findByIface_iface hfind)
      rw [Option.filter_some, if_pos hmine]
  · rw [if_neg hj]
    exact System.onFirst_other hs TableEntry.isOn_iface (Local.operate o) (Ne.symm hj)

theorem System.step_side (iface : Iface) :
    Side.Step iface (s.side iface) (ev.at env iface) ((s.step (env, ev)).side iface) := by
  cases ev with
  | start j callbacks userData options allocated copied =>
    simp only [SystemEvent.at]
    by_cases hj : j = iface
    · subst hj
      rw [if_pos rfl]
      exact System.start_side env j callbacks userData options allocated copied
    · rw [if_neg hj]
      exact System.start_other env j callbacks userData options allocated copied (Ne.symm hj)
  | teardown how j =>
    simp only [SystemEvent.at]
    by_cases hj : j = iface
    · subst hj
      rw [if_pos rfl]
      exact System.teardown_side hs env how j
    · rw [if_neg hj]
      exact System.teardown_other hs env how j (Ne.symm hj)
  | setCallbacks j callbacks userData =>
    exact System.on_side hs j iface (.setCallbacks callbacks userData)
  | renew j => exact System.on_side hs j iface (.event env .renew)
  | retransmit j stale => exact System.on_side hs j iface (.event env (.retransmit stale))
  | leaseTimer j stale => exact System.on_side hs j iface (.event env (.leaseTimer stale))
  | deinit envs => exact System.deinit_side hs envs iface
  | datagram j payload =>
    simp only [SystemEvent.at, System.step]
    cases hr : parseReply payload with
    | none =>
      -- Nothing happens, on this interface as on every other.
      by_cases hj : j = iface
      · rw [if_pos hj]
        refine (Side.operate_idle fun e _ => ?_).symm
        show Client.receive env j payload _ = _
        simp only [Client.receive, hr]
      · rw [if_neg hj]
        exact ⟨s.routes.next, Nat.le_refl _, rfl⟩
    | some r =>
      dsimp only
      rw [System.datagram_eq hr]
      by_cases hj : j = iface
      · subst hj
        rw [if_pos rfl]
        show System.side _ _ = Side.step _ _ _
        rw [System.onFirst_side hs TableEntry.matchesXid_iface (Local.step env (.datagram j payload))]
        cases hfind : s.findByIface j with
        | none => rw [Side.step, show (s.side j).lease = none from hfind]; rfl
        | some e =>
          by_cases hmatch : e.matchesXid j r.msg.xid = true
          · rw [Option.filter_some, if_pos hmatch, Side.step,
              show (s.side j).lease = some e from hfind]
            rfl
          · rw [Option.filter_some, if_neg hmatch]
            refine (Side.operate_idle fun e' he' => ?_).symm
            obtain rfl := Option.some.inj (hfind.symm.trans he')
            show Client.receive env j payload _ = _
            simp only [Client.receive, hr]
            exact if_neg hmatch
      · rw [if_neg hj]
        exact System.onFirst_other hs TableEntry.matchesXid_iface
          (Local.step env (.datagram j payload)) (Ne.symm hj)

end

/-- **What an interface goes through is a run of its side.**  In every run of the module, over any
number of leases and interfaces: the events of an interface take its configuration, its routes and its
lease through the steps of that interface alone, and no other event changes any of them. -/
theorem system_projects (netifs : Iface → Netif) (events : List (Env × SystemEvent)) (s : System)
    (hrun : Lts.Run (Lts.ofTotal System.step) (System.initial netifs) events s) (iface : Iface) :
    Lts.Run (Side.Step iface) ⟨netifs iface, ⟨[], 0⟩, none⟩
      (events.map fun e => e.2.at e.1 iface) (s.side iface) := by
  refine Lts.Run.project (fun s : System => s.side iface) (I := Separate)
    (fun s e s' hs hstep => ?_) hrun (System.initial_separate netifs)
  obtain ⟨env, ev⟩ := e
  subst hstep
  exact ⟨hs.step env ev, System.step_side hs env ev iface⟩

/-- Two interfaces with one server's xid each; the first is torn down while the second holds. -/
def twoInterfaces : List (Env × SystemEvent) :=
  [(quietEnv 7, .start 1 ⟨true, true, true⟩ 0 none true true),
    (quietEnv 9, .start 2 ⟨true, true, true⟩ 5 none true true),
    (quietEnv 7, .datagram 1 (replyPayload .offer 7 ⟨10, 0, 0, 5⟩ (grantOptions ⟨10, 0, 0, 1⟩ 3600))),
    (quietEnv 9, .datagram 2 (replyPayload .offer 9 ⟨10, 0, 1, 6⟩ (grantOptions ⟨10, 0, 1, 1⟩ 3600))),
    (quietEnv 7, .retransmit 1 false), (quietEnv 9, .retransmit 2 false),
    (quietEnv 7, .datagram 1 (replyPayload .ack 7 ⟨10, 0, 0, 5⟩ (grantOptions ⟨10, 0, 0, 1⟩ 3600))),
    (quietEnv 9, .datagram 2 (replyPayload .ack 9 ⟨10, 0, 1, 6⟩ (grantOptions ⟨10, 0, 1, 1⟩ 3600))),
    (quietEnv 7, .retransmit 1 false), (quietEnv 9, .retransmit 2 false),
    (quietEnv 7, .teardown .stop 1)]

/-- The second interface ends bound, by a run in which nothing of the first is seen. -/
theorem two_interfaces_project :
    ∃ side : Side, Lts.Run (Side.Step 2) ⟨blankNetif, ⟨[], 0⟩, none⟩
        (twoInterfaces.map fun e => e.2.at e.1 2) side ∧
      side.lease.map (fun e => e.lease.state) = some .bound ∧ side.routes.entries.length = 1 := by
  have hrun := Lts.foldl_run System.step (System.initial fun _ => blankNetif) twoInterfaces
  have h : ((twoInterfaces.foldl System.step (System.initial fun _ => blankNetif)).side 2).lease.map
        (fun e => e.lease.state) = some .bound ∧
      ((twoInterfaces.foldl System.step (System.initial fun _ => blankNetif)).side
        2).routes.entries.length = 1 := by decide +kernel
  generalize twoInterfaces.foldl System.step (System.initial fun _ => blankNetif) = s at hrun h
  exact ⟨s.side 2, system_projects _ _ _ hrun 2, h⟩

end Dmdhcp
