import Dmdhcp.System

/-!
# Leases of different interfaces do not interfere

The code of a lease finds its route in the table of all interfaces by handle or by content.  Both
finds stay within the entries of its own interface, so that what one interface goes through is a run
of that interface alone, whatever the module does on the others.
-/

namespace Dmdhcp

/-! ## 1. The routes of one interface -/

/-- The entries of one interface. -/
def Routes.on (rs : Routes) (iface : Iface) : Routes :=
  { rs with entries := rs.entries.filter fun r => r.iface == iface }

/-- The client with other routes around it. -/
def Client.among (c : Client) (routes : Routes) : Client := { c with routes }

/-- The client with the entries of its own interface only. -/
def Client.alone (c : Client) : Client := c.among (c.routes.on c.lease.iface)

-- The routes of other interfaces are neither found nor returned, ...
theorem Routes.add_on (rs : Routes) (how : RouteAdd) (gateway : Addr) (iface : Iface) :
    (rs.on iface).add how gateway iface =
      ((rs.add how gateway iface).1, (rs.add how gateway iface).2.on iface) := by
  have hcreate : ((some rs.next, ⟨⟨rs.next, .v4 .zero, .v4 .zero, gateway, iface⟩ ::
        (rs.on iface).entries, rs.next + 1⟩) : Option RouteHandle × Routes) =
      (some rs.next, Routes.on ⟨⟨rs.next, .v4 .zero, .v4 .zero, gateway, iface⟩ :: rs.entries,
        rs.next + 1⟩ iface) := by
    simp [Routes.on]
  cases how with
  | fail => rfl
  | create => exact hcreate
  | reuse =>
    -- What is looked for has the interface of the lease.
    have hfind : ((rs.on iface).entries.find? fun r => r.destination == .v4 .zero &&
          r.netmask == .v4 .zero && r.gateway == gateway && r.iface == iface) =
        rs.entries.find? fun r => r.destination == .v4 .zero && r.netmask == .v4 .zero &&
          r.gateway == gateway && r.iface == iface := by
      rw [Routes.on, List.find?_filter]
      congr 1
      funext r
      cases r.iface == iface <;>
        simp only [Bool.and_true, Bool.and_false, decide_false, Bool.false_eq_true,
          true_and, false_and, Bool.decide_eq_true]
    simp only [Routes.add, hfind]
    split
    · rfl
    · exact hcreate

-- ... and removing commutes with looking at one interface.
theorem Routes.remove_on (rs : Routes) (handle : RouteHandle) (iface : Iface) :
    (rs.on iface).remove handle = (rs.remove handle).on iface := by
  simp only [Routes.on, Routes.remove, List.filter_filter, Bool.and_comm]

/-! ## 2. Code that does not look at the routes -/

section
variable (env : Env) (c : Client) (routes : Routes)

@[simp] theorem Client.among_lease : (c.among routes).lease = c.lease := rfl
@[simp] theorem Client.among_netif : (c.among routes).netif = c.netif := rfl
@[simp] theorem Client.among_routes : (c.among routes).routes = routes := rfl
@[simp] theorem Client.among_log : (c.among routes).log = c.log := rfl

@[simp] theorem Client.emit_among (e : Effect) :
    (c.among routes).emit e = (c.emit e).among routes := rfl

@[simp] theorem Client.update_among (f : Lease → Lease) :
    (c.among routes).update f = (c.update f).among routes := rfl

@[simp] theorem Client.armRetransmit_among (periodMs : UInt32) :
    (c.among routes).armRetransmit env periodMs = (c.armRetransmit env periodMs).among routes := rfl

@[simp] theorem Client.armLease_among (periodMs : UInt32) :
    (c.among routes).armLease env periodMs = (c.armLease env periodMs).among routes := rfl

@[simp] theorem sendMessage_among (msgType : MsgType)
    (ciaddr requestedIp serverIdOption : Option Addr) (dst : Addr) (viaIface : Bool) :
    sendMessage env msgType ciaddr requestedIp serverIdOption dst viaIface (c.among routes) =
      (sendMessage env msgType ciaddr requestedIp serverIdOption dst viaIface c).among routes := by
  unfold sendMessage
  split_ifs
  · rw [Client.among_lease, Client.among_netif]
    split <;> rfl
  · rfl

@[simp] theorem rearmBackoff_among :
    rearmBackoff env (c.among routes) = (rearmBackoff env c).among routes := rfl

@[simp] theorem outputStartDiscovery_among :
    outputStartDiscovery env (c.among routes) = (outputStartDiscovery env c).among routes := by
  simp [outputStartDiscovery, sendDiscover]

@[simp] theorem outputStartReboot_among :
    outputStartReboot env (c.among routes) = (outputStartReboot env c).among routes := by
  simp [outputStartReboot, sendRequestReboot, enterExchange, beginExchange]

@[simp] theorem outputStartRenew_among :
    outputStartRenew env (c.among routes) = (outputStartRenew env c).among routes := by
  simp [outputStartRenew, sendRequestRenew, enterExchange, beginExchange]

@[simp] theorem outputStartRebind_among :
    outputStartRebind env (c.among routes) = (outputStartRebind env c).among routes := by
  simp [outputStartRebind, sendRequestRebind, enterExchange, beginExchange]

@[simp] theorem requestOffered_among :
    requestOffered env (c.among routes) = (requestOffered env c).among routes := by
  simp [requestOffered, sendRequestSelecting]

@[simp] theorem handleConflict_among : handleConflict env (c.among routes) =
    ((handleConflict env c).1.among routes, (handleConflict env c).2) := by
  by_cases h : c.lease.declineRetryCount + 1 > maxDeclineRetries
  · rw [handleConflict_failed env c h, handleConflict_failed env (c.among routes) h, sendDecline,
      sendMessage_among]
    rfl
  · rw [handleConflict_declining env c h, handleConflict_declining env (c.among routes) h,
      sendDecline, sendMessage_among]
    rfl

@[simp] theorem resendRequest_among :
    resendRequest env (c.among routes) = (resendRequest env c).among routes := by
  by_cases hcount : c.lease.retransmitCount + 1 > maxRequestRetransmits
  · have hdiscover (c' : Client) (h : c'.lease = c.lease) : resendRequest env c' =
        outputStartDiscovery env (c'.update fun l =>
          { l with retransmitCount := l.retransmitCount + 1 }) :=
      if_pos (by rw [Client.update_lease, h]; exact hcount)
    rw [hdiscover c rfl, hdiscover (c.among routes) rfl, Client.update_among,
      outputStartDiscovery_among]
  · have hresend (c' : Client) (h : c'.lease = c.lease) : resendRequest env c' =
        rearmBackoff env (if c.lease.state = .requesting then
          sendRequestSelecting env (c'.update fun l =>
            { l with retransmitCount := l.retransmitCount + 1 })
        else
          sendRequestReboot env (c'.update fun l =>
            { l with retransmitCount := l.retransmitCount + 1 })) := by
      rw [← h]
      exact if_neg (by rw [Client.update_lease, h]; exact hcount)
    rw [hresend c rfl, hresend (c.among routes) rfl]
    simp only [Client.update_among, Client.among_lease, sendRequestSelecting, sendRequestReboot,
      sendMessage_among]
    split_ifs <;> rfl

@[simp] theorem setBroadcast_among :
    setBroadcast env (c.among routes) = (setBroadcast env c).among routes := by
  unfold setBroadcast
  rw [Client.among_lease]
  split_ifs <;> rfl

end

/-! ## 3. Code that does -/

section
variable (env : Env) (c : Client)

@[simp] theorem Client.alone_lease : c.alone.lease = c.lease := rfl

theorem installDefaultRoute_alone :
    installDefaultRoute env c.alone = (installDefaultRoute env c).alone := by
  unfold installDefaultRoute
  rw [Client.alone_lease]
  split_ifs
  · simp only [Client.alone, Client.among, Routes.add_on]
  · rfl

theorem setBroadcast_alone : setBroadcast env c.alone = (setBroadcast env c).alone := by
  rw [Client.alone, setBroadcast_among, Client.alone, setBroadcast_routes, setBroadcast_lease]

theorem lifecycleApply_alone : lifecycleApply env c.alone = (lifecycleApply env c).alone := by
  unfold lifecycleApply
  split_ifs
  · -- Up to the broadcast address no route is touched.
    set c₁ : Client := { c.emit (.applyIpAddress c.lease.offeredIp) with
      netif := { c.netif with netmask := c.lease.netmask, ipAddress := c.lease.offeredIp } }
    have hroute : installDefaultRoute env (setBroadcast env c₁.alone) =
        (installDefaultRoute env (setBroadcast env c₁)).alone := by
      rw [setBroadcast_alone, installDefaultRoute_alone]
    exact congrArg (Client.update · fun l => { l with ifaceConfigured := true }) hroute
  · rfl
  · rfl

theorem commitLease_alone : commitLease env c.alone = (commitLease env c).alone := by
  unfold commitLease
  rw [lifecycleApply_alone]
  rfl

theorem removeDefaultRoute_alone : removeDefaultRoute c.alone = (removeDefaultRoute c).alone := by
  unfold removeDefaultRoute
  rw [Client.alone_lease]
  split
  · show Client.mk _ _ ((c.routes.on c.lease.iface).remove _) _ = _
    rw [Routes.remove_on]
    rfl
  · rfl

theorem lifecycleUnapply_alone : lifecycleUnapply env c.alone = (lifecycleUnapply env c).alone := by
  unfold lifecycleUnapply
  rw [Client.alone_lease, removeDefaultRoute_alone]
  split_ifs <;> rfl

theorem lostUnapply_alone : lostUnapply env c.alone = (lostUnapply env c).alone := by
  unfold lostUnapply
  rw [lifecycleUnapply_alone]
  rfl

-- Code that leaves the routes and the interface of the lease as they are.
theorem alone_of_among {f : Client → Client} (hamong : ∀ c routes, f (c.among routes) =
    (f c).among routes) (hroutes : (f c).routes = c.routes)
    (hiface : (f c).lease.iface = c.lease.iface) : f c.alone = (f c).alone := by
  rw [Client.alone, hamong, Client.alone, hroutes, hiface]

theorem outputStartDiscovery_alone :
    outputStartDiscovery env c.alone = (outputStartDiscovery env c).alone :=
  alone_of_among c (outputStartDiscovery_among env) (outputStartDiscovery_routes env c)
    (by rw [outputStartDiscovery_lease])

theorem outputStartReboot_alone :
    outputStartReboot env c.alone = (outputStartReboot env c).alone :=
  alone_of_among c (outputStartReboot_among env) (outputStartReboot_routes env c)
    (by rw [outputStartReboot_lease]; rfl)

theorem outputStartRenew_alone : outputStartRenew env c.alone = (outputStartRenew env c).alone :=
  alone_of_among c (outputStartRenew_among env) (outputStartRenew_routes env c)
    (by rw [outputStartRenew_lease]; rfl)

theorem outputStartRebind_alone :
    outputStartRebind env c.alone = (outputStartRebind env c).alone :=
  alone_of_among c (outputStartRebind_among env) (outputStartRebind_routes env c)
    (by rw [outputStartRebind_lease]; rfl)

theorem sender_alone (s : Sender) : s.send env c.alone = (s.send env c).alone :=
  alone_of_among (f := s.send env) c (fun _ _ => sendMessage_among ..) (sendMessage_routes ..)
    (by rw [Sender.send, sendMessage_lease])

theorem rearmBackoff_alone : rearmBackoff env c.alone = (rearmBackoff env c).alone := rfl

theorem resendRequest_alone (h : c.lease.state = .requesting ∨ c.lease.state = .rebooting) :
    resendRequest env c.alone = (resendRequest env c).alone :=
  have hframe := (resendRequest_move env c h).frame
  alone_of_among c (resendRequest_among env) hframe.routes hframe.iface

theorem runConflictProbe_alone : runConflictProbe env c.alone =
    ((runConflictProbe env c).1.alone, (runConflictProbe env c).2) := by
  unfold runConflictProbe
  set c₁ := c.emit (.probe c.lease.offeredIp env.arpReply)
  show (if env.arpReply then handleConflict env c₁.alone
    else if c.lease.state = .checkingOffer then (requestOffered env c₁.alone, .done)
    else (commitLease env c₁.alone, .onBound false) : Client × After) = _
  split_ifs with harp hs
  · obtain ⟨state, timer, -, hl⟩ := handleConflict_lease env c₁
    rw [Client.alone, handleConflict_among, Client.alone, handleConflict_routes, hl]
  · have hrequest : requestOffered env c₁.alone = (requestOffered env c₁).alone :=
      alone_of_among c₁ (requestOffered_among env)
        (by simp [requestOffered, sendRequestSelecting, Client.armRetransmit])
        (by rw [requestOffered_lease])
    have hs₁ : c₁.lease.state = .checkingOffer := hs
    simp only [hrequest, if_pos hs₁]
  · have hs₁ : c₁.lease.state ≠ .checkingOffer := hs
    simp only [commitLease_alone, if_neg hs₁]

theorem callOnBound_alone (isRenewal : Bool) :
    callOnBound isRenewal c.alone = (callOnBound isRenewal c).alone := by
  unfold callOnBound
  rw [Client.alone_lease]
  split_ifs <;> rfl

theorem callOnExpiredOrLost_alone :
    callOnExpiredOrLost c.alone = (callOnExpiredOrLost c).alone := by
  unfold callOnExpiredOrLost
  rw [Client.alone_lease]
  split_ifs <;> rfl

theorem callOnError_alone (error : Errno) : callOnError error c.alone = (callOnError error c).alone := by
  unfold callOnError
  rw [Client.alone_lease]
  split_ifs <;> rfl

theorem After.finish_alone (after : After) : after.finish env c.alone = (after.finish env c).alone := by
  cases after with
  | done => rfl
  | onBound isRenewal => exact callOnBound_alone c isRenewal
  | onError error => exact callOnError_alone c error
  | lost =>
    show lostRestart env (callOnExpiredOrLost (lostUnapply env c.alone)) = _
    rw [lostUnapply_alone, callOnExpiredOrLost_alone, lostRestart, outputStartDiscovery_alone]
    rfl

/-! ## 4. Operations -/

theorem datagramSection_alone (r : Reply) (msgType : UInt8) :
    datagramSection env r msgType c.alone =
      ((datagramSection env r msgType c).1.alone, (datagramSection env r msgType c).2) := by
  unfold datagramSection
  rw [Client.alone_lease]
  dsimp only
  split_ifs
  · rfl
  · rfl
  · rw [outputStartDiscovery_alone]
  · exact congrArg (·, After.onBound true)
      (commitLease_alone env (c.update (populateLeaseFromOptions env r.msg r.options)))
  · rfl
  · rfl

theorem retransmitTimerSection_alone : retransmitTimerSection env c.alone =
    ((retransmitTimerSection env c).1.alone, (retransmitTimerSection env c).2) := by
  unfold retransmitTimerSection
  rw [Client.alone_lease]
  cases hs : c.lease.state with
  | selecting =>
    simp only [sendDiscover_eq, sender_alone, rearmBackoff_alone]
  | renewing =>
    simp only [sendRequestRenew_eq, sender_alone, rearmBackoff_alone]
  | rebinding =>
    simp only [sendRequestRebind_eq, sender_alone, rearmBackoff_alone]
  | requesting => simp only [resendRequest_alone env c (.inl hs)]
  | rebooting => simp only [resendRequest_alone env c (.inr hs)]
  | checkingOffer => exact runConflictProbe_alone env c
  | checkingAck => exact runConflictProbe_alone env c
  | declining => simp only [outputStartDiscovery_alone]
  | init => rfl
  | initReboot => rfl
  | bound => rfl
  | failed => rfl

theorem leaseTimerSection_alone : leaseTimerSection env c.alone =
    ((leaseTimerSection env c).1.alone, (leaseTimerSection env c).2) := by
  unfold leaseTimerSection
  rw [Client.alone_lease, outputStartRenew_alone, outputStartRebind_alone]
  split_ifs <;> rfl

theorem renew_alone : c.alone.renew env = (c.renew env).alone := by
  unfold Client.renew
  rw [Client.alone_lease, outputStartRenew_alone]
  split_ifs <;> rfl

theorem before_alone (ev : Event) : c.alone.before ev = (c.before ev).alone := by
  cases ev with
  | datagram iface payload => rfl
  | retransmit stale => cases stale <;> rfl
  | leaseTimer stale => cases stale <;> rfl
  | renew => rfl

theorem delivered_alone (ev : Event) : c.alone.delivered ev = c.delivered ev := rfl

theorem Client.step_alone (ev : Event) : c.alone.step (env, ev) = (c.step (env, ev)).alone := by
  rw [Client.step_eq, Client.step_eq]
  cases ev with
  | datagram iface payload =>
    simp only [Client.eventSection, delivered_alone]
    cases c.delivered (.datagram iface payload) with
    | none => rfl
    | some d =>
      dsimp only
      rw [datagramSection_alone, After.finish_alone]
  | retransmit stale =>
    simp only [Client.eventSection, before_alone, retransmitTimerSection_alone,
      After.finish_alone]
  | leaseTimer stale =>
    simp only [Client.eventSection, before_alone, leaseTimerSection_alone, After.finish_alone]
  | renew =>
    simp only [Client.eventSection, renew_alone]
    rfl

theorem stopSection_alone : stopSection env c.alone = (stopSection env c).alone := by
  unfold stopSection
  rw [Client.alone_lease, lifecycleUnapply_alone]
  split_ifs <;> rfl

theorem releaseSection_alone : releaseSection env c.alone = (releaseSection env c).alone := by
  unfold releaseSection
  rw [Client.alone_lease]
  dsimp only
  split_ifs
  · simp only [outputSendRelease_eq, sender_alone, stopSection_alone]
  · exact stopSection_alone env c

theorem teardownSection_alone (how : Teardown) :
    teardownSection env how c.alone = (teardownSection env how c).alone := by
  cases how with
  | stop => exact stopSection_alone env c
  | release => exact releaseSection_alone env c

theorem startSection_alone (options : Option StartOptions) :
    startSection env options c.alone = (startSection env options c).alone := by
  have hseed (a : Addr) : (c.alone.update fun l => { l with offeredIp := a }) =
      (c.update fun l => { l with offeredIp := a }).alone := rfl
  unfold startSection
  split
  · rw [hseed, outputStartReboot_alone]
  · rw [outputStartDiscovery_alone]

end

/-! ## 5. What an operation does to the routes -/

/-- The routes and the stored handle of a lease on `iface`, before and after. -/
inductive RouteChange (iface : Iface) (rs : Routes) (stored : Option RouteHandle) :
    Routes → Option RouteHandle → Prop
  | keep : RouteChange iface rs stored rs stored
  | forget : RouteChange iface rs stored rs none
  | add (how : RouteAdd) (gateway : Addr) :
      RouteChange iface rs stored (rs.add how gateway iface).2 (rs.add how gateway iface).1
  | remove (handle : RouteHandle) (h : stored = some handle) :
      RouteChange iface rs stored (rs.remove handle) none

/-- Handles in use were handed out, and a handle belongs to one interface. -/
structure Routes.Sound (rs : Routes) : Prop where
  used : ∀ r ∈ rs.entries, r.handle < rs.next
  iface : ∀ r ∈ rs.entries, ∀ r' ∈ rs.entries, r.handle = r'.handle → r.iface = r'.iface

/-- A stored handle names no route of another interface, now or later. -/
def Routes.Owns (rs : Routes) (iface : Iface) (stored : Option RouteHandle) : Prop :=
  ∀ handle ∈ stored, handle < rs.next ∧ ∀ r ∈ rs.entries, r.handle = handle → r.iface = iface

-- Asking for a route ends in one of three ways.
theorem Routes.add_cases (rs : Routes) (how : RouteAdd) (gateway : Addr) (iface : Iface) :
    rs.add how gateway iface = (none, rs) ∨
    (∃ r ∈ rs.entries, r.iface = iface ∧ rs.add how gateway iface = (some r.handle, rs)) ∨
    rs.add how gateway iface = (some rs.next,
      ⟨⟨rs.next, .v4 .zero, .v4 .zero, gateway, iface⟩ :: rs.entries, rs.next + 1⟩) := by
  cases how with
  | fail => exact .inl rfl
  | create => exact .inr (.inr rfl)
  | reuse =>
    simp only [Routes.add]
    split
    next r hr =>
      refine .inr (.inl ⟨r, List.mem_of_find?_eq_some hr, ?_, rfl⟩)
      have hmatch := List.find?_some hr
      simp only [Bool.and_eq_true, beq_iff_eq] at hmatch
      exact hmatch.2
    next => exact .inr (.inr rfl)

section
variable {iface : Iface} {rs rs' : Routes} {stored stored' : Option RouteHandle}
  (h : RouteChange iface rs stored rs' stored')
include h

theorem RouteChange.next_le : rs.next ≤ rs'.next := by
  cases h with
  | keep => exact Nat.le_refl _
  | forget => exact Nat.le_refl _
  | remove handle hstored => exact Nat.le_refl _
  | add how gateway =>
    rcases rs.add_cases how gateway iface with heq | ⟨r, -, -, heq⟩ | heq <;> rw [heq]
    exact Nat.le_succ _

-- An entry is old, or carries the next handle and the interface of the lease.
theorem RouteChange.entries (r : Route) (hr : r ∈ rs'.entries) :
    r ∈ rs.entries ∨ r.iface = iface ∧ r.handle = rs.next ∧ rs'.next = rs.next + 1 := by
  cases h with
  | keep => exact .inl hr
  | forget => exact .inl hr
  | remove handle hstored => exact .inl (List.mem_of_mem_filter hr)
  | add how gateway =>
    rcases rs.add_cases how gateway iface with heq | ⟨r, -, -, heq⟩ | heq <;> rw [heq] at hr ⊢
    · exact .inl hr
    · exact .inl hr
    · rcases List.mem_cons.mp hr with rfl | hr
      · exact .inr ⟨rfl, rfl, rfl⟩
      · exact .inl hr

-- A handle that was handed out before keeps its meaning, whoever stores it.
theorem RouteChange.owns_old {iface' : Iface} {other : Option RouteHandle}
    (howns : rs.Owns iface' other) : rs'.Owns iface' other := by
  intro handle hin
  obtain ⟨hlt, hmine⟩ := howns handle hin
  refine ⟨Nat.lt_of_lt_of_le hlt h.next_le, fun r hr heq => ?_⟩
  rcases h.entries r hr with hold | ⟨-, hhandle, -⟩
  · exact hmine r hold heq
  · exact absurd (heq.symm.trans hhandle) (Nat.ne_of_lt hlt)

-- The entries of the other interfaces are not touched.
theorem RouteChange.on_other (howns : rs.Owns iface stored) {j : Iface} (hj : j ≠ iface) :
    (rs'.on j).entries = (rs.on j).entries := by
  cases h with
  | keep => rfl
  | forget => rfl
  | remove handle hstored =>
    subst hstored
    simp only [Routes.on, Routes.remove, List.filter_filter]
    refine List.filter_congr fun r hr => ?_
    by_cases hsame : r.handle = handle
    · have hiface := (howns handle rfl).2 r hr hsame
      simp [hiface, Ne.symm hj]
    · simp [hsame]
  | add how gateway =>
    rcases rs.add_cases how gateway iface with heq | ⟨r, -, -, heq⟩ | heq <;> rw [heq]
    exact List.filter_cons_of_neg (p := fun r : Route => r.iface == j)
      fun hin => hj (beq_iff_eq.mp hin).symm

variable (hsound : rs.Sound)
include hsound

theorem RouteChange.sound : rs'.Sound := by
  refine ⟨fun r hr => ?_, fun r hr r' hr' heq => ?_⟩
  · rcases h.entries r hr with hold | ⟨-, hhandle, hnext⟩
    · exact Nat.lt_of_lt_of_le (hsound.used r hold) h.next_le
    · rw [hhandle, hnext]
      exact Nat.lt_succ_self _
  · rcases h.entries r hr with hold | ⟨hiface, hhandle, -⟩ <;>
      rcases h.entries r' hr' with hold' | ⟨hiface', hhandle', -⟩
    · exact hsound.iface r hold r' hold' heq
    -- A new handle is above every old one.
    · exact absurd (heq.trans hhandle') (Nat.ne_of_lt (hsound.used r hold))
    · exact absurd (heq.symm.trans hhandle) (Nat.ne_of_lt (hsound.used r' hold'))
    · rw [hiface, hiface']

theorem RouteChange.owns (howns : rs.Owns iface stored) : rs'.Owns iface stored' := by
  have hchange := h
  cases h with
  | keep => exact howns
  | forget => exact fun handle hin => by cases hin
  | remove handle hstored => exact fun handle hin => by cases hin
  | add how gateway =>
    have hentries := hchange.entries
    intro handle hin
    rcases rs.add_cases how gateway iface with heq | ⟨r, hr, hiface, heq⟩ | heq <;>
      rw [heq] at hin hentries ⊢
    · cases hin
    · obtain rfl := Option.some.inj hin
      exact ⟨hsound.used r hr, fun r' hr' hsame => (hsound.iface r' hr' r hr hsame).trans hiface⟩
    · obtain rfl := Option.some.inj hin
      refine ⟨Nat.lt_succ_self _, fun r hr hsame => ?_⟩
      rcases hentries r hr with hold | ⟨hiface, -⟩
      · exact absurd hsame (Nat.ne_of_lt (hsound.used r hold))
      · exact hiface

end

end Dmdhcp
