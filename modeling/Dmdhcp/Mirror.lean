import Dmdhcp.StateMachine

/-!
# The interface mirrors the lease

The lease fields are rewritten by OFFERs, ACKs and restarts; the interface is touched only by
`lifecycleApply` and `lifecycleUnapply`.  In every sequential run the two agree: a held lease is
what the interface is configured with, and without one the interface is blank.
-/

namespace Dmdhcp

/-- The agreement of lease and interface, with the fact about the final probe that carries it
through `commitProbed`. -/
structure Mirrors (c : Client) : Prop where
  held : c.lease.state.holdsValidLease = true →
    c.lease.ifaceConfigured = true ∧ c.lease.offeredIp.isV4 = true ∧
      c.netif.ipAddress = c.lease.offeredIp ∧ c.netif.netmask = c.lease.netmask ∧
      c.netif.broadcast = broadcastOf c.lease .none
  idle : c.lease.state.holdsValidLease = false →
    c.lease.ifaceConfigured = false ∧ c.netif.Unconfigured
  probed : c.lease.state = .checkingAck → c.lease.offeredIp.isV4 = true

theorem broadcastOf_congr {l l' : Lease} (h : SameTerms l l') (old : Addr) :
    broadcastOf l' old = broadcastOf l old := by
  simp only [broadcastOf, h.netmask, h.offeredIp]

theorem addrOr_isV4 (options : List UInt8) (code : UInt8) (old : Addr) :
    (addrOr options code old).isV4 = true ∨ addrOr options code old = old := by
  unfold addrOr
  split
  · rename_i opt _
    cases h : opt.getAddr with
    | ok a => exact .inl (DhcpOption.getAddr_isV4 h)
    | error e => exact .inr rfl
  · exact .inr rfl

-- Timers, and callbacks that only record, change nothing the mirror speaks of.
theorem Mirrors.congr {c c' : Client} (hm : Mirrors c) {retransmitTimer leaseTimer : Timer}
    (hlease : c'.lease = { c.lease with retransmitTimer, leaseTimer })
    (hnetif : c'.netif = c.netif) : Mirrors c' := by
  refine ⟨?_, ?_, ?_⟩
  · rw [hlease, hnetif]
    exact hm.held
  · rw [hlease, hnetif]
    exact hm.idle
  · rw [hlease]
    exact hm.probed

theorem Mirrors.move {env : Env} {c c' : Client} (hm : Mirrors c) (h : Move env c c') :
    Mirrors c' := by
  have hf := h.frame
  refine ⟨fun hs => ?_, fun hs => ?_, fun hs => ?_⟩
  · rw [h.holds] at hs
    obtain ⟨hconf, hv4, hip, hmask, hbc⟩ := hm.held hs
    have ht := h.terms hs
    rw [hf.ifaceConfigured, ht.offeredIp, hf.netif, ht.netmask, broadcastOf_congr ht]
    exact ⟨hconf, hv4, hip, hmask, hbc⟩
  · rw [h.holds] at hs
    rw [hf.ifaceConfigured, hf.netif]
    exact hm.idle hs
  · rcases h.checkingAck hs with hv4 | ⟨hold, hip⟩
    · exact hv4
    · rw [hip]
      exact hm.probed hold

-- Committing a lease with an IPv4 address makes the interface mirror it, provided an untouched
-- broadcast address was blank.
theorem Mirrors.commit {env : Env} (henv : env.SetsSucceed) {c : Client}
    (hv4 : c.lease.offeredIp.isV4 = true)
    (hbc : c.lease.netmask.isV4 = false → c.netif.broadcast = .none) :
    Mirrors (commitLease env c) := by
  refine ⟨fun _ => ?_, fun hs => ?_, fun hs => ?_⟩
  · rw [commitLease_lease_of_succeed henv, commitLease_netif henv]
    refine ⟨rfl, hv4, rfl, rfl, ?_⟩
    simp only [broadcastOf]
    split_ifs with hmask
    · rfl
    · exact hbc (Bool.not_eq_true _ ▸ hmask)
  · rw [commitLease_state] at hs
    cases hs
  · rw [commitLease_state] at hs
    cases hs

theorem lifecycleUnapply_clears {env : Env} (henv : env.SetsSucceed) {c : Client}
    (hidle : c.lease.ifaceConfigured = false → c.netif.Unconfigured) :
    (lifecycleUnapply env c).lease.ifaceConfigured = false ∧
      (lifecycleUnapply env c).netif.Unconfigured := by
  unfold lifecycleUnapply
  split_ifs with hc
  · exact ⟨rfl, clearInterface_unconfigured henv _⟩
  · exact ⟨Bool.not_eq_true _ ▸ hc, hidle (Bool.not_eq_true _ ▸ hc)⟩

-- A mirrored interface is blank whenever the flag says it is not configured.
theorem Mirrors.unconfigured {c : Client} (hm : Mirrors c)
    (h : c.lease.ifaceConfigured = false) : c.netif.Unconfigured := by
  cases hs : c.lease.state.holdsValidLease with
  | true =>
    have hconf := (hm.held hs).1
    rw [h] at hconf
    cases hconf
  | false => exact (hm.idle hs).2

theorem Mirrors.lost {env : Env} (henv : env.SetsSucceed) {c : Client} (hm : Mirrors c) :
    Mirrors (lifecycleHandleLost env c) := by
  have hclear := lifecycleUnapply_clears henv (c := c) hm.unconfigured
  refine ⟨fun hs => ?_, fun _ => ?_, fun hs => ?_⟩
  · rw [lifecycleHandleLost_state] at hs
    cases hs
  · simpa only [lifecycleHandleLost, lostRestart, outputStartDiscovery_lease,
      outputStartDiscovery_netif, callOnExpiredOrLost_lease, callOnExpiredOrLost_netif,
      lostUnapply, Client.update_lease, Client.update_netif] using hclear
  · rw [lifecycleHandleLost_state] at hs
    cases hs

-- The renewal ACK may change the address, the netmask and the broadcast address; a netmask it does
-- not carry is kept, so a broadcast address that was set is set again.
theorem Mirrors.renewal {env : Env} (henv : env.SetsSucceed) {c : Client} (hm : Mirrors c)
    (r : Reply) (hs : c.lease.state = .renewing ∨ c.lease.state = .rebinding) :
    Mirrors (acceptRenewal env r c) := by
  have hheld : c.lease.state.holdsValidLease = true := State.holdsValidLease_iff.mpr (.inr hs)
  refine Mirrors.commit henv r.yiaddrIsV4 fun hmask => ?_
  -- If the ACK leaves no IPv4 netmask, there was none before: the broadcast is blank already.
  have hold : c.lease.netmask.isV4 = false := by
    rcases addrOr_isV4 r.options optSubnetMask c.lease.netmask with hv4 | hsame
    · exact absurd (hmask.symm.trans hv4) (by decide)
    · exact hsame ▸ hmask
  have hbc := (hm.held hheld).2.2.2.2
  simpa only [Client.update_netif, broadcastOf, hold, Bool.false_eq_true, if_false] using hbc

theorem Mirrors.outcome {env : Env} (henv : env.SetsSucceed) {ev : Event} {c c' : Client}
    (hm : Mirrors c) (h : Outcome env ev c c') : Mirrors c' := by
  cases h with
  | move h => exact hm.move h
  | failed error h => exact (hm.move h).congr (callOnError_lease _ _) (callOnError_netif _ _)
  | commit h harp =>
    -- `checking_ack` is not held, so `lifecycleApply` finds a blank interface.
    have hblank := (hm.idle (by rw [h]; rfl)).2.2.2
    have hcommit : Mirrors (commitProbed env c) :=
      Mirrors.commit henv (hm.probed h) fun _ => hblank
    exact hcommit.congr (callOnBound_lease _ _) (callOnBound_netif _ _)
  | renewal r h =>
    have hs := Client.renewalAck_state h
    exact (hm.renewal henv r hs).congr (callOnBound_lease _ _) (callOnBound_netif _ _)
  | lost h => exact hm.lost henv

theorem Mirrors.step {env : Env} (henv : env.SetsSucceed) {c : Client} (hm : Mirrors c)
    (ev : Event) : Mirrors (c.step (env, ev)) := by
  obtain ⟨hnetif, -, -, rt, lt, hlease⟩ := c.before_same ev
  exact (hm.congr hlease hnetif).outcome henv (c.step_outcome env ev)

theorem start_mirrors (env : Env) (iface : Iface) {netif : Netif} (hblank : netif.Unconfigured)
    (callbacks : Callbacks) (userData : Nat) (options : Option StartOptions) :
    Mirrors (Client.start env iface netif callbacks userData options) := by
  have hfresh := start_fresh env iface netif callbacks userData options
  refine ⟨fun hs => ?_, fun _ => ⟨hfresh.ifaceConfigured, ?_⟩, fun hs => ?_⟩
  · rw [hfresh.holdsValidLease] at hs
    cases hs
  · rw [hfresh.netif]
    exact hblank
  · rcases hfresh.state with hstate | hstate <;> rw [hstate] at hs <;> cases hs

-- In every state of every run whose interface calls succeed.
theorem Runs.mirrors {c c' : Client} {inputs : List (Env × Event)}
    (hrun : Lts.Run (Lts.Guarded (Lts.ofTotal Client.step) fun _ i => i.1.SetsSucceed) c inputs c')
    (hm : Mirrors c) : Mirrors c' := by
  refine hrun.invariant (fun s i s' hs hstep => ?_) hm
  obtain ⟨rfl, henv⟩ := hstep
  exact hs.step henv i.2

theorem stopSection_clears {env : Env} (henv : env.SetsSucceed) {c : Client} (hm : Mirrors c) :
    (stopSection env c).lease.ifaceConfigured = false ∧ (stopSection env c).netif.Unconfigured := by
  unfold stopSection
  split_ifs with hc
  · exact lifecycleUnapply_clears henv hm.unconfigured
  · exact ⟨Bool.not_eq_true _ ▸ hc, hm.unconfigured (Bool.not_eq_true _ ▸ hc)⟩

theorem releaseSection_clears {env : Env} (henv : env.SetsSucceed) {c : Client} (hm : Mirrors c) :
    (releaseSection env c).lease.ifaceConfigured = false ∧
      (releaseSection env c).netif.Unconfigured := by
  unfold releaseSection
  dsimp only
  split_ifs with hsend
  · exact stopSection_clears henv (hm.congr (sendMessage_lease ..) (sendMessage_netif ..))
  · exact stopSection_clears henv hm

/-- **The interface mirrors the lease.**  From a start on a blank interface, with every
`dmnetif_set_*` call succeeding: while the lease is held the interface carries exactly what
`dmdhcp_get_lease_info` reports, with the broadcast address of an IPv4 netmask; in every other
state, and after `dmdhcp_stop` or `dmdhcp_release`, it carries nothing. -/
theorem interface_mirrors_lease (env₀ : Env) (iface : Iface) (netif : Netif)
    (hblank : netif.Unconfigured) (callbacks : Callbacks) (userData : Nat)
    (options : Option StartOptions) (inputs : List (Env × Event)) (c : Client)
    (hrun : Lts.Run (Lts.Guarded (Lts.ofTotal Client.step) fun _ i => i.1.SetsSucceed)
      (Client.start env₀ iface netif callbacks userData options) inputs c) :
    (c.lease.state = .bound ∨ c.lease.state = .renewing ∨ c.lease.state = .rebinding →
      c.lease.ifaceConfigured = true ∧ ∃ info ip,
        getLeaseInfo c.lease = .ok info ∧ info.ipAddress = .v4 ip ∧
        c.netif.ipAddress = info.ipAddress ∧ c.netif.netmask = info.netmask ∧
        (∀ mask, info.netmask = .v4 mask →
          c.netif.broadcast = .v4 (directedBroadcast ip mask)) ∧
        (info.netmask.isV4 = false → c.netif.broadcast = .none)) ∧
    (¬(c.lease.state = .bound ∨ c.lease.state = .renewing ∨ c.lease.state = .rebinding) →
      c.lease.ifaceConfigured = false ∧ c.netif.Unconfigured) ∧
    (∀ env : Env, env.SetsSucceed →
      ((stopSection env c).lease.ifaceConfigured = false ∧
        (stopSection env c).netif.Unconfigured) ∧
      ((releaseSection env c).lease.ifaceConfigured = false ∧
        (releaseSection env c).netif.Unconfigured)) := by
  have hm := Runs.mirrors hrun (start_mirrors env₀ iface hblank callbacks userData options)
  refine ⟨fun hs => ?_, fun hs => ?_, fun env henv => ?_⟩
  · obtain ⟨hconf, hv4, hip, hmask, hbc⟩ := hm.held (State.holdsValidLease_iff.mpr hs)
    obtain ⟨ip, hipv4⟩ : ∃ ip, c.lease.offeredIp = .v4 ip := by
      cases ha : c.lease.offeredIp with
      | v4 ip => exact ⟨ip, rfl⟩
      | none => rw [ha] at hv4; cases hv4
      | v6 a => rw [ha] at hv4; cases hv4
    -- `dmdhcp_get_lease_info` answers in exactly these states.
    have hinfo : ¬(c.lease.state ≠ .bound ∧ c.lease.state ≠ .renewing ∧
        c.lease.state ≠ .rebinding) := by tauto
    refine ⟨hconf, _, ip, if_neg hinfo, hipv4, hip, hmask, fun mask hv => ?_, fun hv => ?_⟩
    · rw [hbc, broadcastOf, hipv4, show c.lease.netmask = .v4 mask from hv]
      rfl
    · rw [hbc, broadcastOf, if_neg (by rw [show c.lease.netmask.isV4 = false from hv]; decide)]
  · rw [← State.holdsValidLease_iff, Bool.not_eq_true] at hs
    exact hm.idle hs
  · exact ⟨stopSection_clears henv hm, releaseSection_clears henv hm⟩

/-- The theorem at a complete acquisition: the interface is configured in `bound`. -/
theorem interface_mirrors_lease_acquired :
    ∃ c, Lts.Run (Lts.Guarded (Lts.ofTotal Client.step) fun _ i => i.1.SetsSucceed)
        startedClient (acquireInputs ⟨10, 0, 0, 5⟩ ⟨10, 0, 0, 1⟩ 3600) c ∧
      c.lease.state = .bound ∧ c.lease.ifaceConfigured = true := by
  have hrun := Lts.foldl_run_guarded Client.step (fun _ i => i.1.SetsSucceed)
    startedClient (acquireInputs ⟨10, 0, 0, 5⟩ ⟨10, 0, 0, 1⟩ 3600) (by decide +kernel)
  have hbound : ((acquireInputs ⟨10, 0, 0, 5⟩ ⟨10, 0, 0, 1⟩ 3600).foldl Client.step
      startedClient).lease.state = .bound := by decide +kernel
  exact ⟨_, hrun, hbound, ((interface_mirrors_lease _ _ blankNetif (by decide) _ _ _ _ _ hrun).1
    (.inl hbound)).1⟩

end Dmdhcp
