import Dmdhcp.Api

/-!
# What one locked section can do

Every locked section either makes a `Move`, which never touches the interface or the routes and
neither gains nor loses the lease, or it commits a lease (a clean final probe, an ACK to a
renewal), or it hands over to the lost path.  Invariants are proved once for each of these.
-/

namespace Dmdhcp

/-- `dmdhcp_state_t` values in which the retransmit timer resends a message. -/
def State.resends : State → Bool
  | .selecting => true
  | .requesting => true
  | .rebooting => true
  | .renewing => true
  | .rebinding => true
  | _ => false

/-- The steps of a lease that leave its interface alone. -/
inductive Move (env : Env) (c : Client) : Client → Prop
  | stay : Move env c c
  | offer (r : Reply) (h : c.lease.state = .selecting) :
      Move env c (acceptForProbe env r .checkingOffer c)
  | ack (r : Reply) (h : c.lease.state = .requesting ∨ c.lease.state = .rebooting) :
      Move env c (acceptForProbe env r .checkingAck c)
  | restart (h : c.lease.state = .requesting ∨ c.lease.state = .rebooting ∨
        c.lease.state = .declining) :
      Move env c (outputStartDiscovery env c)
  | resend (h : c.lease.state.resends = true) (count : UInt32) (msgType : MsgType)
      (ciaddr requestedIp serverIdOption : Option Addr) (dst : Addr) (viaIface : Bool) :
      Move env c (rearmBackoff env (sendMessage env msgType ciaddr requestedIp serverIdOption dst
        viaIface (c.update fun l => { l with retransmitCount := count })))
  | conflict (h : c.lease.state = .checkingOffer ∨ c.lease.state = .checkingAck)
      (harp : env.arpReply = true) :
      Move env c (handleConflict env (c.emit (.probe c.lease.offeredIp true))).1
  | request (h : c.lease.state = .checkingOffer) (harp : env.arpReply = false) :
      Move env c (requestOffered env (c.emit (.probe c.lease.offeredIp false)))
  | renew (h : c.lease.state = .bound) : Move env c (outputStartRenew env c)
  | t1 (h : c.lease.state = .bound) : Move env c (lifecycleArmT2 env (outputStartRenew env c))
  | t2 (h : c.lease.state = .renewing) :
      Move env c (lifecycleArmExpiry env (outputStartRebind env c))

/-- A clean final probe: `run_conflict_probe` in `checking_ack`. -/
def commitProbed (env : Env) (c : Client) : Client :=
  commitLease env (c.emit (.probe c.lease.offeredIp false))

/-! ### Each section, by cases -/

theorem datagramSection_cases (env : Env) (r : Reply) (msgType : UInt8) (c : Client) :
    (∃ c', datagramSection env r msgType c = (c', .done) ∧ Move env c c') ∨
    (datagramSection env r msgType c = (acceptRenewal env r c, .onBound true) ∧
      msgType = MsgType.ack.toByte ∧
      (c.lease.state = .renewing ∨ c.lease.state = .rebinding)) ∨
    (datagramSection env r msgType c = (c, .lost) ∧ msgType = MsgType.nak.toByte ∧
      (c.lease.state = .renewing ∨ c.lease.state = .rebinding)) := by
  unfold datagramSection
  dsimp only
  split_ifs with h1 h2 h3 h4 h5
  · exact .inl ⟨_, rfl, .offer r h1.2⟩
  · exact .inl ⟨_, rfl, .ack r h2.2⟩
  · exact .inl ⟨_, rfl, .restart (h3.2.imp_right .inl)⟩
  · exact .inr (.inl ⟨rfl, h4⟩)
  · exact .inr (.inr ⟨rfl, h5⟩)
  · exact .inl ⟨_, rfl, .stay⟩

theorem resendRequest_move (env : Env) (c : Client)
    (h : c.lease.state = .requesting ∨ c.lease.state = .rebooting) :
    Move env c (resendRequest env c) := by
  have hresends : c.lease.state.resends = true := by
    rcases h with h | h <;> rw [h] <;> rfl
  unfold resendRequest
  dsimp only
  split_ifs with hcount hstate
  · exact .restart (h.imp_right .inl)
  · exact .resend hresends _ _ _ _ _ _ _
  · exact .resend hresends _ _ _ _ _ _ _

theorem handleConflict_after (env : Env) (c : Client) :
    (handleConflict env c).2 = .done ∨ (handleConflict env c).2 = .onError .eaddrinuse := by
  unfold handleConflict
  dsimp only
  split_ifs
  · exact .inr rfl
  · exact .inl rfl

-- The probe of `checking_offer` and `checking_ack`, by its outcome.
theorem runConflictProbe_cases (env : Env) (c : Client)
    (h : c.lease.state = .checkingOffer ∨ c.lease.state = .checkingAck) :
    (∃ c' after, runConflictProbe env c = (c', after) ∧ Move env c c' ∧
      (after = .done ∨ after = .onError .eaddrinuse)) ∨
    (runConflictProbe env c = (commitProbed env c, .onBound false) ∧
      c.lease.state = .checkingAck ∧ env.arpReply = false) := by
  -- Somebody answering is a conflict in either state; silence is told apart by the state.
  cases harp : env.arpReply with
  | true =>
    have heq : runConflictProbe env c =
        handleConflict env (c.emit (.probe c.lease.offeredIp true)) := by
      simp [runConflictProbe, harp]
    exact .inl ⟨_, _, heq, .conflict h harp, handleConflict_after _ _⟩
  | false =>
    by_cases hs : c.lease.state = .checkingOffer
    · have heq : runConflictProbe env c =
          (requestOffered env (c.emit (.probe c.lease.offeredIp false)), .done) := by
        simp [runConflictProbe, harp, hs]
      exact .inl ⟨_, _, heq, .request hs harp, .inl rfl⟩
    · have heq : runConflictProbe env c = (commitProbed env c, .onBound false) := by
        simp [runConflictProbe, harp, hs, commitProbed]
      exact .inr ⟨heq, h.resolve_left hs, rfl⟩

theorem retransmitTimerSection_cases (env : Env) (c : Client) :
    (∃ c' after, retransmitTimerSection env c = (c', after) ∧ Move env c c' ∧
      (after = .done ∨ after = .onError .eaddrinuse)) ∨
    (retransmitTimerSection env c = (commitProbed env c, .onBound false) ∧
      c.lease.state = .checkingAck ∧ env.arpReply = false) := by
  unfold retransmitTimerSection
  cases hs : c.lease.state with
  | checkingOffer => simpa only [hs] using runConflictProbe_cases env c (.inl hs)
  | checkingAck => simpa only [hs] using runConflictProbe_cases env c (.inr hs)
  | requesting => exact .inl ⟨_, _, rfl, resendRequest_move env c (.inl hs), .inl rfl⟩
  | rebooting => exact .inl ⟨_, _, rfl, resendRequest_move env c (.inr hs), .inl rfl⟩
  | declining => exact .inl ⟨_, _, rfl, .restart (.inr (.inr hs)), .inl rfl⟩
  | selecting =>
    exact .inl ⟨_, _, rfl, .resend (by rw [hs]; rfl) c.lease.retransmitCount _ _ _ _ _ _, .inl rfl⟩
  | renewing =>
    exact .inl ⟨_, _, rfl, .resend (by rw [hs]; rfl) c.lease.retransmitCount _ _ _ _ _ _, .inl rfl⟩
  | rebinding =>
    exact .inl ⟨_, _, rfl, .resend (by rw [hs]; rfl) c.lease.retransmitCount _ _ _ _ _ _, .inl rfl⟩
  | init => exact .inl ⟨_, _, rfl, .stay, .inl rfl⟩
  | initReboot => exact .inl ⟨_, _, rfl, .stay, .inl rfl⟩
  | bound => exact .inl ⟨_, _, rfl, .stay, .inl rfl⟩
  | failed => exact .inl ⟨_, _, rfl, .stay, .inl rfl⟩

theorem leaseTimerSection_cases (env : Env) (c : Client) :
    (∃ c', leaseTimerSection env c = (c', .done) ∧ Move env c c') ∨
    (leaseTimerSection env c = (c, .lost) ∧ c.lease.state = .rebinding) := by
  unfold leaseTimerSection
  split_ifs with h1 h2 h3
  · exact .inl ⟨_, rfl, .t1 h1⟩
  · exact .inl ⟨_, rfl, .t2 h2⟩
  · exact .inr ⟨rfl, h3⟩
  · exact .inl ⟨_, rfl, .stay⟩

theorem renew_move (env : Env) (c : Client) : Move env c (c.renew env) := by
  unfold Client.renew
  split_ifs with h
  · exact .renew h
  · exact .stay

/-! ### What every move keeps -/

/-- What a move never changes: the interface, the routes and the fields that follow them. -/
structure Frame (c c' : Client) : Prop where
  netif : c'.netif = c.netif
  routes : c'.routes = c.routes
  iface : c'.lease.iface = c.lease.iface
  ifaceConfigured : c'.lease.ifaceConfigured = c.lease.ifaceConfigured
  defaultRoute : c'.lease.defaultRoute = c.lease.defaultRoute
  callbacks : c'.lease.callbacks = c.lease.callbacks

theorem rearmBackoff_lease (env : Env) (c : Client) : (rearmBackoff env c).lease =
    { c.lease with
      retransmitIntervalMs := nextBackoff c.lease.retransmitIntervalMs
      retransmitTimer := .arm env.now (nextBackoff c.lease.retransmitIntervalMs) } := rfl

theorem acceptForProbe_lease (env : Env) (r : Reply) (next : State) (c : Client) :
    (acceptForProbe env r next c).lease =
      { populateLeaseFromOptions env r.msg r.options c.lease with
        state := next
        retransmitTimer := .arm env.now probeHandoffMs } := rfl

theorem requestOffered_lease (env : Env) (c : Client) : (requestOffered env c).lease =
    { c.lease with
      state := .requesting
      retransmitCount := 0
      retransmitIntervalMs := retransmitInitialMs
      retransmitTimer := .arm env.now retransmitInitialMs } := by
  simp [requestOffered, sendRequestSelecting, Client.armRetransmit]

theorem requestOffered_state (env : Env) (c : Client) :
    (requestOffered env c).lease.state = .requesting := by rw [requestOffered_lease]

-- At T1 a renewal is begun, and the lease timer runs to T2, ...
theorem outputStartRenew_armT2_lease (env : Env) (c : Client) :
    (lifecycleArmT2 env (outputStartRenew env c)).lease =
      { c.lease.inExchange env .renewing with
        leaseTimer := .arm env.now (periodT2 (c.lease.inExchange env .renewing)) } := by
  rw [lifecycleArmT2, Client.armLease, Client.update_lease, outputStartRenew_lease]

-- ... and from there, with a rebinding, to the expiry.
theorem outputStartRebind_armExpiry_lease (env : Env) (c : Client) :
    (lifecycleArmExpiry env (outputStartRebind env c)).lease =
      { c.lease.inExchange env .rebinding with
        leaseTimer := .arm env.now (periodExpiry (c.lease.inExchange env .rebinding)) } := by
  rw [lifecycleArmExpiry, Client.armLease, Client.update_lease, outputStartRebind_lease]

-- The state after a conflict, and everything else it changes in the lease.
theorem handleConflict_lease (env : Env) (c : Client) :
    ∃ state timer, (state = .failed ∨ state = .declining) ∧
      (handleConflict env c).1.lease =
        { c.lease with
          state
          declineRetryCount := c.lease.declineRetryCount + 1
          retransmitTimer := timer } := by
  unfold handleConflict
  dsimp only
  split_ifs
  · exact ⟨.failed, c.lease.retransmitTimer, .inl rfl, by simp [sendDecline]⟩
  · exact ⟨.declining, .arm env.now declinePauseMs, .inr rfl,
      by simp [sendDecline, Client.armRetransmit]⟩

theorem handleConflict_netif (env : Env) (c : Client) :
    (handleConflict env c).1.netif = c.netif := by
  unfold handleConflict
  dsimp only
  split_ifs <;> simp [sendDecline, Client.armRetransmit]

theorem handleConflict_routes (env : Env) (c : Client) :
    (handleConflict env c).1.routes = c.routes := by
  unfold handleConflict
  dsimp only
  split_ifs <;> simp [sendDecline, Client.armRetransmit]

theorem Move.frame {env : Env} {c c' : Client} (h : Move env c c') : Frame c c' := by
  cases h with
  | stay => exact ⟨rfl, rfl, rfl, rfl, rfl, rfl⟩
  | offer r h => exact ⟨rfl, rfl, rfl, rfl, rfl, rfl⟩
  | ack r h => exact ⟨rfl, rfl, rfl, rfl, rfl, rfl⟩
  | restart h => constructor <;> simp [outputStartDiscovery_lease]
  -- A resend changes the record and the retransmit timer only.
  | resend h => constructor <;> simp [rearmBackoff, Client.armRetransmit]
  | conflict h harp =>
    obtain ⟨state, timer, -, hl⟩ := handleConflict_lease env
      (c.emit (.probe c.lease.offeredIp true))
    exact ⟨handleConflict_netif _ _, handleConflict_routes _ _, by rw [hl]; rfl, by rw [hl]; rfl,
      by rw [hl]; rfl, by rw [hl]; rfl⟩
  | request h harp =>
    constructor <;> simp [requestOffered, sendRequestSelecting, Client.armRetransmit]
  | renew h => constructor <;> simp [outputStartRenew_lease, Lease.inExchange]
  | t1 h =>
    constructor <;> simp [lifecycleArmT2, Client.armLease, outputStartRenew_lease,
      Lease.inExchange]
  | t2 h =>
    constructor <;> simp [lifecycleArmExpiry, Client.armLease, outputStartRebind_lease,
      Lease.inExchange]

/-- What the server granted. -/
structure SameTerms (l l' : Lease) : Prop where
  offeredIp : l'.offeredIp = l.offeredIp
  netmask : l'.netmask = l.netmask
  gateway : l'.gateway = l.gateway
  serverId : l'.serverId = l.serverId
  leaseTimeSec : l'.leaseTimeSec = l.leaseTimeSec
  t1Sec : l'.t1Sec = l.t1Sec
  t2Sec : l'.t2Sec = l.t2Sec

theorem SameTerms.refl (l : Lease) : SameTerms l l := ⟨rfl, rfl, rfl, rfl, rfl, rfl, rfl⟩

theorem SameTerms.trans {l₁ l₂ l₃ : Lease} (h₁ : SameTerms l₁ l₂) (h₂ : SameTerms l₂ l₃) :
    SameTerms l₁ l₃ :=
  ⟨h₂.offeredIp.trans h₁.offeredIp, h₂.netmask.trans h₁.netmask, h₂.gateway.trans h₁.gateway,
    h₂.serverId.trans h₁.serverId, h₂.leaseTimeSec.trans h₁.leaseTimeSec,
    h₂.t1Sec.trans h₁.t1Sec, h₂.t2Sec.trans h₁.t2Sec⟩

-- A move neither gains nor loses the lease.
theorem Move.holds {env : Env} {c c' : Client} (h : Move env c c') :
    c'.lease.state.holdsValidLease = c.lease.state.holdsValidLease := by
  cases h with
  | stay => rfl
  | offer r h => rw [acceptForProbe_lease, h]; rfl
  | ack r h => rcases h with h | h <;> rw [acceptForProbe_lease, h] <;> rfl
  | restart h => rcases h with h | h | h <;> rw [outputStartDiscovery_lease, h] <;> rfl
  | resend h => rw [rearmBackoff_lease, sendMessage_lease]; rfl
  | conflict h harp =>
    obtain ⟨state, timer, hs, hl⟩ := handleConflict_lease env
      (c.emit (.probe c.lease.offeredIp true))
    rcases hs with rfl | rfl <;> rcases h with h | h <;> rw [hl, h] <;> rfl
  | request h harp => rw [requestOffered_lease, h]; rfl
  | renew h => rw [outputStartRenew_lease, h]; rfl
  | t1 h =>
    rw [outputStartRenew_armT2_lease, h]; rfl
  | t2 h =>
    rw [outputStartRebind_armExpiry_lease, h]; rfl

-- While the lease is held, no move touches its terms.
theorem Move.terms {env : Env} {c c' : Client} (h : Move env c c')
    (hheld : c.lease.state.holdsValidLease = true) : SameTerms c.lease c'.lease := by
  cases h with
  | stay => exact .refl _
  -- The moves that rewrite the terms all start from states in which no lease is held.
  | offer r h => rw [h] at hheld; cases hheld
  | ack r h => rcases h with h | h <;> rw [h] at hheld <;> cases hheld
  | restart h => rcases h with h | h | h <;> rw [h] at hheld <;> cases hheld
  | resend h =>
    rw [rearmBackoff_lease, sendMessage_lease]
    exact ⟨rfl, rfl, rfl, rfl, rfl, rfl, rfl⟩
  | conflict h harp => rcases h with h | h <;> rw [h] at hheld <;> cases hheld
  | request h harp => rw [h] at hheld; cases hheld
  | renew h =>
    rw [outputStartRenew_lease]
    exact ⟨rfl, rfl, rfl, rfl, rfl, rfl, rfl⟩
  | t1 h =>
    rw [outputStartRenew_armT2_lease]
    exact ⟨rfl, rfl, rfl, rfl, rfl, rfl, rfl⟩
  | t2 h =>
    rw [outputStartRebind_armExpiry_lease]
    exact ⟨rfl, rfl, rfl, rfl, rfl, rfl, rfl⟩

-- Only an accepted ACK leads to the final probe, with the address it carries.
theorem Move.checkingAck {env : Env} {c c' : Client} (h : Move env c c')
    (hs : c'.lease.state = .checkingAck) :
    c'.lease.offeredIp.isV4 = true ∨
      (c.lease.state = .checkingAck ∧ c'.lease.offeredIp = c.lease.offeredIp) := by
  cases h with
  | stay => exact .inr ⟨hs, rfl⟩
  | offer r h => exact .inl r.yiaddrIsV4
  | ack r h => exact .inl r.yiaddrIsV4
  | restart h => rw [outputStartDiscovery_lease] at hs; cases hs
  | resend h =>
    rw [rearmBackoff_lease, sendMessage_lease] at hs ⊢
    exact .inr ⟨hs, rfl⟩
  | conflict h harp =>
    obtain ⟨state, timer, hstate, hl⟩ := handleConflict_lease env
      (c.emit (.probe c.lease.offeredIp true))
    rw [hl] at hs
    rcases hstate with rfl | rfl <;> cases hs
  | request h harp => rw [requestOffered_lease] at hs; cases hs
  | renew h => rw [outputStartRenew_lease] at hs; cases hs
  | t1 h =>
    rw [outputStartRenew_armT2_lease] at hs
    cases hs
  | t2 h =>
    rw [outputStartRebind_armExpiry_lease] at hs
    cases hs

end Dmdhcp
