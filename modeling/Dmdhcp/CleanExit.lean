import Dmdhcp.Reactions
import Dmdhcp.Mirror

/-!
# What a failed apply leaves behind

`dmdhcp_lifecycle_apply` sets the netmask before the address and returns at the first call that
fails; `dmdhcp_lifecycle_unapply` clears the interface only if `iface_configured` says that an apply
went through.  A first apply that fails at the address leaves a netmask that nothing clears.
-/

namespace Dmdhcp

/-! ## 1. Steps that apply a lease -/

/-- The lease a step applies to the interface, if it applies one: the probed lease, or the one the
server confirmed in an ACK to a renewal. -/
def Client.committed (c : Client) (env : Env) : Event → Option Lease
  | .retransmit _ =>
    if c.lease.state = .checkingAck ∧ env.arpReply = false then some c.lease else none
  | ev =>
    (c.renewalAck ev).map fun r => populateLeaseFromOptions env r.msg r.options c.lease

-- An ACK to a renewal is a delivered ACK in `renewing` or `rebinding`.
theorem Client.mem_renewalAck {c : Client} {ev : Event} {r : Reply} :
    r ∈ c.renewalAck ev ↔ c.delivered ev = some (r, MsgType.ack.toByte) ∧
      (c.lease.state = .renewing ∨ c.lease.state = .rebinding) := by
  cases ev with
  | datagram iface payload =>
    simp only [Client.renewalAck, Client.delivered, Option.mem_def, Option.filter_eq_some_iff,
      decide_eq_true_eq]
    cases hr : parseReply payload with
    | none => simp
    | some r' =>
      simp only [Option.some.injEq]
      by_cases hx : c.matchesXid iface r'.msg.xid = true
      · rw [if_pos hx, Option.map_eq_some_iff]
        constructor
        · rintro ⟨rfl, -, htype, hs⟩
          exact ⟨⟨_, htype, rfl⟩, hs⟩
        · rintro ⟨⟨msgType, htype, heq⟩, hs⟩
          cases heq
          exact ⟨rfl, hx, htype, hs⟩
      · rw [if_neg hx]
        constructor
        · rintro ⟨rfl, hx', -⟩
          exact absurd hx' hx
        · rintro ⟨h, -⟩
          cases h
  | retransmit stale => simp [Client.renewalAck, Client.delivered]
  | leaseTimer stale => simp [Client.renewalAck, Client.delivered]
  | renew => simp [Client.renewalAck, Client.delivered]

-- What `dmdhcp_lifecycle_apply` and entering `bound` leave of the interface and its flag.
theorem commitLease_interface (env : Env) (c : Client) :
    (commitLease env c).lease.ifaceConfigured =
        (c.lease.ifaceConfigured || (env.setNetmask && env.setIpAddress)) ∧
    ((env.setNetmask && env.setIpAddress) = false → (commitLease env c).netif =
      { c.netif with netmask := if env.setNetmask then c.lease.netmask else c.netif.netmask }) := by
  unfold commitLease lifecycleArmT1 Client.armLease lifecycleApply
  cases env.setNetmask with
  | false => simp
  | true =>
    cases env.setIpAddress with
    | false => simp
    | true => simp [installDefaultRoute_eq]

section
variable {c : Client} {env : Env} {ev : Event} {l : Lease}

theorem Client.committed_of_renewalAck {r : Reply} (h : r ∈ c.renewalAck ev) :
    c.committed env ev = some (populateLeaseFromOptions env r.msg r.options c.lease) := by
  cases ev with
  | datagram iface payload => exact congrArg (Option.map _) h
  | retransmit stale => cases h
  | leaseTimer stale => cases h
  | renew => cases h

theorem Client.eventSection_renewal {r : Reply} (h : c.delivered ev = some (r, MsgType.ack.toByte))
    (hs : c.lease.state = .renewing ∨ c.lease.state = .rebinding) :
    c.eventSection env ev = (acceptRenewal env r c, .onBound true) := by
  cases ev with
  | datagram iface payload =>
    simp only [Client.eventSection, h, datagramSection]
    rcases hs with hs | hs <;> simp [hs, MsgType.toByte]
  | retransmit stale => cases h
  | leaseTimer stale => cases h
  | renew => cases h

theorem retransmitTimerSection_commit (hs : c.lease.state = .checkingAck)
    (harp : env.arpReply = false) :
    retransmitTimerSection env c = (commitProbed env c, .onBound false) := by
  simp [retransmitTimerSection, hs, runConflictProbe, harp, commitProbed]

/-- `c₀` is `c` up to its timers and its record, with the parameters of `l`. -/
structure Client.Takes (c c₀ : Client) (l : Lease) : Prop where
  netif : c₀.netif = c.netif
  ifaceConfigured : c₀.lease.ifaceConfigured = c.lease.ifaceConfigured
  callbacks : c₀.lease.callbacks = c.lease.callbacks
  netmask : c₀.lease.netmask = l.netmask
  offeredIp : c₀.lease.offeredIp = l.offeredIp

-- A section that applies a lease commits it, whatever the interface calls answer.
theorem Client.eventSection_of_committed (h : c.committed env ev = some l) : ∃ c₀ isRenewal,
    c.eventSection env ev = (commitLease env c₀, .onBound isRenewal) ∧ c.Takes c₀ l := by
  have hrenewal (h : (c.renewalAck ev).map (fun r =>
      populateLeaseFromOptions env r.msg r.options c.lease) = some l) : ∃ c₀ isRenewal,
      c.eventSection env ev = (commitLease env c₀, .onBound isRenewal) ∧ c.Takes c₀ l := by
    obtain ⟨r, hr, rfl⟩ := Option.map_eq_some_iff.mp h
    obtain ⟨hd, hs⟩ := Client.mem_renewalAck.mp hr
    refine ⟨c.update (populateLeaseFromOptions env r.msg r.options), true, ?_,
      rfl, rfl, rfl, rfl, rfl⟩
    rw [c.eventSection_renewal hd hs]
    rfl
  cases ev with
  | retransmit stale =>
    rw [Client.committed] at h
    split_ifs at h with hs
    obtain rfl := Option.some.inj h
    obtain ⟨hnetif, -, -, rt, lt, hlease⟩ := c.before_same (.retransmit stale)
    refine ⟨(c.before (.retransmit stale)).emit
      (.probe (c.before (.retransmit stale)).lease.offeredIp false), false, ?_, hnetif, ?_, ?_, ?_, ?_⟩
    · show retransmitTimerSection env (c.before (.retransmit stale)) = _
      exact retransmitTimerSection_commit ((c.before_state _).trans hs.1) hs.2
    · rw [Client.emit_lease, hlease]
    · rw [Client.emit_lease, hlease]
    · rw [Client.emit_lease, hlease]
    · rw [Client.emit_lease, hlease]
  | datagram iface payload => exact hrenewal h
  | leaseTimer stale => exact hrenewal h
  | renew => exact hrenewal h

-- No other section has `on_bound` called.
theorem Client.committed_of_onBound {isRenewal : Bool}
    (h : (c.eventSection env ev).2 = .onBound isRenewal) : ∃ l, c.committed env ev = some l := by
  rcases (c.eventSection_reaction env ev).move_or_commit with
    ⟨-, hafter | hafter⟩ | ⟨-, -, ⟨stale, rfl⟩, hs, harp⟩ | ⟨r, -, -, hd, hs⟩ | ⟨-, hafter, -⟩
  · rw [hafter] at h
    cases h
  · rw [hafter] at h
    cases h
  · rw [Client.before_state] at hs
    exact ⟨c.lease, if_pos ⟨hs, harp⟩⟩
  · have hsame := Client.before_of_delivered hd
    rw [hsame] at hd hs
    exact ⟨_, Client.committed_of_renewalAck (Client.mem_renewalAck.mpr ⟨hd, hs⟩)⟩
  · rw [hafter] at h
    cases h

end

/-! ## 2. The flag and the interface -/

/-- Nothing is set on an interface that the flag calls unconfigured. -/
def Client.FlagHonest (c : Client) : Prop :=
  c.lease.ifaceConfigured = false → c.netif.Unconfigured

/-- The step clears the interface if it loses the lease. -/
def Client.ClearsSucceed (c : Client) : Operation → Prop
  | .event env ev => c.LosesLease ev → env.SetsSucceed
  | .setCallbacks _ _ => True

instance (c : Client) (ev : Event) : Decidable (c.LosesLease ev) :=
  decidable_of_iff
    (((c.delivered ev).map Prod.snd = some MsgType.nak.toByte ∧
        (c.lease.state = .renewing ∨ c.lease.state = .rebinding)) ∨
      (ev = .leaseTimer false ∨ ev = .leaseTimer true) ∧ c.lease.state = .rebinding)
    (by
      have hnak : (c.delivered ev).map Prod.snd = some MsgType.nak.toByte ↔
          ∃ r, c.delivered ev = some (r, MsgType.nak.toByte) := by
        simp [Option.map_eq_some_iff]
      have htimer : (ev = .leaseTimer false ∨ ev = .leaseTimer true) ↔
          ∃ stale, ev = .leaseTimer stale := by
        simp [Bool.exists_bool]
      rw [Client.LosesLease, hnak, htimer])

instance (c : Client) : DecidablePred c.ClearsSucceed
  | .event env ev => inferInstanceAs (Decidable (c.LosesLease ev → env.SetsSucceed))
  | .setCallbacks _ _ => isTrue trivial

/-- A lease applied to an interface that is not configured yet gets its address set if it has a
netmask and the netmask was set. -/
def Client.FirstApplyCompletes (c : Client) : Operation → Prop
  | .event env ev => ∀ l, c.committed env ev = some l → c.lease.ifaceConfigured = false →
      l.netmask ≠ .none → env.setNetmask = true → env.setIpAddress = true
  | .setCallbacks _ _ => True

section
variable {c : Client} {env : Env}

theorem commitLease_flagHonest (h : c.FlagHonest)
    (hok : c.lease.ifaceConfigured = false → c.lease.netmask ≠ .none → env.setNetmask = true →
      env.setIpAddress = true) : (commitLease env c).FlagHonest := by
  intro hflag
  obtain ⟨hconf, hnetif⟩ := commitLease_interface env c
  rw [hconf, Bool.or_eq_false_iff] at hflag
  obtain ⟨hip, hmask, hbc⟩ := h hflag.1
  rw [hnetif hflag.2]
  refine ⟨hip, ?_, hbc⟩
  show (if env.setNetmask then c.lease.netmask else c.netif.netmask) = .none
  by_cases hset : env.setNetmask = true
  · rw [if_pos hset]
    by_contra hmask'
    have hboth := hflag.2
    rw [hset, hok hflag.1 hmask' hset] at hboth
    cases hboth
  · rw [if_neg hset]
    exact hmask

theorem lostUnapply_clears (henv : env.SetsSucceed) (h : c.FlagHonest) :
    (lostUnapply env c).lease.ifaceConfigured = false ∧ (lostUnapply env c).netif.Unconfigured :=
  lifecycleUnapply_clears henv h

theorem lifecycleHandleLost_clears (henv : env.SetsSucceed) (h : c.FlagHonest) :
    (lifecycleHandleLost env c).netif.Unconfigured := by
  rw [lifecycleHandleLost, lostRestart, outputStartDiscovery_netif, callOnExpiredOrLost_netif]
  exact (lostUnapply_clears henv h).2

theorem stopSection_clean (henv : env.SetsSucceed) (h : c.FlagHonest) :
    (stopSection env c).netif.Unconfigured := by
  unfold stopSection
  by_cases hc : c.lease.ifaceConfigured = true
  · rw [if_pos hc]
    exact (lifecycleUnapply_clears henv h).2
  · rw [if_neg hc]
    exact h (Bool.eq_false_iff.mpr hc)

theorem releaseSection_clean (henv : env.SetsSucceed) (h : c.FlagHonest) :
    (releaseSection env c).netif.Unconfigured := by
  unfold releaseSection
  dsimp only
  split_ifs with hsend
  · apply stopSection_clean henv
    unfold Client.FlagHonest outputSendRelease
    rw [sendMessage_lease, sendMessage_netif]
    exact h
  · exact stopSection_clean henv h

theorem Client.before_flagHonest (h : c.FlagHonest) (ev : Event) : (c.before ev).FlagHonest := by
  obtain ⟨hnetif, -, -, rt, lt, hlease⟩ := c.before_same ev
  unfold Client.FlagHonest
  rw [hnetif, hlease]
  exact h

-- The lost path is taken where the event says so.
theorem Client.losesLease_before {ev : Event} (h : (c.before ev).LosesLease ev) :
    c.LosesLease ev := by
  unfold Client.LosesLease at h ⊢
  rw [Client.before_state] at h
  rcases h with ⟨⟨r, hd⟩, hs⟩ | h
  · rw [Client.before_of_delivered hd] at hd
    exact .inl ⟨⟨r, hd⟩, hs⟩
  · exact .inr h

/-- **One step** keeps the flag honest if a first apply completes. -/
theorem Client.operate_flagHonest {o : Operation} (h : c.FlagHonest) (hclears : c.ClearsSucceed o)
    (hok : c.FirstApplyCompletes o) : (c.operate o).FlagHonest := by
  cases o with
  | setCallbacks callbacks userData => exact h
  | event env ev =>
    have hbefore := c.before_flagHonest h ev
    obtain ⟨c₁, after, hreact, heq⟩ := c.operate_reaction env ev
    rw [heq]
    -- What is left to be done does not touch the interface, unless the lease is lost.
    have hfinish (hafter : after ≠ .lost) (h₁ : c₁.FlagHonest) :
        (after.finish env c₁).FlagHonest := by
      obtain ⟨hlease, hnetif, -⟩ := (show (after.finish env c₁).lease = c₁.lease ∧ _ from
        After.finish_eq hafter c₁)
      unfold Client.FlagHonest
      rw [hlease, hnetif]
      exact h₁
    obtain ⟨-, -, -, rt, lt, hlease⟩ := c.before_same ev
    rcases hreact.move_or_commit with ⟨hmove, hafter⟩ | ⟨rfl, rfl, ⟨stale, rfl⟩, hs, harp⟩ |
      ⟨r, rfl, rfl, hd, hs⟩ | ⟨rfl, rfl, hl⟩
    · apply hfinish
      · rcases hafter with rfl | rfl <;> nofun
      · unfold Client.FlagHonest
        rw [hmove.frame.ifaceConfigured, hmove.frame.netif]
        exact hbefore
    · apply hfinish nofun
      rw [Client.before_state] at hs
      have hcommitted : c.committed env (.retransmit stale) = some c.lease := if_pos ⟨hs, harp⟩
      have hprobed : ((c.before (.retransmit stale)).emit
          (.probe (c.before (.retransmit stale)).lease.offeredIp false)).FlagHonest := hbefore
      apply commitLease_flagHonest hprobed
      rw [Client.emit_lease, hlease]
      exact hok c.lease hcommitted
    · apply hfinish nofun
      have hsame := Client.before_of_delivered hd
      rw [hsame] at hd hs
      have hcommitted : c.committed env ev =
          some (populateLeaseFromOptions env r.msg r.options c.lease) :=
        Client.committed_of_renewalAck (Client.mem_renewalAck.mpr ⟨hd, hs⟩)
      rw [hsame]
      exact commitLease_flagHonest h (hok _ hcommitted)
    · intro _
      exact lifecycleHandleLost_clears (hclears (Client.losesLease_before hl)) hbefore

end

/-! ## 3. Every run -/

/-- However the lease ends here, with the clearing calls succeeding, the interface is blank: stopped,
released, or lost.  `dmdhcp_lease_table_deinit` ends a lease as `dmdhcp_stop` does. -/
structure Client.EndsClean (c : Client) : Prop where
  stopped : ∀ env : Env, env.SetsSucceed → (stopSection env c).netif.Unconfigured
  released : ∀ env : Env, env.SetsSucceed → (releaseSection env c).netif.Unconfigured
  lost : ∀ (env : Env) (ev : Event), env.SetsSucceed → c.LosesLease ev →
    (c.operate (.event env ev)).netif.Unconfigured

-- A lost lease leaves through `dmdhcp_lifecycle_handle_lost`.
theorem Client.step_of_losesLease {c : Client} (env : Env) {ev : Event} (h : c.LosesLease ev) :
    c.step (env, ev) = lifecycleHandleLost env (c.before ev) := by
  rw [Client.step_eq]
  rcases h with ⟨⟨r, hd⟩, hs⟩ | ⟨⟨stale, rfl⟩, hs⟩
  · have hsection : c.eventSection env ev = (c, .lost) := by
      cases ev with
      | datagram iface payload =>
        simp only [Client.eventSection, hd, datagramSection]
        rcases hs with hs | hs <;> simp [hs, MsgType.toByte]
      | retransmit stale => cases hd
      | leaseTimer stale => cases hd
      | renew => cases hd
    have hsame : c.before ev = c := by
      cases ev with
      | datagram iface payload => rfl
      | retransmit stale => cases hd
      | leaseTimer stale => cases hd
      | renew => cases hd
    rw [hsection, hsame]
    rfl
  · have hs' : (c.before (.leaseTimer stale)).lease.state = .rebinding :=
      (c.before_state _).trans hs
    show (leaseTimerSection env (c.before (.leaseTimer stale))).2.finish env
      (leaseTimerSection env (c.before (.leaseTimer stale))).1 = _
    rw [leaseTimerSection, if_neg (by rw [hs']; decide), if_neg (by rw [hs']; decide), if_pos hs']
    rfl

theorem Client.FlagHonest.endsClean {c : Client} (h : c.FlagHonest) : c.EndsClean where
  stopped _ henv := stopSection_clean henv h
  released _ henv := releaseSection_clean henv h
  lost env ev henv hl := by
    rw [show c.operate (.event env ev) = _ from c.step_of_losesLease env hl]
    exact lifecycleHandleLost_clears henv (c.before_flagHonest h ev)

-- A first apply that stops after the netmask is never cleaned up: `dmdhcp_stop` trusts the flag.
theorem Client.not_endsClean {c : Client} {o : Operation} (hbad : ¬c.FirstApplyCompletes o) :
    ¬(c.operate o).EndsClean := by
  cases o with
  | setCallbacks callbacks userData => exact absurd trivial hbad
  | event env ev =>
    unfold Client.FirstApplyCompletes at hbad
    push Not at hbad
    obtain ⟨l, hl, hconf, hmask, hset, hip⟩ := hbad
    obtain ⟨c₀, isRenewal, hsec, htakes⟩ := Client.eventSection_of_committed hl
    have heq : c.operate (.event env ev) = callOnBound isRenewal (commitLease env c₀) := by
      rw [show c.operate (.event env ev) = _ from c.step_eq env ev, hsec]
      rfl
    obtain ⟨hflag, hnetif⟩ := commitLease_interface env c₀
    have hboth : (env.setNetmask && env.setIpAddress) = false := by
      rw [hset, Bool.eq_false_iff.mpr hip]
      rfl
    rw [hboth, htakes.ifaceConfigured, hconf] at hflag
    intro hends
    have hclean := hends.stopped (quietEnv 0) (by decide)
    rw [heq, stopSection, callOnBound_lease, hflag, if_neg (by decide), callOnBound_netif,
      hnetif hboth, if_pos hset, htakes.netmask] at hclean
    exact hmask hclean.2.1

/-- **The interface is left clean exactly if no first apply stops half-way.**  Over the runs of a
lease started on a blank interface whose clearing calls succeed: the runs in which every first
apply that sets a netmask also sets the address are those in which, after every operation, the
lease would end clean however it ended. -/
theorem ends_clean_iff {env : Env} {iface : Iface} {netif : Netif} (hblank : netif.Unconfigured)
    {callbacks : Callbacks} {userData : Nat} {options : Option StartOptions}
    {ops : List Operation} {c : Client} :
    (Client.start env iface netif callbacks userData options).EndsClean ∧
    (Lts.Run (Lts.Guarded (Lts.Guarded (Lts.ofTotal Client.operate) Client.ClearsSucceed)
        Client.FirstApplyCompletes)
        (Client.start env iface netif callbacks userData options) ops c ↔
      Lts.Run (Lts.Ensuring (Lts.Guarded (Lts.ofTotal Client.operate) Client.ClearsSucceed)
        Client.EndsClean)
        (Client.start env iface netif callbacks userData options) ops c) := by
  have hfresh := start_fresh env iface netif callbacks userData options
  have hstart : (Client.start env iface netif callbacks userData options).FlagHonest := by
    intro _
    rw [hfresh.netif]
    exact hblank
  refine ⟨hstart.endsClean, Lts.Run.guarded_iff_ensuring ?_ (fun c h => h.endsClean) ?_ hstart⟩
  · rintro c o c' h ⟨rfl, hclears⟩ hok
    exact Client.operate_flagHonest h hclears hok
  · rintro c o c' h ⟨rfl, hclears⟩ hbad
    exact Client.not_endsClean hbad

/-- A complete acquisition ends clean at every moment. -/
theorem ends_clean_iff_acquired :
    ∃ c, Lts.Run (Lts.Ensuring (Lts.Guarded (Lts.ofTotal Client.operate) Client.ClearsSucceed)
        Client.EndsClean)
        startedClient (operations (acquireInputs ⟨10, 0, 0, 5⟩ ⟨10, 0, 0, 1⟩ 3600)) c ∧
      c.lease.state = .bound := by
  have hsets : ∀ o ∈ operations (acquireInputs ⟨10, 0, 0, 5⟩ ⟨10, 0, 0, 1⟩ 3600),
      ∃ ev, o = .event (quietEnv 7) ev := by
    simp [operations, acquireInputs]
  have hrun := ((Lts.foldl_run Client.operate startedClient
    (operations (acquireInputs ⟨10, 0, 0, 5⟩ ⟨10, 0, 0, 1⟩ 3600))).guard
      Client.ClearsSucceed ?_).guard Client.FirstApplyCompletes ?_
  · exact ⟨_, (ends_clean_iff (show blankNetif.Unconfigured by decide)).2.mp hrun, by decide +kernel⟩
  · intro o ho c
    obtain ⟨ev, rfl⟩ := hsets o ho
    exact fun _ => by decide
  · intro o ho c
    obtain ⟨ev, rfl⟩ := hsets o ho
    exact fun _ _ _ _ _ => rfl

/-- The first apply of this acquisition sets the netmask and then fails to set the address. -/
def halfApplied : List (Env × Event) :=
  (acquireInputs ⟨10, 0, 0, 5⟩ ⟨10, 0, 0, 1⟩ 3600).dropLast ++
    [({ quietEnv 7 with setIpAddress := false }, .retransmit false)]

/-- The netmask of a half-applied lease stays when the lease is stopped, released or refused. -/
theorem half_applied_lease_leaves_netmask :
    ∃ c, Lts.Run (Lts.Guarded (Lts.ofTotal Client.operate) Client.ClearsSucceed)
        startedClient (operations (halfApplied ++ [(quietEnv 8, .renew)])) c ∧
      blankNetif.Unconfigured ∧ (quietEnv 9).SetsSucceed ∧
      (stopSection (quietEnv 9) c).netif.netmask = .v4 ⟨255, 255, 255, 0⟩ ∧
      (releaseSection (quietEnv 9) c).netif.netmask = .v4 ⟨255, 255, 255, 0⟩ ∧
      c.LosesLease (.datagram 1 (replyPayload .nak 8 ⟨0, 0, 0, 0⟩ [])) ∧
      (c.operate (.event (quietEnv 9)
        (.datagram 1 (replyPayload .nak 8 ⟨0, 0, 0, 0⟩ [])))).netif.netmask =
          .v4 ⟨255, 255, 255, 0⟩ := by
  have hrun := Lts.foldl_run_guarded Client.operate Client.ClearsSucceed startedClient
    (operations (halfApplied ++ [(quietEnv 8, .renew)])) (by decide +kernel)
  exact ⟨_, hrun, by decide, by decide, by decide +kernel, by decide +kernel, by decide +kernel,
    by decide +kernel⟩

end Dmdhcp
