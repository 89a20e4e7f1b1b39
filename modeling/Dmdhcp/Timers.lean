import Dmdhcp.Reactions

/-!
# The client is never stuck

The two one-shot timers are re-armed by hand, in every transition that needs one.  A lease that
waits for something has the timer armed that ends the wait; only `failed` waits for nothing.
-/

namespace Dmdhcp

/-! ## 1. Armed timers -/

def Timer.Armed (t : Timer) : Prop := t.deadline.isSome = true

instance (t : Timer) : Decidable t.Armed := inferInstanceAs (Decidable (_ = _))

@[simp] theorem Timer.arm_armed (now : Nat) (periodMs : UInt32) : (Timer.arm now periodMs).Armed :=
  rfl

theorem Timer.disarm_armed (t : Timer) : ¬t.disarm.Armed := Bool.false_ne_true

/-- The state has left the two that `dmdhcp_start` leaves at once, and each timer is armed in the
states that wait for it. -/
structure TimersArmed (l : Lease) : Prop where
  started : l.state ≠ .init ∧ l.state ≠ .initReboot
  retransmit : l.state.awaitsRetransmit = true → l.retransmitTimer.Armed
  lease : l.state.holdsValidLease = true → l.leaseTimer.Armed

theorem TimersArmed.of_state {l : Lease} (state : State) (hs : l.state = state)
    (hstarted : state ≠ .init ∧ state ≠ .initReboot)
    (hretransmit : state.awaitsRetransmit = true → l.retransmitTimer.Armed)
    (hlease : state.holdsValidLease = true → l.leaseTimer.Armed) : TimersArmed l := by
  subst hs
  exact ⟨hstarted, hretransmit, hlease⟩

-- Only a fire of `retransmit_timer` disarms it.
theorem Client.before_retransmitTimer (c : Client) {ev : Event}
    (h : ∀ stale, ev ≠ .retransmit stale) :
    (c.before ev).lease.retransmitTimer = c.lease.retransmitTimer := by
  cases ev with
  | retransmit stale => exact absurd rfl (h stale)
  | leaseTimer stale => cases stale <;> rfl
  | datagram iface payload => rfl
  | renew => rfl

-- Only a fire of `lease_timer` disarms it.
theorem Client.before_leaseTimer (c : Client) {ev : Event} (h : ∀ stale, ev ≠ .leaseTimer stale) :
    (c.before ev).lease.leaseTimer = c.lease.leaseTimer := by
  cases ev with
  | leaseTimer stale => exact absurd rfl (h stale)
  | retransmit stale => cases stale <;> rfl
  | datagram iface payload => rfl
  | renew => rfl

/-! ## 2. One step -/

section
variable {env : Env} {c : Client}

theorem outputStartDiscovery_timersArmed : TimersArmed (outputStartDiscovery env c).lease := by
  rw [outputStartDiscovery_lease]
  exact .of_state .selecting rfl (by decide) (fun _ => Timer.arm_armed _ _) nofun

theorem commitLease_timersArmed : TimersArmed (commitLease env c).lease := by
  obtain ⟨configured, route, h⟩ := commitLease_lease env c
  rw [h]
  exact .of_state .bound rfl (by decide) nofun (fun _ => Timer.arm_armed _ _)

-- The pause after a DECLINE is armed; after the last conflict nothing is, and nothing waits.
theorem handleConflict_timersArmed : TimersArmed (handleConflict env c).1.lease := by
  by_cases h : c.lease.declineRetryCount + 1 > maxDeclineRetries
  · rw [handleConflict_failed env c h]
    exact .of_state .failed rfl (by decide) nofun nofun
  · rw [handleConflict_declining env c h]
    exact .of_state .declining rfl (by decide) (fun _ => Timer.arm_armed _ _) nofun

theorem acceptForProbe_timersArmed {r : Reply} {next : State}
    (hs : next = .checkingOffer ∨ next = .checkingAck) :
    TimersArmed (acceptForProbe env r next c).lease := by
  rw [acceptForProbe_lease]
  rcases hs with rfl | rfl
  · exact .of_state .checkingOffer rfl (by decide) (fun _ => Timer.arm_armed _ _) nofun
  · exact .of_state .checkingAck rfl (by decide) (fun _ => Timer.arm_armed _ _) nofun

-- What an event leaves to be done keeps the timers armed, or restarts discovery.
theorem After.finish_timersArmed {after : After} (h : TimersArmed c.lease) :
    TimersArmed (after.finish env c).lease := by
  cases after with
  | done => exact h
  | onBound isRenewal =>
    show TimersArmed (callOnBound isRenewal c).lease
    rw [callOnBound_lease]
    exact h
  | onError error =>
    show TimersArmed (callOnError error c).lease
    rw [callOnError_lease]
    exact h
  | lost => exact outputStartDiscovery_timersArmed

-- The lost path arms the timer itself, whatever the timers were.
theorem After.finish_lost_timersArmed : TimersArmed (After.lost.finish env c).lease :=
  outputStartDiscovery_timersArmed

-- One event: each reaction leaves armed what its new state waits for.
theorem Client.step_timersArmed {ev : Event} (h : TimersArmed c.lease) :
    TimersArmed (c.step (env, ev)).lease := by
  obtain ⟨c₁, after, hreact, heq⟩ := c.operate_reaction env ev
  rw [show c.step (env, ev) = after.finish env c₁ from heq]
  have hstarted : (c.before ev).lease.state ≠ .init ∧ (c.before ev).lease.state ≠ .initReboot := by
    rw [Client.before_state]
    exact h.started
  have hretransmit (hev : ∀ stale, ev ≠ .retransmit stale)
      (hs : (c.before ev).lease.state.awaitsRetransmit = true) :
      (c.before ev).lease.retransmitTimer.Armed := by
    rw [Client.before_state] at hs
    rw [c.before_retransmitTimer hev]
    exact h.retransmit hs
  have hlease (hev : ∀ stale, ev ≠ .leaseTimer stale)
      (hs : (c.before ev).lease.state.holdsValidLease = true) :
      (c.before ev).lease.leaseTimer.Armed := by
    rw [Client.before_state] at hs
    rw [c.before_leaseTimer hev]
    exact h.lease hs
  cases hreact with
  | idle hr hl =>
    -- A timer that fires with nothing to do is one the state does not wait for.
    refine After.finish_timersArmed ⟨hstarted, fun hs => ?_, fun hs => ?_⟩
    · by_cases hev : ∃ stale, ev = .retransmit stale
      · obtain ⟨stale, rfl⟩ := hev
        rw [hr stale rfl] at hs
        cases hs
      · exact hretransmit (fun stale heq => hev ⟨stale, heq⟩) hs
    · by_cases hev : ∃ stale, ev = .leaseTimer stale
      · obtain ⟨stale, rfl⟩ := hev
        rw [hl stale rfl] at hs
        cases hs
      · exact hlease (fun stale heq => hev ⟨stale, heq⟩) hs
  | offer r hd hs => exact After.finish_timersArmed (acceptForProbe_timersArmed (.inl rfl))
  | ack r hd hs => exact After.finish_timersArmed (acceptForProbe_timersArmed (.inr rfl))
  | restart hover => exact After.finish_timersArmed outputStartDiscovery_timersArmed
  | renewed r hd hs => exact After.finish_timersArmed commitLease_timersArmed
  | lost hl => exact After.finish_lost_timersArmed
  | resend s count hev hs hcount =>
    -- A resend in `renewing` or `rebinding` leaves the lease timer running.
    obtain ⟨stale, rfl⟩ := hev
    apply After.finish_timersArmed
    rw [rearmBackoff_lease, Sender.send, sendMessage_lease]
    exact ⟨hstarted, fun _ => Timer.arm_armed _ _, hlease (fun _ heq => nomatch heq)⟩
  | conflict hev hs harp => exact After.finish_timersArmed handleConflict_timersArmed
  | request hev hs harp =>
    apply After.finish_timersArmed
    rw [requestOffered_lease]
    exact .of_state .requesting rfl (by decide) (fun _ => Timer.arm_armed _ _) nofun
  | commit hev hs harp => exact After.finish_timersArmed commitLease_timersArmed
  | renew hev hs =>
    -- `dmdhcp_renew` does not touch the lease timer: T1 keeps running as the end of `renewing`.
    subst hev
    apply After.finish_timersArmed
    rw [outputStartRenew_lease]
    exact .of_state .renewing rfl (by decide) (fun _ => Timer.arm_armed _ _) fun _ =>
      hlease (fun _ heq => nomatch heq) (by rw [hs]; rfl)
  | t1 hev hs =>
    apply After.finish_timersArmed
    rw [outputStartRenew_armT2_lease]
    exact .of_state .renewing rfl (by decide) (fun _ => Timer.arm_armed _ _) (fun _ => Timer.arm_armed _ _)
  | t2 hev hs =>
    apply After.finish_timersArmed
    rw [outputStartRebind_armExpiry_lease]
    exact .of_state .rebinding rfl (by decide) (fun _ => Timer.arm_armed _ _) (fun _ => Timer.arm_armed _ _)

end

theorem Client.operate_timersArmed {c : Client} (o : Operation) (h : TimersArmed c.lease) :
    TimersArmed (c.operate o).lease := by
  cases o with
  | event env ev => exact Client.step_timersArmed h
  | setCallbacks callbacks userData => exact ⟨h.started, h.retransmit, h.lease⟩

theorem start_timersArmed (env : Env) (iface : Iface) (netif : Netif) (callbacks : Callbacks)
    (userData : Nat) (options : Option StartOptions) :
    TimersArmed (Client.start env iface netif callbacks userData options).lease := by
  unfold Client.start startSection
  split
  · rw [outputStartReboot_lease]
    exact .of_state .rebooting rfl (by decide) (fun _ => Timer.arm_armed _ _) nofun
  · exact outputStartDiscovery_timersArmed

/-! ## 3. Every run -/

/-- The timer is armed, and whatever the world answers, its fire does more than disarm it. -/
def Client.RetransmitActs (c : Client) : Prop :=
  c.lease.retransmitTimer.Armed ∧ ∀ env, c.step (env, .retransmit false) ≠ c.disarmRetransmit

def Client.LeaseTimerActs (c : Client) : Prop :=
  c.lease.leaseTimer.Armed ∧ ∀ env, c.step (env, .leaseTimer false) ≠ c.disarmLease

-- If a fire did nothing, it would leave a waiting state without its timer.
theorem TimersArmed.retransmitActs {c : Client} (h : TimersArmed c.lease)
    (hs : c.lease.state.awaitsRetransmit = true) : c.RetransmitActs := by
  refine ⟨h.retransmit hs, fun env heq => ?_⟩
  have hnext : TimersArmed (c.step (env, .retransmit false)).lease := Client.step_timersArmed h
  rw [heq] at hnext
  exact Timer.disarm_armed _ (hnext.retransmit hs)

theorem TimersArmed.leaseTimerActs {c : Client} (h : TimersArmed c.lease)
    (hs : c.lease.state.holdsValidLease = true) : c.LeaseTimerActs := by
  refine ⟨h.lease hs, fun env heq => ?_⟩
  have hnext : TimersArmed (c.step (env, .leaseTimer false)).lease := Client.step_timersArmed h
  rw [heq] at hnext
  exact Timer.disarm_armed _ (hnext.lease hs)

-- In `failed` a fire disarms its timer and does nothing else.
theorem Client.not_acts_of_failed {c : Client} (hs : c.lease.state = .failed) :
    ¬c.RetransmitActs ∧ ¬c.LeaseTimerActs := by
  constructor
  · rintro ⟨-, hacts⟩
    have hs' : c.disarmRetransmit.lease.state = .failed := hs
    exact hacts (quietEnv 0) (by simp [Client.step, Client.before, retransmitTimerCallback,
      retransmitTimerSection, hs', After.finish])
  · rintro ⟨-, hacts⟩
    have hs' : c.disarmLease.lease.state = .failed := hs
    exact hacts (quietEnv 0) (by simp [Client.step, Client.before, leaseTimerCallback,
      leaseTimerSection, hs', After.finish])

-- A state that has been started and waits for no timer is `failed`.
theorem TimersArmed.failed {l : Lease} (h : TimersArmed l)
    (hr : l.state.awaitsRetransmit = false) (hl : l.state.holdsValidLease = false) :
    l.state = .failed := by
  have hstarted := h.started
  cases hs : l.state with
  | init => exact absurd hs hstarted.1
  | initReboot => exact absurd hs hstarted.2
  | failed => rfl
  | bound => rw [hs] at hl; cases hl
  | selecting => rw [hs] at hr; cases hr
  | checkingOffer => rw [hs] at hr; cases hr
  | requesting => rw [hs] at hr; cases hr
  | checkingAck => rw [hs] at hr; cases hr
  | renewing => rw [hs] at hr; cases hr
  | rebinding => rw [hs] at hr; cases hr
  | rebooting => rw [hs] at hr; cases hr
  | declining => rw [hs] at hr; cases hr

/-- **The client is never stuck.** In every state a started lease reaches, the timers its state waits
for are armed, and no armed timer would act only in `failed`. -/
theorem timers_armed_in_every_run {env : Env} {iface : Iface} {netif : Netif}
    {callbacks : Callbacks} {userData : Nat} {options : Option StartOptions} {ops : List Operation}
    {c : Client}
    (hrun : Lts.Run (Lts.ofTotal Client.operate)
      (Client.start env iface netif callbacks userData options) ops c) :
    (c.lease.state ∈ [State.selecting, .checkingOffer, .requesting, .checkingAck, .rebooting,
        .renewing, .rebinding, .declining] → c.lease.retransmitTimer.Armed) ∧
    (c.lease.state ∈ [State.bound, .renewing, .rebinding] → c.lease.leaseTimer.Armed) ∧
    (¬c.RetransmitActs ∧ ¬c.LeaseTimerActs ↔ c.lease.state = .failed) := by
  have harmed : TimersArmed c.lease :=
    hrun.invariant (I := fun c => TimersArmed c.lease)
      (fun c o c' h hstep => hstep ▸ Client.operate_timersArmed o h)
      (start_timersArmed env iface netif callbacks userData options)
  refine ⟨fun hs => harmed.retransmit ?_, fun hs => harmed.lease ?_, fun hno => ?_, ?_⟩
  · revert hs
    cases c.lease.state <;> decide
  · revert hs
    cases c.lease.state <;> decide
  · apply harmed.failed
    · exact Bool.eq_false_iff.mpr fun hs => hno.1 (harmed.retransmitActs hs)
    · exact Bool.eq_false_iff.mpr fun hs => hno.2 (harmed.leaseTimerActs hs)
  · exact Client.not_acts_of_failed

/-- A lease that has been acquired, then renewed by hand: both timers are running. -/
theorem timers_armed_after_renew :
    ∃ c, Lts.Run (Lts.ofTotal Client.operate) startedClient
        (operations (acquireInputs ⟨10, 0, 0, 7⟩ ⟨10, 0, 0, 1⟩ 3600 ++ [(quietEnv 8, .renew)])) c ∧
      c.lease.state = .renewing ∧ c.lease.retransmitTimer.Armed ∧ c.lease.leaseTimer.Armed := by
  have hrun := Lts.foldl_run Client.operate startedClient
    (operations (acquireInputs ⟨10, 0, 0, 7⟩ ⟨10, 0, 0, 1⟩ 3600 ++ [(quietEnv 8, .renew)]))
  have hs : ((operations (acquireInputs ⟨10, 0, 0, 7⟩ ⟨10, 0, 0, 1⟩ 3600 ++
      [(quietEnv 8, .renew)])).foldl Client.operate startedClient).lease.state = .renewing := by
    decide +kernel
  have harmed := timers_armed_in_every_run hrun
  exact ⟨_, hrun, hs, harmed.1 (by rw [hs]; decide), harmed.2.1 (by rw [hs]; decide)⟩

end Dmdhcp
