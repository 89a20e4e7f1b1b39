import Dmdhcp.Deadlines
import Dmdhcp.Mirror
import Dmdhcp.Schedule
import Dmdhcp.Timers

/-!
# A network that falls silent

Nothing tells the client that its server is gone; each wait ends by a timer.  Whatever a lease is
doing when the last OFFER or ACK has been heard, there is a moment after which it is back at sending
DISCOVER, or has given up for good, with nothing left on the interface.
-/

namespace Dmdhcp

/-! ## 1. Runs in time -/

/-- A client and the time. -/
structure Clocked where
  client : Client
  now : Nat

/-- A timer fires when its period is over; a fire that was under way as its timer was stopped or
started again may come at any moment, as may everything else. -/
def Clocked.Due (t : Clocked) : Event → Prop
  | .retransmit false => t.client.lease.retransmitTimer.deadline = some t.now
  | .leaseTimer false => t.client.lease.leaseTimer.deadline = some t.now
  | _ => True

instance (t : Clocked) : (ev : Event) → Decidable (t.Due ev)
  | .retransmit false => inferInstanceAs (Decidable (_ = _))
  | .leaseTimer false => inferInstanceAs (Decidable (_ = _))
  | .retransmit true => inferInstanceAs (Decidable True)
  | .leaseTimer true => inferInstanceAs (Decidable True)
  | .datagram _ _ => inferInstanceAs (Decidable True)
  | .renew => inferInstanceAs (Decidable True)

/-- Time does not run past a timer that is due. -/
def Clocked.step (t : Clocked) : TimedEvent → Option Clocked
  | .advance ms =>
    if t.client.lease.retransmitTimer.Allows (t.now + ms) ∧
        t.client.lease.leaseTimer.Allows (t.now + ms) then
      some { t with now := t.now + ms }
    else none
  | .event env ev =>
    if t.Due ev then some ⟨t.client.step ({ env with now := t.now }, ev), t.now⟩ else none

/-- The event is an OFFER or an ACK that the client is waiting for. -/
def Client.hears (c : Client) (ev : Event) : Bool :=
  match c.delivered ev with
  | some (_, msgType) =>
    (msgType == MsgType.offer.toByte && c.lease.state == .selecting) ||
      (msgType == MsgType.ack.toByte &&
        (c.lease.state == .requesting || c.lease.state == .rebooting ||
          c.lease.state == .renewing || c.lease.state == .rebinding))
  | none => false

/-- No such message arrives.  NAKs, other datagrams and answers to ARP probes may. -/
def Clocked.Silent (t : Clocked) : TimedEvent → Prop
  | .event _ ev => t.client.hears ev = false
  | .advance _ => True

instance (t : Clocked) : (e : TimedEvent) → Decidable (t.Silent e)
  | .event _ _ => inferInstanceAs (Decidable (_ = _))
  | .advance _ => inferInstanceAs (Decidable True)

/-- Discovery goes on, or has ended for good. -/
def State.Settled (s : State) : Prop := s = .selecting ∨ s = .failed

/-! ## 2. When a wait is over -/

/-- The timer whose fire takes the lease on. -/
def Lease.awaited (l : Lease) : Timer :=
  if l.state.holdsValidLease then l.leaseTimer else l.retransmitTimer

/-- The intervals after the next `n` resends. -/
def resendsMs (intervalMs : UInt32) : Nat → Nat
  | 0 => 0
  | n + 1 => (nextBackoff intervalMs).toNat + resendsMs (nextBackoff intervalMs) n

/-- How long a REQUEST is repeated. -/
def requestMs : Nat :=
  retransmitInitialMs.toNat + resendsMs retransmitInitialMs maxRequestRetransmits.toNat

example : requestMs = 124000 := by decide

/-- How much longer the lease can go on unanswered once that timer has fired. -/
def Lease.afterFire (l : Lease) : Nat :=
  match l.state with
  | .requesting =>
    resendsMs l.retransmitIntervalMs (maxRequestRetransmits.toNat - l.retransmitCount.toNat)
  | .rebooting =>
    resendsMs l.retransmitIntervalMs (maxRequestRetransmits.toNat - l.retransmitCount.toNat)
  | .checkingOffer => max declinePauseMs.toNat requestMs
  | .checkingAck => max declinePauseMs.toNat (heldMs l)
  | .bound => (periodT2 l).toNat + (periodExpiry l).toNat
  | .renewing => (periodExpiry l).toNat
  | _ => 0

/-- When the lease is given up at the latest, if nothing is heard any more. -/
def Lease.givesUpAt (l : Lease) : Nat := l.awaited.deadline.getD 0 + l.afterFire

theorem nextBackoff_le (intervalMs : UInt32) : (nextBackoff intervalMs).toNat ≤ 64000 := by
  unfold nextBackoff
  dsimp only
  split_ifs with h
  · exact Nat.le_refl _
  · exact UInt32.le_iff_toNat_le.mp (UInt32.not_lt.mp h)

/-- The timer that ends the wait is armed and not overdue. -/
structure Clocked.Punctual (t : Clocked) : Prop where
  armed : TimersArmed t.client.lease
  allows : t.client.lease.awaited.Allows t.now
  resends : t.client.lease.state = .requesting ∨ t.client.lease.state = .rebooting →
    t.client.lease.retransmitCount.toNat ≤ 4
  discover : t.client.lease.state = .selecting →
    ∀ deadline ∈ t.client.lease.awaited.deadline, deadline ≤ t.now + 64000

-- In a state that waits, the end of the wait is ahead.
theorem Clocked.Punctual.now_le {t : Clocked} (h : t.Punctual)
    (hs : t.client.lease.state ≠ .failed) :
    ∃ deadline, t.client.lease.awaited.deadline = some deadline ∧ t.now ≤ deadline := by
  have harmed : t.client.lease.awaited.Armed := by
    unfold Lease.awaited
    split_ifs with hheld
    · exact h.armed.lease hheld
    · refine h.armed.retransmit ?_
      by_contra hno
      exact hs (h.armed.failed (Bool.not_eq_true _ ▸ hno) (Bool.not_eq_true _ ▸ hheld))
  obtain ⟨deadline, hdeadline⟩ := Option.isSome_iff_exists.mp harmed
  exact ⟨deadline, hdeadline, h.allows deadline hdeadline⟩

theorem Clocked.Punctual.now_le_givesUpAt {t : Clocked} (h : t.Punctual)
    (hs : t.client.lease.state ≠ .failed) : t.now ≤ t.client.lease.givesUpAt := by
  obtain ⟨deadline, hdeadline, hnow⟩ := h.now_le hs
  rw [Lease.givesUpAt, hdeadline]
  exact Nat.le_add_right_of_le hnow

/-! ## 3. One event -/

/-- What an event does to the wait of a lease: it goes on, or another one begins now.  Unless a
message was heard, the end of the two waits together is not put off. -/
inductive Lease.Goes (now : Nat) (heard : Prop) (l l' : Lease) : Prop
  | on (hkeep : l'.state = l.state ∧ l'.retransmitCount = l.retransmitCount ∨
        l'.state = .renewing ∨ l'.state = .failed)
      (hawaited : l'.awaited = l.awaited ∨ l'.awaited.deadline = none)
      (hafter : l'.afterFire ≤ l.afterFire)
  | begins (p : UInt32) (hawaited : l'.awaited = .arm now p)
      (hresends : l'.state = .requesting ∨ l'.state = .rebooting → l'.retransmitCount.toNat ≤ 4)
      (hdiscover : l'.state = .selecting → p.toNat ≤ 64000)
      (hafter : heard ∨ l'.state.Settled ∨ p.toNat + l'.afterFire ≤ l.afterFire)

-- In most states nothing else has to be said of a wait that begins.
theorem Lease.Goes.begins_in {now : Nat} {heard : Prop} {l l' : Lease} (s : State)
    (hstate : l'.state = s) {p : UInt32} (hawaited : l'.awaited = .arm now p)
    (hs : s ≠ .requesting ∧ s ≠ .rebooting ∧ s ≠ .selecting)
    (hafter : heard ∨ l'.state.Settled ∨ p.toNat + l'.afterFire ≤ l.afterFire) :
    Lease.Goes now heard l l' := by
  subst hstate
  exact .begins p hawaited (fun h => (not_or.mpr ⟨hs.1, hs.2.1⟩ h).elim)
    (fun h => (hs.2.2 h).elim) hafter

-- Back to discovery.
theorem Lease.Goes.discovery (env : Env) (heard : Prop) (l : Lease) (c : Client) :
    Lease.Goes env.now heard l (outputStartDiscovery env c).lease := by
  rw [outputStartDiscovery_lease]
  exact .begins retransmitInitialMs rfl (fun _ => Nat.zero_le _) (fun _ => by decide)
    (.inr (.inl (.inl rfl)))

-- A fire disarms the timer waited for, if it is its own, and leaves it alone otherwise.
theorem Client.before_awaited (c : Client) (ev : Event) :
    (c.before ev).lease.awaited = c.lease.awaited ∨
      (c.before ev).lease.awaited.deadline = none := by
  cases hheld : c.lease.state.holdsValidLease with
  | true =>
    have hbefore : (c.before ev).lease.awaited = (c.before ev).lease.leaseTimer := by
      rw [Lease.awaited, Client.before_state, hheld, if_pos rfl]
    rw [hbefore, Lease.awaited, hheld, if_pos rfl]
    cases ev with
    | leaseTimer stale => cases stale <;> first | exact .inr rfl | exact .inl rfl
    | retransmit stale => exact .inl (c.before_leaseTimer fun _ heq => nomatch heq)
    | datagram iface payload => exact .inl rfl
    | renew => exact .inl rfl
  | false =>
    have hbefore : (c.before ev).lease.awaited = (c.before ev).lease.retransmitTimer := by
      rw [Lease.awaited, Client.before_state, hheld, if_neg Bool.false_ne_true]
    rw [hbefore, Lease.awaited, hheld, if_neg Bool.false_ne_true]
    cases ev with
    | retransmit stale => cases stale <;> first | exact .inr rfl | exact .inl rfl
    | leaseTimer stale => exact .inl (c.before_retransmitTimer fun _ heq => nomatch heq)
    | datagram iface payload => exact .inl rfl
    | renew => exact .inl rfl

theorem Client.before_afterFire (c : Client) (ev : Event) :
    (c.before ev).lease.afterFire = c.lease.afterFire := by
  obtain ⟨_, _, hl⟩ := (c.before_same ev).lease
  rw [hl]
  rfl

theorem Client.before_hears (c : Client) (ev : Event) : (c.before ev).hears ev = c.hears ev := by
  cases ev <;> rfl

theorem State.sender_cases {s : State} {sender : Sender} (h : s.sender = some sender) :
    s = .selecting ∨ (s = .requesting ∨ s = .rebooting) ∨ s = .renewing ∨ s = .rebinding := by
  cases s <;> simp [State.sender] at h ⊢

theorem Client.hears_offer {c : Client} {ev : Event} {r : Reply}
    (h : c.delivered ev = some (r, MsgType.offer.toByte)) (hs : c.lease.state = .selecting) :
    c.hears ev = true := by
  simp [Client.hears, h, hs]

theorem Client.hears_ack {c : Client} {ev : Event} {r : Reply}
    (h : c.delivered ev = some (r, MsgType.ack.toByte))
    (hs : c.lease.state = .requesting ∨ c.lease.state = .rebooting ∨ c.lease.state = .renewing ∨
      c.lease.state = .rebinding) : c.hears ev = true := by
  rcases hs with hs | hs | hs | hs <;> simp [Client.hears, h, hs]

-- What a held lease has left once it is applied: all three periods.
theorem commitLease_wait (env : Env) (c : Client) :
    (commitLease env c).lease.awaited = .arm env.now (periodT1 c.lease) ∧
      (periodT1 c.lease).toNat + (commitLease env c).lease.afterFire = heldMs c.lease := by
  obtain ⟨configured, route, hl⟩ := commitLease_lease env c
  rw [hl]
  exact ⟨rfl, (Nat.add_assoc _ _ _).symm⟩

theorem Reaction.goes {env : Env} {ev : Event} {c c₁ : Client} {after : After}
    (h : Reaction env ev c c₁ after)
    (hresends : c.lease.state = .requesting ∨ c.lease.state = .rebooting →
      c.lease.retransmitCount.toNat ≤ 4) :
    Lease.Goes env.now (c.hears ev = true) c.lease (after.finish env c₁).lease := by
  cases h with
  | idle hr hl => exact .on (.inl ⟨rfl, rfl⟩) (.inl rfl) (Nat.le_refl _)
  | offer r hd hs =>
    rw [After.finish, acceptForProbe_lease]
    exact .begins_in .checkingOffer rfl (p := probeHandoffMs) rfl (by decide)
      (.inl (Client.hears_offer hd hs))
  | ack r hd hs =>
    rw [After.finish, acceptForProbe_lease]
    exact .begins_in .checkingAck rfl (p := probeHandoffMs) rfl (by decide)
      (.inl (Client.hears_ack hd (hs.imp_right .inl)))
  | renewed r hd hs =>
    rw [After.finish, callOnBound_lease, acceptRenewal]
    exact .begins_in .bound (commitLease_state env _) (commitLease_wait env _).1 (by decide)
      (.inl (Client.hears_ack hd (.inr (.inr hs))))
  | restart hover => exact .discovery env _ _ _
  | lost hl => exact .discovery env _ _ _
  | resend s count hev hs hcount =>
    rw [After.finish, rearmBackoff_lease, Sender.send, sendMessage_lease]
    rcases State.sender_cases hs with hs | hs | hs
    · -- A DISCOVER.
      refine .begins (nextBackoff c.lease.retransmitIntervalMs) ?_ (fun hcounted => ?_)
        (fun _ => nextBackoff_le _) (.inr (.inl (.inl hs)))
      · simp only [Lease.awaited, Client.update_lease, hs]
        rfl
      · simp only [Client.update_lease, hs, reduceCtorEq, or_self] at hcounted
    · -- A REQUEST without a lease, which is counted.
      rw [Client.Recounts, if_pos hs] at hcount
      obtain ⟨rfl, hroom⟩ := hcount
      rw [exceeds_maxRequestRetransmits (hresends hs)] at hroom
      have hcount := retransmitCount_succ (hresends hs)
      have hlimit := hresends hs
      refine .begins (nextBackoff c.lease.retransmitIntervalMs) ?_ (fun _ => ?_)
        (fun _ => nextBackoff_le _) (.inr (.inr ?_))
      · rcases hs with hs | hs <;> simp only [Lease.awaited, Client.update_lease, hs] <;> rfl
      · show (c.lease.retransmitCount + 1).toNat ≤ 4
        omega
      · have hleft : maxRequestRetransmits.toNat - c.lease.retransmitCount.toNat =
            maxRequestRetransmits.toNat - (c.lease.retransmitCount + 1).toNat + 1 := by
          have hmax : maxRequestRetransmits.toNat = 4 := rfl
          omega
        rcases hs with hs | hs <;> simp only [Lease.afterFire, Client.update_lease, hs] <;>
          rw [hleft] <;> exact Nat.le_refl _
    · -- A REQUEST for a lease that is held: the lease timer runs on.
      rw [Client.Recounts, if_neg (by rcases hs with hs | hs <;> rw [hs] <;> decide)] at hcount
      rcases hs with hs | hs
      all_goals
        refine .on (.inl ⟨rfl, ?_⟩) (.inl ?_) ?_
        · exact hcount
        · simp only [Lease.awaited, Client.update_lease, hs]
          rfl
        · simp only [Lease.afterFire, Client.update_lease, hs]
          exact Nat.le_refl _
  | conflict hev hs harp =>
    have hnotheld : c.lease.state.holdsValidLease = false := by
      rcases hs with hs | hs <;> rw [hs] <;> rfl
    rw [(After.finish_eq (handleConflict_ne_lost env _) _).1]
    by_cases hlast : c.lease.declineRetryCount + 1 > maxDeclineRetries
    · rw [handleConflict_failed env (c.emit (.probe c.lease.offeredIp true)) hlast]
      refine .on (.inr (.inr rfl)) (.inl ?_) ?_
      · simp [Lease.awaited, sendDecline, hnotheld,
          show State.failed.holdsValidLease = false from rfl]
      · exact Nat.zero_le _
    · rw [handleConflict_declining env (c.emit (.probe c.lease.offeredIp true)) hlast]
      refine .begins_in .declining rfl (p := declinePauseMs) rfl (by decide) (.inr (.inr ?_))
      show declinePauseMs.toNat + 0 ≤ c.lease.afterFire
      rcases hs with hs | hs <;> rw [Lease.afterFire, hs] <;> exact Nat.le_max_left _ _
  | request hev hs harp =>
    rw [After.finish, requestOffered_lease, Client.emit_lease]
    refine .begins retransmitInitialMs rfl (fun _ => Nat.zero_le _) (fun _ => by decide)
      (.inr (.inr ?_))
    rw [show c.lease.afterFire = max declinePauseMs.toNat requestMs by rw [Lease.afterFire, hs]]
    exact Nat.le_max_right _ _
  | commit hev hs harp =>
    obtain ⟨hawaited, hafter⟩ := commitLease_wait env (c.emit (.probe c.lease.offeredIp false))
    rw [After.finish, callOnBound_lease, commitProbed]
    refine .begins_in .bound (commitLease_state env _) hawaited (by decide) (.inr (.inr ?_))
    rw [hafter, Lease.afterFire, hs]
    exact Nat.le_max_right _ _
  | renew hev hs =>
    rw [After.finish, outputStartRenew_lease]
    refine .on (.inr (.inl rfl)) (.inl ?_) ?_
    · rw [Lease.awaited, Lease.awaited, hs]
      rfl
    · rw [Lease.afterFire, Lease.afterFire, hs]
      exact Nat.le_add_left _ _
  | t1 hev hs =>
    rw [After.finish, outputStartRenew_armT2_lease]
    refine .begins_in .renewing rfl rfl (by decide) (.inr (.inr ?_))
    rw [Lease.afterFire, Lease.afterFire, hs]
    exact Nat.le_refl _
  | t2 hev hs =>
    rw [After.finish, outputStartRebind_armExpiry_lease]
    refine .begins_in .rebinding rfl rfl (by decide) (.inr (.inr ?_))
    rw [Lease.afterFire, Lease.afterFire, hs]
    exact Nat.le_refl _

-- Discovery goes on, and `failed` is final, as long as nothing is heard.
theorem Reaction.settled {env : Env} {ev : Event} {c c₁ : Client} {after : After}
    (h : Reaction env ev c c₁ after) (hs : c.lease.state.Settled) (hquiet : c.hears ev = false) :
    (after.finish env c₁).lease.state.Settled := by
  -- Most reactions are to another state.
  have hno {state : State} (hstate : c.lease.state = state)
      (hother : state ≠ .selecting ∧ state ≠ .failed) : False := by
    rcases hs with hs | hs
    · exact hother.1 (hstate.symm.trans hs)
    · exact hother.2 (hstate.symm.trans hs)
  cases h with
  | idle hr hl => exact hs
  | offer r hd hselecting =>
    rw [Client.hears_offer hd hselecting] at hquiet
    cases hquiet
  | ack r hd hs => rcases hs with hs | hs <;> exact (hno hs (by decide)).elim
  | restart hover =>
    rw [After.finish, outputStartDiscovery_lease]
    exact .inl rfl
  | renewed r hd hs => rcases hs with hs | hs <;> exact (hno hs (by decide)).elim
  | lost hl =>
    rw [After.finish, lifecycleHandleLost, lostRestart, outputStartDiscovery_lease]
    exact .inl rfl
  | resend s count hev hsender hcount =>
    rw [After.finish, rearmBackoff_lease, Sender.send, sendMessage_lease]
    exact hs
  | conflict hev hs harp => rcases hs with hs | hs <;> exact (hno hs (by decide)).elim
  | request hev hs harp => exact (hno hs (by decide)).elim
  | commit hev hs harp => exact (hno hs (by decide)).elim
  | renew hev hs => exact (hno hs (by decide)).elim
  | t1 hev hs => exact (hno hs (by decide)).elim
  | t2 hev hs => exact (hno hs (by decide)).elim

section
variable {t : Clocked} (h : t.Punctual) {env : Env} (hnow : env.now = t.now) (ev : Event)
include h

theorem Clocked.Punctual.goes (env : Env) : Lease.Goes env.now (t.client.hears ev = true)
    (t.client.before ev).lease (t.client.step (env, ev)).lease := by
  obtain ⟨c₁, after, hreact, heq⟩ := t.client.operate_reaction env ev
  rw [show t.client.step (env, ev) = after.finish env c₁ from heq, ← t.client.before_hears ev]
  refine hreact.goes fun hs => ?_
  obtain ⟨_, _, hl⟩ := (t.client.before_same ev).lease
  rw [Client.before_state] at hs
  rw [hl]
  exact h.resends hs

include hnow

theorem Clocked.Punctual.event : Clocked.Punctual ⟨t.client.step (env, ev), t.now⟩ := by
  have harmed : TimersArmed (t.client.step (env, ev)).lease := Client.step_timersArmed h.armed
  obtain ⟨rt, lt, hl⟩ := (t.client.before_same ev).lease
  cases h.goes ev env with
  | on hkeep hawaited hafter =>
    -- The timer waited for is the same, or none.
    have hdeadline : ∀ deadline ∈ (t.client.step (env, ev)).lease.awaited.deadline,
        deadline ∈ t.client.lease.awaited.deadline := by
      intro deadline hd
      rcases hawaited with heq | hnone
      · rw [heq] at hd
        rcases t.client.before_awaited ev with heq | hnone
        · rwa [heq] at hd
        · rw [hnone] at hd
          cases hd
      · rw [hnone] at hd
        cases hd
    rw [Client.before_state, hl] at hkeep
    refine ⟨harmed, fun deadline hd => h.allows deadline (hdeadline deadline hd), fun hs => ?_,
      fun hs deadline hd => ?_⟩
    · rcases hkeep with ⟨hstate, hcount⟩ | hstate | hstate
      · rw [show (t.client.step (env, ev)).lease.retransmitCount = _ from hcount]
        exact h.resends (hstate ▸ hs)
      · rcases hs with hs | hs <;> rw [hstate] at hs <;> cases hs
      · rcases hs with hs | hs <;> rw [hstate] at hs <;> cases hs
    · rcases hkeep with ⟨hstate, -⟩ | hstate | hstate
      · exact h.discover (hstate ▸ hs) deadline (hdeadline deadline hd)
      · rw [hstate] at hs
        cases hs
      · rw [hstate] at hs
        cases hs
  | begins p hawaited hresends hdiscover hafter =>
    refine ⟨harmed, fun deadline hd => ?_, hresends, fun hs deadline hd => ?_⟩ <;>
      rw [hawaited, hnow] at hd <;> cases hd
    · exact Nat.le_add_right _ _
    · exact Nat.add_le_add_left (hdiscover hs) t.now

theorem Clocked.Punctual.silent (hwaits : t.client.lease.state ≠ .failed)
    (hquiet : t.client.hears ev = false) :
    (t.client.step (env, ev)).lease.state.Settled ∨
      (t.client.step (env, ev)).lease.givesUpAt ≤ t.client.lease.givesUpAt := by
  obtain ⟨deadline, hdeadline, hahead⟩ := h.now_le hwaits
  cases h.goes ev env with
  | on hkeep hawaited hafter =>
    have hfires : (t.client.step (env, ev)).lease.awaited.deadline.getD 0 ≤
        t.client.lease.awaited.deadline.getD 0 := by
      rcases hawaited with heq | hnone
      · rw [heq]
        rcases t.client.before_awaited ev with heq | hnone
        · rw [heq]
        · rw [hnone]
          exact Nat.zero_le _
      · rw [hnone]
        exact Nat.zero_le _
    rw [Client.before_afterFire] at hafter
    exact .inr (Nat.add_le_add hfires hafter)
  | begins p hawaited hresends hdiscover hafter =>
    rw [hquiet, Client.before_afterFire] at hafter
    rcases hafter with hheard | hsettled | hafter
    · cases hheard
    · exact .inl hsettled
    · refine .inr ?_
      rw [Lease.givesUpAt, Lease.givesUpAt, hawaited, hdeadline, hnow]
      show t.now + p.toNat + _ ≤ deadline + _
      omega

end

/-! ## 4. Every run -/

theorem Clocked.Punctual.step {t t' : Clocked} {e : TimedEvent} (h : t.Punctual)
    (hstep : t.step e = some t') : t'.Punctual := by
  cases e with
  | advance ms =>
    simp only [Clocked.step, Option.ite_none_right_eq_some, Option.some.injEq] at hstep
    obtain ⟨⟨hretransmit, hlease⟩, rfl⟩ := hstep
    refine ⟨h.armed, ?_, h.resends, fun hs deadline hd => ?_⟩
    · show t.client.lease.awaited.Allows (t.now + ms)
      unfold Lease.awaited
      split_ifs
      · exact hlease
      · exact hretransmit
    · have hsoon := h.discover hs deadline hd
      show deadline ≤ t.now + ms + 64000
      omega
  | event env ev =>
    simp only [Clocked.step, Option.ite_none_right_eq_some, Option.some.injEq] at hstep
    obtain ⟨-, rfl⟩ := hstep
    exact h.event rfl ev

/-- `dmdhcp_start` at a time. -/
def Clocked.start (now : Nat) (env : Env) (iface : Iface) (netif : Netif) (callbacks : Callbacks)
    (userData : Nat) (options : Option StartOptions) : Clocked :=
  ⟨Client.start { env with now } iface netif callbacks userData options, now⟩

theorem start_punctual (now : Nat) (env : Env) (iface : Iface) (netif : Netif)
    (callbacks : Callbacks) (userData : Nat) (options : Option StartOptions) :
    (Clocked.start now env iface netif callbacks userData options).Punctual := by
  have hnew {l : Lease} {p : UInt32} (harmed : TimersArmed l) (hp : p.toNat ≤ 64000)
      (hawaited : l.awaited = .arm now p) (hcount : l.retransmitCount = 0) (c : Client)
      (hl : c.lease = l) : Clocked.Punctual ⟨c, now⟩ := by
    subst hl
    refine ⟨harmed, fun deadline hd => ?_, fun _ => ?_, fun hs deadline hd => ?_⟩
    · rw [hawaited] at hd
      cases hd
      exact Nat.le_add_right _ _
    · show c.lease.retransmitCount.toNat ≤ 4
      rw [hcount]
      exact Nat.zero_le _
    · rw [hawaited] at hd
      cases hd
      exact Nat.add_le_add_left hp now
  have harmed := start_timersArmed { env with now } iface netif callbacks userData options
  refine hnew harmed (p := retransmitInitialMs) (by decide) ?_ ?_ _ rfl
  · unfold Client.start startSection
    split
    · rw [outputStartReboot_lease]
      rfl
    · rw [outputStartDiscovery_lease]
      rfl
  · unfold Client.start startSection
    split
    · rw [outputStartReboot_lease]
      rfl
    · rw [outputStartDiscovery_lease]

def TimedEvent.SetsSucceed : TimedEvent → Prop
  | .event env _ => env.SetsSucceed
  | .advance _ => True

instance TimedEvent.decidableSetsSucceed : (e : TimedEvent) → Decidable e.SetsSucceed
  | .event env _ => inferInstanceAs (Decidable env.SetsSucceed)
  | .advance _ => inferInstanceAs (Decidable True)

theorem Mirrors.clocked {t t' : Clocked} {e : TimedEvent} (hm : Mirrors t.client)
    (hsets : e.SetsSucceed) (hstep : t.step e = some t') : Mirrors t'.client := by
  cases e with
  | advance ms =>
    simp only [Clocked.step, Option.ite_none_right_eq_some, Option.some.injEq] at hstep
    obtain ⟨-, rfl⟩ := hstep
    exact hm
  | event env ev =>
    simp only [Clocked.step, Option.ite_none_right_eq_some, Option.some.injEq] at hstep
    obtain ⟨-, rfl⟩ := hstep
    exact Mirrors.step (show ({ env with now := t.now } : Env).SetsSucceed from hsets) hm ev

-- What was said of one event, for a step of a silent run.
theorem Clocked.Punctual.settled {t t' : Clocked} {e : TimedEvent} (h : t.Punctual)
    (hquiet : t.Silent e) (hstep : t.step e = some t') :
    (t.client.lease.state.Settled → t'.client.lease.state.Settled) ∧
    (¬t.client.lease.state.Settled →
      t'.client.lease.state.Settled ∨ t'.client.lease.givesUpAt ≤ t.client.lease.givesUpAt) := by
  cases e with
  | advance ms =>
    simp only [Clocked.step, Option.ite_none_right_eq_some, Option.some.injEq] at hstep
    obtain ⟨-, rfl⟩ := hstep
    exact ⟨id, fun _ => .inr (Nat.le_refl _)⟩
  | event env ev =>
    simp only [Clocked.step, Option.ite_none_right_eq_some, Option.some.injEq] at hstep
    obtain ⟨-, rfl⟩ := hstep
    constructor
    · intro hs
      obtain ⟨c₁, after, hreact, heq⟩ := t.client.operate_reaction { env with now := t.now } ev
      show (t.client.step _).lease.state.Settled
      rw [show t.client.step ({ env with now := t.now }, ev) = after.finish _ c₁ from heq]
      refine hreact.settled ?_ ?_
      · rwa [Client.before_state]
      · rw [Client.before_hears]
        exact hquiet
    · intro hs
      exact h.silent (show ({ env with now := t.now } : Env).now = t.now from rfl) ev
        (fun hfailed => hs (.inr hfailed)) hquiet

theorem silent_run_settles {quiet : List TimedEvent} {t t' : Clocked} (h : t.Punctual)
    (hquiet : Lts.Run (Lts.Guarded (Lts.ofPartial Clocked.step) Clocked.Silent) t quiet t')
    (hlate : t.client.lease.givesUpAt < t'.now) : t'.client.lease.state.Settled :=
  Lts.Run.reached_of_due (I := Clocked.Punctual) (fun _ _ _ h hs => h.step hs.1)
    (fun _ _ _ h hsettled hs => (h.settled hs.2 hs.1).1 hsettled)
    (fun _ h hs => h.now_le_givesUpAt fun hfailed => hs (.inr hfailed))
    (fun _ _ _ h hno hs => (h.settled hs.2 hs.1).2 hno) hquiet h hlate

/-- A lease of 8 s is acquired, ... -/
def acquiredInTime : List TimedEvent :=
  [.event (quietEnv 7) (.datagram 1 (replyPayload .offer 7 ⟨10, 0, 0, 5⟩
      (grantOptions ⟨10, 0, 0, 1⟩ 8))),
    .advance 1, .event (quietEnv 7) (.retransmit false),
    .event (quietEnv 7) (.datagram 1 (replyPayload .ack 7 ⟨10, 0, 0, 5⟩
      (grantOptions ⟨10, 0, 0, 1⟩ 8))),
    .advance 1, .event (quietEnv 7) (.retransmit false)]

/-- ... and then nobody answers. -/
def unansweredInTime : List TimedEvent :=
  [.advance 4000, .event (quietEnv 8) (.leaseTimer false), .event (quietEnv 8) (.retransmit true),
    .advance 3000, .event (quietEnv 8) (.leaseTimer false),
    .advance 1000, .event (quietEnv 8) (.leaseTimer false), .advance 1]

end Dmdhcp
