import Mathlib.Tactic.Linarith
import Dmdhcp.StateMachine

/-!
# The deadlines of a lease

One timer serves T1, T2 and expiry in turn, and the state at the fire tells which of the three it
is.  A timed run lets every armed timer fire exactly when its period is over; as long as no ACK or
NAK is accepted and `dmdhcp_renew` is not called in `bound`, rebinding starts and the lease ends at
the sums of the programmed periods.
-/

namespace Dmdhcp

/-! ### Timed runs -/

/-- A client, the time, and when it entered `rebinding` and when it last lost its lease. -/
structure Timed where
  client : Client
  now : Nat
  rebindAt : Option Nat
  lostAt : Option Nat
  deriving DecidableEq, Repr

inductive TimedEvent
  | advance (ms : Nat)
  | event (env : Env) (ev : Event)
  deriving DecidableEq, Repr

/-- Time may run up to `now`: the timer is not armed, or fires then or later. -/
def Timer.Allows (t : Timer) (now : Nat) : Prop := ∀ deadline ∈ t.deadline, now ≤ deadline

instance (t : Timer) (now : Nat) : Decidable (t.Allows now) :=
  inferInstanceAs (Decidable (∀ _ ∈ _, _))

/-- A timer fires when its period is over; everything else may happen at any time. -/
def Timed.Enabled (t : Timed) : Event → Prop
  | .retransmit stale => stale = false ∧ t.client.lease.retransmitTimer.deadline = some t.now
  | .leaseTimer stale => stale = false ∧ t.client.lease.leaseTimer.deadline = some t.now
  | _ => True

instance (t : Timed) : (ev : Event) → Decidable (t.Enabled ev)
  | .retransmit _ => inferInstanceAs (Decidable (_ ∧ _))
  | .leaseTimer _ => inferInstanceAs (Decidable (_ ∧ _))
  | .datagram _ _ => inferInstanceAs (Decidable True)
  | .renew => inferInstanceAs (Decidable True)

/-- The client has become `c`, now. -/
def Timed.become (t : Timed) (c : Client) : Timed where
  client := c
  now := t.now
  rebindAt :=
    if t.client.lease.state ≠ .rebinding ∧ c.lease.state = .rebinding then some t.now
    else t.rebindAt
  lostAt :=
    if t.client.lease.state.holdsValidLease ∧ c.lease.state.holdsValidLease = false then some t.now
    else t.lostAt

def Timed.step (t : Timed) : TimedEvent → Option Timed
  | .advance ms =>
    if t.client.lease.retransmitTimer.Allows (t.now + ms) ∧
        t.client.lease.leaseTimer.Allows (t.now + ms) then
      some { t with now := t.now + ms }
    else none
  | .event env ev =>
    if t.Enabled ev then some (t.become (t.client.step ({ env with now := t.now }, ev))) else none

/-- The event delivers an ACK or a NAK that `c` is waiting for. -/
def Client.acceptsAckOrNak (c : Client) : Event → Bool
  | .datagram iface payload =>
    match parseReply payload with
    | some r =>
      c.matchesXid iface r.msg.xid &&
        (messageType r.options == some MsgType.ack.toByte ||
          messageType r.options == some MsgType.nak.toByte) &&
        (c.lease.state == .requesting || c.lease.state == .rebooting ||
          c.lease.state == .renewing || c.lease.state == .rebinding)
    | none => false
  | _ => false

/-- No ACK and no NAK is accepted. -/
def Unanswered (t : Timed) : TimedEvent → Prop
  | .event _ ev => t.client.acceptsAckOrNak ev = false
  | .advance _ => True

instance (t : Timed) : (e : TimedEvent) → Decidable (Unanswered t e)
  | .event _ _ => inferInstanceAs (Decidable (_ = _))
  | .advance _ => inferInstanceAs (Decidable True)

/-- `dmdhcp_renew` is not called in `bound`. -/
def Unforced (t : Timed) : TimedEvent → Prop
  | .event _ ev => ev = .renew → t.client.lease.state ≠ .bound
  | .advance _ => True

instance (t : Timed) : (e : TimedEvent) → Decidable (Unforced t e)
  | .event _ _ => inferInstanceAs (Decidable (_ → _))
  | .advance _ => inferInstanceAs (Decidable True)

/-- A lease that enters `bound` with the fields of `c`, at time 0. -/
def Timed.bind (env : Env) (c : Client) : Timed :=
  ⟨commitLease { env with now := 0 } c, 0, none, none⟩

/-! ### What each event does while nobody answers -/

theorem receive_unanswered (env : Env) {iface : Iface} {payload : List UInt8} {c : Client}
    (h : c.acceptsAckOrNak (.datagram iface payload) = false) :
    c.receive env iface payload = c ∨
      ∃ r, c.lease.state = .selecting ∧
        c.receive env iface payload = acceptForProbe env r .checkingOffer c := by
  unfold Client.receive
  split
  · exact .inl rfl
  · rename_i r hr
    simp only [Client.acceptsAckOrNak, hr] at h
    split_ifs with hx
    · unfold handleReply
      split
      · exact .inl rfl
      · rename_i msgType ht
        simp only [hx, ht, Bool.true_and] at h
        unfold datagramSection
        dsimp only
        split_ifs with h1 h2 h3 h4 h5
        -- Only the OFFER branch is left: the other four need an ACK or a NAK.
        · exact .inr ⟨r, h1.2, rfl⟩
        · rcases h2.2 with hs | hs <;> simp [h2.1, hs] at h
        · rcases h3.2 with hs | hs <;> simp [h3.1, hs] at h
        · rcases h4.2 with hs | hs <;> simp [h4.1, hs] at h
        · rcases h5.2 with hs | hs <;> simp [h5.1, hs] at h
        · exact .inl rfl
    · exact .inl rfl

-- While the lease is held, a retransmit fire resends at most.
theorem retransmitTimerCallback_held (env : Env) {c : Client}
    (h : c.lease.state.holdsValidLease = true) : ∃ retransmitIntervalMs retransmitTimer,
    (retransmitTimerCallback env c).lease =
      { c.lease with retransmitIntervalMs, retransmitTimer } := by
  unfold retransmitTimerCallback retransmitTimerSection
  cases hs : c.lease.state with
  | bound => exact ⟨_, _, rfl⟩
  | renewing =>
    simp only [After.finish, rearmBackoff_lease, sendRequestRenew, sendMessage_lease]
    exact ⟨_, _, rfl⟩
  | rebinding =>
    simp only [After.finish, rearmBackoff_lease, sendRequestRebind, sendMessage_lease]
    exact ⟨_, _, rfl⟩
  | _ => rw [hs] at h; cases h

theorem resendRequest_state (env : Env) (c : Client) :
    (resendRequest env c).lease.state = .selecting ∨
      (resendRequest env c).lease.state = c.lease.state := by
  unfold resendRequest
  dsimp only
  split_ifs
  · exact .inl (by rw [outputStartDiscovery_lease])
  · exact .inr (by rw [rearmBackoff_lease, sendRequestSelecting, sendMessage_lease]; rfl)
  · exact .inr (by rw [rearmBackoff_lease, sendRequestReboot, sendMessage_lease]; rfl)

-- Only a clean final probe can bring the lease back, and only an ACK leads to that probe.
theorem retransmitTimerCallback_idle (env : Env) {c : Client}
    (h : c.lease.state.holdsValidLease = false) (hs : c.lease.state ≠ .checkingAck) :
    (retransmitTimerCallback env c).lease.state.holdsValidLease = false ∧
      (retransmitTimerCallback env c).lease.state ≠ .checkingAck := by
  have hedge := (retransmitTimerCallback_outcome env (.retransmit true) c).mayBecome
  have hresend := resendRequest_state env c
  -- A resend may fall back to discovery or stay; the other idle states follow their edges.
  cases hst : c.lease.state with
  | requesting =>
    have heq : retransmitTimerCallback env c = resendRequest env c := by
      simp only [retransmitTimerCallback, retransmitTimerSection, hst, After.finish]
    rw [heq]
    rcases hresend with h' | h' <;> rw [h'] <;> simp [hst, State.holdsValidLease]
  | rebooting =>
    have heq : retransmitTimerCallback env c = resendRequest env c := by
      simp only [retransmitTimerCallback, retransmitTimerSection, hst, After.finish]
    rw [heq]
    rcases hresend with h' | h' <;> rw [h'] <;> simp [hst, State.holdsValidLease]
  | checkingAck => exact absurd hst hs
  | bound => rw [hst] at h; cases h
  | renewing => rw [hst] at h; cases h
  | rebinding => rw [hst] at h; cases h
  | _ =>
    rw [hst] at hedge
    generalize (retransmitTimerCallback env c).lease.state = s at hedge
    revert hedge
    cases s <;> decide

/-! ### The invariant -/

/-- The sum of the first two periods: when `rebinding` is entered. -/
def rebindMs (l : Lease) : Nat := (periodT1 l).toNat + (periodT2 l).toNat

/-- The sum of all three periods: how long a lease is kept that nobody answers for. -/
def heldMs (l : Lease) : Nat := rebindMs l + (periodExpiry l).toNat

/-- When the lease timer fires next. -/
def dueMs (l : Lease) : State → Nat
  | .bound => (periodT1 l).toNat
  | .renewing => rebindMs l
  | _ => heldMs l

-- The three periods depend on the terms of the lease only.
theorem SameTerms.periods {l l' : Lease} (h : SameTerms l l') :
    periodT2 l' = periodT2 l ∧ periodExpiry l' = periodExpiry l := by
  simp only [periodT2, periodExpiry, h.t1Sec, h.t2Sec, h.leaseTimeSec, and_self]

/-- While the lease is held the timer is armed for the deadline its state stands for, and the time
has not passed it; once it is lost, both moments were on time. -/
structure OnTime (l : Lease) (t : Timed) : Prop where
  held : t.client.lease.state.holdsValidLease = true →
    SameTerms l t.client.lease ∧
      t.client.lease.leaseTimer.deadline = some (dueMs l t.client.lease.state) ∧
      t.now ≤ dueMs l t.client.lease.state ∧ t.lostAt = none ∧
      t.rebindAt = if t.client.lease.state = .rebinding then some (rebindMs l) else none
  ended : t.client.lease.state.holdsValidLease = false →
    t.client.lease.state ≠ .checkingAck ∧ t.lostAt = some (heldMs l) ∧
      t.rebindAt = some (rebindMs l)

theorem Timed.become_of_state_eq {t : Timed} {c : Client}
    (h : c.lease.state = t.client.lease.state) : t.become c = { t with client := c } := by
  unfold Timed.become
  rw [h]
  cases t.client.lease.state <;> rfl

theorem Timed.become_idle {t : Timed} {c : Client}
    (h : t.client.lease.state.holdsValidLease = false)
    (h' : c.lease.state.holdsValidLease = false) : t.become c = { t with client := c } := by
  have hne : c.lease.state ≠ .rebinding := by
    intro hs
    rw [hs] at h'
    cases h'
  simp [Timed.become, h, hne]

-- An event that changes neither state, terms nor the lease timer.
theorem OnTime.keep {l : Lease} {t : Timed} (h : OnTime l t) {c : Client}
    (hstate : c.lease.state = t.client.lease.state) (hterms : SameTerms t.client.lease c.lease)
    (htimer : c.lease.leaseTimer = t.client.lease.leaseTimer) : OnTime l (t.become c) := by
  rw [Timed.become_of_state_eq hstate]
  refine ⟨fun hs => ?_, fun hs => ?_⟩
  · simp only [hstate, htimer] at hs ⊢
    obtain ⟨ht, hrest⟩ := h.held hs
    exact ⟨ht.trans hterms, hrest⟩
  · simp only [hstate] at hs ⊢
    exact h.ended hs

-- An event after the lease was lost.
theorem OnTime.idle {l : Lease} {t : Timed} (h : OnTime l t) {c : Client}
    (hidle : t.client.lease.state.holdsValidLease = false)
    (hidle' : c.lease.state.holdsValidLease = false) (hack : c.lease.state ≠ .checkingAck) :
    OnTime l (t.become c) := by
  rw [Timed.become_idle hidle hidle']
  refine ⟨fun hs => ?_, fun _ => ⟨hack, (h.ended hidle).2⟩⟩
  rw [hidle'] at hs
  cases hs

theorem OnTime.advance {l : Lease} {t : Timed} (h : OnTime l t) {ms : Nat}
    (hallows : t.client.lease.leaseTimer.Allows (t.now + ms)) :
    OnTime l { t with now := t.now + ms } := by
  refine ⟨fun hs => ?_, fun hs => h.ended hs⟩
  obtain ⟨hterms, hdeadline, -, hrest⟩ := h.held hs
  exact ⟨hterms, hdeadline, hallows _ hdeadline, hrest⟩

theorem OnTime.datagram {l : Lease} {t : Timed} (h : OnTime l t) (env : Env) {iface : Iface}
    {payload : List UInt8} (hno : t.client.acceptsAckOrNak (.datagram iface payload) = false) :
    OnTime l (t.become (t.client.receive env iface payload)) := by
  rcases receive_unanswered env hno with heq | ⟨r, hs, heq⟩
  · rw [heq]
    exact h.keep rfl (.refl _) rfl
  · rw [heq]
    refine h.idle (by rw [hs]; rfl) ?_ ?_ <;> rw [acceptForProbe_lease]
    · rfl
    · simp

theorem OnTime.retransmit {l : Lease} {t : Timed} (h : OnTime l t) (env : Env) :
    OnTime l (t.become (retransmitTimerCallback env t.client.disarmRetransmit)) := by
  cases hs : t.client.lease.state.holdsValidLease with
  | true =>
    obtain ⟨interval, timer, hl⟩ :=
      retransmitTimerCallback_held env (c := t.client.disarmRetransmit) hs
    refine h.keep ?_ ?_ ?_ <;> rw [hl]
    · rfl
    · exact ⟨rfl, rfl, rfl, rfl, rfl, rfl, rfl⟩
    · rfl
  | false =>
    obtain ⟨hidle, hack⟩ := retransmitTimerCallback_idle env
      (c := t.client.disarmRetransmit) hs (h.ended hs).1
    exact h.idle hs hidle hack

-- A held lease whose timer fires does so at the deadline of its state.
theorem OnTime.now_eq {l : Lease} {t : Timed} (h : OnTime l t)
    (hs : t.client.lease.state.holdsValidLease = true)
    (hdue : t.client.lease.leaseTimer.deadline = some t.now) :
    t.now = dueMs l t.client.lease.state := by
  rw [(h.held hs).2.1] at hdue
  exact (Option.some.inj hdue).symm

-- The held lease of `c`, rearmed for the deadline of its new state.
theorem OnTime.rearm {l : Lease} {t : Timed} {c : Client} (hlost : t.lostAt = none)
    (hs : c.lease.state.holdsValidLease = true) (hterms : SameTerms l c.lease)
    (htimer : c.lease.leaseTimer.deadline = some (dueMs l c.lease.state))
    (hnow : t.now ≤ dueMs l c.lease.state)
    (hrebind : (t.become c).rebindAt =
      if c.lease.state = .rebinding then some (rebindMs l) else none) :
    OnTime l (t.become c) := by
  refine ⟨fun _ => ⟨hterms, htimer, hnow, ?_, hrebind⟩, fun hidle => ?_⟩
  · simp [Timed.become, hs, hlost]
  · rw [Timed.become, hs] at hidle
    cases hidle

section
variable {l : Lease} {t : Timed} (h : OnTime l t) {env : Env} (hnow : env.now = t.now)
  (hdue : t.client.lease.leaseTimer.deadline = some t.now)
include h hnow hdue

theorem OnTime.fireT1 (hs : t.client.lease.state = .bound) :
    OnTime l (t.become (lifecycleArmT2 env (outputStartRenew env t.client.disarmLease))) := by
  have hheld : t.client.lease.state.holdsValidLease = true := by rw [hs]; rfl
  obtain ⟨hterms, -, -, hlost, hrebind⟩ := h.held hheld
  have hfire := h.now_eq hheld hdue
  rw [hs] at hfire hrebind
  have hdeadline : env.now + (periodT2 t.client.lease).toNat = dueMs l .renewing := by
    rw [hnow, hfire, hterms.periods.1]
    rfl
  have hle : t.now ≤ dueMs l .renewing := by
    rw [← hdeadline, hnow]
    exact Nat.le_add_right _ _
  have hl : (lifecycleArmT2 env (outputStartRenew env t.client.disarmLease)).lease =
      { t.client.lease.inExchange env .renewing with
        leaseTimer := .arm env.now (periodT2 t.client.lease) } := by
    rw [outputStartRenew_armT2_lease]
    rfl
  apply OnTime.rearm hlost
  · rw [hl]
    rfl
  · rw [hl]
    exact hterms.trans ⟨rfl, rfl, rfl, rfl, rfl, rfl, rfl⟩
  · rw [hl]
    exact congrArg some hdeadline
  · rw [hl]
    exact hle
  · simpa [Timed.become, hl, Lease.inExchange] using hrebind

theorem OnTime.fireT2 (hs : t.client.lease.state = .renewing) :
    OnTime l (t.become (lifecycleArmExpiry env (outputStartRebind env t.client.disarmLease))) := by
  have hheld : t.client.lease.state.holdsValidLease = true := by rw [hs]; rfl
  obtain ⟨hterms, -, -, hlost, -⟩ := h.held hheld
  have hfire := h.now_eq hheld hdue
  rw [hs] at hfire
  have hdeadline : env.now + (periodExpiry t.client.lease).toNat = dueMs l .rebinding := by
    rw [hnow, hfire, hterms.periods.2]
    rfl
  have hle : t.now ≤ dueMs l .rebinding := by
    rw [← hdeadline, hnow]
    exact Nat.le_add_right _ _
  have hl : (lifecycleArmExpiry env (outputStartRebind env t.client.disarmLease)).lease =
      { t.client.lease.inExchange env .rebinding with
        leaseTimer := .arm env.now (periodExpiry t.client.lease) } := by
    rw [outputStartRebind_armExpiry_lease]
    rfl
  apply OnTime.rearm hlost
  · rw [hl]
    rfl
  · rw [hl]
    exact hterms.trans ⟨rfl, rfl, rfl, rfl, rfl, rfl, rfl⟩
  · rw [hl]
    exact congrArg some hdeadline
  · rw [hl]
    exact hle
  · simp [Timed.become, hl, Lease.inExchange, hs, hfire, dueMs]

omit hnow in
theorem OnTime.fireExpiry (hs : t.client.lease.state = .rebinding) :
    OnTime l (t.become (lifecycleHandleLost env t.client.disarmLease)) := by
  have hheld : t.client.lease.state.holdsValidLease = true := by rw [hs]; rfl
  obtain ⟨-, -, -, -, hrebind⟩ := h.held hheld
  have hfire := h.now_eq hheld hdue
  rw [hs] at hfire hrebind
  refine ⟨fun hsel => ?_, fun _ => ?_⟩
  · rw [Timed.become, lifecycleHandleLost_state] at hsel
    cases hsel
  · rw [Timed.become, lifecycleHandleLost_state, hs, hrebind, hfire]
    exact ⟨by decide, rfl, rfl⟩

-- The fire means what the state says: T1, T2, expiry, or nothing.
theorem OnTime.leaseTimer :
    OnTime l (t.become (leaseTimerCallback env t.client.disarmLease)) := by
  have hstate : t.client.disarmLease.lease.state = t.client.lease.state := rfl
  unfold leaseTimerCallback leaseTimerSection
  rw [hstate]
  split_ifs with hbound hrenewing hrebinding
  · exact h.fireT1 hnow hdue hbound
  · exact h.fireT2 hnow hdue hrenewing
  · exact h.fireExpiry hdue hrebinding
  · have hidle : t.client.lease.state.holdsValidLease = false := by
      cases hs : t.client.lease.state <;> first | rfl | contradiction
    exact h.idle hidle hidle (h.ended hidle).1

end

theorem OnTime.step {l : Lease} {t t' : Timed} {e : TimedEvent} (h : OnTime l t)
    (hstep : t.step e = some t') (hno : Unanswered t e) (hforce : Unforced t e) : OnTime l t' := by
  cases e with
  | advance ms =>
    simp only [Timed.step] at hstep
    split_ifs at hstep with hallows
    obtain rfl := Option.some.inj hstep
    exact h.advance hallows.2
  | event env ev =>
    simp only [Timed.step] at hstep
    split_ifs at hstep with henabled
    obtain rfl := Option.some.inj hstep
    cases ev with
    | datagram iface payload => exact h.datagram _ hno
    | retransmit stale =>
      obtain ⟨rfl, -⟩ := henabled
      exact h.retransmit _
    | leaseTimer stale =>
      obtain ⟨rfl, hdue⟩ := henabled
      exact h.leaseTimer rfl hdue
    | renew =>
      have heq : t.client.step ({ env with now := t.now }, .renew) = t.client :=
        if_neg (hforce rfl)
      rw [heq]
      exact h.keep rfl (.refl _) rfl

theorem bind_onTime (env : Env) (c : Client) : OnTime c.lease (.bind env c) := by
  obtain ⟨configured, route, hl⟩ := commitLease_lease { env with now := 0 } c
  refine ⟨fun _ => ?_, fun hs => ?_⟩
  · simp only [Timed.bind, hl]
    refine ⟨⟨rfl, rfl, rfl, rfl, rfl, rfl, rfl⟩, ?_, Nat.zero_le _, trivial, ?_⟩
    · simp only [Timer.arm, Nat.zero_add, dueMs]
    · simp
  · rw [Timed.bind, commitLease_state] at hs
    cases hs

-- Undisturbed runs are on time in every state they reach.
theorem Timed.run_onTime {env : Env} {c : Client} {events : List TimedEvent} {t : Timed}
    (hrun : Lts.Run (Lts.Guarded (Lts.ofPartial Timed.step) fun t e => Unanswered t e ∧ Unforced t e)
      (.bind env c) events t) : OnTime c.lease t :=
  hrun.invariant (fun _ _ _ hs hstep => hs.step hstep.1 hstep.2.1 hstep.2.2) (bind_onTime env c)

-- What being on time says about the two moments.
theorem OnTime.moments {l : Lease} {t : Timed} (h : OnTime l t) :
    (∀ x, t.rebindAt = some x → x = rebindMs l) ∧ (∀ x, t.lostAt = some x → x = heldMs l) ∧
      (rebindMs l < t.now → t.rebindAt = some (rebindMs l)) ∧
      (heldMs l < t.now → t.lostAt = some (heldMs l)) := by
  cases hs : t.client.lease.state.holdsValidLease with
  | true =>
    obtain ⟨-, -, hnow, hlost, hrebind⟩ := h.held hs
    have hle : dueMs l t.client.lease.state ≤ heldMs l := by
      cases t.client.lease.state <;> simp only [dueMs, heldMs, rebindMs] <;> omega
    refine ⟨fun x hx => ?_, fun x hx => ?_, fun hlt => ?_, fun hlt => ?_⟩
    · rw [hrebind] at hx
      split_ifs at hx
      exact (Option.some.inj hx).symm
    · rw [hlost] at hx
      cases hx
    · rw [hrebind, if_pos]
      -- The earlier two deadlines are not past.
      by_contra hne
      have hearly : dueMs l t.client.lease.state ≤ rebindMs l := by
        cases hst : t.client.lease.state <;>
          simp_all [dueMs, rebindMs, State.holdsValidLease]
      omega
    · omega
  | false =>
    obtain ⟨-, hlost, hrebind⟩ := h.ended hs
    rw [hlost, hrebind]
    simp

/-! ### The three periods in milliseconds -/

/-- The seconds from one deadline to the next, with the fallback of `arm_t2` and `arm_expiry`. -/
def delaySec (start next : Nat) : Nat := if start < next then next - start else 1

theorem remainingSec_toNat (start next : UInt32) :
    (if next > start then next - start else 1 : UInt32).toNat
      = delaySec start.toNat next.toNat := by
  unfold delaySec
  by_cases h : start < next
  · rw [if_pos h, if_pos (UInt32.lt_iff_toNat_lt.mp h)]
    exact UInt32.toNat_sub_of_le _ _ (UInt32.le_of_lt h)
  · rw [if_neg h, if_neg fun h' => h (UInt32.lt_iff_toNat_lt.mpr h')]
    rfl

theorem periodT1_toNat (l : Lease) : (periodT1 l).toNat =
    if l.t1Sec.toNat * 1000 % 2 ^ 32 = 0 then 1 else l.t1Sec.toNat * 1000 % 2 ^ 32 := by
  have hmul : (l.t1Sec * 1000).toNat = l.t1Sec.toNat * 1000 % 2 ^ 32 := UInt32.toNat_mul _ _
  simp only [periodT1, ← hmul, ← UInt32.toNat_inj, UInt32.toNat_zero]
  split_ifs <;> rfl

theorem periodT2_toNat (l : Lease) :
    (periodT2 l).toNat = delaySec l.t1Sec.toNat l.t2Sec.toNat * 1000 % 2 ^ 32 := by
  rw [periodT2, UInt32.toNat_mul, remainingSec_toNat]
  rfl

theorem periodExpiry_toNat (l : Lease) :
    (periodExpiry l).toNat = delaySec l.t2Sec.toNat l.leaseTimeSec.toNat * 1000 % 2 ^ 32 := by
  rw [periodExpiry, UInt32.toNat_mul, remainingSec_toNat]
  rfl

-- Terms in the usual order that fit 32-bit milliseconds: the sums are T2 and the lease time.
theorem periods_of_ordered {l : Lease} (h1 : 0 < l.t1Sec) (h2 : l.t1Sec < l.t2Sec)
    (h3 : l.t2Sec < l.leaseTimeSec) (hfits : l.leaseTimeSec.toNat * 1000 < 2 ^ 32) :
    rebindMs l = l.t2Sec.toNat * 1000 ∧ heldMs l = l.leaseTimeSec.toNat * 1000 := by
  rw [UInt32.lt_iff_toNat_lt] at h1 h2 h3
  rw [UInt32.toNat_zero] at h1
  have hd2 : delaySec l.t1Sec.toNat l.t2Sec.toNat = l.t2Sec.toNat - l.t1Sec.toNat := if_pos h2
  have hd3 : delaySec l.t2Sec.toNat l.leaseTimeSec.toNat = l.leaseTimeSec.toNat - l.t2Sec.toNat :=
    if_pos h3
  have hlt {sec : Nat} (h : sec ≤ l.leaseTimeSec.toNat) : sec * 1000 % 2 ^ 32 = sec * 1000 :=
    Nat.mod_eq_of_lt ((Nat.mul_le_mul_right 1000 h).trans_lt hfits)
  -- None of the three fallbacks is taken and none of the three products wraps.
  have hne : l.t1Sec.toNat * 1000 ≠ 0 := by omega
  rw [heldMs, rebindMs, periodT1_toNat, periodT2_toNat, periodExpiry_toNat, hd2, hd3,
    hlt (h2.trans h3).le, hlt ((Nat.sub_le _ _).trans h3.le), hlt (Nat.sub_le _ _), if_neg hne]
  omega

/-- **Renewal deadlines are measured from the entry into `bound`.**  If nobody answers and
`dmdhcp_renew` is not called in `bound`, `rebinding` is entered exactly at T2 and the lease is lost
exactly at the lease time: not earlier, and not later either. -/
theorem deadlines_from_bound (env : Env) (c : Client) (h1 : 0 < c.lease.t1Sec)
    (h2 : c.lease.t1Sec < c.lease.t2Sec) (h3 : c.lease.t2Sec < c.lease.leaseTimeSec)
    (hfits : c.lease.leaseTimeSec.toNat * 1000 < 2 ^ 32) (events : List TimedEvent) (t : Timed)
    (hrun : Lts.Run (Lts.Guarded (Lts.ofPartial Timed.step) fun t e => Unanswered t e ∧ Unforced t e)
      (.bind env c) events t) :
    (∀ x, t.rebindAt = some x → x = c.lease.t2Sec.toNat * 1000) ∧
      (∀ x, t.lostAt = some x → x = c.lease.leaseTimeSec.toNat * 1000) ∧
      (c.lease.t2Sec.toNat * 1000 < t.now → t.rebindAt = some (c.lease.t2Sec.toNat * 1000)) ∧
      (c.lease.leaseTimeSec.toNat * 1000 < t.now →
        t.lostAt = some (c.lease.leaseTimeSec.toNat * 1000)) := by
  have hmoments := (Timed.run_onTime hrun).moments
  obtain ⟨hrebind, hheld⟩ := periods_of_ordered h1 h2 h3 hfits
  rwa [hrebind, hheld] at hmoments

/-- T1 fire, T2 fire and expiry of an 8 second lease, with a late `dmdhcp_renew` in between. -/
def expireEvents : List TimedEvent :=
  [.advance 4000, .event (quietEnv 8) (.leaseTimer false), .event (quietEnv 8) .renew,
    .advance 3000, .event (quietEnv 9) (.leaseTimer false),
    .advance 1000, .event (quietEnv 10) (.leaseTimer false), .advance 1]

/-- The client whose final probe, for a lease of `leaseTime` seconds, has just come back clean. -/
def probedClient (leaseTime : UInt32) : Client :=
  (((acquireInputs ⟨10, 0, 0, 5⟩ ⟨10, 0, 0, 1⟩ leaseTime).take 3).foldl Client.step
    startedClient).disarmRetransmit

theorem probedClient_eight : (probedClient 8).lease.t1Sec = 4 ∧
    (probedClient 8).lease.t2Sec = 7 ∧ (probedClient 8).lease.leaseTimeSec = 8 := by
  decide +kernel

/-- The theorem at an 8 second lease (T1 4 s, T2 7 s) that runs out. -/
theorem deadlines_from_bound_expired :
    ∃ t, Lts.Run
        (Lts.Guarded (Lts.ofPartial Timed.step) fun t e => Unanswered t e ∧ Unforced t e)
        (.bind (quietEnv 7) (probedClient 8)) expireEvents t ∧
      t.rebindAt = some 7000 ∧ t.lostAt = some 8000 := by
  obtain ⟨t, hrun, hnow⟩ := Lts.Passes.run Timed.step
    (fun t e => Unanswered t e ∧ Unforced t e) (.bind (quietEnv 7) (probedClient 8)) expireEvents
    Timed.now 8001 (by decide +kernel) (by decide +kernel)
  obtain ⟨ht1, ht2, hlease⟩ := probedClient_eight
  have hlate := deadlines_from_bound _ _ (by rw [ht1]; decide) (by rw [ht1, ht2]; decide)
    (by rw [ht2, hlease]; decide) (by rw [hlease]; decide) _ _ hrun
  rw [ht2, hlease, hnow] at hlate
  exact ⟨t, hrun, hlate.2.2.1 (by decide), hlate.2.2.2 (by decide)⟩

/-- `dmdhcp_renew` one second after the same lease was bound: the timer still armed for T1 fires in
`renewing`, so rebinding starts at T1 and the lease is given up after 5 of its 8 seconds. -/
theorem forced_renewal_shortens_lease :
    (probedClient 8).lease.t1Sec = 4 ∧ (probedClient 8).lease.t2Sec = 7 ∧
      (probedClient 8).lease.leaseTimeSec = 8 ∧
      ∃ t, Lts.Run (Lts.Guarded (Lts.ofPartial Timed.step) Unanswered)
        (.bind (quietEnv 7) (probedClient 8))
        [.advance 1000, .event (quietEnv 8) .renew, .advance 3000,
          .event (quietEnv 9) (.leaseTimer false), .advance 1000,
          .event (quietEnv 10) (.leaseTimer false)] t ∧
      t.rebindAt = some 4000 ∧ t.lostAt = some 5000 := by
  refine ⟨probedClient_eight.1, probedClient_eight.2.1, probedClient_eight.2.2, ?_⟩
  obtain ⟨t, hrun, hresult⟩ := Lts.Passes.run Timed.step Unanswered
    (.bind (quietEnv 7) (probedClient 8))
    [.advance 1000, .event (quietEnv 8) .renew, .advance 3000,
      .event (quietEnv 9) (.leaseTimer false), .advance 1000,
      .event (quietEnv 10) (.leaseTimer false)]
    (fun t => (t.rebindAt, t.lostAt)) (some 4000, some 5000) (by decide +kernel)
    (by decide +kernel)
  obtain ⟨hrebind, hlost⟩ := Prod.mk.inj hresult
  exact ⟨t, hrun, hrebind, hlost⟩

/-! ### The lease time -/

/-- By how much the three delays, added up without wrap-around, exceed the lease time. -/
def overrunMs (l : Lease) : Nat :=
  (if l.t1Sec = 0 then 1 else 0) +
    (if l.t1Sec < l.t2Sec then 0 else (l.t1Sec.toNat - l.t2Sec.toNat + 1) * 1000) +
    (if l.t2Sec < l.leaseTimeSec then 0
      else (l.t2Sec.toNat - l.leaseTimeSec.toNat + 1) * 1000)

/-- What 32-bit arithmetic drops from the three delays; a T1 that wraps to 0 is replaced by 1. -/
def droppedMs (l : Lease) : Nat :=
  (if l.t1Sec.toNat * 1000 % 2 ^ 32 = 0 then l.t1Sec.toNat * 1000 - 1
    else l.t1Sec.toNat * 1000 / 2 ^ 32 * 2 ^ 32) +
    delaySec l.t1Sec.toNat l.t2Sec.toNat * 1000 / 2 ^ 32 * 2 ^ 32 +
    delaySec l.t2Sec.toNat l.leaseTimeSec.toNat * 1000 / 2 ^ 32 * 2 ^ 32

theorem delaySec_add (start next : Nat) :
    delaySec start next * 1000 + start * 1000 =
      next * 1000 + if start < next then 0 else (start - next + 1) * 1000 := by
  unfold delaySec
  split_ifs <;> omega

theorem periodT1_add_dropped (t1 : Nat) :
    (if t1 * 1000 % 2 ^ 32 = 0 then 1 else t1 * 1000 % 2 ^ 32) +
        (if t1 * 1000 % 2 ^ 32 = 0 then t1 * 1000 - 1 else t1 * 1000 / 2 ^ 32 * 2 ^ 32) =
      t1 * 1000 + if t1 = 0 then 1 else 0 := by
  by_cases ht : t1 = 0
  · subst ht
    rfl
  · have hpos : 1 ≤ t1 * 1000 := Nat.mul_pos (Nat.pos_of_ne_zero ht) (by decide)
    rw [if_neg ht, Nat.add_zero]
    split_ifs
    · exact Nat.add_sub_of_le hpos
    · exact Nat.mod_add_div' _ _

theorem heldMs_add_droppedMs (l : Lease) :
    heldMs l + droppedMs l = l.leaseTimeSec.toNat * 1000 + overrunMs l := by
  have hzero : l.t1Sec = 0 ↔ l.t1Sec.toNat = 0 := by rw [← UInt32.toNat_inj]; rfl
  -- Each delay is what is programmed plus what is dropped; the three sums are added up.
  have hT1 := periodT1_add_dropped l.t1Sec.toNat
  have hT2 := Nat.mod_add_div' (delaySec l.t1Sec.toNat l.t2Sec.toNat * 1000) (2 ^ 32)
  have hexpiry := Nat.mod_add_div' (delaySec l.t2Sec.toNat l.leaseTimeSec.toNat * 1000) (2 ^ 32)
  have hdelay2 := delaySec_add l.t1Sec.toNat l.t2Sec.toNat
  have hdelay3 := delaySec_add l.t2Sec.toNat l.leaseTimeSec.toNat
  simp only [heldMs, rebindMs, droppedMs, overrunMs, periodT1_toNat, periodT2_toNat,
    periodExpiry_toNat, hzero, UInt32.lt_iff_toNat_lt]
  linarith

-- No fallback is taken exactly if the terms are in the usual order.
theorem overrunMs_eq_zero_iff {l : Lease} :
    overrunMs l = 0 ↔ 0 < l.t1Sec ∧ l.t1Sec < l.t2Sec ∧ l.t2Sec < l.leaseTimeSec := by
  have hpos : 0 < l.t1Sec ↔ l.t1Sec ≠ 0 := UInt32.pos_iff_ne_zero
  unfold overrunMs
  rw [hpos]
  split_ifs with h1 h2 h3 <;> simp_all

-- Nothing is dropped if the three delays fit 32-bit milliseconds.
theorem droppedMs_eq_zero {l : Lease} (h1 : l.t1Sec.toNat * 1000 < 2 ^ 32)
    (h2 : delaySec l.t1Sec.toNat l.t2Sec.toNat * 1000 < 2 ^ 32)
    (h3 : delaySec l.t2Sec.toNat l.leaseTimeSec.toNat * 1000 < 2 ^ 32) : droppedMs l = 0 := by
  unfold droppedMs
  rw [Nat.mod_eq_of_lt h1, Nat.div_eq_of_lt h1, Nat.div_eq_of_lt h2, Nat.div_eq_of_lt h3]
  split_ifs with hzero <;> omega

/-- **When the address is not kept past its lease.**  For every reply the lease was taken from, the
three periods stay within the lease time exactly if the overrun of the delays is made up for by
what 32-bit arithmetic drops.  There is no overrun exactly if `0 < T1 < T2 < lease time`, and
nothing is dropped from delays of less than 2^32 ms.  A bound lease that nobody answers for is lost
exactly when the three periods are over. -/
theorem lease_time_kept_iff (env env' : Env) (r : Reply) (l : Lease) (c : Client)
    (hterms : SameTerms (populateLeaseFromOptions env' r.msg r.options l) c.lease) :
    ((periodT1 c.lease).toNat + (periodT2 c.lease).toNat + (periodExpiry c.lease).toNat ≤
        (leaseTimeOf r.options).toNat * 1000 ↔ overrunMs c.lease ≤ droppedMs c.lease) ∧
      (overrunMs c.lease = 0 ↔ 0 < c.lease.t1Sec ∧ c.lease.t1Sec < c.lease.t2Sec ∧
        c.lease.t2Sec < c.lease.leaseTimeSec) ∧
      (c.lease.t1Sec.toNat * 1000 < 2 ^ 32 →
        delaySec c.lease.t1Sec.toNat c.lease.t2Sec.toNat * 1000 < 2 ^ 32 →
        delaySec c.lease.t2Sec.toNat c.lease.leaseTimeSec.toNat * 1000 < 2 ^ 32 →
        droppedMs c.lease = 0) ∧
      ∀ events t, Lts.Run
          (Lts.Guarded (Lts.ofPartial Timed.step) fun t e => Unanswered t e ∧ Unforced t e)
          (.bind env c) events t →
        (∀ x, t.lostAt = some x → x =
          (periodT1 c.lease).toNat + (periodT2 c.lease).toNat + (periodExpiry c.lease).toNat) ∧
        ((periodT1 c.lease).toNat + (periodT2 c.lease).toNat + (periodExpiry c.lease).toNat < t.now →
          t.lostAt.isSome = true) := by
  have hsum := heldMs_add_droppedMs c.lease
  have hlease : c.lease.leaseTimeSec = leaseTimeOf r.options := hterms.leaseTimeSec
  refine ⟨?_, overrunMs_eq_zero_iff, droppedMs_eq_zero, fun events t hrun => ?_⟩
  · rw [← hlease]
    change heldMs c.lease ≤ _ ↔ _
    omega
  · have hmoments := (Timed.run_onTime hrun).moments
    refine ⟨hmoments.2.1, fun hlate => ?_⟩
    rw [hmoments.2.2.2 hlate]
    rfl

/-- The ACK of a lease of `leaseTime` seconds. -/
def grantAck (leaseTime : UInt32) : Option Reply :=
  parseReply (replyPayload .ack 7 ⟨10, 0, 0, 5⟩ (grantOptions ⟨10, 0, 0, 1⟩ leaseTime))

instance (l l' : Lease) : Decidable (SameTerms l l') :=
  decidable_of_iff (l'.offeredIp = l.offeredIp ∧ l'.netmask = l.netmask ∧ l'.gateway = l.gateway ∧
      l'.serverId = l.serverId ∧ l'.leaseTimeSec = l.leaseTimeSec ∧ l'.t1Sec = l.t1Sec ∧
      l'.t2Sec = l.t2Sec)
    ⟨fun ⟨h1, h2, h3, h4, h5, h6, h7⟩ => ⟨h1, h2, h3, h4, h5, h6, h7⟩,
      fun ⟨h1, h2, h3, h4, h5, h6, h7⟩ => ⟨h1, h2, h3, h4, h5, h6, h7⟩⟩

/-- The theorem at an ACK that grants 8 seconds: exactly 8000 ms. -/
theorem lease_time_kept_iff_eight :
    ∃ r, grantAck 8 = some r ∧
      (periodT1 (probedClient 8).lease).toNat + (periodT2 (probedClient 8).lease).toNat +
        (periodExpiry (probedClient 8).lease).toNat ≤ (leaseTimeOf r.options).toNat * 1000 := by
  have hsome : (grantAck 8).isSome = true := by decide +kernel
  have hterms : ∀ r ∈ grantAck 8, SameTerms
      (populateLeaseFromOptions (quietEnv 7) r.msg r.options (Lease.create 1))
      (probedClient 8).lease := by decide +kernel
  obtain ⟨r, hr⟩ := Option.isSome_iff_exists.mp hsome
  have hiff := (lease_time_kept_iff (quietEnv 7) _ _ _ _ (hterms r hr)).1
  exact ⟨r, hr, hiff.mpr (by decide +kernel)⟩

/-- An ACK that grants 2 seconds and no T1 or T2: both default to 1 second, the wait for T2 falls
back to a second one, and after 2.999 seconds the interface still carries the address. -/
theorem two_second_lease_overrun :
    (∃ r, grantAck 2 = some r ∧ SameTerms
        (populateLeaseFromOptions (quietEnv 7) r.msg r.options (Lease.create 1))
        (probedClient 2).lease ∧ (leaseTimeOf r.options).toNat * 1000 = 2000) ∧
      (periodT1 (probedClient 2).lease).toNat + (periodT2 (probedClient 2).lease).toNat +
        (periodExpiry (probedClient 2).lease).toNat = 3000 ∧
      ∃ t, Lts.Run (Lts.Guarded (Lts.ofPartial Timed.step) fun t e => Unanswered t e ∧ Unforced t e)
        (.bind (quietEnv 7) (probedClient 2))
        [.advance 1000, .event (quietEnv 8) (.leaseTimer false), .advance 1000,
          .event (quietEnv 9) (.leaseTimer false), .advance 999] t ∧
        t.now = 2999 ∧ t.client.netif.ipAddress = .v4 ⟨10, 0, 0, 5⟩ := by
  refine ⟨?_, by decide +kernel, ?_⟩
  · have hsome : (grantAck 2).isSome = true := by decide +kernel
    have hall : ∀ r ∈ grantAck 2, SameTerms
        (populateLeaseFromOptions (quietEnv 7) r.msg r.options (Lease.create 1))
        (probedClient 2).lease ∧ (leaseTimeOf r.options).toNat * 1000 = 2000 := by decide +kernel
    obtain ⟨r, hr⟩ := Option.isSome_iff_exists.mp hsome
    exact ⟨r, hr, hall r hr⟩
  · obtain ⟨t, hrun, hresult⟩ := Lts.Passes.run Timed.step
      (fun t e => Unanswered t e ∧ Unforced t e) (.bind (quietEnv 7) (probedClient 2))
      [.advance 1000, .event (quietEnv 8) (.leaseTimer false), .advance 1000,
        .event (quietEnv 9) (.leaseTimer false), .advance 999]
      (fun t => (t.now, t.client.netif.ipAddress)) (2999, .v4 ⟨10, 0, 0, 5⟩) (by decide +kernel)
      (by decide +kernel)
    obtain ⟨hnow, hip⟩ := Prod.mk.inj hresult
    exact ⟨t, hrun, hnow, hip⟩

end Dmdhcp
