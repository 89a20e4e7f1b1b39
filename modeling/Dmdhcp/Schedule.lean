import Dmdhcp.ServerId

/-!
# The retransmission schedule

`retransmit_timer` and `retransmit_interval_ms` are set by hand in each way into a state that sends,
and doubled by each resend; the same timer also times the probe hand-off and the pause after a
DECLINE.  In between nothing touches either, so that the number of fires since the state was entered
says what the interval is and how many messages went out.
-/

namespace Dmdhcp

/-! ## 1. Fires and messages of one state -/

/-- The operation leads to another state. -/
def Client.changesState (c : Client) (o : Operation) : Bool :=
  (c.operate o).lease.state ≠ c.lease.state

def Operation.isFire : Operation → Bool
  | .event _ (.retransmit _) => true
  | _ => false

/-- The answer to the `Dmod_Malloc` of each message that is due: one as a state is entered, and one
at every fire in it. -/
def Client.buffers (c : Client) : Operation → List Bool
  | .event env ev =>
    if c.changesState (.event env ev) || (Operation.event env ev).isFire then [env.sendBuffer]
    else []
  | .setCallbacks _ _ => []

/-- The fires of the retransmit timer since the state was entered. -/
def firesInState (history : List (Client × Operation)) : Nat :=
  Lts.countSince (fun p => p.1.changesState p.2) (fun p => p.2.isFire) history

/-- The messages sent in the state, from the one sent on the way into it; `first` are those of
`dmdhcp_start`. -/
def messagesInState (first : List Sent) (history : List (Client × Operation)) : List Sent :=
  Lts.collectSince (fun p => p.1.changesState p.2) (fun p => p.1.newMessages p.2) first history

/-- The send buffers asked for in the state, by whether they could be allocated; `first` is that of
`dmdhcp_start`. -/
def buffersInState (first : Bool) (history : List (Client × Operation)) : List Bool :=
  Lts.collectSince (fun p => p.1.changesState p.2) (fun p => p.1.buffers p.2) [first] history

/-! ## 2. The backoff and the count of resends -/

/-- The interval after `n` doublings. -/
def backoffMs (n : Nat) : Nat := min (4000 * 2 ^ n) 64000

-- `next_backoff` doubles a value of at most 64000, so nothing wraps.
theorem nextBackoff_toNat {ms : UInt32} {n : Nat} (h : ms.toNat = backoffMs n) :
    (nextBackoff ms).toNat = backoffMs (n + 1) := by
  have hcap : ms.toNat ≤ 64000 := by
    rw [h]
    exact Nat.min_le_right _ _
  have hdouble : (ms * 2).toNat = ms.toNat * 2 := by
    rw [UInt32.toNat_mul, show (2 : UInt32).toNat = 2 from rfl]
    omega
  have hmax : retransmitMaxMs.toNat = 64000 := rfl
  have hpow : 4000 * 2 ^ (n + 1) = 4000 * 2 ^ n * 2 := by rw [Nat.pow_succ, Nat.mul_assoc]
  unfold backoffMs at h ⊢
  unfold nextBackoff
  dsimp only
  rw [hpow]
  split_ifs with hover
  all_goals
    rw [gt_iff_lt, UInt32.lt_iff_toNat_lt, hdouble, hmax] at hover
    omega

-- One more resend counted, while there is room.
theorem retransmitCount_succ {count : UInt32} (h : count.toNat ≤ 4) :
    (count + 1).toNat = count.toNat + 1 := counter_succ maxRequestRetransmits h (by decide)

theorem exceeds_maxRequestRetransmits {count : UInt32} (h : count.toNat ≤ 4) :
    count + 1 > maxRequestRetransmits ↔ count.toNat = 4 :=
  counter_exceeds maxRequestRetransmits h (by decide)

/-! ## 3. What a step sends -/

/-- The record of `c'` is that of `c` with the messages `ms`, and possibly other effects, added. -/
def Transmits (ms : List Sent) (c c' : Client) : Prop :=
  ∃ new, c'.log = new ++ c.log ∧ new.filterMap Effect.message = ms

section
variable {ms : List Sent} {c c₁ c' : Client}

-- What went before sent nothing.
theorem Transmits.after (h : Transmits ms c₁ c') (hnone : Adds (fun e => e.message = none) c c₁) :
    Transmits ms c c' := by
  obtain ⟨new, hlog, hms⟩ := h
  obtain ⟨old, hlog₁, hold⟩ := hnone
  refine ⟨new ++ old, by rw [hlog, hlog₁, List.append_assoc], ?_⟩
  rw [List.filterMap_append, hms, List.filterMap_eq_nil_iff.mpr hold, List.append_nil]

theorem Client.newMessages_eq {o : Operation} (h : Transmits ms c (c.operate o)) :
    c.newMessages o = ms := by
  obtain ⟨new, hlog, hms⟩ := h
  rw [Client.newMessages, Client.newEffects_eq hlog, hms]

end

/-- The two clients agree on everything that goes into a message. -/
structure SameMessages (c c' : Client) : Prop where
  netif : c'.netif = c.netif
  xid : c'.lease.xid = c.lease.xid
  offeredIp : c'.lease.offeredIp = c.lease.offeredIp
  serverId : c'.lease.serverId = c.lease.serverId
  hostname : c'.lease.hostname = c.lease.hostname

/-- They also agree on the state and on its place in the schedule. -/
structure SameExchange (c c' : Client) : Prop extends SameMessages c c' where
  state : c'.lease.state = c.lease.state
  interval : c'.lease.retransmitIntervalMs = c.lease.retransmitIntervalMs
  period : c'.lease.retransmitTimer.periodMs = c.lease.retransmitTimer.periodMs
  count : c'.lease.retransmitCount = c.lease.retransmitCount

theorem SameMessages.message {c c' : Client} (h : SameMessages c c') (s : Sender) :
    s.message c' = s.message c := by
  have hci : s.ciaddr c'.lease = s.ciaddr c.lease := by
    cases s <;> simp [Sender.ciaddr, h.offeredIp]
  have hip : s.requestedIp c'.lease = s.requestedIp c.lease := by
    cases s <;> simp [Sender.requestedIp, h.offeredIp]
  have hid : s.serverIdOption c'.lease = s.serverIdOption c.lease := by
    cases s <;> simp [Sender.serverIdOption, h.serverId]
  have hdst : s.dst c'.lease = s.dst c.lease := by
    cases s <;> simp [Sender.dst, h.serverId]
  have hheader (ciaddr : Option Addr) :
      messageHeader c'.lease c'.netif ciaddr = messageHeader c.lease c.netif ciaddr := by
    rw [messageHeader, messageHeader, h.xid, h.netif]
  have hoptions (msgType : MsgType) (ip id : Option Addr) :
      messageOptions c'.lease msgType ip id = messageOptions c.lease msgType ip id := by
    rw [messageOptions, messageOptions, h.hostname]
  rw [Sender.message, Sender.message, hci, hip, hid, hdst, hheader, hoptions, h.xid]

theorem SameMessages.trans {c₁ c₂ c₃ : Client} (h : SameMessages c₁ c₂) (h' : SameMessages c₂ c₃) :
    SameMessages c₁ c₃ :=
  ⟨h'.netif.trans h.netif, h'.xid.trans h.xid, h'.offeredIp.trans h.offeredIp,
    h'.serverId.trans h.serverId, h'.hostname.trans h.hostname⟩

theorem SameExchange.trans {c₁ c₂ c₃ : Client} (h : SameExchange c₁ c₂) (h' : SameExchange c₂ c₃) :
    SameExchange c₁ c₃ :=
  ⟨h.toSameMessages.trans h'.toSameMessages, h'.state.trans h.state, h'.interval.trans h.interval,
    h'.period.trans h.period, h'.count.trans h.count⟩

-- A fire disarms its timer and leaves the period programmed.
theorem Client.before_sameExchange (c : Client) (ev : Event) : SameExchange c (c.before ev) := by
  cases ev with
  | retransmit stale => cases stale <;> exact ⟨⟨rfl, rfl, rfl, rfl, rfl⟩, rfl, rfl, rfl, rfl⟩
  | leaseTimer stale => cases stale <;> exact ⟨⟨rfl, rfl, rfl, rfl, rfl⟩, rfl, rfl, rfl, rfl⟩
  | datagram iface payload => exact ⟨⟨rfl, rfl, rfl, rfl, rfl⟩, rfl, rfl, rfl, rfl⟩
  | renew => exact ⟨⟨rfl, rfl, rfl, rfl, rfl⟩, rfl, rfl, rfl, rfl⟩

-- What a sender puts on the wire, told from a client after it.
theorem Sender.send_transmits (s : Sender) (env : Env) {c c' : Client}
    (hv6 : c.lease.offeredIp.isV6 = false) (hsame : SameMessages c c')
    (hlog : c'.log = (s.send env c).log) :
    Transmits (if env.sendBuffer then [s.message c'] else []) c c' := by
  rw [hsame.message s]
  rw [s.send_eq env c hv6] at hlog
  split_ifs at hlog ⊢ with hbuffer
  · exact ⟨[.sent (s.message c)], hlog, rfl⟩
  · exact ⟨[], hlog, rfl⟩

/-! ## 4. Ways into a state that sends -/

/-- A state has been entered whose message is that of `s`: it went out once, if there was a buffer
for it, and the timer runs for the first interval. -/
structure Entered (env : Env) (s : Sender) (c c' : Client) : Prop where
  interval : c'.lease.retransmitIntervalMs = retransmitInitialMs
  period : c'.lease.retransmitTimer.periodMs = retransmitInitialMs
  count : c'.lease.retransmitCount = 0
  messages : Transmits (if env.sendBuffer then [s.message c'] else []) c c'

theorem Entered.after {env : Env} {s : Sender} {c c₁ c' : Client} (h : Entered env s c₁ c')
    (hnone : Adds (fun e => e.message = none) c c₁) : Entered env s c c' :=
  ⟨h.interval, h.period, h.count, h.messages.after hnone⟩

-- The schedule does not see the lease timer.
theorem Entered.armLease {env : Env} {s : Sender} {c c' : Client} (h : Entered env s c c')
    (periodMs : UInt32) : Entered env s c (c'.armLease env periodMs) :=
  ⟨h.interval, h.period, h.count, h.messages⟩

section
variable (env : Env) (c : Client)

-- The DISCOVER goes out with everything forgotten that might have come from a server.
theorem outputStartDiscovery_entered : Entered env .discover c (outputStartDiscovery env c) := by
  have hsend : ∃ c₁ : Client, c₁.log = .startDiscovery :: c.log ∧
      c₁.lease.offeredIp = .none ∧ SameMessages c₁ (outputStartDiscovery env c) ∧
      (outputStartDiscovery env c).log = (Sender.discover.send env c₁).log := by
    unfold outputStartDiscovery Client.armRetransmit
    extract_lets c₁ c₂
    refine ⟨c₁, rfl, rfl, ⟨?_, ?_, ?_, ?_, ?_⟩, ?_⟩
    all_goals simp [c₂, sendDiscover_eq, Sender.send]
  obtain ⟨c₁, hmark, hip, hsame, hlog⟩ := hsend
  have hmessages := Sender.discover.send_transmits env (by rw [hip]; rfl) hsame hlog
  refine ⟨?_, ?_, ?_, hmessages.after (.of_log_cons hmark rfl)⟩ <;> rw [outputStartDiscovery_lease]
  rfl

variable {c}

-- An exchange that starts with its message, sent from the lease as `beginExchange` leaves it.
theorem Lease.inExchange_entered {s : Sender} {state : State} {c₀ c' : Client}
    (hmark : Adds (fun e => e.message = none) c c₀) (hv6 : c₀.lease.offeredIp.isV6 = false)
    (hlease : c'.lease = c₀.lease.inExchange env state) (hnetif : c'.netif = c₀.netif)
    (hlog : c'.log = (s.send env (beginExchange env c₀)).log) : Entered env s c c' := by
  have hsame : SameMessages (beginExchange env c₀) c' := by
    refine ⟨hnetif, ?_, ?_, ?_, ?_⟩ <;> rw [hlease] <;> rfl
  have hmessages := s.send_transmits env (c := beginExchange env c₀) hv6 hsame hlog
  refine ⟨?_, ?_, ?_, hmessages.after (hmark.log_congr rfl rfl)⟩ <;> rw [hlease] <;> rfl

theorem outputStartReboot_entered (hv6 : c.lease.offeredIp.isV6 = false) :
    Entered env .requestReboot c (outputStartReboot env c) := by
  have hmark : Adds (fun e => e.message = none) c (c.emit .startReboot) :=
    .of_log_cons (e := .startReboot) rfl rfl
  exact Lease.inExchange_entered env hmark hv6 (outputStartReboot_lease env c)
    (outputStartReboot_netif env c) (outputStartReboot_log env c)

theorem outputStartRenew_entered (hv6 : c.lease.offeredIp.isV6 = false) :
    Entered env .requestRenew c (outputStartRenew env c) :=
  Lease.inExchange_entered env (.of_log_eq rfl) hv6 (outputStartRenew_lease env c)
    (outputStartRenew_netif env c) (outputStartRenew_log env c)

theorem outputStartRebind_entered (hv6 : c.lease.offeredIp.isV6 = false) :
    Entered env .requestRebind c (outputStartRebind env c) :=
  Lease.inExchange_entered env (.of_log_eq rfl) hv6 (outputStartRebind_lease env c)
    (outputStartRebind_netif env c) (outputStartRebind_log env c)

-- After the clean probe the xid is still that of the DISCOVER.
theorem requestOffered_entered (hv6 : c.lease.offeredIp.isV6 = false) :
    Entered env .requestSelecting c
      (requestOffered env (c.emit (.probe c.lease.offeredIp false))) := by
  have hlease := requestOffered_lease env (c.emit (.probe c.lease.offeredIp false))
  have hsame : SameMessages (c.emit (.probe c.lease.offeredIp false))
      (requestOffered env (c.emit (.probe c.lease.offeredIp false))) := by
    refine ⟨?_, ?_, ?_, ?_, ?_⟩
    · simp [requestOffered, sendRequestSelecting, Client.armRetransmit]
    all_goals rw [hlease]
  have hmark : Adds (fun e => e.message = none) c (c.emit (.probe c.lease.offeredIp false)) :=
    .of_log_cons (e := .probe c.lease.offeredIp false) rfl rfl
  have hmessages := Sender.requestSelecting.send_transmits env
    (c := c.emit (.probe c.lease.offeredIp false)) hv6 hsame (requestOffered_log env _)
  refine ⟨?_, ?_, ?_, hmessages.after hmark⟩ <;> rw [hlease]
  rfl

end

/-! ## 5. One step -/

/-- What a step means for the schedule. -/
inductive ScheduleStep (env : Env) (ev : Event) (c c' : Client) : Prop
  /-- Nothing happens; a fire is ignored only where no message is repeated. -/
  | wait (hev : ∀ stale, ev = .retransmit stale → c.lease.state.sender = none)
      (hsame : SameExchange c c') (hlog : c'.log = c.log)
  /-- A fire repeats the message and doubles the interval. -/
  | resend (s : Sender) (hev : ∃ stale, ev = .retransmit stale)
      (hs : c.lease.state.sender = some s) (hsame : SameMessages c c')
      (hstate : c'.lease.state = c.lease.state)
      (hinterval : c'.lease.retransmitIntervalMs = nextBackoff c.lease.retransmitIntervalMs)
      (hperiod : c'.lease.retransmitTimer.periodMs = c'.lease.retransmitIntervalMs)
      (hcount : c.Recounts c'.lease.retransmitCount)
      (hmessages : Transmits (if env.sendBuffer then [s.message c'] else []) c c')
  /-- Another state is entered, with its message if it has one. -/
  | enter (hstate : c'.lease.state ≠ c.lease.state)
      (hs : ∀ s, c'.lease.state.sender = some s → Entered env s c c')

-- A step into a state without a message.
theorem ScheduleStep.silent {env : Env} {ev : Event} {c c' : Client} (state : State)
    (hs : c'.lease.state = state) (hnone : state.sender = none) (hne : c.lease.state ≠ state) :
    ScheduleStep env ev c c' := by
  subst hs
  refine .enter hne.symm fun s hs => ?_
  rw [hnone] at hs
  cases hs

-- A step into a state with one.
theorem ScheduleStep.sending {env : Env} {ev : Event} {c c' : Client} {s : Sender} (state : State)
    (hs : c'.lease.state = state) (hsender : state.sender = some s) (hne : c.lease.state ≠ state)
    (h : Entered env s c c') : ScheduleStep env ev c c' := by
  subst hs
  refine .enter hne.symm fun s' hs' => ?_
  rw [hsender] at hs'
  cases hs'
  exact h

-- The lost path ends in a start of discovery, whatever it did before.
theorem lifecycleHandleLost_entered (env : Env) (c : Client) :
    Entered env .discover c (lifecycleHandleLost env c) := by
  have hcalls : Adds (fun e => e.message = none) c (callOnExpiredOrLost (lostUnapply env c)) := by
    apply lostCallback_adds
    · rfl
    · rfl
  exact (outputStartDiscovery_entered env _).after hcalls

theorem resend_scheduleStep {env : Env} {ev : Event} {c : Client} {s : Sender} {count : UInt32}
    (hv6 : c.lease.offeredIp.isV6 = false) (hev : ∃ stale, ev = .retransmit stale)
    (hs : c.lease.state.sender = some s) (hcount : c.Recounts count) :
    ScheduleStep env ev c
      (rearmBackoff env (s.send env (c.update fun l => { l with retransmitCount := count }))) := by
  set c₁ := c.update fun l => { l with retransmitCount := count } with hc₁
  have hlease : (rearmBackoff env (s.send env c₁)).lease =
      { c.lease with
        retransmitCount := count
        retransmitIntervalMs := nextBackoff c.lease.retransmitIntervalMs
        retransmitTimer := .arm env.now (nextBackoff c.lease.retransmitIntervalMs) } := by
    rw [rearmBackoff_lease, Sender.send, sendMessage_lease]
    rfl
  have hnetif : (rearmBackoff env (s.send env c₁)).netif = c.netif := by
    simp [rearmBackoff, Client.armRetransmit, Sender.send, hc₁]
  have hsame : SameMessages c (rearmBackoff env (s.send env c₁)) := by
    refine ⟨hnetif, ?_, ?_, ?_, ?_⟩ <;> rw [hlease]
  have hsame₁ : SameMessages c₁ (rearmBackoff env (s.send env c₁)) :=
    ⟨hsame.netif, hsame.xid, hsame.offeredIp, hsame.serverId, hsame.hostname⟩
  have hmessages := s.send_transmits env (c := c₁) hv6 hsame₁ (rearmBackoff_send_log env c₁ s)
  refine .resend s hev hs hsame ?_ ?_ ?_ ?_ (hmessages.after (.of_log_eq rfl)) <;> rw [hlease]
  · rfl
  · exact hcount

theorem Reaction.scheduleStep {env : Env} {ev : Event} {c c₁ : Client} {after : After}
    (hv6 : c.lease.offeredIp.isV6 = false) (h : Reaction env ev c c₁ after) :
    ScheduleStep env ev c (after.finish env c₁) := by
  cases h with
  | idle hr hl =>
    refine .wait (fun stale hev => ?_) ⟨⟨rfl, rfl, rfl, rfl, rfl⟩, rfl, rfl, rfl, rfl⟩ rfl
    have hnone := hr stale hev
    cases hstate : c.lease.state <;> rw [hstate] at hnone <;> first | rfl | cases hnone
  | offer r hd hs => exact .silent .checkingOffer rfl rfl (by rw [hs]; decide)
  | ack r hd hs =>
    exact .silent .checkingAck rfl rfl (by rcases hs with hs | hs <;> rw [hs] <;> decide)
  | restart hover =>
    refine .sending .selecting (outputStartDiscovery_state env c) rfl ?_
      (outputStartDiscovery_entered env c)
    rcases hover with ⟨-, hs | hs⟩ | ⟨-, ⟨hs | hs, -⟩ | hs⟩ <;> rw [hs] <;> decide
  | renewed r hd hs =>
    refine .silent .bound ?_ rfl (by rcases hs with hs | hs <;> rw [hs] <;> decide)
    rw [(After.finish_eq (show After.onBound true ≠ .lost by decide) _).1]
    exact commitLease_state env _
  | lost hl =>
    refine .sending .selecting (lifecycleHandleLost_state env c) rfl ?_
      (lifecycleHandleLost_entered env c)
    rcases hl with ⟨-, hs | hs⟩ | ⟨-, hs⟩ <;> rw [hs] <;> decide
  | resend s count hev hs hcount => exact resend_scheduleStep hv6 hev hs hcount
  | conflict hev hs harp =>
    obtain ⟨state, timer, hstate, hlease⟩ := handleConflict_lease env
      (c.emit (.probe c.lease.offeredIp true))
    have hne (s : State) (hno : s ≠ .checkingOffer ∧ s ≠ .checkingAck) : c.lease.state ≠ s := by
      rcases hs with hs | hs <;> rw [hs]
      · exact hno.1.symm
      · exact hno.2.symm
    have hfinish : (((handleConflict env (c.emit (.probe c.lease.offeredIp true))).2.finish env
        (handleConflict env (c.emit (.probe c.lease.offeredIp true))).1).lease).state = state := by
      rw [(After.finish_eq (handleConflict_ne_lost env _) _).1, hlease]
    rcases hstate with rfl | rfl
    · exact .silent .failed hfinish rfl (hne _ (by decide))
    · exact .silent .declining hfinish rfl (hne _ (by decide))
  | request hev hs harp =>
    exact .sending .requesting (requestOffered_state env _) rfl (by rw [hs]; decide)
      (requestOffered_entered env hv6)
  | commit hev hs harp =>
    refine .silent .bound ?_ rfl (by rw [hs]; decide)
    rw [(After.finish_eq (show After.onBound false ≠ .lost by decide) _).1]
    exact commitLease_state env _
  | renew hev hs =>
    exact .sending .renewing (outputStartRenew_state env c) rfl (by rw [hs]; decide)
      (outputStartRenew_entered env hv6)
  | t1 hev hs =>
    exact .sending .renewing (outputStartRenew_state env c) rfl (by rw [hs]; decide)
      ((outputStartRenew_entered env hv6).armLease _)
  | t2 hev hs =>
    exact .sending .rebinding (outputStartRebind_state env c) rfl (by rw [hs]; decide)
      ((outputStartRebind_entered env hv6).armLease _)

theorem Client.operate_scheduleStep {c : Client} (hv6 : c.lease.offeredIp.isV6 = false) (env : Env)
    (ev : Event) : ScheduleStep env ev c (c.operate (.event env ev)) := by
  obtain ⟨c₁, after, hreact, heq⟩ := c.operate_reaction env ev
  have hbefore := c.before_sameExchange ev
  have hlog := (c.before_same ev).log
  have hstep := hreact.scheduleStep (by rw [hbefore.offeredIp]; exact hv6)
  rw [← heq] at hstep
  cases hstep with
  | wait hev hsame hlog' =>
    rw [hbefore.state] at hev
    exact .wait hev (hbefore.trans hsame) (hlog'.trans hlog)
  | resend s hev hs hsame hstate hinterval hperiod hcount hmessages =>
    rw [hbefore.state] at hs hstate
    rw [hbefore.interval] at hinterval
    rw [Client.Recounts, hbefore.state, hbefore.count] at hcount
    exact .resend s hev hs (hbefore.toSameMessages.trans hsame) hstate hinterval hperiod hcount
      (hmessages.after (.of_log_eq hlog))
  | enter hstate hs =>
    rw [hbefore.state] at hstate
    exact .enter hstate fun s hsender => (hs s hsender).after (.of_log_eq hlog)

/-! ## 6. The schedule of a run -/

/-- After `n` fires in a state whose message is that of `s`: the backoff, and one message for every
buffer that could be allocated. -/
structure OnSchedule (s : Sender) (n : Nat) (buffers : List Bool) (messages : List Sent)
    (c : Client) : Prop where
  interval : c.lease.retransmitIntervalMs.toNat = backoffMs n
  period : c.lease.retransmitTimer.periodMs = c.lease.retransmitIntervalMs
  asked : buffers.length = n + 1
  sent : messages = List.replicate (buffers.count true) (s.message c)
  count : c.lease.state = .requesting ∨ c.lease.state = .rebooting →
    c.lease.retransmitCount.toNat = n ∧ n ≤ 4

section
variable {env : Env} {s : Sender} {c c' : Client} {n : Nat} {buffers : List Bool}
  {messages : List Sent}

theorem Entered.onSchedule (h : Entered env s c c') :
    OnSchedule s 0 [env.sendBuffer] (if env.sendBuffer then [s.message c'] else []) c' := by
  refine ⟨?_, h.period.trans h.interval.symm, rfl, ?_, fun _ => ?_⟩
  · rw [h.interval]
    rfl
  · cases env.sendBuffer <;> rfl
  · rw [h.count]
    exact ⟨rfl, Nat.zero_le 4⟩

theorem OnSchedule.wait (h : OnSchedule s n buffers messages c) (hsame : SameExchange c c') :
    OnSchedule s n buffers messages c' := by
  refine ⟨?_, ?_, h.asked, ?_, ?_⟩
  · rw [hsame.interval]
    exact h.interval
  · rw [hsame.period, hsame.interval]
    exact h.period
  · rw [hsame.message s]
    exact h.sent
  · rw [hsame.state, hsame.count]
    exact h.count

-- The count of resends goes up by one, and stops at four.
theorem Client.Recounts.toNat {count : UInt32} (h : c.Recounts count)
    (hs : c.lease.state = .requesting ∨ c.lease.state = .rebooting)
    (hn : c.lease.retransmitCount.toNat = n ∧ n ≤ 4) : count.toNat = n + 1 ∧ n + 1 ≤ 4 := by
  obtain ⟨rfl, hlimit⟩ := hn
  rw [Client.Recounts, if_pos hs] at h
  obtain ⟨rfl, hroom⟩ := h
  rw [exceeds_maxRequestRetransmits hlimit] at hroom
  rw [retransmitCount_succ hlimit]
  omega

theorem OnSchedule.resend (h : OnSchedule s n buffers messages c) (b : Bool)
    (hsame : SameMessages c c') (hstate : c'.lease.state = c.lease.state)
    (hinterval : c'.lease.retransmitIntervalMs = nextBackoff c.lease.retransmitIntervalMs)
    (hperiod : c'.lease.retransmitTimer.periodMs = c'.lease.retransmitIntervalMs)
    (hcount : c.Recounts c'.lease.retransmitCount) :
    OnSchedule s (n + 1) (b :: buffers) ((if b then [s.message c'] else []) ++ messages) c' := by
  refine ⟨?_, hperiod, ?_, ?_, fun hs => ?_⟩
  · rw [hinterval]
    exact nextBackoff_toNat h.interval
  · rw [List.length_cons, h.asked]
  · rw [h.sent, hsame.message s]
    cases b with
    | true =>
      rw [List.count_cons_self, List.replicate_succ]
      rfl
    | false =>
      rw [List.count_cons_of_ne (by decide)]
      rfl
  · rw [hstate] at hs
    exact hcount.toNat hs (h.count hs)

end

section
variable (first : Bool) (started : List Sent) (history : List (Client × Operation)) {c : Client}
  {o : Operation}

-- An operation that keeps the state adds what it does to the account of the state, ...
theorem inState_stay (h : c.changesState o = false) :
    firesInState ((c, o) :: history) = (if o.isFire then 1 else 0) + firesInState history ∧
      buffersInState first ((c, o) :: history) = c.buffers o ++ buffersInState first history ∧
      messagesInState started ((c, o) :: history) =
        c.newMessages o ++ messagesInState started history := by
  refine ⟨?_, ?_, ?_⟩
  · rw [firesInState, Lts.countSince, h, if_neg Bool.false_ne_true]
    rfl
  · rw [buffersInState, Lts.collectSince, h, if_neg Bool.false_ne_true]
    rfl
  · rw [messagesInState, Lts.collectSince, h, if_neg Bool.false_ne_true]
    rfl

-- ... and one that changes it opens a new account.
theorem inState_enter (h : c.changesState o = true) :
    firesInState ((c, o) :: history) = 0 ∧
      buffersInState first ((c, o) :: history) = c.buffers o ∧
      messagesInState started ((c, o) :: history) = c.newMessages o := by
  refine ⟨?_, ?_, ?_⟩
  · rw [firesInState, Lts.countSince, h, if_pos rfl]
  · rw [buffersInState, Lts.collectSince, h, if_pos rfl]
  · rw [messagesInState, Lts.collectSince, h, if_pos rfl]

end

/-- The schedule is kept in whichever state the client is. -/
structure Scheduled (first : Bool) (started : List Sent) (c : Client)
    (history : List (Client × Operation)) : Prop where
  offered : OfferedKnown c
  exchange : ∀ s, c.lease.state.sender = some s → OnSchedule s (firesInState history)
    (buffersInState first history) (messagesInState started history) c

-- An operation that is no fire and leaves the exchange alone.
theorem OnSchedule.idle {s : Sender} {c : Client} {o : Operation} {first : Bool}
    {started : List Sent} {history : List (Client × Operation)}
    (h : OnSchedule s (firesInState history) (buffersInState first history)
      (messagesInState started history) c)
    (hfire : o.isFire = false) (hsame : SameExchange c (c.operate o))
    (hlog : (c.operate o).log = c.log) :
    OnSchedule s (firesInState ((c, o) :: history)) (buffersInState first ((c, o) :: history))
      (messagesInState started ((c, o) :: history)) (c.operate o) := by
  have hstay : c.changesState o = false := decide_eq_false fun hne => hne hsame.state
  have hbuffers : c.buffers o = [] := by
    cases o with
    | event env ev => rw [Client.buffers, hstay, hfire]; rfl
    | setCallbacks callbacks userData => rfl
  have hmessages : c.newMessages o = [] := Client.newMessages_eq ⟨[], hlog, rfl⟩
  obtain ⟨hn, hbs, hms⟩ := inState_stay first started history hstay
  rw [hn, hbs, hms, hfire, hbuffers, hmessages, if_neg Bool.false_ne_true, Nat.zero_add]
  exact h.wait hsame

/-- **One step** keeps the schedule. -/
theorem Scheduled.step {c : Client} {first : Bool} {started : List Sent}
    {history : List (Client × Operation)} (h : Scheduled first started c history) (o : Operation) :
    Scheduled first started (c.operate o) ((c, o) :: history) := by
  refine ⟨h.offered.step o, fun s hs => ?_⟩
  cases o with
  | setCallbacks callbacks userData =>
    exact (h.exchange s hs).idle rfl ⟨⟨rfl, rfl, rfl, rfl, rfl⟩, rfl, rfl, rfl, rfl⟩ rfl
  | event env ev =>
    cases Client.operate_scheduleStep h.offered.noV6 env ev with
    | wait hev hsame hlog =>
      rw [hsame.state] at hs
      refine (h.exchange s hs).idle ?_ hsame hlog
      cases ev with
      | retransmit stale =>
        rw [hev stale rfl] at hs
        cases hs
      | datagram iface payload => rfl
      | leaseTimer stale => rfl
      | renew => rfl
    | resend s' hev hs' hsame hstate hinterval hperiod hcount hmessages =>
      rw [hstate, hs'] at hs
      cases hs
      have hstay : c.changesState (.event env ev) = false := decide_eq_false fun hne => hne hstate
      have hfire : (Operation.event env ev).isFire = true := by
        obtain ⟨stale, rfl⟩ := hev
        rfl
      have hbuffers : c.buffers (.event env ev) = [env.sendBuffer] := by
        rw [Client.buffers, hfire, Bool.or_true, if_pos rfl]
      obtain ⟨hn, hbs, hms⟩ := inState_stay first started history hstay
      rw [hn, hbs, hms, hfire, hbuffers, Client.newMessages_eq hmessages, if_pos rfl, Nat.add_comm]
      exact (h.exchange s hs').resend env.sendBuffer hsame hstate hinterval hperiod hcount
    | enter hstate hentered =>
      have henters : c.changesState (.event env ev) = true := decide_eq_true hstate
      have hbuffers : c.buffers (.event env ev) = [env.sendBuffer] := by
        rw [Client.buffers, henters, Bool.true_or, if_pos rfl]
      obtain ⟨hn, hbs, hms⟩ := inState_enter first started history henters
      rw [hn, hbs, hms, hbuffers, Client.newMessages_eq (hentered s hs).messages]
      exact (hentered s hs).onSchedule

theorem start_scheduled (env : Env) (iface : Iface) (netif : Netif) (callbacks : Callbacks)
    (userData : Nat) (options : Option StartOptions) :
    Scheduled env.sendBuffer
      ((Client.start env iface netif callbacks userData options).log.filterMap Effect.message)
      (Client.start env iface netif callbacks userData options) [] := by
  have hoffered := (start_serverKnown env iface netif callbacks userData options).toOfferedKnown
  refine ⟨hoffered, fun s hs => ?_⟩
  obtain ⟨c, hempty, hstart⟩ := start_cases env iface netif callbacks userData options
  have hentered : Entered env s c (Client.start env iface netif callbacks userData options) := by
    rcases hstart with heq | heq
    · have hv6 := hoffered.noV6
      rw [heq] at hs hv6 ⊢
      rw [outputStartReboot_lease] at hs hv6
      cases hs
      exact outputStartReboot_entered env hv6
    · rw [heq] at hs ⊢
      rw [outputStartDiscovery_lease] at hs
      cases hs
      exact outputStartDiscovery_entered env c
  obtain ⟨new, hlog, hnew⟩ := hentered.messages
  rw [hempty, List.append_nil] at hlog
  rw [hlog, hnew]
  exact hentered.onSchedule

/-! ## 7. The last fire of a REQUEST -/

/-- Discovery has just started over, and nothing is left of the last server. -/
structure Lease.Rediscovers (l : Lease) : Prop where
  state : l.state = .selecting
  offeredIp : l.offeredIp = .none
  serverId : l.serverId = .none
  gateway : l.gateway = .none
  netmask : l.netmask = .none
  dnsServers : l.dnsServers = []
  ntpServers : l.ntpServers = []

section
variable {c : Client} (env : Env)

theorem resendRequest_last (h : c.lease.retransmitCount.toNat = 4) :
    (resendRequest env c).lease.Rediscovers := by
  have hlast : c.lease.retransmitCount + 1 > maxRequestRetransmits :=
    (exceeds_maxRequestRetransmits (by omega)).mpr h
  show (if c.lease.retransmitCount + 1 > maxRequestRetransmits then _
    else _ : Client).lease.Rediscovers
  rw [if_pos hlast, outputStartDiscovery_lease]
  exact ⟨rfl, rfl, rfl, rfl, rfl, rfl, rfl⟩

theorem resendRequest_earlier (h : c.lease.retransmitCount.toNat < 4) :
    (resendRequest env c).lease.state = c.lease.state := by
  have hroom : ¬c.lease.retransmitCount + 1 > maxRequestRetransmits := by
    rw [exceeds_maxRequestRetransmits (by omega)]
    omega
  show (if c.lease.retransmitCount + 1 > maxRequestRetransmits then _
    else _ : Client).lease.state = _
  rw [if_neg hroom, rearmBackoff_lease]
  split_ifs <;> simp [sendRequestSelecting, sendRequestReboot]

-- A fire in `requesting` or `rebooting` runs `resendRequest`, stale or not.
theorem Client.operate_requestFire (hs : c.lease.state = .requesting ∨ c.lease.state = .rebooting)
    (stale : Bool) : c.operate (.event env (.retransmit stale)) =
      resendRequest env (c.before (.retransmit stale)) := by
  show retransmitTimerCallback env (c.before (.retransmit stale)) = _
  have hbefore := c.before_state (.retransmit stale)
  unfold retransmitTimerCallback retransmitTimerSection
  rcases hs with hs | hs <;> rw [hbefore, hs] <;> rfl

end

-- A receiver reads the xid of the lease.
theorem Sender.message_xid (s : Sender) (c : Client) :
    ∃ m, parseMessage (s.message c).payload = .ok (m, 240) ∧ m.xid = c.lease.xid := by
  rw [Sender.message, parseMessage_headerBytes]
  exact ⟨_, rfl, rfl⟩

/-- **The retransmission schedule.** In every state of every run whose message is that of `s`, after
`n` fires of the retransmit timer in it: the interval and the period programmed are `4000 * 2 ^ n`
ms, at most 64000; `n + 1` messages were due, and one and the same message went out for each that
had a buffer, under the xid of the lease.  In `requesting` and `rebooting`, `n` is the count of
resends; the first four fires keep the state and the fifth starts discovery over. -/
theorem retransmission_schedule {env : Env} {iface : Iface} {netif : Netif} {callbacks : Callbacks}
    {userData : Nat} {options : Option StartOptions} {ops : List Operation} {c : Client}
    {history : List (Client × Operation)} {s : Sender}
    (hrun : Lts.Run (Lts.ofTotal (Lts.recorded Client.operate))
      (Client.start env iface netif callbacks userData options, []) ops (c, history))
    (hs : c.lease.state.sender = some s) :
    c.lease.retransmitIntervalMs.toNat = min (4000 * 2 ^ firesInState history) 64000 ∧
    c.lease.retransmitTimer.periodMs.toNat = min (4000 * 2 ^ firesInState history) 64000 ∧
    (buffersInState env.sendBuffer history).length = firesInState history + 1 ∧
    messagesInState ((Client.start env iface netif callbacks userData options).log.filterMap
      Effect.message) history =
        List.replicate ((buffersInState env.sendBuffer history).count true) (s.message c) ∧
    ((s.message c).msgType = s.msgType ∧ (s.message c).xid = c.lease.xid ∧
      ∃ m, parseMessage (s.message c).payload = .ok (m, 240) ∧ m.xid = c.lease.xid) ∧
    (c.lease.state = .requesting ∨ c.lease.state = .rebooting →
      firesInState history = c.lease.retransmitCount.toNat ∧
      firesInState history ≤ 4 ∧
      (messagesInState ((Client.start env iface netif callbacks userData options).log.filterMap
        Effect.message) history).length ≤ 5 ∧
      ∀ env' stale,
        (firesInState history < 4 →
          (c.operate (.event env' (.retransmit stale))).lease.state = c.lease.state) ∧
        (firesInState history = 4 →
          (c.operate (.event env' (.retransmit stale))).lease.Rediscovers)) := by
  have hscheduled : Scheduled env.sendBuffer
      ((Client.start env iface netif callbacks userData options).log.filterMap Effect.message)
      c history := by
    refine hrun.invariant (I := fun p => Scheduled env.sendBuffer _ p.1 p.2)
      (fun p o p' hp hstep => ?_) (start_scheduled env iface netif callbacks userData options)
    rw [← show Lts.recorded Client.operate p o = p' from hstep]
    exact hp.step o
  have h := hscheduled.exchange s hs
  refine ⟨h.interval, ?_, h.asked, h.sent, ⟨rfl, rfl, s.message_xid c⟩, fun hrequest => ?_⟩
  · rw [h.period]
    exact h.interval
  · obtain ⟨hcount, hlimit⟩ := h.count hrequest
    refine ⟨hcount.symm, hlimit, ?_, fun env' stale => ?_⟩
    · have hmost := List.count_le_length (l := buffersInState env.sendBuffer history) (a := true)
      have hasked := h.asked
      rw [h.sent, List.length_replicate]
      omega
    · have hbefore := c.before_sameExchange (.retransmit stale)
      rw [Client.operate_requestFire env' hrequest stale]
      refine ⟨fun hearlier => ?_, fun hlast => ?_⟩
      · rw [resendRequest_earlier env' (by rw [hbefore.count]; omega), hbefore.state]
      · exact resendRequest_last env' (by rw [hbefore.count]; omega)

/-- An offer that is asked for, and four fires without an answer. -/
def unansweredInputs : List (Env × Event) :=
  (acquireInputs ⟨10, 0, 0, 5⟩ ⟨10, 0, 0, 1⟩ 3600).take 2 ++
    List.replicate 4 (quietEnv 7, .retransmit false)

/-- Five REQUESTs at the longest interval, and discovery after one more fire. -/
theorem retransmission_schedule_unanswered :
    ∃ c history, Lts.Run (Lts.ofTotal (Lts.recorded Client.operate)) (startedClient, [])
        (operations unansweredInputs) (c, history) ∧
      c.lease.state = .requesting ∧ firesInState history = 4 ∧
      c.lease.retransmitIntervalMs.toNat = 64000 ∧
      messagesInState (startedClient.log.filterMap Effect.message) history =
        List.replicate 5 (Sender.requestSelecting.message c) ∧
      ∀ env stale, (c.operate (.event env (.retransmit stale))).lease.Rediscovers := by
  have hrun := Lts.foldl_run (Lts.recorded Client.operate) (startedClient, [])
    (operations unansweredInputs)
  have hs : ((operations unansweredInputs).foldl (Lts.recorded Client.operate)
      (startedClient, [])).1.lease.state = .requesting := by decide +kernel
  have hfires : firesInState ((operations unansweredInputs).foldl (Lts.recorded Client.operate)
      (startedClient, [])).2 = 4 := by decide +kernel
  have hbuffers : (buffersInState (quietEnv 7).sendBuffer ((operations unansweredInputs).foldl
      (Lts.recorded Client.operate) (startedClient, [])).2).count true = 5 := by decide +kernel
  generalize (operations unansweredInputs).foldl (Lts.recorded Client.operate)
    (startedClient, []) = p at hrun hs hfires hbuffers
  obtain ⟨c, history⟩ := p
  have hsender : c.lease.state.sender = some .requestSelecting := by
    rw [show c.lease.state = .requesting from hs]
    rfl
  obtain ⟨hinterval, -, -, hsent, -, hrequest⟩ := retransmission_schedule hrun hsender
  obtain ⟨-, -, -, hfire⟩ := hrequest (.inl hs)
  refine ⟨c, history, hrun, hs, hfires, ?_, ?_, fun env stale => (hfire env stale).2 hfires⟩
  · rw [hinterval, show firesInState history = 4 from hfires]
    decide
  · rw [← hbuffers]
    exact hsent

/-- One fire in `selecting`, and still only the DISCOVER of `dmdhcp_start`: there was no buffer for
the second one. -/
theorem resend_without_buffer :
    ∃ c history, Lts.Run (Lts.ofTotal (Lts.recorded Client.operate)) (startedClient, [])
        [.event { quietEnv 7 with sendBuffer := false } (.retransmit false)] (c, history) ∧
      c.lease.state = .selecting ∧ firesInState history = 1 ∧
      (messagesInState (startedClient.log.filterMap Effect.message) history).length = 1 := by
  have hrun := Lts.foldl_run (Lts.recorded Client.operate) (startedClient, [])
    [.event { quietEnv 7 with sendBuffer := false } (.retransmit false)]
  exact ⟨_, _, hrun, by decide +kernel, by decide +kernel, by decide +kernel⟩

end Dmdhcp
