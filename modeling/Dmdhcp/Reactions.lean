import Dmdhcp.Messages
import Dmdhcp.StateMachine

/-!
# How a lease reacts to an event

`Move` says what a locked section leaves alone; `Reaction` says exactly which branch of the source
ran, on which reply, and what the branch left to be done.  The invariants that depend on messages,
timers or counters are proved once for each reaction.
-/

namespace Dmdhcp

/-! ## 1. Events and their locked sections -/

/-- The reply an event delivers to `c`, with its message type: the checks of
`dmdhcp_handle_datagram` before the lease is locked. -/
def Client.delivered (c : Client) : Event → Option (Reply × UInt8)
  | .datagram iface payload =>
    match parseReply payload with
    | none => none
    | some r =>
      if c.matchesXid iface r.msg.xid then (messageType r.options).map fun msgType => (r, msgType)
      else none
  | _ => none

/-- The locked section an event runs. -/
def Client.eventSection (c : Client) (env : Env) : Event → Client × After
  | .datagram iface payload =>
    match c.delivered (.datagram iface payload) with
    | some (r, msgType) => datagramSection env r msgType c
    | none => (c, .done)
  | .retransmit stale => retransmitTimerSection env (c.before (.retransmit stale))
  | .leaseTimer stale => leaseTimerSection env (c.before (.leaseTimer stale))
  | .renew => (c.renew env, .done)

-- A sequential step is the locked section and what it left to be done.
theorem Client.step_eq (c : Client) (env : Env) (ev : Event) :
    c.step (env, ev) = (c.eventSection env ev).2.finish env (c.eventSection env ev).1 := by
  cases ev with
  | datagram iface payload =>
    show c.receive env iface payload = _
    simp only [Client.receive, Client.eventSection, Client.delivered]
    cases hr : parseReply payload with
    | none => rfl
    | some r =>
      by_cases hx : c.matchesXid iface r.msg.xid = true
      · simp only [if_pos hx, handleReply]
        cases messageType r.options with
        | none => rfl
        | some msgType => rfl
      · simp only [if_neg hx]
        rfl
  | retransmit stale => rfl
  | leaseTimer stale => rfl
  | renew => rfl

/-! ## 2. Reactions -/

/-- The message the retransmit timer repeats. -/
def State.sender : State → Option Sender
  | .selecting => some .discover
  | .requesting => some .requestSelecting
  | .rebooting => some .requestReboot
  | .renewing => some .requestRenew
  | .rebinding => some .requestRebind
  | _ => none

/-- The states in which a fire of the retransmit timer does something. -/
def State.awaitsRetransmit : State → Bool
  | .init => false
  | .initReboot => false
  | .bound => false
  | .failed => false
  | _ => true

/-- Why discovery starts over with no lease held: a NAK, the last retransmission, or the end of the
pause after a DECLINE. -/
def Client.StartsOver (c : Client) (ev : Event) : Prop :=
  ((∃ r, c.delivered ev = some (r, MsgType.nak.toByte)) ∧
    (c.lease.state = .requesting ∨ c.lease.state = .rebooting)) ∨
  (∃ stale, ev = .retransmit stale) ∧
    ((c.lease.state = .requesting ∨ c.lease.state = .rebooting) ∧
        c.lease.retransmitCount + 1 > maxRequestRetransmits ∨
      c.lease.state = .declining)

/-- Why a held lease is lost: a NAK, or the lease timer in `rebinding`. -/
def Client.LosesLease (c : Client) (ev : Event) : Prop :=
  ((∃ r, c.delivered ev = some (r, MsgType.nak.toByte)) ∧
    (c.lease.state = .renewing ∨ c.lease.state = .rebinding)) ∨
  (∃ stale, ev = .leaseTimer stale) ∧ c.lease.state = .rebinding

/-- The count of resends after one more: only a REQUEST without a lease is counted. -/
def Client.Recounts (c : Client) (count : UInt32) : Prop :=
  if c.lease.state = .requesting ∨ c.lease.state = .rebooting then
    count = c.lease.retransmitCount + 1 ∧ ¬count > maxRequestRetransmits
  else count = c.lease.retransmitCount

/-- Everything the locked section of an event can do to the client it finds, and leave to be
done. -/
inductive Reaction (env : Env) (ev : Event) (c : Client) : Client → After → Prop
  | idle (hr : ∀ stale, ev = .retransmit stale → c.lease.state.awaitsRetransmit = false)
      (hl : ∀ stale, ev = .leaseTimer stale → c.lease.state.holdsValidLease = false) :
      Reaction env ev c c .done
  | offer (r : Reply) (h : c.delivered ev = some (r, MsgType.offer.toByte))
      (hs : c.lease.state = .selecting) :
      Reaction env ev c (acceptForProbe env r .checkingOffer c) .done
  | ack (r : Reply) (h : c.delivered ev = some (r, MsgType.ack.toByte))
      (hs : c.lease.state = .requesting ∨ c.lease.state = .rebooting) :
      Reaction env ev c (acceptForProbe env r .checkingAck c) .done
  | restart (h : c.StartsOver ev) : Reaction env ev c (outputStartDiscovery env c) .done
  | renewed (r : Reply) (h : c.delivered ev = some (r, MsgType.ack.toByte))
      (hs : c.lease.state = .renewing ∨ c.lease.state = .rebinding) :
      Reaction env ev c (acceptRenewal env r c) (.onBound true)
  | lost (h : c.LosesLease ev) : Reaction env ev c c .lost
  | resend (s : Sender) (count : UInt32) (hev : ∃ stale, ev = .retransmit stale)
      (hs : c.lease.state.sender = some s) (hcount : c.Recounts count) :
      Reaction env ev c
        (rearmBackoff env (s.send env (c.update fun l => { l with retransmitCount := count })))
        .done
  | conflict (hev : ∃ stale, ev = .retransmit stale)
      (hs : c.lease.state = .checkingOffer ∨ c.lease.state = .checkingAck)
      (harp : env.arpReply = true) :
      Reaction env ev c (handleConflict env (c.emit (.probe c.lease.offeredIp true))).1
        (handleConflict env (c.emit (.probe c.lease.offeredIp true))).2
  | request (hev : ∃ stale, ev = .retransmit stale) (hs : c.lease.state = .checkingOffer)
      (harp : env.arpReply = false) :
      Reaction env ev c (requestOffered env (c.emit (.probe c.lease.offeredIp false))) .done
  | commit (hev : ∃ stale, ev = .retransmit stale) (hs : c.lease.state = .checkingAck)
      (harp : env.arpReply = false) :
      Reaction env ev c (commitProbed env c) (.onBound false)
  | renew (hev : ev = .renew) (hs : c.lease.state = .bound) :
      Reaction env ev c (outputStartRenew env c) .done
  | t1 (hev : ∃ stale, ev = .leaseTimer stale) (hs : c.lease.state = .bound) :
      Reaction env ev c (lifecycleArmT2 env (outputStartRenew env c)) .done
  | t2 (hev : ∃ stale, ev = .leaseTimer stale) (hs : c.lease.state = .renewing) :
      Reaction env ev c (lifecycleArmExpiry env (outputStartRebind env c)) .done

section
variable (env : Env) (c : Client)

theorem datagramSection_reaction {ev : Event} {r : Reply} {msgType : UInt8}
    (h : c.delivered ev = some (r, msgType)) :
    Reaction env ev c (datagramSection env r msgType c).1 (datagramSection env r msgType c).2 := by
  have hdatagram : ∃ iface payload, ev = .datagram iface payload := by
    cases ev with
    | datagram iface payload => exact ⟨iface, payload, rfl⟩
    | retransmit stale => cases h
    | leaseTimer stale => cases h
    | renew => cases h
  unfold datagramSection
  dsimp only
  split_ifs with h1 h2 h3 h4 h5
  · exact .offer r (h1.1 ▸ h) h1.2
  · exact .ack r (h2.1 ▸ h) h2.2
  · exact .restart (.inl ⟨⟨r, h3.1 ▸ h⟩, h3.2⟩)
  · exact .renewed r (h4.1 ▸ h) h4.2
  · exact .lost (.inl ⟨⟨r, h5.1 ▸ h⟩, h5.2⟩)
  · obtain ⟨iface, payload, rfl⟩ := hdatagram
    exact .idle (fun _ hev => nomatch hev) (fun _ hev => nomatch hev)

theorem resendRequest_reaction {ev : Event} (hev : ∃ stale, ev = .retransmit stale)
    (hs : c.lease.state = .requesting ∨ c.lease.state = .rebooting) :
    Reaction env ev c (resendRequest env c) .done := by
  unfold resendRequest
  dsimp only
  split_ifs with hcount hstate
  · exact .restart (.inr ⟨hev, .inl ⟨hs, hcount⟩⟩)
  · have hrecount : c.Recounts (c.lease.retransmitCount + 1) := by
      rw [Client.Recounts, if_pos hs]
      exact ⟨rfl, hcount⟩
    exact .resend .requestSelecting _ hev (by rw [show c.lease.state = .requesting from hstate]; rfl)
      hrecount
  · have hrecount : c.Recounts (c.lease.retransmitCount + 1) := by
      rw [Client.Recounts, if_pos hs]
      exact ⟨rfl, hcount⟩
    exact .resend .requestReboot _ hev (by rw [hs.resolve_left hstate]; rfl) hrecount

-- Outside `requesting` and `rebooting` a resend counts nothing.
theorem resend_reaction {ev : Event} (hev : ∃ stale, ev = .retransmit stale) (s : Sender)
    (hs : c.lease.state.sender = some s)
    (hno : ¬(c.lease.state = .requesting ∨ c.lease.state = .rebooting)) :
    Reaction env ev c (rearmBackoff env (s.send env c)) .done :=
  .resend s c.lease.retransmitCount hev hs (by rw [Client.Recounts, if_neg hno])

theorem runConflictProbe_reaction {ev : Event} (hev : ∃ stale, ev = .retransmit stale)
    (hs : c.lease.state = .checkingOffer ∨ c.lease.state = .checkingAck) :
    Reaction env ev c (runConflictProbe env c).1 (runConflictProbe env c).2 := by
  cases harp : env.arpReply with
  | true =>
    have heq : runConflictProbe env c =
        handleConflict env (c.emit (.probe c.lease.offeredIp true)) := by
      simp [runConflictProbe, harp]
    rw [heq]
    exact .conflict hev hs harp
  | false =>
    by_cases hoffer : c.lease.state = .checkingOffer
    · have heq : runConflictProbe env c =
          (requestOffered env (c.emit (.probe c.lease.offeredIp false)), .done) := by
        simp [runConflictProbe, harp, hoffer]
      rw [heq]
      exact .request hev hoffer harp
    · have heq : runConflictProbe env c = (commitProbed env c, .onBound false) := by
        simp [runConflictProbe, harp, hoffer, commitProbed]
      rw [heq]
      exact .commit hev (hs.resolve_left hoffer) harp

theorem retransmitTimerSection_reaction {ev : Event} (hev : ∃ stale, ev = .retransmit stale) :
    Reaction env ev c (retransmitTimerSection env c).1 (retransmitTimerSection env c).2 := by
  have hidle (h : c.lease.state.awaitsRetransmit = false) : Reaction env ev c c .done := by
    obtain ⟨stale, rfl⟩ := hev
    exact .idle (fun _ _ => h) (fun _ hev => nomatch hev)
  unfold retransmitTimerSection
  cases hs : c.lease.state with
  | selecting => exact resend_reaction env c hev .discover (by rw [hs]; rfl) (by simp [hs])
  | renewing => exact resend_reaction env c hev .requestRenew (by rw [hs]; rfl) (by simp [hs])
  | rebinding => exact resend_reaction env c hev .requestRebind (by rw [hs]; rfl) (by simp [hs])
  | requesting => exact resendRequest_reaction env c hev (.inl hs)
  | rebooting => exact resendRequest_reaction env c hev (.inr hs)
  | checkingOffer => exact runConflictProbe_reaction env c hev (.inl hs)
  | checkingAck => exact runConflictProbe_reaction env c hev (.inr hs)
  | declining => exact .restart (.inr ⟨hev, .inr hs⟩)
  | init => exact hidle (by rw [hs]; rfl)
  | initReboot => exact hidle (by rw [hs]; rfl)
  | bound => exact hidle (by rw [hs]; rfl)
  | failed => exact hidle (by rw [hs]; rfl)

theorem leaseTimerSection_reaction {ev : Event} (hev : ∃ stale, ev = .leaseTimer stale) :
    Reaction env ev c (leaseTimerSection env c).1 (leaseTimerSection env c).2 := by
  unfold leaseTimerSection
  split_ifs with h1 h2 h3
  · exact .t1 hev h1
  · exact .t2 hev h2
  · exact .lost (.inr ⟨hev, h3⟩)
  · obtain ⟨stale, rfl⟩ := hev
    refine .idle (fun _ hev => nomatch hev) fun _ _ => ?_
    by_contra hheld
    rcases State.holdsValidLease_iff.mp (Bool.not_eq_false _ ▸ hheld) with hs | hs | hs
    · exact h1 hs
    · exact h2 hs
    · exact h3 hs

end

/-- **Every event, by its reaction.** -/
theorem Client.eventSection_reaction (c : Client) (env : Env) (ev : Event) :
    Reaction env ev (c.before ev) (c.eventSection env ev).1 (c.eventSection env ev).2 := by
  cases ev with
  | datagram iface payload =>
    show Reaction env _ c _ _
    cases h : c.delivered (.datagram iface payload) with
    | none =>
      simp only [Client.eventSection, h]
      exact .idle (fun _ hev => nomatch hev) (fun _ hev => nomatch hev)
    | some d =>
      simp only [Client.eventSection, h]
      exact datagramSection_reaction env c h
  | retransmit stale => exact retransmitTimerSection_reaction env _ ⟨stale, rfl⟩
  | leaseTimer stale => exact leaseTimerSection_reaction env _ ⟨stale, rfl⟩
  | renew =>
    show Reaction env .renew c (c.renew env) .done
    unfold Client.renew
    by_cases hs : c.lease.state = .bound
    · rw [if_pos hs]
      exact .renew rfl hs
    · rw [if_neg hs]
      exact .idle (fun _ hev => nomatch hev) (fun _ hev => nomatch hev)

-- What a reaction means for the interface: nothing, a lease committed after a clean probe or by an
-- ACK to a renewal, or the lost path.
theorem Reaction.move_or_commit {env : Env} {ev : Event} {c c₁ : Client} {after : After}
    (h : Reaction env ev c c₁ after) :
    (Move env c c₁ ∧ (after = .done ∨ after = .onError .eaddrinuse)) ∨
    (c₁ = commitProbed env c ∧ after = .onBound false ∧ (∃ stale, ev = .retransmit stale) ∧
      c.lease.state = .checkingAck ∧ env.arpReply = false) ∨
    (∃ r, c₁ = acceptRenewal env r c ∧ after = .onBound true ∧
      c.delivered ev = some (r, MsgType.ack.toByte) ∧
      (c.lease.state = .renewing ∨ c.lease.state = .rebinding)) ∨
    (c₁ = c ∧ after = .lost ∧ c.LosesLease ev) := by
  cases h with
  | idle hr hl => exact .inl ⟨.stay, .inl rfl⟩
  | offer r hd hs => exact .inl ⟨.offer r hs, .inl rfl⟩
  | ack r hd hs => exact .inl ⟨.ack r hs, .inl rfl⟩
  | restart hover =>
    refine .inl ⟨.restart ?_, .inl rfl⟩
    rcases hover with ⟨-, hs⟩ | ⟨-, ⟨hs, -⟩ | hs⟩
    · exact hs.imp_right .inl
    · exact hs.imp_right .inl
    · exact .inr (.inr hs)
  | renewed r hd hs => exact .inr (.inr (.inl ⟨r, rfl, rfl, hd, hs⟩))
  | lost hl => exact .inr (.inr (.inr ⟨rfl, rfl, hl⟩))
  | resend s count hev hs hcount =>
    have hresends : c.lease.state.resends = true := by
      cases hstate : c.lease.state <;> rw [hstate] at hs <;> first | rfl | cases hs
    exact .inl ⟨.resend hresends _ _ _ _ _ _ _, .inl rfl⟩
  | conflict hev hs harp => exact .inl ⟨.conflict hs harp, handleConflict_after _ _⟩
  | request hev hs harp => exact .inl ⟨.request hs harp, .inl rfl⟩
  | commit hev hs harp => exact .inr (.inl ⟨rfl, rfl, hev, hs, harp⟩)
  | renew hev hs => exact .inl ⟨.renew hs, .inl rfl⟩
  | t1 hev hs => exact .inl ⟨.t1 hs, .inl rfl⟩
  | t2 hev hs => exact .inl ⟨.t2 hs, .inl rfl⟩

-- Only the lost path changes the lease after the locked section.
theorem After.finish_eq {env : Env} {after : After} (h : after ≠ .lost) (c : Client) :
    (after.finish env c).lease = c.lease ∧ (after.finish env c).netif = c.netif ∧
      (after.finish env c).routes = c.routes := by
  cases after with
  | done => exact ⟨rfl, rfl, rfl⟩
  | onBound isRenewal => exact ⟨callOnBound_lease _ _, callOnBound_netif _ _, callOnBound_routes _ _⟩
  | onError error => exact ⟨callOnError_lease _ _, callOnError_netif _ _, callOnError_routes _ _⟩
  | lost => exact absurd rfl h

-- A datagram finds the client as it is.
theorem Client.before_of_delivered {c : Client} {ev : Event} {d : Reply × UInt8}
    (h : (c.before ev).delivered ev = some d) : c.before ev = c := by
  cases ev with
  | datagram iface payload => rfl
  | retransmit stale => cases h
  | leaseTimer stale => cases h
  | renew => cases h

-- A counter that is raised before it is compared with its limit: it does not wrap, ...
theorem counter_succ (limit : UInt32) {count : UInt32} (h : count.toNat ≤ limit.toNat)
    (hlimit : limit.toNat < 2 ^ 32 - 1) : (count + 1).toNat = count.toNat + 1 := by
  rw [UInt32.toNat_add, show (1 : UInt32).toNat = 1 from rfl]
  omega

-- ... and exceeds the limit exactly if it stood at it.
theorem counter_exceeds (limit : UInt32) {count : UInt32} (h : count.toNat ≤ limit.toNat)
    (hlimit : limit.toNat < 2 ^ 32 - 1) :
    count + 1 > limit ↔ count.toNat = limit.toNat := by
  rw [gt_iff_lt, UInt32.lt_iff_toNat_lt, counter_succ limit h hlimit]
  omega

/-! ## 3. What a probe leaves -/

section
variable (env : Env) (c : Client)

theorem requestOffered_log :
    (requestOffered env c).log = (Sender.requestSelecting.send env c).log := by
  simp only [requestOffered, sendRequestSelecting_eq, Client.armRetransmit, Client.update_log]

theorem handleConflict_log :
    (handleConflict env c).1.log = (Sender.decline.send env c).log := by
  unfold handleConflict
  rw [sendDecline_eq]
  dsimp only
  split_ifs <;> simp only [Client.armRetransmit, Client.update_log]

theorem handleConflict_ne_lost : (handleConflict env c).2 ≠ .lost := by
  rcases handleConflict_after env c with h | h <;> rw [h] <;> decide

-- The fourth conflict in a row is the last.
theorem handleConflict_failed (h : c.lease.declineRetryCount + 1 > maxDeclineRetries) :
    handleConflict env c =
      ((sendDecline env c).update fun l =>
        { l with declineRetryCount := l.declineRetryCount + 1, state := .failed },
        .onError .eaddrinuse) := by
  unfold handleConflict
  rw [if_pos (by simpa [sendDecline] using h)]
  rfl

theorem handleConflict_declining (h : ¬c.lease.declineRetryCount + 1 > maxDeclineRetries) :
    handleConflict env c =
      ((sendDecline env c).update fun l =>
        { l with
          declineRetryCount := l.declineRetryCount + 1
          state := .declining
          retransmitTimer := .arm env.now declinePauseMs },
        .done) := by
  unfold handleConflict
  rw [if_neg (by simpa [sendDecline] using h)]
  rfl

end

/-! ## 4. Operations of a sequential run -/

/-- An event, or a `dmdhcp_set_callbacks` of the application. -/
inductive Operation
  | event (env : Env) (ev : Event)
  | setCallbacks (callbacks : Option Callbacks) (userData : Nat)
  deriving DecidableEq, Repr

def Client.operate (c : Client) : Operation → Client
  | .event env ev => c.step (env, ev)
  | .setCallbacks callbacks userData => c.setCallbacks callbacks userData

/-- A run of events without any `dmdhcp_set_callbacks`. -/
def operations (inputs : List (Env × Event)) : List Operation :=
  inputs.map fun input => .event input.1 input.2

/-- What an operation adds to the record, newest first. -/
def Client.newEffects (c : Client) (o : Operation) : List Effect :=
  (c.operate o).log.take ((c.operate o).log.length - c.log.length)

theorem Client.newEffects_eq {c : Client} {o : Operation} {new : List Effect}
    (h : (c.operate o).log = new ++ c.log) : c.newEffects o = new := by
  rw [Client.newEffects, h, List.length_append, Nat.add_sub_cancel, List.take_left]

-- The step of an event: its reaction, and what the reaction leaves to be done.
theorem Client.operate_reaction (c : Client) (env : Env) (ev : Event) : ∃ c₁ after,
    Reaction env ev (c.before ev) c₁ after ∧ c.operate (.event env ev) = after.finish env c₁ :=
  ⟨_, _, c.eventSection_reaction env ev, c.step_eq env ev⟩

end Dmdhcp
