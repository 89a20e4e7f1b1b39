import Dmdhcp.Table

/-!
# The state machine

The transitions drawn in `docs/dmdhcp.md`, and that the code takes no others: whatever arrives, in
whatever order, a lease changes state along an edge of the table or not at all.
-/

namespace Dmdhcp

/-- The states one event may lead to, other than the state itself. -/
def State.successors : State → List State
  | .init => [.selecting, .rebooting]
  | .selecting => [.checkingOffer]
  | .checkingOffer => [.requesting, .declining, .failed]
  | .requesting => [.checkingAck, .selecting]
  | .rebooting => [.checkingAck, .selecting]
  | .checkingAck => [.bound, .declining, .failed]
  | .declining => [.selecting]
  | .bound => [.renewing]
  | .renewing => [.bound, .rebinding, .selecting]
  | .rebinding => [.bound, .selecting]
  | .initReboot => []
  | .failed => []

/-- A change along an edge of the state machine, or none. -/
def State.MayBecome (s s' : State) : Prop := s' = s ∨ s' ∈ s.successors

instance (s s' : State) : Decidable (s.MayBecome s') := inferInstanceAs (Decidable (_ ∨ _))

theorem Move.mayBecome {env : Env} {c c' : Client} (h : Move env c c') :
    c.lease.state.MayBecome c'.lease.state := by
  unfold State.MayBecome
  cases h with
  | stay => exact .inl rfl
  | offer r h => simp [acceptForProbe_lease, h, State.successors]
  | ack r h => rcases h with h | h <;> simp [acceptForProbe_lease, h, State.successors]
  | restart h =>
    rcases h with h | h | h <;> simp [outputStartDiscovery_lease, h, State.successors]
  | resend h => exact .inl (by rw [rearmBackoff_lease, sendMessage_lease]; rfl)
  | conflict h harp =>
    obtain ⟨state, timer, hs, hl⟩ := handleConflict_lease env
      (c.emit (.probe c.lease.offeredIp true))
    rcases hs with rfl | rfl <;> rcases h with h | h <;> simp [hl, h, State.successors]
  | request h harp => simp [requestOffered_lease, h, State.successors]
  | renew h => simp [outputStartRenew_lease, Lease.inExchange, h, State.successors]
  | t1 h =>
    simp [outputStartRenew_armT2_lease, Lease.inExchange, h, State.successors]
  | t2 h =>
    simp [outputStartRebind_armExpiry_lease, Lease.inExchange, h, State.successors]

theorem commitLease_state (env : Env) (c : Client) : (commitLease env c).lease.state = .bound := by
  obtain ⟨configured, route, h⟩ := commitLease_lease env c
  rw [h]

theorem lifecycleHandleLost_state (env : Env) (c : Client) :
    (lifecycleHandleLost env c).lease.state = .selecting := outputStartDiscovery_state env _

theorem Outcome.mayBecome {env : Env} {ev : Event} {c c' : Client} (h : Outcome env ev c c') :
    c.lease.state.MayBecome c'.lease.state := by
  cases h with
  | move h => exact h.mayBecome
  | failed error h =>
    rw [callOnError_lease]
    exact h.mayBecome
  | commit h harp =>
    rw [callOnBound_lease, commitProbed, commitLease_state, h]
    decide
  | renewal r h =>
    have hs := Client.renewalAck_state h
    rw [callOnBound_lease, acceptRenewal, commitLease_state]
    rcases hs with hs | hs <;> rw [hs] <;> decide
  | lost h =>
    rw [lifecycleHandleLost_state]
    rcases h with h | h <;> rw [h] <;> decide

theorem Client.step_mayBecome (c : Client) (env : Env) (ev : Event) :
    c.lease.state.MayBecome (c.step (env, ev)).lease.state := by
  simpa only [Client.before_state] using (c.step_outcome env ev).mayBecome

theorem Client.start_state (env : Env) (iface : Iface) (netif : Netif) (callbacks : Callbacks)
    (userData : Nat) (options : Option StartOptions) :
    (Client.start env iface netif callbacks userData options).lease.state ∈
      State.init.successors := by
  rcases (start_fresh env iface netif callbacks userData options).state with hs | hs <;> rw [hs] <;>
    decide

/-! ### Datagrams without effect -/

/-- The message types a state is waiting for. -/
def State.Expects (s : State) (msgType : UInt8) : Prop :=
  (msgType = MsgType.offer.toByte ∧ s = .selecting) ∨
    ((msgType = MsgType.ack.toByte ∨ msgType = MsgType.nak.toByte) ∧
      (s = .requesting ∨ s = .rebooting ∨ s = .renewing ∨ s = .rebinding))

/-- A datagram that no lease of the table is waiting for. -/
inductive Ignored (leases : List Client) (iface : Iface) (payload : List UInt8) : Prop
  | malformed (error : Errno) (h : parseMessage payload = .error error)
  | bootrequest (m : Message) (off : Nat) (h : parseMessage payload = .ok (m, off))
      (hop : m.op = .bootrequest)
  | unmatched (m : Message) (off : Nat) (h : parseMessage payload = .ok (m, off))
      (hnone : findByXid leases iface m.xid = none)
  | untyped (m : Message) (off : Nat) (h : parseMessage payload = .ok (m, off))
      (hnone : ∀ opt, optionsFind (payload.drop off) optMsgType = .ok opt → opt.length ≠ 1)
  | unexpected (m : Message) (off : Nat) (h : parseMessage payload = .ok (m, off)) (c : Client)
      (hfind : findByXid leases iface m.xid = some c) (opt : DhcpOption) (msgType : UInt8)
      (hopt : optionsFind (payload.drop off) optMsgType = .ok opt) (hdata : opt.data = [msgType])
      (hno : ¬c.lease.state.Expects msgType)

theorem datagramSection_unexpected {env : Env} {r : Reply} {msgType : UInt8} {c : Client}
    (h : ¬c.lease.state.Expects msgType) : datagramSection env r msgType c = (c, .done) := by
  unfold datagramSection
  unfold State.Expects at h
  dsimp only
  split_ifs with h1 h2 h3 h4 h5
  · exact absurd (.inl h1) h
  · exact absurd (.inr ⟨.inl h2.1, by tauto⟩) h
  · exact absurd (.inr ⟨.inr h3.1, by tauto⟩) h
  · exact absurd (.inr ⟨.inl h4.1, by tauto⟩) h
  · exact absurd (.inr ⟨.inr h5.1, by tauto⟩) h
  · rfl

theorem messageType_of_data {options : List UInt8} {opt : DhcpOption} {msgType : UInt8}
    (h : optionsFind options optMsgType = .ok opt) (hdata : opt.data = [msgType]) :
    messageType options = some msgType := by
  simp only [messageType, h, hdata]

theorem messageType_none {options : List UInt8}
    (h : ∀ opt, optionsFind options optMsgType = .ok opt → opt.length ≠ 1) :
    messageType options = none := by
  unfold messageType
  split
  · rfl
  · rename_i opt hopt
    split
    · rename_i msgType hdata
      exact absurd (by rw [DhcpOption.length, hdata]; rfl) (h opt hopt)
    · rfl

-- What a datagram does, given how its header parsed.
theorem handleDatagram_of_parse (env : Env) (iface : Iface) {payload : List UInt8}
    (leases : List Client) {m : Message} {off : Nat} (h : parseMessage payload = .ok (m, off)) :
    handleDatagram env iface payload leases = leases ∨
      ∃ r : Reply, r.msg = m ∧ r.options = payload.drop off ∧
        handleDatagram env iface payload leases =
          modifyFirst (Client.matchesXid iface m.xid) (handleReply env r) leases := by
  unfold handleDatagram
  rw [parseReply_ok h]
  by_cases hop : m.op = .bootreply
  · rw [dif_pos hop]
    exact .inr ⟨_, rfl, rfl, rfl⟩
  · rw [dif_neg hop]
    exact .inl rfl

theorem handleDatagram_ignored {env : Env} {leases : List Client} {iface : Iface}
    {payload : List UInt8} (h : Ignored leases iface payload) :
    handleDatagram env iface payload leases = leases := by
  cases h with
  | malformed error h =>
    unfold handleDatagram
    rw [parseReply_error h]
  | bootrequest m off h hop =>
    rcases handleDatagram_of_parse env iface leases h with heq | ⟨r, hm, -, -⟩
    · exact heq
    · have hreply := r.isReply
      rw [hm, hop] at hreply
      cases hreply
  | unmatched m off h hnone =>
    rcases handleDatagram_of_parse env iface leases h with heq | ⟨r, -, -, heq⟩
    · exact heq
    -- Nothing matches, so nothing is modified.
    · rw [heq]
      exact modifyFirst_eq_self fun c hc => by rw [findByXid, hc] at hnone; cases hnone
  | untyped m off h hnone =>
    rcases handleDatagram_of_parse env iface leases h with heq | ⟨r, -, hopts, heq⟩
    · exact heq
    · rw [heq]
      refine modifyFirst_eq_self fun c _ => ?_
      rw [handleReply, hopts, messageType_none hnone]
  | unexpected m off h c hfind opt msgType hopt hdata hno =>
    rcases handleDatagram_of_parse env iface leases h with heq | ⟨r, -, hopts, heq⟩
    · exact heq
    · rw [heq]
      refine modifyFirst_eq_self fun c' hc' => ?_
      -- The lease that would change is the one the lookup finds.
      rw [findByXid, hc'] at hfind
      obtain rfl := Option.some.inj hfind
      rw [handleReply, hopts, messageType_of_data hopt hdata]
      simp only [datagramSection_unexpected hno, After.finish]

/-! ### The table conforms -/

/-- Whatever happens to the table, every lease in it changes state along an edge or stays, a new
lease comes out of `init`, and a datagram nobody is waiting for changes nothing at all. -/
theorem tableStep_conforms (leases : List Client) (env : Env) (ev : TableEvent) :
    (∀ (i : Nat) (c : Client), leases[i]? = some c → ∃ c', (tableStep leases (env, ev))[i]? = some c' ∧
      c.lease.state.MayBecome c'.lease.state ∧
      (c.lease.state = .failed → c'.lease.state = .failed)) ∧
    (∀ (i : Nat) (c' : Client), leases.length ≤ i → (tableStep leases (env, ev))[i]? = some c' →
      c'.lease.state ∈ State.init.successors) ∧
    (∀ iface payload, ev = .datagram iface payload → Ignored leases iface payload →
      tableStep leases (env, ev) = leases) := by
  refine ⟨?_, ?_, ?_⟩
  · intro i c hc
    obtain ⟨c', hc', heq⟩ := tableStep_getElem? leases env ev hc
    have hedge : c.lease.state.MayBecome c'.lease.state := by
      rcases heq with rfl | ⟨e, rfl⟩
      · exact .inl rfl
      · exact c.step_mayBecome env e
    refine ⟨c', hc', hedge, fun hfailed => ?_⟩
    -- `failed` has no successors.
    rw [hfailed] at hedge
    exact hedge.resolve_right List.not_mem_nil
  · intro i c' hi hc'
    have hlt := (List.getElem?_eq_some_iff.mp hc').1
    cases ev with
    | start iface netif callbacks userData options allocated =>
      simp only [tableStep] at hc' hlt
      split_ifs at hc' hlt with hfree
      · rw [List.getElem?_append_right hi] at hc'
        rw [List.mem_singleton.mp (List.mem_of_getElem? hc')]
        exact Client.start_state ..
      · omega
    | datagram iface payload => rw [tableStep, handleDatagram_length] at hlt; omega
    | retransmit iface stale => rw [tableStep, stepOn, modifyFirst_length] at hlt; omega
    | leaseTimer iface stale => rw [tableStep, stepOn, modifyFirst_length] at hlt; omega
    | renew iface => rw [tableStep, stepOn, modifyFirst_length] at hlt; omega
  · rintro iface payload rfl hignored
    exact handleDatagram_ignored hignored

end Dmdhcp
