import Dmdhcp.Machine

/-!
# Replies to abandoned transactions

`dmdhcp_handle_datagram` compares the xid of a reply under the table mutex and acts on the reply
under `lease->lock`, without looking at the xid again.  A timer callback that draws a fresh xid in
between leaves a reply to the abandoned transaction that is accepted if the new state expects its
message type.
-/

namespace Dmdhcp

/-- The xid of the datagram that a section is run for. -/
def Section.replyXid : Section → Option UInt32
  | .datagram r _ => some r.msg.xid
  | .lostUnapply nak => nak
  | .lostRestart nak => nak
  | _ => none

/-- The sections that draw a fresh xid. -/
def Section.drawsXid (c : Client) : Section → Bool
  | .datagram _ msgType =>
    msgType = MsgType.nak.toByte ∧ (c.lease.state = .requesting ∨ c.lease.state = .rebooting)
  | .retransmit =>
    c.lease.state = .declining ∨
      (c.lease.retransmitCount + 1 > maxRequestRetransmits ∧
        (c.lease.state = .requesting ∨ c.lease.state = .rebooting))
  | .leaseTimer => c.lease.state = .bound ∨ c.lease.state = .renewing
  | .lostRestart _ => true
  | .renew => c.lease.state = .bound
  | _ => false

/-- Whenever a fresh xid is drawn, no reply is between its lookup and its last section, other than
the one that draws it. -/
def XidUndisturbed (m : Machine) : MachineEvent → Prop
  | .advance i _ _ => ∀ x ∈ m.next i, x.drawsXid m.shared.client = true →
      m.Beside i fun y => y.replyXid = none
  | _ => True

instance (m : Machine) : (e : MachineEvent) → Decidable (XidUndisturbed m e)
  | .advance _ _ _ => inferInstanceAs (Decidable (∀ x ∈ _, _))
  | .datagram _ _ => inferInstanceAs (Decidable True)
  | .fire _ _ => inferInstanceAs (Decidable True)
  | .renew => inferInstanceAs (Decidable True)
  | .teardown _ => inferInstanceAs (Decidable True)

/-! ### The xid changes only where it is drawn -/

theorem commitLease_xid (env : Env) (c : Client) : (commitLease env c).lease.xid = c.lease.xid := by
  obtain ⟨configured, route, h⟩ := commitLease_lease env c
  rw [h]

theorem datagramSection_xid {env : Env} {r : Reply} {msgType : UInt8} {c : Client}
    (h : (Section.datagram r msgType).drawsXid c = false) :
    (datagramSection env r msgType c).1.lease.xid = c.lease.xid := by
  have hno := of_decide_eq_false h
  unfold datagramSection
  dsimp only
  split_ifs
  · rfl
  · rfl
  · exact commitLease_xid env _
  · rfl
  · rfl

theorem runConflictProbe_xid (env : Env) (c : Client) :
    (runConflictProbe env c).1.lease.xid = c.lease.xid := by
  unfold runConflictProbe
  dsimp only
  split_ifs
  · obtain ⟨state, timer, -, hl⟩ := handleConflict_lease env
      (c.emit (.probe c.lease.offeredIp env.arpReply))
    rw [hl]
    rfl
  · rw [requestOffered_lease]
    rfl
  · exact commitLease_xid env _

theorem resendRequest_xid {env : Env} {c : Client}
    (h : ¬c.lease.retransmitCount + 1 > maxRequestRetransmits) :
    (resendRequest env c).lease.xid = c.lease.xid := by
  unfold resendRequest
  dsimp only
  split_ifs
  · contradiction
  · rw [rearmBackoff_lease, sendRequestSelecting, sendMessage_lease]
    rfl
  · rw [rearmBackoff_lease, sendRequestReboot, sendMessage_lease]
    rfl

theorem retransmitTimerSection_xid {env : Env} {c : Client}
    (h : Section.retransmit.drawsXid c = false) :
    (retransmitTimerSection env c).1.lease.xid = c.lease.xid := by
  -- The three ways to a fresh xid here are excluded by `hno`; the rest only resends or probes.
  have hno := of_decide_eq_false h
  unfold retransmitTimerSection
  cases hs : c.lease.state with
  | selecting =>
    rw [rearmBackoff_lease, sendDiscover, sendMessage_lease]
  | requesting => exact resendRequest_xid fun hcount => hno (.inr ⟨hcount, .inl hs⟩)
  | rebooting => exact resendRequest_xid fun hcount => hno (.inr ⟨hcount, .inr hs⟩)
  | renewing =>
    rw [rearmBackoff_lease, sendRequestRenew, sendMessage_lease]
  | rebinding =>
    rw [rearmBackoff_lease, sendRequestRebind, sendMessage_lease]
  | checkingOffer => exact runConflictProbe_xid env c
  | checkingAck => exact runConflictProbe_xid env c
  | declining => exact absurd (.inl hs) hno
  | _ => rfl

theorem leaseTimerSection_xid {env : Env} {c : Client}
    (h : Section.leaseTimer.drawsXid c = false) :
    (leaseTimerSection env c).1.lease.xid = c.lease.xid := by
  have hno := of_decide_eq_false h
  unfold leaseTimerSection
  rw [if_neg fun hs => hno (.inl hs), if_neg fun hs => hno (.inr hs)]
  split_ifs <;> rfl

theorem lifecycleUnapply_xid (env : Env) (c : Client) :
    (lifecycleUnapply env c).lease.xid = c.lease.xid := by
  obtain ⟨route, h⟩ := lifecycleUnapply_lease env c
  rw [h]

theorem teardownSection_xid (env : Env) (how : Teardown) (c : Client) :
    (teardownSection env how c).lease.xid = c.lease.xid := by
  obtain ⟨route, h⟩ := teardownSection_lease env how c
  rw [h]

theorem Section.exec_xid {env : Env} {reentry : Option Teardown} {s : Shared} {caller : Origin}
    {x : Section} (h : x.drawsXid s.client = false) :
    (x.exec env reentry s caller).1.client.lease.xid = s.client.lease.xid := by
  cases x with
  | lookup iface r =>
    simp only [Section.exec]
    split_ifs <;> rfl
  | datagram r msgType => exact datagramSection_xid h
  | retransmit => exact retransmitTimerSection_xid h
  | leaseTimer => exact leaseTimerSection_xid h
  | lostUnapply nak => exact lifecycleUnapply_xid env s.client
  | lostRestart nak => cases h
  | onExpired =>
    simp only [Section.exec]
    rw [callOnExpiredOrLost_lease]
  | onBound isRenewal =>
    simp only [Section.exec]
    rw [callOnBound_lease]
  | onError error =>
    simp only [Section.exec]
    rw [callOnError_lease]
  | renew =>
    have hs := of_decide_eq_false h
    simp only [Section.exec, Shared.locked, Client.renew, if_neg hs]
  | teardown how => exact teardownSection_xid env how s.client
  | destroyTimer t => cases t <;> rfl
  | timerGuard t => rfl
  | relock => rfl
  | renewGuard => rfl
  | teardownGuard how => rfl
  | tableRemove how => rfl
  | clearMagic => rfl
  | free => rfl

/-! ### Pending replies carry the current xid -/

/-- Every reply between its lookup and its last section belongs to the current transaction. -/
def XidInv (m : Machine) : Prop :=
  ∀ t ∈ m.threads, ∀ x ∈ t.todo, ∀ xid ∈ x.replyXid, m.shared.client.lease.xid = xid

-- What a section leaves to do is for the same reply, or for one just looked up.
theorem Leaves.replyXid {env : Env} {reentry : Option Teardown} {s : Shared} {x y : Section}
    (h : Leaves env reentry s x y) {xid : UInt32} (hy : xid ∈ y.replyXid) :
    x.drawsXid s.client = false ∧ (x.replyXid = some xid ∨ s.client.lease.xid = xid) := by
  cases h with
  | found iface r msgType hmatch =>
    obtain rfl := Option.some.inj hy
    have hxid := (Bool.and_eq_true_iff.mp hmatch).2
    exact ⟨rfl, .inr (beq_iff_eq.mp hxid)⟩
  | nak r msgType hs =>
    refine ⟨decide_eq_false fun hdraws => ?_, .inl hy⟩
    rcases hs with hs | hs <;> rw [hs] at hdraws <;> simp at hdraws
  | lostRestart nak => exact ⟨rfl, .inl hy⟩
  | _ => cases hy

theorem XidInv.step {m m' : Machine} {e : MachineEvent} (hinv : XidInv m)
    (hstep : m.step e = some m') (hok : XidUndisturbed m e) : XidInv m' := by
  rcases Machine.step_cases hstep with
    ⟨c, hsame, hshared, hthreads⟩ | ⟨i, env, reentry, kind, x, rfl, -, hnext, hshared, hadv⟩
  · obtain ⟨-, -, -, rt, lt, hlease⟩ := hsame
    intro t ht y hy xid hxid
    rw [hshared, hlease]
    rcases hthreads t ht with hold | hentry
    · exact hinv t hold y hy xid hxid
    · cases hentry <;> rw [List.mem_singleton.mp hy] at hxid <;> cases hxid
  · obtain ⟨tx, htx, -, hx⟩ := hadv.mem
    have hkeep : x.drawsXid m.shared.client = false →
        m'.shared.client.lease.xid = m.shared.client.lease.xid := by
      intro hno
      rw [hshared]
      exact Section.exec_xid hno
    intro t ht y hy xid hxid
    -- A fresh xid is drawn only when no other reply is pending; otherwise the xid stays.
    cases hdraws : x.drawsXid m.shared.client with
    | true =>
      rcases hadv.mem_todo_beside (hok x hnext hdraws) ht hy with hnew | hnone
      · rw [((Section.exec_leaves hnew).replyXid hxid).1] at hdraws
        cases hdraws
      · rw [hnone] at hxid
        cases hxid
    | false =>
      rw [hkeep hdraws]
      rcases hadv.mem_todo ht hy with hnew | ⟨t', ht', -, hy'⟩
      · rcases ((Section.exec_leaves hnew).replyXid hxid).2 with hsame | hnow
        · exact hinv tx htx x hx xid hsame
        · exact hnow
      · exact hinv t' ht' y hy' xid hxid

/-- **A reply changes the lease only in its own transaction.**  In every interleaving in which no
fresh xid is drawn while another reply is pending, a section that is run for a datagram and changes
the client finds the datagram's xid in the lease. -/
theorem reply_changes_own_transaction (env₀ : Env) (iface : Iface) (netif : Netif)
    (callbacks : Callbacks) (userData : Nat) (options : Option StartOptions)
    (events : List MachineEvent) (m : Machine)
    (hrun : Lts.Run (Lts.Guarded (Lts.ofPartial Machine.step) XidUndisturbed)
      (.start (Client.start env₀ iface netif callbacks userData options)) events m)
    (i : Nat) (x : Section) (xid : UInt32) (hnext : m.next i = some x)
    (hreply : x.replyXid = some xid) :
    ∀ env reentry m', m.step (.advance i env reentry) = some m' →
      m'.shared.client ≠ m.shared.client → xid = m.shared.client.lease.xid := by
  have hinv : XidInv m := by
    refine hrun.invariant (fun _ _ _ hs hstep => hs.step hstep.1 hstep.2) fun t ht => ?_
    cases ht
  intro _ _ _ _ _
  obtain ⟨t, ht, hx⟩ := Lts.Pool.next_mem hnext
  exact (hinv t ht x hx xid hreply).symm

/-- T1 has passed, and the ACK to the renewing REQUEST has been looked up on thread 5. -/
def renewalFoundEvents : List MachineEvent :=
  boundEvents ++ [.fire .lease false] ++ runSections 4 2 (quietEnv 8) ++
    [serverMessage .ack 8] ++ runSections 5 1 (quietEnv 8)

/-- What thread 5 is about to do: the xid it does it for, the xid of the lease, and the state of
the lease before and after. -/
def renewalOutcome (m : Machine) : Option UInt32 × UInt32 × State × Option State :=
  ((m.next 5).bind Section.replyXid, m.shared.client.lease.xid, m.shared.client.lease.state,
    (m.step (.advance 5 (quietEnv 8) none)).map fun m' => m'.shared.client.lease.state)

-- Reading `renewalOutcome` back.
theorem renewalOutcome_spec {m : Machine} {xid now : UInt32} {before after : State}
    (h : renewalOutcome m = (some xid, now, before, some after)) (hne : after ≠ before) :
    m.shared.client.lease.xid = now ∧ ∃ x m', m.next 5 = some x ∧ x.replyXid = some xid ∧
      m.step (.advance 5 (quietEnv 8) none) = some m' ∧ m'.shared.client ≠ m.shared.client := by
  obtain ⟨hreply, hrest⟩ := Prod.mk.inj h
  obtain ⟨hnow, hrest⟩ := Prod.mk.inj hrest
  obtain ⟨hbefore, hafter⟩ := Prod.mk.inj hrest
  obtain ⟨x, hx, hxid⟩ := Option.bind_eq_some_iff.mp hreply
  obtain ⟨m', hm', hs'⟩ := Option.map_eq_some_iff.mp hafter
  refine ⟨hnow, x, m', hx, hxid, hm', fun heq => hne ?_⟩
  rw [← hs', heq, hbefore]

/-- The theorem at a renewal: the ACK changes the lease in the transaction it answers. -/
theorem reply_changes_own_transaction_renewed :
    ∃ m x m', Lts.Run (Lts.Guarded (Lts.ofPartial Machine.step) XidUndisturbed)
        (.start startedClient) renewalFoundEvents m ∧
      m.next 5 = some x ∧ x.replyXid = some 8 ∧
      m.step (.advance 5 (quietEnv 8) none) = some m' ∧ m'.shared.client ≠ m.shared.client ∧
      8 = m.shared.client.lease.xid := by
  obtain ⟨m, hrun, hresult⟩ := Lts.Passes.run Machine.step XidUndisturbed
    (.start startedClient) renewalFoundEvents renewalOutcome (some 8, 8, .renewing, some .bound)
    (by decide +kernel) (by decide +kernel)
  obtain ⟨-, x, m', hnext, hreply, hstep, hchange⟩ := renewalOutcome_spec hresult (by decide)
  exact ⟨m, x, m', hrun, hnext, hreply, hstep, hchange,
    reply_changes_own_transaction _ _ blankNetif _ _ _ _ _ hrun 5 x 8 hnext hreply _ _ m' hstep
      hchange⟩

/-- T2 passes between the lookup and the locked section: the ACK to the renewing REQUEST (xid 8) is
accepted in the rebinding transaction (xid 9). -/
theorem abandoned_reply_accepted :
    ∃ m x m', Lts.Run (Lts.ofPartial Machine.step) (.start startedClient)
        (renewalFoundEvents ++ [.fire .lease false] ++ runSections 6 2 (quietEnv 9)) m ∧
      m.next 5 = some x ∧ x.replyXid = some 8 ∧
      m.step (.advance 5 (quietEnv 8) none) = some m' ∧ m'.shared.client ≠ m.shared.client ∧
      m.shared.client.lease.xid = 9 := by
  obtain ⟨m, hrun, hresult⟩ := Lts.Passes.run Machine.step (fun _ _ => True)
    (.start startedClient)
    (renewalFoundEvents ++ [.fire .lease false] ++ runSections 6 2 (quietEnv 9)) renewalOutcome
    (some 8, 9, .rebinding, some .bound) (by decide +kernel) (by decide +kernel)
  obtain ⟨hxid, x, m', hnext, hreply, hstep, hchange⟩ := renewalOutcome_spec hresult (by decide)
  exact ⟨m, x, m', hrun.unguard, hnext, hreply, hstep, hchange, hxid⟩

end Dmdhcp
