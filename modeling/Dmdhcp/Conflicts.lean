import Dmdhcp.ServerId

/-!
# Conflict accounting

`decline_retry_count` is raised in `handle_conflict` and reset by the two ways into `bound`.  Over a
run of any length it counts the conflicts since the lease was last held, whatever NAKs, retries and
restarts lie between them; the fourth one is the last.
-/

namespace Dmdhcp

/-! ## 1. Conflicts of an operation -/

/-- A probe that somebody answered. -/
def Effect.isConflict : Effect → Bool
  | .probe _ conflict => conflict
  | _ => false

def Effect.isDecline : Effect → Bool
  | .sent m => m.msgType = .decline
  | _ => false

/-- The operation ran an ARP probe that found a conflict. -/
def Client.conflicts (c : Client) (o : Operation) : Bool := (c.newEffects o).any Effect.isConflict

/-- The operation enters `bound`. -/
def Client.entersBound (c : Client) (o : Operation) : Bool :=
  (c.operate o).lease.state = .bound ∧ c.lease.state ≠ .bound

/-- The conflicts since the later of `dmdhcp_start` and the last entry to `bound`. -/
def conflictsSinceBound (history : List (Client × Operation)) : Nat :=
  Lts.countSince (fun p => p.1.entersBound p.2) (fun p => p.1.conflicts p.2) history

/-- The DECLINEs an operation sends. -/
def Client.declines (c : Client) (o : Operation) : List Sent :=
  (c.newMessages o).filter fun m => m.msgType = .decline

/-- Neither a conflict nor a DECLINE. -/
def Effect.Unrelated (e : Effect) : Prop := e.isConflict = false ∧ e.isDecline = false

theorem Sender.send_unrelated {s : Sender} (hs : s ≠ .decline) (env : Env) (c : Client) :
    Adds Effect.Unrelated c (s.send env c) := by
  apply s.send_adds
  refine ⟨rfl, decide_eq_false ?_⟩
  intro htype
  cases s <;> first | exact hs rfl | cases htype

theorem outputStartDiscovery_unrelated (env : Env) (c : Client) :
    Adds Effect.Unrelated c (outputStartDiscovery env c) :=
  outputStartDiscovery_adds ⟨rfl, rfl⟩
    (fun c₁ => Sender.send_unrelated (s := .discover) (by decide) env c₁) c

theorem commitLease_unrelated (env : Env) (c : Client) :
    Adds Effect.Unrelated c (commitLease env c) := commitLease_adds (fun _ => ⟨rfl, rfl⟩) env c

/-! ## 2. One step -/

/-- What a step means for the account of conflicts. -/
inductive ConflictStep (env : Env) (c c' : Client) : Prop
  /-- The account is left alone. -/
  | other (hadds : Adds Effect.Unrelated c c')
      (hcount : c'.lease.declineRetryCount = c.lease.declineRetryCount)
      (hbound : c'.lease.state = .bound → c.lease.state = .bound)
      (hfailed : c'.lease.state = .failed → c.lease.state = .failed)
  /-- The lease is bound, and the account is cleared. -/
  | bound (hadds : Adds Effect.Unrelated c c') (hcount : c'.lease.declineRetryCount = 0)
      (hs' : c'.lease.state = .bound)
      (hs : c.lease.state = .checkingAck ∨ c.lease.state = .renewing ∨ c.lease.state = .rebinding)
  /-- A conflict: one probe, at most one DECLINE, and one more on the account. -/
  | conflict (hs : c.lease.state = .checkingOffer ∨ c.lease.state = .checkingAck)
      (hlog : ∃ calls : List Effect, (∀ e ∈ calls, e.isQuiet = true ∧ e.isConflict = false) ∧
        c'.log = calls ++ ((if env.sendBuffer then
          [.sent (Sender.decline.message (c.emit (.probe c.lease.offeredIp true)))] else []) ++
            .probe c.lease.offeredIp true :: c.log))
      (hcount : c'.lease.declineRetryCount = c.lease.declineRetryCount + 1)
      (hs' : c'.lease.state =
        if c.lease.declineRetryCount + 1 > maxDeclineRetries then .failed else .declining)

-- The lease and the record after a conflict.
theorem handleConflict_step (env : Env) {c : Client} (hv6 : c.lease.offeredIp.isV6 = false)
    (hs : c.lease.state = .checkingOffer ∨ c.lease.state = .checkingAck) :
    ConflictStep env c ((handleConflict env (c.emit (.probe c.lease.offeredIp true))).2.finish env
      (handleConflict env (c.emit (.probe c.lease.offeredIp true))).1) := by
  have hsend : (sendDecline env (c.emit (.probe c.lease.offeredIp true))).log =
      (if env.sendBuffer then
        [.sent (Sender.decline.message (c.emit (.probe c.lease.offeredIp true)))] else []) ++
          .probe c.lease.offeredIp true :: c.log := by
    have hv6' : (c.emit (.probe c.lease.offeredIp true)).lease.offeredIp.isV6 = false := hv6
    rw [sendDecline_eq, Sender.send_eq _ _ _ hv6']
    split_ifs <;> rfl
  by_cases hlast : c.lease.declineRetryCount + 1 > maxDeclineRetries
  · rw [handleConflict_failed env (c.emit (.probe c.lease.offeredIp true)) hlast]
    show ConflictStep env c (callOnError .eaddrinuse _)
    apply ConflictStep.conflict hs
    · rw [← hsend]
      unfold callOnError
      split_ifs
      · refine ⟨[.onError .eaddrinuse], fun e he => ?_, rfl⟩
        rw [List.mem_singleton.mp he]
        exact ⟨rfl, rfl⟩
      · exact ⟨[], fun e he => absurd he List.not_mem_nil, rfl⟩
    · rw [callOnError_lease]
      simp [sendDecline]
    · rw [callOnError_lease, if_pos hlast]
      rfl
  · rw [handleConflict_declining env (c.emit (.probe c.lease.offeredIp true)) hlast]
    apply ConflictStep.conflict hs
    · rw [← hsend]
      exact ⟨[], fun e he => absurd he List.not_mem_nil, rfl⟩
    · simp [sendDecline, After.finish]
    · rw [if_neg hlast]
      rfl

-- A step that sends something other than a DECLINE, and stays out of `bound` and `failed`.
theorem ConflictStep.sent {env : Env} {c c' : Client} (state : State)
    (hadds : Adds Effect.Unrelated c c')
    (hcount : c'.lease.declineRetryCount = c.lease.declineRetryCount)
    (hs : c'.lease.state = state) (hstate : state ≠ .bound ∧ state ≠ .failed) :
    ConflictStep env c c' := by
  subst hs
  exact .other hadds hcount (fun h => absurd h hstate.1) (fun h => absurd h hstate.2)

theorem lostUnapply_declineRetryCount (env : Env) (c : Client) :
    (lostUnapply env c).lease.declineRetryCount = c.lease.declineRetryCount := by
  obtain ⟨route, h⟩ := lostUnapply_lease env c
  rw [h]

-- Entering `renewing`, with whatever the lease timer is armed to after it.
theorem outputStartRenew_conflictStep (env : Env) (c : Client) {c' : Client}
    (hlog : c'.log = (outputStartRenew env c).log)
    (hlease : (c'.lease.declineRetryCount, c'.lease.state) =
      ((outputStartRenew env c).lease.declineRetryCount, (outputStartRenew env c).lease.state)) :
    ConflictStep env c c' := by
  rw [outputStartRenew_lease] at hlease
  have hadds : Adds Effect.Unrelated c c' :=
    (Sender.send_unrelated (s := .requestRenew) (by decide) env (beginExchange env c)).log_congr
      rfl (hlog.trans (outputStartRenew_log env c))
  exact .sent .renewing hadds (congrArg Prod.fst hlease) (congrArg Prod.snd hlease) (by decide)

-- Every reaction, by what it does to the account.
theorem Reaction.conflictStep {env : Env} {ev : Event} {c c₁ : Client} {after : After}
    (hv6 : c.lease.offeredIp.isV6 = false) (h : Reaction env ev c c₁ after) :
    ConflictStep env c (after.finish env c₁) := by
  have hprobe : Adds Effect.Unrelated c (c.emit (.probe c.lease.offeredIp false)) :=
    .of_log_cons (e := .probe c.lease.offeredIp false) rfl ⟨rfl, rfl⟩
  cases h with
  | idle hr hl => exact .other (.of_log_eq rfl) rfl id id
  | offer r hd hs => exact .sent .checkingOffer (.of_log_eq rfl) rfl rfl (by decide)
  | ack r hd hs => exact .sent .checkingAck (.of_log_eq rfl) rfl rfl (by decide)
  | restart hover =>
    apply ConflictStep.sent .selecting (outputStartDiscovery_unrelated env c) _
      (outputStartDiscovery_state env c) (by decide)
    show (outputStartDiscovery env c).lease.declineRetryCount = _
    rw [outputStartDiscovery_lease]
  | renewed r hd hs =>
    obtain ⟨configured, route, hcommit⟩ := commitLease_lease env
      (c.update (populateLeaseFromOptions env r.msg r.options))
    have hadds : Adds Effect.Unrelated c (acceptRenewal env r c) :=
      (commitLease_unrelated env
        (c.update (populateLeaseFromOptions env r.msg r.options))).log_congr rfl rfl
    apply ConflictStep.bound (hadds.trans (callOnBound_adds ⟨rfl, rfl⟩ _)) _ _ (.inr hs)
    · rw [callOnBound_lease, acceptRenewal, hcommit]
    · rw [callOnBound_lease, acceptRenewal, hcommit]
  | lost hl =>
    have hadds : Adds Effect.Unrelated c (lifecycleHandleLost env c) :=
      lifecycleHandleLost_adds ⟨rfl, rfl⟩ ⟨rfl, rfl⟩ (outputStartDiscovery_unrelated env) c
    apply ConflictStep.sent .selecting hadds _ (lifecycleHandleLost_state env c) (by decide)
    show (lifecycleHandleLost env c).lease.declineRetryCount = _
    rw [lifecycleHandleLost, lostRestart, outputStartDiscovery_lease, callOnExpiredOrLost_lease]
    exact lostUnapply_declineRetryCount env c
  | resend s count hev hs hcount =>
    have hne : s ≠ .decline := by
      rintro rfl
      cases hstate : c.lease.state <;> rw [hstate] at hs <;> cases hs
    have hadds : Adds Effect.Unrelated c (rearmBackoff env (s.send env
        (c.update fun l => { l with retransmitCount := count }))) :=
      (Sender.send_unrelated hne env (c.update fun l => { l with retransmitCount := count })).log_congr
        rfl (rearmBackoff_send_log env _ s)
    have hlease : (rearmBackoff env (s.send env
        (c.update fun l => { l with retransmitCount := count }))).lease.declineRetryCount =
          c.lease.declineRetryCount ∧ (rearmBackoff env (s.send env
        (c.update fun l => { l with retransmitCount := count }))).lease.state = c.lease.state := by
      rw [rearmBackoff_lease, Sender.send, sendMessage_lease]
      exact ⟨rfl, rfl⟩
    exact .other hadds hlease.1 (fun h => hlease.2 ▸ h) (fun h => hlease.2 ▸ h)
  | conflict hev hs harp => exact handleConflict_step env hv6 hs
  | request hev hs harp =>
    have hadds : Adds Effect.Unrelated (c.emit (.probe c.lease.offeredIp false))
        (requestOffered env (c.emit (.probe c.lease.offeredIp false))) :=
      (Sender.send_unrelated (s := .requestSelecting) (by decide) env
        (c.emit (.probe c.lease.offeredIp false))).log_congr rfl (requestOffered_log env _)
    apply ConflictStep.sent .requesting (hprobe.trans hadds) _ (requestOffered_state env _)
      (by decide)
    show (requestOffered env _).lease.declineRetryCount = _
    rw [requestOffered_lease]
    rfl
  | commit hev hs harp =>
    obtain ⟨configured, route, hcommit⟩ := commitLease_lease env
      (c.emit (.probe c.lease.offeredIp false))
    apply ConflictStep.bound ((hprobe.trans (commitLease_unrelated env _)).trans
      (callOnBound_adds ⟨rfl, rfl⟩ _)) _ _ (.inl hs)
    · rw [callOnBound_lease, hcommit]
    · rw [callOnBound_lease, hcommit]
  | renew hev hs => exact outputStartRenew_conflictStep env c rfl rfl
  | t1 hev hs => exact outputStartRenew_conflictStep env c rfl rfl
  | t2 hev hs =>
    have hadds : Adds Effect.Unrelated c (lifecycleArmExpiry env (outputStartRebind env c)) :=
      (Sender.send_unrelated (s := .requestRebind) (by decide) env (beginExchange env c)).log_congr
        rfl (outputStartRebind_log env c)
    have hlease : (lifecycleArmExpiry env (outputStartRebind env c)).lease.declineRetryCount =
        c.lease.declineRetryCount ∧
          (lifecycleArmExpiry env (outputStartRebind env c)).lease.state = .rebinding := by
      rw [outputStartRebind_armExpiry_lease]
      exact ⟨rfl, rfl⟩
    exact .sent .rebinding hadds hlease.1 hlease.2 (by decide)

-- A message does not depend on the timers.
theorem Sender.message_before (s : Sender) (c : Client) (ev : Event) (e : Effect) :
    s.message ((c.before ev).emit e) = s.message (c.emit e) := by
  cases ev with
  | retransmit stale => cases stale <;> rfl
  | leaseTimer stale => cases stale <;> rfl
  | datagram iface payload => rfl
  | renew => rfl

theorem Client.operate_conflictStep {c : Client} (hv6 : c.lease.offeredIp.isV6 = false) (env : Env)
    (ev : Event) : ConflictStep env c (c.operate (.event env ev)) := by
  obtain ⟨c₁, after, hreact, heq⟩ := c.operate_reaction env ev
  obtain ⟨-, -, hlog, rt, lt, hlease⟩ := c.before_same ev
  have hstep := hreact.conflictStep (by rw [hlease]; exact hv6)
  rw [← heq] at hstep
  cases hstep with
  | other hadds hcount hbound hfailed =>
    rw [hlease] at hcount hbound hfailed
    exact .other (hadds.log_congr hlog rfl) hcount hbound hfailed
  | bound hadds hcount hs' hs =>
    rw [hlease] at hs
    exact .bound (hadds.log_congr hlog rfl) hcount hs' hs
  | conflict hs hnew hcount hs' =>
    rw [Sender.message_before] at hnew
    rw [hlease] at hs hnew hcount hs'
    rw [hlog] at hnew
    exact .conflict hs hnew hcount hs'

/-! ## 3. The account of a run -/

/-- The account is right, and only `failed` exceeds the limit. -/
structure ConflictsCounted (c : Client) (history : List (Client × Operation)) : Prop where
  offered : OfferedKnown c
  count : c.lease.declineRetryCount.toNat = conflictsSinceBound history
  limit : c.lease.declineRetryCount.toNat ≤ 4
  retrying : c.lease.state ≠ .failed → c.lease.declineRetryCount.toNat ≤ 3

theorem unrelated_newEffects {c : Client} {o : Operation}
    (h : Adds Effect.Unrelated c (c.operate o)) : c.conflicts o = false ∧ c.declines o = [] := by
  obtain ⟨new, hlog, hnew⟩ := h
  have heq := Client.newEffects_eq hlog
  constructor
  · rw [Client.conflicts, heq, List.any_eq_false]
    intro e he
    rw [(hnew e he).1]
    decide
  · rw [Client.declines, Client.newMessages, heq, List.filter_eq_nil_iff]
    intro m hm
    have hdecline := (hnew _ (Effect.mem_message.mp hm)).2
    exact Bool.eq_false_iff.mp hdecline

-- The probe and the DECLINE of a conflict.
theorem conflict_newEffects {env : Env} {c : Client} {o : Operation} {calls : List Effect}
    {address : Addr} {m : Sent} (hm : m.msgType = .decline)
    (hcalls : ∀ e ∈ calls, e.isQuiet = true ∧ e.isConflict = false)
    (hlog : (c.operate o).log = calls ++ ((if env.sendBuffer then [.sent m] else []) ++
      .probe address true :: c.log)) :
    c.conflicts o = true ∧ (c.newEffects o).filter Effect.isConflict = [.probe address true] ∧
      c.declines o = if env.sendBuffer then [m] else [] := by
  have heq : c.newEffects o = calls ++ ((if env.sendBuffer then [.sent m] else []) ++
      [.probe address true]) := by
    apply Client.newEffects_eq
    rw [hlog]
    simp
  have hnoConflict : calls.filter Effect.isConflict = [] := by
    rw [List.filter_eq_nil_iff]
    intro e he
    rw [(hcalls e he).2]
    decide
  have hnoMessage : calls.filterMap Effect.message = [] := by
    rw [List.filterMap_eq_nil_iff]
    intro e he
    have hquiet := (hcalls e he).1
    cases e <;> first | rfl | cases hquiet
  refine ⟨?_, ?_, ?_⟩
  · rw [Client.conflicts, heq]
    simp [Effect.isConflict]
  · rw [heq, List.filter_append, hnoConflict, List.filter_append]
    cases env.sendBuffer <;> rfl
  · rw [Client.declines, Client.newMessages, heq, List.filterMap_append, hnoMessage,
      List.filterMap_append]
    cases env.sendBuffer with
    | true => simp [Effect.message, hm]
    | false => rfl

theorem conflictsSinceBound_cons (c : Client) (o : Operation)
    (history : List (Client × Operation)) : conflictsSinceBound ((c, o) :: history) =
      if c.entersBound o then 0
      else (if c.conflicts o then 1 else 0) + conflictsSinceBound history := rfl

-- One more on the account, while there is room.
theorem declineRetryCount_succ {count : UInt32} (h : count.toNat ≤ 3) :
    (count + 1).toNat = count.toNat + 1 := counter_succ maxDeclineRetries h (by decide)

theorem exceeds_maxDeclineRetries {count : UInt32} (h : count.toNat ≤ 3) :
    count + 1 > maxDeclineRetries ↔ count.toNat = 3 := counter_exceeds maxDeclineRetries h (by decide)

-- What a conflict leaves, given that the account was right before it.
theorem ConflictsCounted.conflict {c : Client} {history : List (Client × Operation)}
    (h : ConflictsCounted c history) {o : Operation}
    (hs : c.lease.state = .checkingOffer ∨ c.lease.state = .checkingAck)
    (hconflicts : c.conflicts o = true)
    (hcount : (c.operate o).lease.declineRetryCount = c.lease.declineRetryCount + 1)
    (hs' : (c.operate o).lease.state =
      if c.lease.declineRetryCount + 1 > maxDeclineRetries then .failed else .declining) :
    (c.operate o).lease.declineRetryCount.toNat = conflictsSinceBound ((c, o) :: history) ∧
      conflictsSinceBound ((c, o) :: history) ≤ 4 ∧
      (c.operate o).lease.state =
        if conflictsSinceBound ((c, o) :: history) = 4 then .failed else .declining := by
  have hroom := h.retrying (by rcases hs with hs | hs <;> rw [hs] <;> decide)
  have henters : c.entersBound o = false := by
    apply decide_eq_false
    rw [hs']
    split_ifs
    · exact fun hb => nomatch hb.1
    · exact fun hb => nomatch hb.1
  have hnew : conflictsSinceBound ((c, o) :: history) = c.lease.declineRetryCount.toNat + 1 := by
    rw [conflictsSinceBound_cons, henters, hconflicts, ← h.count]
    simp only [Bool.false_eq_true, if_false, if_true]
    omega
  refine ⟨?_, by omega, ?_⟩
  · rw [hcount, declineRetryCount_succ hroom, hnew]
  · rw [hs', hnew]
    by_cases hlast : c.lease.declineRetryCount.toNat = 3
    · rw [if_pos ((exceeds_maxDeclineRetries hroom).mpr hlast), if_pos (by omega)]
    · rw [if_neg (fun hgt => hlast ((exceeds_maxDeclineRetries hroom).mp hgt)), if_neg (by omega)]

/-- **One step** keeps the account. -/
theorem ConflictsCounted.step {c : Client} {history : List (Client × Operation)}
    (h : ConflictsCounted c history) (o : Operation) :
    ConflictsCounted (c.operate o) ((c, o) :: history) := by
  have hoffered := h.offered.step o
  -- A step without a conflict that does not enter `bound` adds nothing.
  have hother (hadds : Adds Effect.Unrelated c (c.operate o))
      (hcount : (c.operate o).lease.declineRetryCount = c.lease.declineRetryCount)
      (hbound : (c.operate o).lease.state = .bound → c.lease.state = .bound)
      (hfailed : (c.operate o).lease.state = .failed → c.lease.state = .failed)
      (hkeep : c.lease.state = .failed → (c.operate o).lease.state = .failed) :
      ConflictsCounted (c.operate o) ((c, o) :: history) := by
    have henters : c.entersBound o = false := decide_eq_false fun hb => hb.2 (hbound hb.1)
    refine ⟨hoffered, ?_, by rw [hcount]; exact h.limit, fun hs => ?_⟩
    · rw [hcount, h.count, conflictsSinceBound_cons, henters, (unrelated_newEffects hadds).1]
      simp
    · rw [hcount]
      exact h.retrying fun hs' => hs (hkeep hs')
  cases o with
  | setCallbacks callbacks userData => exact hother (.of_log_eq rfl) rfl id id id
  | event env ev =>
    have hkeep : c.lease.state = .failed → (c.operate (.event env ev)).lease.state = .failed := by
      intro hs
      have hedge := c.step_mayBecome env ev
      rw [hs] at hedge
      exact hedge.resolve_right List.not_mem_nil
    cases Client.operate_conflictStep h.offered.noV6 env ev with
    | other hadds hcount hbound hfailed => exact hother hadds hcount hbound hfailed hkeep
    | bound hadds hcount hs' hs =>
      have henters : c.entersBound (.event env ev) = true := by
        apply decide_eq_true
        refine ⟨hs', ?_⟩
        rcases hs with hs | hs | hs <;> rw [hs] <;> decide
      refine ⟨hoffered, ?_, by rw [hcount]; decide, fun _ => by rw [hcount]; decide⟩
      rw [hcount, conflictsSinceBound_cons, henters]
      rfl
    | conflict hs hnew hcount hs' =>
      obtain ⟨calls, hcalls, hlog⟩ := hnew
      have hconflicts := (conflict_newEffects rfl hcalls hlog).1
      obtain ⟨hcounted, hle, hstate⟩ := h.conflict hs hconflicts hcount hs'
      refine ⟨hoffered, hcounted, by omega, fun hretry => ?_⟩
      by_contra hlast
      rw [if_pos (by omega)] at hstate
      exact hretry hstate

theorem start_conflictsCounted (env : Env) (iface : Iface) (netif : Netif) (callbacks : Callbacks)
    (userData : Nat) (options : Option StartOptions) :
    ConflictsCounted (Client.start env iface netif callbacks userData options) [] := by
  have hcount : (Client.start env iface netif callbacks userData options).lease.declineRetryCount =
      0 := by
    unfold Client.start startSection
    split
    · rw [outputStartReboot_lease]
      rfl
    · rw [outputStartDiscovery_lease]
      rfl
  exact ⟨(start_serverKnown env iface netif callbacks userData options).toOfferedKnown,
    by rw [hcount]; rfl, by rw [hcount]; decide, fun _ => by rw [hcount]; decide⟩

-- `failed` has no reaction: each of them starts from some other state.
theorem Reaction.of_failed {env : Env} {ev : Event} {c c₁ : Client} {after : After}
    (h : Reaction env ev c c₁ after) (hs : c.lease.state = .failed) : c₁ = c ∧ after = .done := by
  have hno {s : State} (hs' : c.lease.state = s) (hne : s ≠ .failed) : c₁ = c ∧ after = .done :=
    absurd (hs'.symm.trans hs) hne
  cases h with
  | idle hr hl => exact ⟨rfl, rfl⟩
  | offer r hd hs' => exact hno hs' (by decide)
  | ack r hd hs' => exact hs'.elim (hno · (by decide)) (hno · (by decide))
  | restart hover =>
    rcases hover with ⟨-, hs' | hs'⟩ | ⟨-, ⟨hs' | hs', -⟩ | hs'⟩ <;> exact hno hs' (by decide)
  | renewed r hd hs' => exact hs'.elim (hno · (by decide)) (hno · (by decide))
  | lost hl => rcases hl with ⟨-, hs' | hs'⟩ | ⟨-, hs'⟩ <;> exact hno hs' (by decide)
  | resend s count hev hs' hcount =>
    rw [hs] at hs'
    cases hs'
  | conflict hev hs' harp => exact hs'.elim (hno · (by decide)) (hno · (by decide))
  | request hev hs' harp => exact hno hs' (by decide)
  | commit hev hs' harp => exact hno hs' (by decide)
  | renew hev hs' => exact hno hs' (by decide)
  | t1 hev hs' => exact hno hs' (by decide)
  | t2 hev hs' => exact hno hs' (by decide)

-- In `failed` nothing happens: a fire disarms its timer, and that is all.
theorem Client.operate_failed {c : Client} (hs : c.lease.state = .failed) (env : Env) (ev : Event) :
    c.operate (.event env ev) = c.before ev := by
  obtain ⟨c₁, after, hreact, heq⟩ := c.operate_reaction env ev
  obtain ⟨rfl, rfl⟩ := hreact.of_failed ((c.before_state ev).trans hs)
  exact heq

-- Every operation of a counted run, with or without a conflict.
theorem ConflictsCounted.operation {c : Client} {history : List (Client × Operation)}
    (h : ConflictsCounted c history) (o : Operation) :
    (c.conflicts o = false ∧ c.declines o = [] ∧
      ((c.operate o).lease.state = .failed → c.lease.state = .failed)) ∨
    (c.conflicts o = true ∧
      (c.lease.state = .checkingOffer ∨ c.lease.state = .checkingAck) ∧
      (∃ env ev address m, o = .event env ev ∧
        (c.newEffects o).filter Effect.isConflict = [.probe address true] ∧
        m.msgType = .decline ∧ m.Carries optRequestedIp address ∧
        c.declines o = if env.sendBuffer then [m] else []) ∧
      (c.operate o).lease.state =
        if conflictsSinceBound ((c, o) :: history) = 4 then .failed else .declining) := by
  cases o with
  | setCallbacks callbacks userData =>
    obtain ⟨hno, hnone⟩ := unrelated_newEffects (c := c) (o := .setCallbacks callbacks userData)
      (.of_log_eq rfl)
    exact .inl ⟨hno, hnone, id⟩
  | event env ev =>
    cases Client.operate_conflictStep h.offered.noV6 env ev with
    | other hadds hcount hbound hfailed =>
      obtain ⟨hno, hnone⟩ := unrelated_newEffects hadds
      exact .inl ⟨hno, hnone, hfailed⟩
    | bound hadds hcount hs' hs =>
      obtain ⟨hno, hnone⟩ := unrelated_newEffects hadds
      exact .inl ⟨hno, hnone, fun hfailed => by rw [hs'] at hfailed; cases hfailed⟩
    | conflict hs hnew hcount hs' =>
      obtain ⟨calls, hcalls, hlog⟩ := hnew
      obtain ⟨hyes, hprobe, hdeclines⟩ := conflict_newEffects rfl hcalls hlog
      have huses : c.lease.state.usesServer = true := by
        rcases hs with hs | hs <;> rw [hs] <;> rfl
      have hcarries : (Sender.decline.message
          (c.emit (.probe c.lease.offeredIp true))).Carries optRequestedIp c.lease.offeredIp := by
        refine ⟨h.offered.offered (.inl huses), ?_⟩
        rw [Sender.message_requestedIp]
        rfl
      exact .inr ⟨hyes, hs, ⟨env, ev, c.lease.offeredIp, _, rfl, hprobe, rfl, hcarries, hdeclines⟩,
        (h.conflict hs hyes hcount hs').2.2⟩

/-- **Conflict accounting.** In every state of every run: the counter is the number of conflicts since
the lease was started or last bound, and at most 4; the next conflict probes one address, sends one
DECLINE for it if there is a buffer for the message, and is followed by `failed` if it is the fourth,
else by `declining`; without a conflict there is no DECLINE and no way into `failed`; and in `failed`
a datagram, a timer fire or a `dmdhcp_renew` sends nothing and changes nothing but the armed timer
that fired. -/
theorem conflict_accounting {env : Env} {iface : Iface} {netif : Netif} {callbacks : Callbacks}
    {userData : Nat} {options : Option StartOptions} {ops : List Operation} {c : Client}
    {history : List (Client × Operation)}
    (hrun : Lts.Run (Lts.ofTotal (Lts.recorded Client.operate))
      (Client.start env iface netif callbacks userData options, []) ops (c, history)) :
    c.lease.declineRetryCount.toNat = conflictsSinceBound history ∧
    c.lease.declineRetryCount.toNat ≤ 4 ∧
    (∀ o, c.conflicts o = true →
      (∃ env' ev address m, o = .event env' ev ∧
        (c.newEffects o).filter Effect.isConflict = [.probe address true] ∧
        m.msgType = .decline ∧ m.Carries optRequestedIp address ∧
        c.declines o = if env'.sendBuffer then [m] else []) ∧
      (c.operate o).lease.state =
        if conflictsSinceBound ((c, o) :: history) = 4 then .failed else .declining) ∧
    (∀ o, c.conflicts o = false → c.declines o = []) ∧
    (∀ o, c.lease.state ≠ .failed ∧ (c.operate o).lease.state = .failed ↔
      c.conflicts o = true ∧ conflictsSinceBound ((c, o) :: history) = 4) ∧
    (c.lease.state = .failed → ∀ env' ev, c.operate (.event env' ev) = c.before ev) := by
  have hcounted : ConflictsCounted c history := by
    refine hrun.invariant (I := fun p => ConflictsCounted p.1 p.2) (fun p o p' hp hstep => ?_)
      (start_conflictsCounted env iface netif callbacks userData options)
    rw [← show Lts.recorded Client.operate p o = p' from hstep]
    exact hp.step o
  refine ⟨hcounted.count, hcounted.limit, fun o ho => ?_, fun o ho => ?_, fun o => ?_,
    Client.operate_failed⟩
  · rcases hcounted.operation o with ⟨hno, -⟩ | ⟨-, -, hdecline, hstate⟩
    · rw [hno] at ho
      cases ho
    · exact ⟨hdecline, hstate⟩
  · rcases hcounted.operation o with ⟨-, hnone, -⟩ | ⟨hyes, -⟩
    · exact hnone
    · rw [hyes] at ho
      cases ho
  · rcases hcounted.operation o with ⟨hno, -, hfailed⟩ | ⟨hyes, hs, -, hstate⟩
    · rw [hno]
      exact ⟨fun h => absurd (hfailed h.2) h.1, fun h => nomatch h.1⟩
    · rw [hstate, hyes]
      have hne : c.lease.state ≠ .failed := by
        rcases hs with hs | hs <;> rw [hs] <;> decide
      by_cases hfour : conflictsSinceBound ((c, o) :: history) = 4
      · rw [if_pos hfour]
        exact ⟨fun _ => ⟨rfl, hfour⟩, fun _ => ⟨hne, rfl⟩⟩
      · rw [if_neg hfour]
        exact ⟨fun h => (nomatch h.2), fun h => absurd h.2 hfour⟩

/-- Four offers that all turn out to be taken. -/
def conflictInputs : List (Env × Event) :=
  (List.replicate 4
    [(quietEnv 7, Event.datagram 1
        (replyPayload .offer 7 ⟨10, 0, 0, 5⟩ (grantOptions ⟨10, 0, 0, 1⟩ 3600))),
      ({ quietEnv 7 with arpReply := true }, .retransmit false),
      (quietEnv 7, .retransmit false)]).flatten

/-- The fourth conflict ends in `failed`, with the counter at 4. -/
theorem conflict_accounting_failed :
    ∃ c history, Lts.Run (Lts.ofTotal (Lts.recorded Client.operate)) (startedClient, [])
        (operations conflictInputs) (c, history) ∧
      c.lease.state = .failed ∧ conflictsSinceBound history = 4 ∧
      ∀ env ev, c.operate (.event env ev) = c.before ev := by
  have hrun := Lts.foldl_run (Lts.recorded Client.operate) (startedClient, [])
    (operations conflictInputs)
  have hs : ((operations conflictInputs).foldl (Lts.recorded Client.operate)
      (startedClient, [])).1.lease.state = .failed := by decide +kernel
  have hcount : ((operations conflictInputs).foldl (Lts.recorded Client.operate)
      (startedClient, [])).1.lease.declineRetryCount = 4 := by decide +kernel
  generalize (operations conflictInputs).foldl (Lts.recorded Client.operate)
    (startedClient, []) = p at hrun hs hcount
  obtain ⟨c, history⟩ := p
  have hacc := conflict_accounting hrun
  refine ⟨c, history, hrun, hs, ?_, hacc.2.2.2.2.2 hs⟩
  rw [← hacc.1, hcount]
  rfl

/-- Without a buffer for the message, a conflict goes by without a DECLINE. -/
theorem conflict_without_decline :
    ∃ c history, Lts.Run (Lts.ofTotal (Lts.recorded Client.operate)) (startedClient, [])
        (operations (conflictInputs.take 1)) (c, history) ∧
      c.conflicts (.event { quietEnv 7 with arpReply := true, sendBuffer := false }
        (.retransmit false)) = true ∧
      c.declines (.event { quietEnv 7 with arpReply := true, sendBuffer := false }
        (.retransmit false)) = [] := by
  have hrun := Lts.foldl_run (Lts.recorded Client.operate) (startedClient, [])
    (operations (conflictInputs.take 1))
  exact ⟨_, _, hrun, by decide +kernel, by decide +kernel⟩

end Dmdhcp
