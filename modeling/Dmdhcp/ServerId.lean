import Dmdhcp.Probed
import Dmdhcp.Reactions

/-!
# Server identifiers on the wire

`server_id` is reset by discovery, overwritten by a 4-byte option 54 of an accepted reply and kept by
a reply without one; five senders use it.  An OFFER, or an ACK to an INIT-REBOOT, that names no
server is accepted all the same, and the identifier is then sent although none was ever received.
-/

namespace Dmdhcp

/-! ## 1. Which message is sent from which state -/

/-- A message other than a DISCOVER that a step from the first state to the second may send. -/
inductive State.Sends : State → Sender → State → Prop
  | select {s : State} (h : s = .checkingOffer ∨ s = .requesting) :
      Sends s .requestSelecting .requesting
  | decline {s s' : State} (h : s = .checkingOffer ∨ s = .checkingAck) : Sends s .decline s'
  | reboot : Sends .rebooting .requestReboot .rebooting
  | renew {s : State} (h : s = .bound ∨ s = .renewing) : Sends s .requestRenew .renewing
  | rebind {s : State} (h : s = .renewing ∨ s = .rebinding) : Sends s .requestRebind .rebinding

/-- A message of a step from `c` to `next`: a DISCOVER, or one with the addresses `c` holds. -/
inductive Client.Emits (c : Client) (next : State) (m : Sent) : Prop
  | discover (c' : Client) (h : m = Sender.discover.message c')
  | exchange (s : Sender) (c' : Client) (h : m = s.message c')
      (hip : c'.lease.offeredIp = c.lease.offeredIp) (hid : c'.lease.serverId = c.lease.serverId)
      (hs : c.lease.state.Sends s next)

/-- A message is one of a step from `c` to `next`, and discovery restarts only into `selecting`. -/
def Effect.FitsStep (c : Client) (next : State) (e : Effect) : Prop :=
  (∀ m, e = .sent m → c.Emits next m) ∧ (e = .startDiscovery → next = .selecting)

/-- Neither a message nor a restart. -/
def Effect.isQuiet : Effect → Bool
  | .sent _ => false
  | .startDiscovery => false
  | _ => true

theorem Effect.fitsStep_of_quiet {c : Client} {next : State} (e : Effect)
    (h : e.isQuiet = true) : e.FitsStep c next := by
  refine ⟨fun m hm => ?_, fun hm => ?_⟩
  · rw [hm] at h
    cases h
  · rw [hm] at h
    cases h

theorem Effect.fitsStep_sent {c : Client} {next : State} {m : Sent} (h : c.Emits next m) :
    (Effect.sent m).FitsStep c next := by
  refine ⟨fun m' hm => ?_, fun hm => ?_⟩
  · cases hm
    exact h
  · cases hm

theorem Sender.send_adds {P : Effect → Prop} (s : Sender) (env : Env) (c : Client)
    (h : P (.sent (s.message c))) : Adds P c (s.send env c) := by
  rcases s.send_log env c with hlog | hlog
  · exact .of_log_eq hlog
  · exact .of_log_cons hlog h

section
variable {P : Effect → Prop}

theorem callOnBound_adds {isRenewal : Bool} (h : P (.onBound isRenewal)) (c : Client) :
    Adds P c (callOnBound isRenewal c) := by
  unfold callOnBound
  split_ifs
  · exact .of_log_cons (e := .onBound isRenewal) rfl h
  · exact .of_log_eq rfl

-- Callbacks are not messages.
theorem After.finish_adds (hP : ∀ e : Effect, e.isQuiet = true → P e) {env : Env} {after : After}
    (h : after ≠ .lost) (c : Client) : Adds P c (after.finish env c) := by
  cases after with
  | done => exact .of_log_eq rfl
  | onBound isRenewal => exact callOnBound_adds (hP _ rfl) c
  | onError error =>
    show Adds P c (callOnError error c)
    unfold callOnError
    split_ifs
    · exact .of_log_cons (e := .onError error) rfl (hP _ rfl)
    · exact .of_log_eq rfl
  | lost => exact absurd rfl h

theorem commitLease_adds (h : ∀ a, P (.applyIpAddress a)) (env : Env) (c : Client) :
    Adds P c (commitLease env c) := by
  rcases commitLease_log env c with hlog | hlog
  · exact .of_log_eq hlog
  · exact .of_log_cons hlog (h _)

end

theorem outputStartDiscovery_emits {c : Client} {next : State} (hnext : next = .selecting)
    (env : Env) (c₀ : Client) : Adds (Effect.FitsStep c next) c₀ (outputStartDiscovery env c₀) := by
  apply outputStartDiscovery_adds
  · exact ⟨fun m hm => (by cases hm), fun _ => hnext⟩
  · exact fun c₁ => Sender.discover.send_adds env c₁ (Effect.fitsStep_sent (.discover c₁ rfl))

theorem lifecycleHandleLost_emits {c : Client} {next : State} (hnext : next = .selecting)
    (env : Env) (c₀ : Client) : Adds (Effect.FitsStep c next) c₀ (lifecycleHandleLost env c₀) :=
  lifecycleHandleLost_adds (Effect.fitsStep_of_quiet _ rfl) (Effect.fitsStep_of_quiet _ rfl)
    (outputStartDiscovery_emits hnext env) c₀

theorem commitLease_emits {c : Client} {next : State} (env : Env) (c₀ : Client) :
    Adds (Effect.FitsStep c next) c₀ (commitLease env c₀) :=
  commitLease_adds (fun _ => Effect.fitsStep_of_quiet _ rfl) env c₀

-- A sender that fits the step, on a client with the addresses of `c`.
theorem Sender.send_emits {c c' : Client} {next : State} {s : Sender} (env : Env)
    (hip : c'.lease.offeredIp = c.lease.offeredIp) (hid : c'.lease.serverId = c.lease.serverId)
    (hs : c.lease.state.Sends s next) : Adds (Effect.FitsStep c next) c' (s.send env c') := by
  apply s.send_adds
  exact Effect.fitsStep_sent (.exchange s c' rfl hip hid hs)

-- The retransmit timer repeats a message of the state.
theorem State.sender_sends {st : State} {s : Sender} (h : st.sender = some s) (hs : s ≠ .discover) :
    st.Sends s st := by
  cases st with
  | selecting => cases h; exact absurd rfl hs
  | requesting => cases h; exact .select (.inr rfl)
  | rebooting => cases h; exact .reboot
  | renewing => cases h; exact .renew (.inr rfl)
  | rebinding => cases h; exact .rebind (.inr rfl)
  | _ => cases h

theorem outputStartRenew_emits {c : Client} (env : Env)
    (hs : c.lease.state = .bound ∨ c.lease.state = .renewing) :
    Adds (Effect.FitsStep c (outputStartRenew env c).lease.state) c (outputStartRenew env c) := by
  rw [outputStartRenew_lease]
  have hsend : Adds (Effect.FitsStep c .renewing) (beginExchange env c)
      (Sender.requestRenew.send env (beginExchange env c)) :=
    Sender.send_emits env rfl rfl (.renew hs)
  exact hsend.log_congr rfl (outputStartRenew_log env c)

/-- **Every message of a reaction** fits the step it makes. -/
theorem Reaction.emits {env : Env} {ev : Event} {c c₁ : Client} {after : After}
    (h : Reaction env ev c c₁ after) :
    Adds (Effect.FitsStep c (after.finish env c₁).lease.state) c (after.finish env c₁) := by
  have hprobe (conflict : Bool) (next : State) : Adds (Effect.FitsStep c next) c
      (c.emit (.probe c.lease.offeredIp conflict)) :=
    .of_log_cons (e := .probe c.lease.offeredIp conflict) rfl (Effect.fitsStep_of_quiet _ rfl)
  cases h with
  | idle hr hl => exact .of_log_eq rfl
  | offer r hd hs => exact .of_log_eq rfl
  | ack r hd hs => exact .of_log_eq rfl
  | restart hover =>
    exact outputStartDiscovery_emits (outputStartDiscovery_state env c) env c
  | renewed r hd hs =>
    have hcommit : Adds (Effect.FitsStep c (After.finish env (.onBound true)
        (acceptRenewal env r c)).lease.state) c (acceptRenewal env r c) :=
      (commitLease_emits env (c.update (populateLeaseFromOptions env r.msg r.options))).log_congr
        rfl rfl
    exact hcommit.trans (After.finish_adds Effect.fitsStep_of_quiet
      (show After.onBound true ≠ .lost by decide) _)
  | lost hl => exact lifecycleHandleLost_emits (lifecycleHandleLost_state env c) env c
  | resend s count hev hs hcount =>
    have hstate : (After.done.finish env (rearmBackoff env (s.send env
        (c.update fun l => { l with retransmitCount := count })))).lease.state =
          c.lease.state := by
      show (rearmBackoff env _).lease.state = _
      rw [rearmBackoff_lease, Sender.send, sendMessage_lease]
      rfl
    rw [hstate]
    have hsend : Adds (Effect.FitsStep c c.lease.state)
        (c.update fun l => { l with retransmitCount := count })
        (s.send env (c.update fun l => { l with retransmitCount := count })) := by
      by_cases hdisc : s = .discover
      · subst hdisc
        apply Sender.discover.send_adds
        exact Effect.fitsStep_sent (.discover _ rfl)
      · exact Sender.send_emits env rfl rfl (State.sender_sends hs hdisc)
    exact hsend.log_congr rfl rfl
  | conflict hev hs harp =>
    have hsend (next : State) : Adds (Effect.FitsStep c next)
        (c.emit (.probe c.lease.offeredIp true))
        (handleConflict env (c.emit (.probe c.lease.offeredIp true))).1 := by
      have hdecline : Adds (Effect.FitsStep c next) (c.emit (.probe c.lease.offeredIp true))
          (Sender.decline.send env (c.emit (.probe c.lease.offeredIp true))) :=
        Sender.send_emits env rfl rfl (.decline hs)
      exact hdecline.log_congr rfl (handleConflict_log env _)
    exact ((hprobe true _).trans (hsend _)).trans
      (After.finish_adds Effect.fitsStep_of_quiet (handleConflict_ne_lost env _) _)
  | request hev hs harp =>
    have hstate : (After.done.finish env (requestOffered env
        (c.emit (.probe c.lease.offeredIp false)))).lease.state = .requesting :=
      requestOffered_state env _
    rw [hstate]
    have hsend : Adds (Effect.FitsStep c .requesting) (c.emit (.probe c.lease.offeredIp false))
        (requestOffered env (c.emit (.probe c.lease.offeredIp false))) := by
      have hrequest : Adds (Effect.FitsStep c .requesting)
          (c.emit (.probe c.lease.offeredIp false))
          (Sender.requestSelecting.send env (c.emit (.probe c.lease.offeredIp false))) :=
        Sender.send_emits env rfl rfl (.select (.inl hs))
      exact hrequest.log_congr rfl (requestOffered_log env _)
    exact (hprobe false _).trans hsend
  | commit hev hs harp =>
    have hcommit : Adds (Effect.FitsStep c (After.finish env (.onBound false)
        (commitProbed env c)).lease.state) c (commitProbed env c) :=
      (hprobe false _).trans (commitLease_emits env (c.emit (.probe c.lease.offeredIp false)))
    exact hcommit.trans (After.finish_adds Effect.fitsStep_of_quiet
      (show After.onBound false ≠ .lost by decide) _)
  | renew hev hs => exact outputStartRenew_emits env (.inl hs)
  | t1 hev hs => exact (outputStartRenew_emits env (.inl hs)).log_congr rfl rfl
  | t2 hev hs =>
    have hsend : Adds (Effect.FitsStep c .rebinding) (beginExchange env c)
        (Sender.requestRebind.send env (beginExchange env c)) :=
      Sender.send_emits env rfl rfl (.rebind (.inl hs))
    exact hsend.log_congr rfl (outputStartRebind_log env c)

theorem Client.Emits.of_before {c : Client} {ev : Event} {next : State} {m : Sent}
    (h : (c.before ev).Emits next m) : c.Emits next m := by
  obtain ⟨-, -, -, rt, lt, hlease⟩ := c.before_same ev
  cases h with
  | discover c' h => exact .discover c' h
  | exchange s c' h hip hid hs =>
    rw [hlease] at hip hid hs
    exact .exchange s c' h hip hid hs

-- What an operation adds to the record fits the step it makes.
theorem Client.newEffects_fitStep (c : Client) (o : Operation) :
    ∀ e ∈ c.newEffects o, e.FitsStep c (c.operate o).lease.state := by
  intro e he
  cases o with
  | setCallbacks callbacks userData =>
    have hnone : c.newEffects (.setCallbacks callbacks userData) = [] := Client.newEffects_eq rfl
    rw [hnone] at he
    exact absurd he List.not_mem_nil
  | event env ev =>
    obtain ⟨c₁, after, hreact, heq⟩ := c.operate_reaction env ev
    obtain ⟨new, hlog, hnew⟩ := hreact.emits
    rw [(c.before_same ev).log, ← heq] at hlog
    rw [Client.newEffects_eq hlog] at he
    have hfits := hnew e he
    rw [← heq] at hfits
    exact ⟨fun m hm => (hfits.1 m hm).of_before, hfits.2⟩

/-! ## 2. Learned identifiers -/

/-- The server a reply names: a 4-byte option 54. -/
def Reply.serverId (r : Reply) : Option Addr :=
  match optionsFind r.options optServerId with
  | .ok opt => opt.getAddr.toOption
  | .error _ => none

/-- The reply an operation takes into the lease: an OFFER in `selecting`, or an ACK to a REQUEST. -/
def Client.accepted (c : Client) : Operation → Option Reply
  | .event _ ev =>
    match c.delivered ev with
    | some (r, msgType) =>
      if (msgType = MsgType.offer.toByte ∧ c.lease.state = .selecting) ∨
          (msgType = MsgType.ack.toByte ∧ (c.lease.state = .requesting ∨ c.lease.state = .rebooting ∨
            c.lease.state = .renewing ∨ c.lease.state = .rebinding)) then some r
      else none
    | none => none
  | .setCallbacks _ _ => none

/-- Since the last restart of discovery, an OFFER or ACK was accepted that names `a`. -/
def Learned (history : List (Client × Operation)) (a : Addr) : Prop :=
  Lts.Since (fun p => decide (.startDiscovery ∈ p.1.newEffects p.2))
    (fun p => decide ((p.1.accepted p.2).bind Reply.serverId = some a)) history = true

/-- An OFFER, and an ACK to an INIT-REBOOT, names its server. -/
def Client.NamesServer (c : Client) (o : Operation) : Prop :=
  ∀ r, c.accepted o = some r → c.lease.state = .selecting ∨ c.lease.state = .rebooting →
    r.serverId.isSome = true

section
variable {c : Client} {ev : Event} {r : Reply}

theorem Client.accepted_offer (env : Env) (h : c.delivered ev = some (r, MsgType.offer.toByte))
    (hs : c.lease.state = .selecting) : c.accepted (.event env ev) = some r := by
  have hcond : (MsgType.offer.toByte = MsgType.offer.toByte ∧ c.lease.state = .selecting) ∨
      (MsgType.offer.toByte = MsgType.ack.toByte ∧ (c.lease.state = .requesting ∨
        c.lease.state = .rebooting ∨ c.lease.state = .renewing ∨ c.lease.state = .rebinding)) :=
    .inl ⟨rfl, hs⟩
  rw [Client.accepted, h]
  exact if_pos hcond

theorem Client.accepted_ack (env : Env) (h : c.delivered ev = some (r, MsgType.ack.toByte))
    (hs : c.lease.state = .requesting ∨ c.lease.state = .rebooting ∨ c.lease.state = .renewing ∨
      c.lease.state = .rebinding) : c.accepted (.event env ev) = some r := by
  rw [Client.accepted, h]
  exact if_pos (.inr ⟨rfl, hs⟩)

theorem addrOr_serverId (r : Reply) (old : Addr) :
    addrOr r.options optServerId old = r.serverId.getD old := by
  unfold addrOr Reply.serverId
  cases optionsFind r.options optServerId with
  | ok opt => rfl
  | error e => rfl

theorem Reply.serverId_isV4 {a : Addr} (h : r.serverId = some a) : a.isV4 = true := by
  unfold Reply.serverId at h
  split at h
  · rename_i opt _
    cases hopt : opt.getAddr with
    | ok a' =>
      rw [hopt] at h
      cases h
      exact DhcpOption.getAddr_isV4 hopt
    | error e =>
      rw [hopt] at h
      cases h
  · cases h

end

theorem Learned.of_accepted {c : Client} {o : Operation} {r : Reply} {a : Addr}
    {history : List (Client × Operation)} (h : c.accepted o = some r) (ha : r.serverId = some a) :
    Learned ((c, o) :: history) a := by
  have hlearns : (c.accepted o).bind Reply.serverId = some a := by
    rw [h]
    exact ha
  rw [Learned, Lts.Since, decide_eq_true hlearns, Bool.true_or]

-- What has been learned is forgotten only by a restart, which leads to `selecting`.
theorem Learned.step {c : Client} {o : Operation} {a : Addr} {history : List (Client × Operation)}
    (h : Learned history a) (hs : (c.operate o).lease.state ≠ .selecting) :
    Learned ((c, o) :: history) a := by
  have hno : Effect.startDiscovery ∉ c.newEffects o :=
    fun hmem => hs ((c.newEffects_fitStep o _ hmem).2 rfl)
  rw [Learned, Lts.Since, decide_eq_false hno, show Lts.Since _ _ history = true from h]
  simp

/-! ## 3. The invariant -/

/-- The states from which `server_id` may be sent. -/
def State.usesServer : State → Bool
  | .checkingOffer => true
  | .requesting => true
  | .checkingAck => true
  | .bound => true
  | .renewing => true
  | .rebinding => true
  | _ => false

/-- `offered_ip` is an IPv4 address wherever it is asked for or held, and never an IPv6 one. -/
structure OfferedKnown (c : Client) : Prop where
  noV6 : c.lease.offeredIp.isV6 = false
  offered : c.lease.state.usesServer = true ∨ c.lease.state = .rebooting →
    c.lease.offeredIp.isV4 = true

/-- What is known of `server_id` as well. -/
structure ServerKnown (c : Client) (history : List (Client × Operation)) : Prop
    extends OfferedKnown c where
  blank : c.lease.state = .selecting ∨ c.lease.state = .rebooting → c.lease.serverId = .none
  learned : c.lease.serverId = .none ∨
    c.lease.serverId.isV4 = true ∧ Learned history c.lease.serverId
  known : c.lease.state.usesServer = true → c.lease.serverId.isV4 = true

/-- How a step changes what the lease knows of its server: not at all, by an accepted reply, or by
forgetting it. -/
inductive ServerStep (c : Client) (ev : Event) (l : Lease) : Prop
  | kept (hid : l.serverId = c.lease.serverId) (hip : l.offeredIp = c.lease.offeredIp)
      (huses : l.state.usesServer = true → c.lease.state.usesServer = true)
      (hblank : l.state = .selecting ∨ l.state = .rebooting → c.lease.state = l.state)
  | accepted (r : Reply) (h : ∀ env, c.accepted (.event env ev) = some r)
      (hid : l.serverId = r.serverId.getD c.lease.serverId) (hip : l.offeredIp = r.msg.yiaddr)
      (hs : l.state = .checkingOffer ∧ c.lease.state = .selecting ∨
        l.state = .checkingAck ∧ (c.lease.state = .requesting ∨ c.lease.state = .rebooting) ∨
        l.state = .bound ∧ (c.lease.state = .renewing ∨ c.lease.state = .rebinding))
  | forgotten (hid : l.serverId = .none) (hip : l.offeredIp = .none) (hs : l.state = .selecting)

-- Discovery from anywhere forgets the server.
theorem outputStartDiscovery_serverStep {c : Client} {ev : Event} (env : Env) (c₀ : Client) :
    ServerStep c ev (outputStartDiscovery env c₀).lease := by
  rw [outputStartDiscovery_lease]
  exact .forgotten rfl rfl rfl

-- A move to a state other than `selecting` and `rebooting` that touches neither address.
theorem ServerStep.moved {c : Client} {ev : Event} {l : Lease} (state : State)
    (hid : l.serverId = c.lease.serverId) (hip : l.offeredIp = c.lease.offeredIp)
    (hs : l.state = state) (hstate : state ≠ .selecting ∧ state ≠ .rebooting)
    (huses : state.usesServer = true → c.lease.state.usesServer = true) : ServerStep c ev l := by
  subst hs
  refine .kept hid hip huses fun h => ?_
  rcases h with h | h
  · exact absurd h hstate.1
  · exact absurd h hstate.2

theorem Reaction.serverStep {env : Env} {ev : Event} {c c₁ : Client} {after : After}
    (h : Reaction env ev c c₁ after) : ServerStep c ev (after.finish env c₁).lease := by
  cases h with
  | idle hr hl => exact .kept rfl rfl id fun _ => rfl
  | offer r hd hs =>
    exact .accepted r (fun env => Client.accepted_offer env hd hs) (addrOr_serverId r _) rfl
      (.inl ⟨rfl, hs⟩)
  | ack r hd hs =>
    exact .accepted r (fun env => Client.accepted_ack env hd (by tauto)) (addrOr_serverId r _) rfl
      (.inr (.inl ⟨rfl, hs⟩))
  | restart hover => exact outputStartDiscovery_serverStep env c
  | renewed r hd hs =>
    rw [(After.finish_eq (show After.onBound true ≠ .lost by decide) _).1, acceptRenewal]
    obtain ⟨configured, route, hcommit⟩ := commitLease_lease env
      (c.update (populateLeaseFromOptions env r.msg r.options))
    rw [hcommit]
    exact .accepted r (fun env => Client.accepted_ack env hd (by tauto)) (addrOr_serverId r _) rfl
      (.inr (.inr ⟨rfl, hs⟩))
  | lost hl => exact outputStartDiscovery_serverStep env _
  | resend s count hev hs hcount =>
    show ServerStep c ev (rearmBackoff env _).lease
    rw [rearmBackoff_lease, Sender.send, sendMessage_lease]
    exact .kept rfl rfl id fun _ => rfl
  | conflict hev hs harp =>
    obtain ⟨state, timer, hstate, hlease⟩ := handleConflict_lease env
      (c.emit (.probe c.lease.offeredIp true))
    rw [(After.finish_eq (handleConflict_ne_lost env _) _).1, hlease]
    rcases hstate with rfl | rfl
    · exact .moved .failed rfl rfl rfl (by decide) fun h => by cases h
    · exact .moved .declining rfl rfl rfl (by decide) fun h => by cases h
  | request hev hs harp =>
    show ServerStep c ev (requestOffered env _).lease
    rw [requestOffered_lease]
    exact .moved .requesting rfl rfl rfl (by decide) fun _ => by rw [hs]; rfl
  | commit hev hs harp =>
    rw [(After.finish_eq (show After.onBound false ≠ .lost by decide) _).1, commitProbed]
    obtain ⟨configured, route, hcommit⟩ := commitLease_lease env
      (c.emit (.probe c.lease.offeredIp false))
    rw [hcommit]
    exact .moved .bound rfl rfl rfl (by decide) fun _ => by rw [hs]; rfl
  | renew hev hs =>
    show ServerStep c ev (outputStartRenew env c).lease
    rw [outputStartRenew_lease]
    exact .moved .renewing rfl rfl rfl (by decide) fun _ => by rw [hs]; rfl
  | t1 hev hs =>
    show ServerStep c ev (lifecycleArmT2 env (outputStartRenew env c)).lease
    rw [outputStartRenew_armT2_lease]
    exact .moved .renewing rfl rfl rfl (by decide) fun _ => by rw [hs]; rfl
  | t2 hev hs =>
    show ServerStep c ev (lifecycleArmExpiry env (outputStartRebind env c)).lease
    rw [outputStartRebind_armExpiry_lease]
    exact .moved .rebinding rfl rfl rfl (by decide) fun _ => by rw [hs]; rfl

theorem Client.accepted_before (c : Client) (env : Env) (ev : Event) :
    (c.before ev).accepted (.event env ev) = c.accepted (.event env ev) := by
  cases ev with
  | datagram iface payload => rfl
  | retransmit stale => rfl
  | leaseTimer stale => rfl
  | renew => rfl

theorem Client.operate_serverStep (c : Client) (env : Env) (ev : Event) :
    ServerStep c ev (c.operate (.event env ev)).lease := by
  obtain ⟨c₁, after, hreact, heq⟩ := c.operate_reaction env ev
  obtain ⟨-, -, -, rt, lt, hlease⟩ := c.before_same ev
  rw [heq]
  cases hreact.serverStep with
  | kept hid hip huses hblank =>
    rw [hlease] at hid hip huses hblank
    exact .kept hid hip huses hblank
  | accepted r h hid hip hs =>
    rw [hlease] at hid hs
    exact .accepted r (fun env => c.accepted_before env ev ▸ h env) hid hip hs
  | forgotten hid hip hs => exact .forgotten hid hip hs

theorem isV6_of_isV4 {a : Addr} (h : a.isV4 = true) : a.isV6 = false := by
  cases a with
  | none => rfl
  | v4 ip => rfl
  | v6 ip => cases h

theorem OfferedKnown.step {c : Client} (h : OfferedKnown c) (o : Operation) :
    OfferedKnown (c.operate o) := by
  cases o with
  | setCallbacks callbacks userData => exact ⟨h.noV6, h.offered⟩
  | event env ev =>
    cases c.operate_serverStep env ev with
    | kept hid hip huses hblank =>
      refine ⟨by rw [hip]; exact h.noV6, fun hs => ?_⟩
      rw [hip]
      rcases hs with hs | hs
      · exact h.offered (.inl (huses hs))
      · exact h.offered (.inr ((hblank (.inr hs)).trans hs))
    | accepted r haccepted hid hip hs =>
      have hv4 : (c.operate (.event env ev)).lease.offeredIp.isV4 = true := by
        rw [hip]
        exact r.yiaddrIsV4
      exact ⟨isV6_of_isV4 hv4, fun _ => hv4⟩
    | forgotten hid hip hs =>
      refine ⟨by rw [hip]; rfl, fun huses => ?_⟩
      rw [hs] at huses
      rcases huses with huses | huses <;> cases huses

-- In the states that use the server, its identifier was learned.
theorem ServerKnown.server {c : Client} {history : List (Client × Operation)}
    (h : ServerKnown c history) (huses : c.lease.state.usesServer = true) :
    c.lease.serverId.isV4 = true ∧ Learned history c.lease.serverId := by
  have hknown := h.known huses
  rcases h.learned with hnone | hl
  · rw [hnone] at hknown
    cases hknown
  · exact hl

/-- **One step** keeps what is known of the server, if the reply it accepts names one where none is
known yet. -/
theorem ServerKnown.step {c : Client} {history : List (Client × Operation)}
    (h : ServerKnown c history) {o : Operation} (hnames : c.NamesServer o) :
    ServerKnown (c.operate o) ((c, o) :: history) := by
  have hoffered := h.toOfferedKnown.step o
  -- An identifier that is kept was learned before, unless the step leads back to `selecting`.
  have hkept (hs : (c.operate o).lease.state ≠ .selecting) : c.lease.serverId = .none ∨
      c.lease.serverId.isV4 = true ∧ Learned ((c, o) :: history) c.lease.serverId :=
    h.learned.imp_right fun hl => ⟨hl.1, hl.2.step hs⟩
  cases o with
  | setCallbacks callbacks userData =>
    refine ⟨hoffered, h.blank, ?_, h.known⟩
    by_cases hs : c.lease.state = .selecting
    · exact .inl (h.blank (.inl hs))
    · exact hkept hs
  | event env ev =>
    cases c.operate_serverStep env ev with
    | kept hid hip huses hblank =>
      refine ⟨hoffered, ?_, ?_, ?_⟩ <;> rw [hid]
      · exact fun hs => h.blank (by rw [hblank hs]; exact hs)
      · by_cases hs : (c.operate (.event env ev)).lease.state = .selecting
        · exact .inl (h.blank (.inl ((hblank (.inl hs)).trans hs)))
        · exact hkept hs
      · exact fun hs => h.known (huses hs)
    | accepted r haccepted hid hip hs =>
      have hstate : (c.operate (.event env ev)).lease.state ≠ .selecting ∧
          (c.operate (.event env ev)).lease.state ≠ .rebooting := by
        rcases hs with ⟨hs, -⟩ | ⟨hs, -⟩ | ⟨hs, -⟩ <;> rw [hs] <;> decide
      -- Either the reply names a server, or one is known from before.
      have hserver : (c.operate (.event env ev)).lease.serverId.isV4 = true ∧
          Learned ((c, .event env ev) :: history)
            (c.operate (.event env ev)).lease.serverId := by
        rw [hid]
        cases hnamed : r.serverId with
        | some a => exact ⟨Reply.serverId_isV4 hnamed, .of_accepted (haccepted env) hnamed⟩
        | none =>
          have huses : c.lease.state.usesServer = true := by
            by_contra hno
            have hblank : c.lease.state = .selecting ∨ c.lease.state = .rebooting := by
              rcases hs with ⟨-, hs⟩ | ⟨-, hs | hs⟩ | ⟨-, hs | hs⟩
              · exact .inl hs
              · rw [hs] at hno; exact absurd rfl hno
              · exact .inr hs
              · rw [hs] at hno; exact absurd rfl hno
              · rw [hs] at hno; exact absurd rfl hno
            have hsome := hnames r (haccepted env) hblank
            rw [hnamed] at hsome
            cases hsome
          exact ⟨(h.server huses).1, (h.server huses).2.step hstate.1⟩
      refine ⟨hoffered, fun hs => ?_, .inr hserver, fun _ => hserver.1⟩
      rcases hs with hs | hs
      · exact absurd hs hstate.1
      · exact absurd hs hstate.2
    | forgotten hid hip hs =>
      refine ⟨hoffered, fun _ => hid, .inl hid, fun huses => ?_⟩
      rw [hs] at huses
      cases huses

theorem start_serverKnown (env : Env) (iface : Iface) (netif : Netif) (callbacks : Callbacks)
    (userData : Nat) (options : Option StartOptions) :
    ServerKnown (Client.start env iface netif callbacks userData options) [] := by
  unfold Client.start startSection
  split
  · refine ⟨⟨?_, ?_⟩, ?_, ?_, ?_⟩ <;> rw [outputStartReboot_lease]
    · rfl
    · exact fun _ => rfl
    · exact fun _ => rfl
    · exact .inl rfl
    · exact nofun
  · refine ⟨⟨?_, ?_⟩, ?_, ?_, ?_⟩ <;> rw [outputStartDiscovery_lease]
    · rfl
    · rintro (h | h) <;> cases h
    · exact fun _ => rfl
    · exact .inl rfl
    · exact nofun

/-! ## 4. The messages -/

def Effect.message : Effect → Option Sent
  | .sent m => some m
  | _ => none

/-- The messages an operation sends. -/
def Client.newMessages (c : Client) (o : Operation) : List Sent :=
  (c.newEffects o).filterMap Effect.message

theorem Effect.mem_message {es : List Effect} {m : Sent} :
    m ∈ es.filterMap Effect.message ↔ .sent m ∈ es := by
  rw [List.mem_filterMap]
  constructor
  · rintro ⟨e, he, hm⟩
    cases e with
    | sent m' => cases hm; exact he
    | _ => cases hm
  · exact fun h => ⟨_, h, rfl⟩

/-- `m` carries `a` in option `code`, and `a` is an IPv4 address. -/
def Sent.Carries (m : Sent) (code : UInt8) (a : Addr) : Prop :=
  a.isV4 = true ∧ m.option code = some a.raw.bytes

/-- What a message sent on the way from `c` to `c'` says, given what has been learned. -/
structure RightMessage (learned : Addr → Prop) (c c' : Client) (m : Sent) : Prop where
  /-- A REQUEST for an offer, and a DECLINE, name the address and the server that offered it. -/
  selecting : (m.msgType = .request ∧
      (c.lease.state = .checkingOffer ∨ c.lease.state = .requesting)) ∨ m.msgType = .decline →
    m.Carries optRequestedIp c.lease.offeredIp ∧
      (∃ a, learned a ∧ m.Carries optServerId a) ∧ m.parsedCiaddr = some (.v4 .zero)
  /-- A REQUEST for a remembered address names no server. -/
  rebooting : m.msgType = .request ∧ c.lease.state = .rebooting →
    m.Carries optRequestedIp c.lease.offeredIp ∧ m.option optServerId = none ∧
      m.parsedCiaddr = some (.v4 .zero)
  /-- A REQUEST for the address held carries it as `ciaddr`, and neither option. -/
  renewing : m.msgType = .request ∧ (c.lease.state = .bound ∨ c.lease.state = .renewing ∨
      c.lease.state = .rebinding) →
    m.parsedCiaddr = some c.lease.offeredIp ∧ m.option optRequestedIp = none ∧
      m.option optServerId = none
  /-- A renewing REQUEST goes to the server that granted the lease. -/
  unicast : m.msgType = .request ∧ c'.lease.state = .renewing → m.dst.isV4 = true ∧ learned m.dst
  /-- There is no other REQUEST. -/
  request : m.msgType = .request → c.lease.state ∈ [State.checkingOffer, .requesting, .rebooting,
    .bound, .renewing, .rebinding]
  /-- Every identifier sent was learned, ... -/
  serverId : m.option optServerId = none ∨ ∃ a, learned a ∧ m.Carries optServerId a
  /-- ... and so was every address written to. -/
  dst : m.dst = limitedBroadcast ∨ m.dst.isV4 = true ∧ learned m.dst

theorem Addr.eq_v4_raw {a : Addr} (h : a.isV4 = true) : .v4 a.raw = a := by
  cases a with
  | v4 ip => rfl
  | none => cases h
  | v6 ip => cases h

theorem discover_right {learned : Addr → Prop} {c c' c₀ : Client} :
    RightMessage learned c c' (Sender.discover.message c₀) where
  selecting h := by rcases h with ⟨h, -⟩ | h <;> cases h
  rebooting h := by cases h.1
  renewing h := by cases h.1
  unicast h := by cases h.1
  request h := by cases h
  serverId := .inl (by rw [Sender.message_serverId]; rfl)
  dst := .inl rfl

-- A message that names the offered address and the server.
theorem Sender.message_carries {s : Sender} {c c₀ : Client}
    (hip : c₀.lease.offeredIp = c.lease.offeredIp) (hid : c₀.lease.serverId = c.lease.serverId)
    (hs : s = .requestSelecting ∨ s = .decline) (hoffered : c.lease.offeredIp.isV4 = true)
    (hserver : c.lease.serverId.isV4 = true) :
    (s.message c₀).Carries optRequestedIp c.lease.offeredIp ∧
      (s.message c₀).Carries optServerId c.lease.serverId ∧
      (s.message c₀).parsedCiaddr = some (.v4 .zero) := by
  refine ⟨⟨hoffered, ?_⟩, ⟨hserver, ?_⟩, ?_⟩
  · rw [Sender.message_requestedIp, ← hip]
    rcases hs with rfl | rfl <;> rfl
  · rw [Sender.message_serverId, ← hid]
    rcases hs with rfl | rfl <;> rfl
  · rw [Sender.message_ciaddr]
    rcases hs with rfl | rfl <;> rfl

-- A message from the address held.
theorem Sender.message_held {s : Sender} {c c₀ : Client}
    (hip : c₀.lease.offeredIp = c.lease.offeredIp) (hs : s = .requestRenew ∨ s = .requestRebind)
    (hoffered : c.lease.offeredIp.isV4 = true) :
    (s.message c₀).parsedCiaddr = some c.lease.offeredIp ∧
      (s.message c₀).option optRequestedIp = none ∧ (s.message c₀).option optServerId = none := by
  refine ⟨?_, ?_, ?_⟩
  · rw [Sender.message_ciaddr, ← Addr.eq_v4_raw hoffered, ← hip]
    rcases hs with rfl | rfl <;> rfl
  · rw [Sender.message_requestedIp]
    rcases hs with rfl | rfl <;> rfl
  · rw [Sender.message_serverId]
    rcases hs with rfl | rfl <;> rfl

/-! One lemma for each sender that names or addresses a server; `st` and `st'` are the states before
and after the step. -/

section
variable {learned : Addr → Prop} {c c' c₀ : Client} {st st' : State}
  (hst : c.lease.state = st) (hst' : c'.lease.state = st')
  (hip : c₀.lease.offeredIp = c.lease.offeredIp) (hid : c₀.lease.serverId = c.lease.serverId)
  (hoffered : c.lease.offeredIp.isV4 = true)
  (hserver : c.lease.serverId.isV4 = true ∧ learned c.lease.serverId)

include hst hst' hip hid hoffered hserver in
theorem requestSelecting_right (hs : st = .checkingOffer ∨ st = .requesting)
    (hs' : st' = .requesting) :
    RightMessage learned c c' (Sender.requestSelecting.message c₀) := by
  obtain ⟨h50, h54, hci⟩ := Sender.message_carries hip hid (.inl rfl) hoffered hserver.1
  subst hs'
  refine ⟨fun _ => ⟨h50, ⟨_, hserver.2, h54⟩, hci⟩, fun hm => ?_, fun hm => ?_, fun hm => ?_,
    fun _ => ?_, .inr ⟨_, hserver.2, h54⟩, .inl rfl⟩
  · rw [hst] at hm
    rcases hs with rfl | rfl <;> cases hm.2
  · rw [hst] at hm
    rcases hs with rfl | rfl <;> rcases hm.2 with hm | hm | hm <;> cases hm
  · rw [hst'] at hm
    cases hm.2
  · rw [hst]
    rcases hs with rfl | rfl <;> decide

include hip hid hoffered hserver in
theorem decline_right : RightMessage learned c c' (Sender.decline.message c₀) := by
  obtain ⟨h50, h54, hci⟩ := Sender.message_carries hip hid (.inr rfl) hoffered hserver.1
  refine ⟨fun _ => ⟨h50, ⟨_, hserver.2, h54⟩, hci⟩, fun hm => ?_, fun hm => ?_, fun hm => ?_,
    fun hm => ?_, .inr ⟨_, hserver.2, h54⟩, .inl rfl⟩
  -- The other parts are about REQUESTs.
  · cases hm.1
  · cases hm.1
  · cases hm.1
  · cases hm

include hst hst' hip hoffered in
theorem requestReboot_right (hs : st = .rebooting) (hs' : st' = .rebooting) :
    RightMessage learned c c' (Sender.requestReboot.message c₀) := by
  subst hs hs'
  have h50 : (Sender.requestReboot.message c₀).Carries optRequestedIp c.lease.offeredIp := by
    refine ⟨hoffered, ?_⟩
    rw [Sender.message_requestedIp, ← hip]
    rfl
  have h54 : (Sender.requestReboot.message c₀).option optServerId = none := by
    rw [Sender.message_serverId]
    rfl
  have hci : (Sender.requestReboot.message c₀).parsedCiaddr = some (.v4 .zero) := by
    rw [Sender.message_ciaddr]
    rfl
  refine ⟨fun hm => ?_, fun _ => ⟨h50, h54, hci⟩, fun hm => ?_, fun hm => ?_, fun _ => ?_,
    .inl h54, .inl rfl⟩
  · rw [hst] at hm
    rcases hm with ⟨-, hm | hm⟩ | hm <;> cases hm
  · rw [hst] at hm
    rcases hm.2 with hm | hm | hm <;> cases hm
  · rw [hst'] at hm
    cases hm.2
  · rw [hst]
    decide

-- A REQUEST for the address held is right if it goes where it has to.
theorem message_held_right {s : Sender} (hsender : s = .requestRenew ∨ s = .requestRebind)
    (hip : c₀.lease.offeredIp = c.lease.offeredIp) (hoffered : c.lease.offeredIp.isV4 = true)
    (hst : c.lease.state = st) (hs : st = .bound ∨ st = .renewing ∨ st = .rebinding)
    (hunicast : c'.lease.state = .renewing →
      (s.message c₀).dst.isV4 = true ∧ learned (s.message c₀).dst)
    (hdst : (s.message c₀).dst = limitedBroadcast ∨
      (s.message c₀).dst.isV4 = true ∧ learned (s.message c₀).dst) :
    RightMessage learned c c' (s.message c₀) := by
  have hheld := Sender.message_held hip hsender hoffered
  have htype : (s.message c₀).msgType = .request := by
    rcases hsender with rfl | rfl <;> rfl
  refine ⟨fun hm => ?_, fun hm => ?_, fun _ => hheld, fun hm => hunicast hm.2, fun _ => ?_,
    .inl hheld.2.2, hdst⟩
  · rw [htype, hst] at hm
    rcases hs with rfl | rfl | rfl <;> rcases hm with ⟨-, hm | hm⟩ | hm <;> cases hm
  · rw [hst] at hm
    rcases hs with rfl | rfl | rfl <;> cases hm.2
  · rw [hst]
    rcases hs with rfl | rfl | rfl <;> decide

end

theorem ServerKnown.rightMessage {c : Client} {history : List (Client × Operation)}
    (h : ServerKnown c history) {c' : Client} {m : Sent} (hm : c.Emits c'.lease.state m) :
    RightMessage (Learned history) c c' m := by
  cases hm with
  | discover c₀ heq =>
    rw [heq]
    exact discover_right
  | exchange s c₀ heq hip hid hsends =>
    subst heq
    generalize hst : c.lease.state = st at hsends
    generalize hst' : c'.lease.state = st' at hsends
    -- Every sender but that of the reboot is in a state that uses the server.
    have huses (hst₀ : st.usesServer = true) : c.lease.state.usesServer = true := hst ▸ hst₀
    cases hsends with
    | select hs =>
      have hu := huses (by rcases hs with rfl | rfl <;> rfl)
      exact requestSelecting_right hst hst' hip hid (h.offered (.inl hu)) (h.server hu) hs rfl
    | decline hs =>
      have hu := huses (by rcases hs with rfl | rfl <;> rfl)
      exact decline_right hip hid (h.offered (.inl hu)) (h.server hu)
    | reboot => exact requestReboot_right hst hst' hip (h.offered (.inr hst)) rfl rfl
    | renew hs =>
      have hu := huses (by rcases hs with rfl | rfl <;> rfl)
      have hdst : (Sender.requestRenew.message c₀).dst.isV4 = true ∧
          Learned history (Sender.requestRenew.message c₀).dst := by
        rw [show (Sender.requestRenew.message c₀).dst = c.lease.serverId from hid]
        exact h.server hu
      exact message_held_right (.inl rfl) hip (h.offered (.inl hu)) hst
        (hs.imp_right .inl) (fun _ => hdst) (.inr hdst)
    | rebind hs =>
      have hu := huses (by rcases hs with rfl | rfl <;> rfl)
      apply message_held_right (.inr rfl) hip (h.offered (.inl hu)) hst (.inr hs) _ (.inl rfl)
      intro hrenewing
      rw [hst'] at hrenewing
      cases hrenewing

/-- What a RELEASE says. -/
structure RightRelease (learned : Addr → Prop) (c : Client) (m : Sent) : Prop where
  msgType : m.msgType = .release
  ciaddr : m.parsedCiaddr = some c.lease.offeredIp
  serverId : ∃ a, learned a ∧ m.Carries optServerId a
  dst : m.dst.isV4 = true ∧ learned m.dst

-- The only message of `dmdhcp_release`, which checks both addresses itself.
theorem ServerKnown.rightRelease {c : Client} {history : List (Client × Operation)}
    (h : ServerKnown c history) (env : Env) :
    Adds (fun e => ∀ m, e = .sent m → RightRelease (Learned history) c m) c
      (releaseSection env c) := by
  have hstop (c₀ : Client) : Adds (fun e => ∀ m, e = .sent m → RightRelease (Learned history) c m)
      c₀ (stopSection env c₀) := by
    unfold stopSection
    split_ifs
    · rcases lifecycleUnapply_log env c₀ with hlog | hlog
      · exact .of_log_eq hlog
      · exact .of_log_cons hlog fun m hm => by cases hm
    · exact .of_log_eq rfl
  unfold releaseSection
  dsimp only
  split_ifs with hboth
  · have hlearned : Learned history c.lease.serverId := by
      rcases h.learned with hnone | hl
      · rw [hnone] at hboth
        cases hboth.2
      · exact hl.2
    have hsend : Adds (fun e => ∀ m, e = .sent m → RightRelease (Learned history) c m) c
        (Sender.release.send env c) := by
      apply Sender.release.send_adds
      intro m hm
      cases hm
      refine ⟨rfl, ?_, ⟨c.lease.serverId, hlearned, hboth.2, ?_⟩, hboth.2, hlearned⟩
      · rw [Sender.message_ciaddr, ← Addr.eq_v4_raw hboth.1]
        rfl
      · rw [Sender.message_serverId]
        rfl
    exact hsend.trans (hstop _)
  · exact hstop c

/-! ## 5. Every run -/

-- `dmdhcp_start` ends in the start of INIT-REBOOT or of discovery, with nothing recorded before.
theorem start_cases (env : Env) (iface : Iface) (netif : Netif) (callbacks : Callbacks)
    (userData : Nat) (options : Option StartOptions) : ∃ c : Client, c.log = [] ∧
      (Client.start env iface netif callbacks userData options = outputStartReboot env c ∨
        Client.start env iface netif callbacks userData options = outputStartDiscovery env c) := by
  unfold Client.start startSection
  split
  · exact ⟨_, rfl, .inl rfl⟩
  · exact ⟨_, rfl, .inr rfl⟩

-- The message of `dmdhcp_start` itself: a DISCOVER, or a REQUEST for the remembered address.
theorem start_emits (env : Env) (iface : Iface) (netif : Netif) (callbacks : Callbacks)
    (userData : Nat) (options : Option StartOptions) {m : Sent}
    (hm : .sent m ∈ (Client.start env iface netif callbacks userData options).log) :
    (Client.start env iface netif callbacks userData options).Emits
      (Client.start env iface netif callbacks userData options).lease.state m := by
  obtain ⟨c, hempty, heq | heq⟩ := start_cases env iface netif callbacks userData options
  · rw [heq] at hm ⊢
    have hbegin : (beginExchange env (c.emit .startReboot)).log = [.startReboot] := by
      rw [show (beginExchange env (c.emit .startReboot)).log = .startReboot :: c.log from rfl, hempty]
    rw [outputStartReboot_log] at hm
    rcases Sender.requestReboot.send_log env (beginExchange env (c.emit .startReboot)) with h | h
    · rw [h, hbegin] at hm
      simp at hm
    · rw [h, hbegin] at hm
      simp only [List.mem_cons, Effect.sent.injEq, reduceCtorEq, List.not_mem_nil, or_false] at hm
      apply Client.Emits.exchange .requestReboot _ hm
      · rw [outputStartReboot_lease]
        rfl
      · rw [outputStartReboot_lease]
        rfl
      · rw [outputStartReboot_lease]
        exact .reboot
  · rw [heq] at hm ⊢
    obtain ⟨new, hlog, hnew⟩ := outputStartDiscovery_emits (c := outputStartDiscovery env c)
      (outputStartDiscovery_state env c) env c
    rw [hlog, hempty, List.append_nil] at hm
    exact (hnew _ hm).1 m rfl

/-- **Every server identifier on the wire was learned**, in every run whose OFFERs, and whose ACK to an
INIT-REBOOT, name their server: the messages of `dmdhcp_start`, of every operation and of a
`dmdhcp_release` at any moment. -/
theorem server_id_learned {env : Env} {iface : Iface} {netif : Netif} {callbacks : Callbacks}
    {userData : Nat} {options : Option StartOptions} {ops : List Operation} {c : Client}
    {history : List (Client × Operation)}
    (hrun : Lts.Run (Lts.Guarded (Lts.ofTotal (Lts.recorded Client.operate))
        fun p o => p.1.NamesServer o)
      (Client.start env iface netif callbacks userData options, []) ops (c, history)) :
    (∀ m ∈ (Client.start env iface netif callbacks userData options).log.filterMap Effect.message,
      RightMessage (Learned []) (Client.start env iface netif callbacks userData options)
        (Client.start env iface netif callbacks userData options) m) ∧
    (∀ o, ∀ m ∈ c.newMessages o, RightMessage (Learned history) c (c.operate o) m) ∧
    (∀ env', ∃ new, (releaseSection env' c).log = new ++ c.log ∧
      ∀ m ∈ new.filterMap Effect.message, RightRelease (Learned history) c m) := by
  have hstart := start_serverKnown env iface netif callbacks userData options
  have hknown : ServerKnown c history := by
    refine hrun.invariant (I := fun p => ServerKnown p.1 p.2) (fun p o p' hp hstep => ?_) hstart
    obtain ⟨rfl, hnames⟩ := hstep
    exact hp.step hnames
  refine ⟨fun m hm => ?_, fun o m hm => ?_, fun env' => ?_⟩
  · exact hstart.rightMessage (start_emits _ _ _ _ _ _ (Effect.mem_message.mp hm))
  · exact hknown.rightMessage ((c.newEffects_fitStep o _ (Effect.mem_message.mp hm)).1 m rfl)
  · obtain ⟨new, hlog, hnew⟩ := hknown.rightRelease env'
    exact ⟨new, hlog, fun m hm => hnew _ (Effect.mem_message.mp hm) m rfl⟩

instance (c : Client) (o : Operation) : Decidable (c.NamesServer o) :=
  decidable_of_iff (∀ r ∈ c.accepted o, c.lease.state = .selecting ∨ c.lease.state = .rebooting →
    r.serverId.isSome = true) Iff.rfl

/-- An acquisition whose replies name their server: the DECLINE after it names it too. -/
theorem server_id_learned_acquired :
    ∃ c history, Lts.Run (Lts.Guarded (Lts.ofTotal (Lts.recorded Client.operate))
        fun p o => p.1.NamesServer o) (startedClient, [])
        (operations ((acquireInputs ⟨10, 0, 0, 5⟩ ⟨10, 0, 0, 1⟩ 3600).take 3)) (c, history) ∧
      ∀ m ∈ c.newMessages (.event { quietEnv 7 with arpReply := true } (.retransmit false)),
        RightMessage (Learned history) c
          (c.operate (.event { quietEnv 7 with arpReply := true } (.retransmit false))) m := by
  have hrun := Lts.foldl_run_guarded (Lts.recorded Client.operate) (fun p o => p.1.NamesServer o)
    (startedClient, []) (operations ((acquireInputs ⟨10, 0, 0, 5⟩ ⟨10, 0, 0, 1⟩ 3600).take 3))
    (by decide +kernel)
  exact ⟨_, _, hrun, (server_id_learned hrun).2.1 _⟩

/-- An OFFER and an ACK with no option but the message type, and the probes after them. -/
def anonymousInputs : List (Env × Event) :=
  [(quietEnv 7, .datagram 1 (replyPayload .offer 7 ⟨10, 0, 0, 5⟩ [])),
    (quietEnv 7, .retransmit false),
    (quietEnv 7, .datagram 1 (replyPayload .ack 7 ⟨10, 0, 0, 5⟩ [])),
    (quietEnv 7, .retransmit false)]

/-- Nothing was learned, yet the REQUEST for the offer names the server `0.0.0.0`, and the renewing
REQUEST is addressed to no address at all. -/
theorem anonymous_server_sent :
    ∃ c₁ history₁ c₂ history₂,
      Lts.Run (Lts.ofTotal (Lts.recorded Client.operate)) (startedClient, [])
        (operations (anonymousInputs.take 1)) (c₁, history₁) ∧
      (c₁.newMessages (.event (quietEnv 7) (.retransmit false))).map
        (fun m => (m.msgType, m.option optServerId)) = [(.request, some [0, 0, 0, 0])] ∧
      (∀ p ∈ history₁, (p.1.accepted p.2).bind Reply.serverId = none) ∧
      Lts.Run (Lts.ofTotal (Lts.recorded Client.operate)) (startedClient, [])
        (operations anonymousInputs) (c₂, history₂) ∧
      (c₂.newMessages (.event (quietEnv 8) .renew)).map (fun m => (m.msgType, m.dst)) =
        [(.request, .none)] ∧
      (∀ p ∈ history₂, (p.1.accepted p.2).bind Reply.serverId = none) := by
  have hrun₁ := Lts.foldl_run (Lts.recorded Client.operate) (startedClient, [])
    (operations (anonymousInputs.take 1))
  have hrun₂ := Lts.foldl_run (Lts.recorded Client.operate) (startedClient, [])
    (operations anonymousInputs)
  exact ⟨_, _, _, _, hrun₁, by decide +kernel, by decide +kernel, hrun₂, by decide +kernel,
    by decide +kernel⟩

end Dmdhcp
