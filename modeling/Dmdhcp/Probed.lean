import Dmdhcp.Lib.Record
import Dmdhcp.StateMachine

/-!
# Only probed addresses are used

`lifecycleApply` has two callers.  One follows a clean probe of the very address; the other, an ACK
to a renewal, skips the probe because the address is held already, without comparing the address in
the ACK with the one held.
-/

namespace Dmdhcp

def Effect.isRestart : Effect → Bool
  | .startDiscovery => true
  | .startReboot => true
  | _ => false

/-- Since the last (re)start, `address` was probed and nobody answered. -/
def ProbedClean (address : Addr) (log : List Effect) : Bool :=
  Lts.Since Effect.isRestart (fun e => e = .probe address false) log

/-- An address is set on the interface only if it was probed. -/
def Effect.ProbedFirst : Effect → List Effect → Prop
  | .applyIpAddress address, older => ProbedClean address older = true
  | _, _ => True

/-! ### What the code adds to the record -/

/-- The record of `c'` is that of `c` with effects of kind `P` added. -/
def Adds (P : Effect → Prop) (c c' : Client) : Prop :=
  ∃ new, c'.log = new ++ c.log ∧ ∀ e ∈ new, P e

theorem Adds.of_log_eq {P : Effect → Prop} {c c' : Client} (h : c'.log = c.log) : Adds P c c' :=
  ⟨[], h, fun _ he => absurd he List.not_mem_nil⟩

theorem Adds.of_log_cons {P : Effect → Prop} {c c' : Client} {e : Effect} (h : c'.log = e :: c.log)
    (he : P e) : Adds P c c' :=
  ⟨[e], h, fun _ hx => List.mem_singleton.mp hx ▸ he⟩

theorem Adds.trans {P : Effect → Prop} {c₁ c₂ c₃ : Client} (h₁ : Adds P c₁ c₂)
    (h₂ : Adds P c₂ c₃) : Adds P c₁ c₃ := by
  obtain ⟨new₁, hlog₁, hP₁⟩ := h₁
  obtain ⟨new₂, hlog₂, hP₂⟩ := h₂
  refine ⟨new₂ ++ new₁, by rw [hlog₂, hlog₁, List.append_assoc], fun e he => ?_⟩
  rcases List.mem_append.mp he with he | he
  · exact hP₂ e he
  · exact hP₁ e he

-- Only the two records matter.
theorem Adds.log_congr {P : Effect → Prop} {c₁ c₁' c c' : Client} (h : Adds P c₁ c₁')
    (hold : c₁.log = c.log) (hnew : c'.log = c₁'.log) : Adds P c c' := by
  obtain ⟨new, hlog, hP⟩ := h
  exact ⟨new, by rw [hnew, hlog, hold], hP⟩

theorem Adds.mono {P Q : Effect → Prop} (hPQ : ∀ e, P e → Q e) {c c' : Client} (h : Adds P c c') :
    Adds Q c c' := by
  obtain ⟨new, hlog, hP⟩ := h
  exact ⟨new, hlog, fun e he => hPQ e (hP e he)⟩

/-- Sent messages and probes. -/
def Effect.isTraffic : Effect → Bool
  | .sent _ => true
  | .probe _ _ => true
  | _ => false

theorem Effect.isTraffic_not_restart {e : Effect} (h : e.isTraffic = true) :
    e.isRestart = false := by
  cases e <;> first | rfl | cases h

theorem sendMessage_adds (env : Env) (msgType : MsgType)
    (ciaddr requestedIp serverIdOption : Option Addr) (dst : Addr) (viaIface : Bool) (c : Client) :
    Adds (fun e => e.isTraffic = true) c
      (sendMessage env msgType ciaddr requestedIp serverIdOption dst viaIface c) := by
  rcases sendMessage_log env msgType ciaddr requestedIp serverIdOption dst viaIface c with h | ⟨m, h⟩
  · exact .of_log_eq h
  · exact .of_log_cons h rfl

/-- Every move adds traffic, except that discovery may be restarted while no lease is held. -/
def Effect.fitsMove (held : Bool) (e : Effect) : Prop :=
  e.isTraffic = true ∨ (held = false ∧ e = .startDiscovery)

theorem Effect.isTraffic_fitsMove (held : Bool) (e : Effect) (h : e.isTraffic = true) :
    e.fitsMove held := .inl h

-- A fresh exchange adds what its message adds.
theorem outputStartRenew_adds (env : Env) (c : Client) :
    Adds (fun e => e.isTraffic = true) c (outputStartRenew env c) := by
  have hsend : Adds (fun e => e.isTraffic = true) (beginExchange env c)
      (sendRequestRenew env (beginExchange env c)) := sendMessage_adds ..
  exact hsend.log_congr rfl (by simp [outputStartRenew, enterExchange, Client.armRetransmit])

theorem outputStartRebind_adds (env : Env) (c : Client) :
    Adds (fun e => e.isTraffic = true) c (outputStartRebind env c) := by
  have hsend : Adds (fun e => e.isTraffic = true) (beginExchange env c)
      (sendRequestRebind env (beginExchange env c)) := sendMessage_adds ..
  exact hsend.log_congr rfl (by simp [outputStartRebind, enterExchange, Client.armRetransmit])

-- A restart adds its mark and what its DISCOVER adds.
theorem outputStartDiscovery_adds {P : Effect → Prop} {env : Env} (hstart : P .startDiscovery)
    (hsend : ∀ c, Adds P c (sendDiscover env c)) (c : Client) :
    Adds P c (outputStartDiscovery env c) := by
  unfold outputStartDiscovery Client.armRetransmit
  extract_lets c₁ c₂
  have hmark : Adds P c c₁ := .of_log_cons (e := .startDiscovery) rfl hstart
  exact hmark.trans ((hsend c₁).log_congr rfl rfl)

theorem outputStartDiscovery_fitsMove (env : Env) (c : Client) :
    Adds (Effect.fitsMove false) c (outputStartDiscovery env c) := by
  apply outputStartDiscovery_adds
  · exact .inr ⟨rfl, rfl⟩
  · exact fun _ => (sendMessage_adds ..).mono (Effect.isTraffic_fitsMove false)

theorem rearmBackoff_log (env : Env) (c : Client) : (rearmBackoff env c).log = c.log := rfl

theorem handleConflict_adds (env : Env) (c : Client) :
    Adds (fun e => e.isTraffic = true) c (handleConflict env c).1 := by
  have hsend : Adds (fun e => e.isTraffic = true) c (sendDecline env c) := sendMessage_adds ..
  unfold handleConflict
  dsimp only
  split_ifs
  · exact hsend.log_congr rfl rfl
  · exact hsend.log_congr rfl rfl

theorem requestOffered_adds (env : Env) (c : Client) :
    Adds (fun e => e.isTraffic = true) c (requestOffered env c) :=
  (sendMessage_adds env .request none (some c.lease.offeredIp) (some c.lease.serverId)
    limitedBroadcast true c).log_congr rfl rfl

theorem Move.adds {env : Env} {c c' : Client} (h : Move env c c') :
    Adds (Effect.fitsMove c.lease.state.holdsValidLease) c c' := by
  have htraffic := Effect.isTraffic_fitsMove c.lease.state.holdsValidLease
  cases h with
  | stay => exact .of_log_eq rfl
  | offer r h => exact .of_log_eq rfl
  | ack r h => exact .of_log_eq rfl
  | restart h =>
    have hidle : c.lease.state.holdsValidLease = false := by
      rcases h with h | h | h <;> rw [h] <;> rfl
    rw [hidle]
    exact outputStartDiscovery_fitsMove env c
  | resend h count msgType ciaddr requestedIp serverIdOption dst viaIface =>
    have hsend := sendMessage_adds env msgType ciaddr requestedIp serverIdOption dst viaIface
      (c.update fun l => { l with retransmitCount := count })
    exact (hsend.mono htraffic).log_congr rfl (rearmBackoff_log ..)
  | conflict h harp =>
    have hprobe : Adds (fun e => e.isTraffic = true) c (c.emit (.probe c.lease.offeredIp true)) :=
      .of_log_cons rfl rfl
    exact (hprobe.trans (handleConflict_adds env _)).mono htraffic
  | request h harp =>
    have hprobe : Adds (fun e => e.isTraffic = true) c (c.emit (.probe c.lease.offeredIp false)) :=
      .of_log_cons rfl rfl
    exact (hprobe.trans (requestOffered_adds env _)).mono htraffic
  | renew h => exact (outputStartRenew_adds env c).mono htraffic
  | t1 h => exact (outputStartRenew_adds env c).mono htraffic
  | t2 h => exact (outputStartRebind_adds env c).mono htraffic

theorem commitLease_log (env : Env) (c : Client) : (commitLease env c).log = c.log ∨
    (commitLease env c).log = .applyIpAddress c.lease.offeredIp :: c.log := by
  have hbroadcast (c : Client) : (setBroadcast env c).log = c.log := by
    unfold setBroadcast
    split_ifs <;> rfl
  simp only [commitLease, lifecycleArmT1, Client.armLease, Client.update_log]
  unfold lifecycleApply
  split_ifs
  · exact .inr (by simp [installDefaultRoute_eq, hbroadcast])
  · exact .inr rfl
  · exact .inl rfl

/-! ### The invariant -/

/-- Only probed addresses were used, and the address held is one of them. -/
structure ProbedInv (c : Client) : Prop where
  record : Lts.Historically Effect.ProbedFirst c.log
  held : c.lease.state.holdsValidLease = true → ProbedClean c.lease.offeredIp c.log = true

-- Adding anything but a used address keeps the record good.
theorem Adds.record {P : Effect → Prop} (hP : ∀ e, P e → ∀ older, e.ProbedFirst older)
    {c c' : Client} (hadds : Adds P c c') (h : Lts.Historically Effect.ProbedFirst c.log) :
    Lts.Historically Effect.ProbedFirst c'.log := by
  obtain ⟨new, hlog, hnew⟩ := hadds
  rw [hlog]
  exact h.append fun e he es _ => hP e (hnew e he) es

theorem Effect.fitsMove_probedFirst {held : Bool} (e : Effect) (h : e.fitsMove held)
    (older : List Effect) : e.ProbedFirst older := by
  rcases h with h | ⟨-, rfl⟩
  · cases e <;> first | exact trivial | cases h
  · exact trivial

theorem ProbedInv.move {env : Env} {c c' : Client} (hinv : ProbedInv c) (h : Move env c c') :
    ProbedInv c' := by
  refine ⟨h.adds.record (fun e he => e.fitsMove_probedFirst he) hinv.record, fun hs => ?_⟩
  rw [h.holds] at hs
  obtain ⟨new, hlog, hnew⟩ := h.adds
  rw [(h.terms hs).offeredIp, hlog]
  refine Lts.Since.append (hinv.held hs) fun e he => ?_
  rcases hnew e he with htraffic | ⟨hidle, -⟩
  · exact Effect.isTraffic_not_restart htraffic
  · rw [hs] at hidle
    cases hidle

theorem commitLease_offeredIp (env : Env) (c : Client) :
    (commitLease env c).lease.offeredIp = c.lease.offeredIp := by
  obtain ⟨configured, route, hl⟩ := commitLease_lease env c
  rw [hl]

-- Committing a lease whose address has been probed.
theorem ProbedInv.commit {env : Env} {c : Client}
    (hrecord : Lts.Historically Effect.ProbedFirst c.log)
    (hprobed : ProbedClean c.lease.offeredIp c.log = true) : ProbedInv (commitLease env c) := by
  rcases commitLease_log env c with hlog | hlog
  · refine ⟨by rwa [hlog], fun _ => ?_⟩
    rw [commitLease_offeredIp, hlog]
    exact hprobed
  · refine ⟨?_, fun _ => ?_⟩
    · rw [hlog]
      exact ⟨hprobed, hrecord⟩
    · rw [commitLease_offeredIp, hlog]
      have hkeep : ∀ e ∈ [Effect.applyIpAddress c.lease.offeredIp], e.isRestart = false := by
        intro e he
        rw [List.mem_singleton.mp he]
        rfl
      exact Lts.Since.append hprobed hkeep

theorem lifecycleUnapply_log (env : Env) (c : Client) : (lifecycleUnapply env c).log = c.log ∨
    (lifecycleUnapply env c).log = .clearIpAddress :: c.log := by
  have hroute : (removeDefaultRoute c).log = c.log := by
    unfold removeDefaultRoute
    split <;> rfl
  unfold lifecycleUnapply
  split_ifs
  · exact .inr (congrArg _ hroute)
  · exact .inl rfl

theorem callOnExpiredOrLost_log (c : Client) : (callOnExpiredOrLost c).log = c.log ∨
    (callOnExpiredOrLost c).log = .onExpiredOrLost :: c.log := by
  unfold callOnExpiredOrLost
  split_ifs
  · exact .inr rfl
  · exact .inl rfl

-- Losing the lease clears the interface and calls the user, ...
theorem lostCallback_adds {P : Effect → Prop} {env : Env} (hclear : P .clearIpAddress)
    (hcall : P .onExpiredOrLost) (c : Client) :
    Adds P c (callOnExpiredOrLost (lostUnapply env c)) := by
  have hunapply : Adds P c (lostUnapply env c) := by
    rcases lifecycleUnapply_log env c with h | h
    · exact .of_log_eq h
    · exact .of_log_cons h hclear
  have hexpired : Adds P (lostUnapply env c) (callOnExpiredOrLost (lostUnapply env c)) := by
    rcases callOnExpiredOrLost_log (lostUnapply env c) with h | h
    · exact .of_log_eq h
    · exact .of_log_cons h hcall
  exact hunapply.trans hexpired

-- ... and starts over.
theorem lifecycleHandleLost_adds {P : Effect → Prop} {env : Env} (hclear : P .clearIpAddress)
    (hcall : P .onExpiredOrLost) (hdiscovery : ∀ c, Adds P c (outputStartDiscovery env c))
    (c : Client) : Adds P c (lifecycleHandleLost env c) :=
  (lostCallback_adds hclear hcall c).trans (hdiscovery _)

theorem lifecycleHandleLost_probedFirst (env : Env) (c : Client) :
    Adds (fun e => ∀ older, e.ProbedFirst older) c (lifecycleHandleLost env c) := by
  apply lifecycleHandleLost_adds
  · exact fun _ => trivial
  · exact fun _ => trivial
  · exact fun c => (outputStartDiscovery_fitsMove env c).mono fun e he => e.fitsMove_probedFirst he

theorem ProbedInv.lost {env : Env} {c : Client} (hinv : ProbedInv c) :
    ProbedInv (lifecycleHandleLost env c) := by
  refine ⟨(lifecycleHandleLost_probedFirst env c).record (fun _ he => he) hinv.record, fun hs => ?_⟩
  rw [lifecycleHandleLost_state] at hs
  cases hs

-- A callback or a disarmed timer changes neither the address nor the record of uses.
theorem ProbedInv.congr {c c' : Client} (hinv : ProbedInv c)
    (hstate : c'.lease.state = c.lease.state) (hip : c'.lease.offeredIp = c.lease.offeredIp)
    (hadds : Adds (fun e => e.isRestart = false ∧ ∀ older, e.ProbedFirst older) c c') :
    ProbedInv c' := by
  refine ⟨hadds.record (fun _ he => he.2) hinv.record, fun hs => ?_⟩
  -- The probe that counted still does: nothing added since is a restart.
  obtain ⟨new, hlog, hnew⟩ := hadds
  rw [hip, hlog]
  exact Lts.Since.append (hinv.held (hstate ▸ hs)) fun e he => (hnew e he).1

theorem ProbedInv.onBound {isRenewal : Bool} {c : Client} (hinv : ProbedInv c) :
    ProbedInv (callOnBound isRenewal c) := by
  refine hinv.congr (by rw [callOnBound_lease]) (by rw [callOnBound_lease]) ?_
  unfold callOnBound
  split_ifs
  · exact .of_log_cons rfl ⟨rfl, fun _ => trivial⟩
  · exact .of_log_eq rfl

theorem ProbedInv.onError {error : Errno} {c : Client} (hinv : ProbedInv c) :
    ProbedInv (callOnError error c) := by
  refine hinv.congr (by rw [callOnError_lease]) (by rw [callOnError_lease]) ?_
  unfold callOnError
  split_ifs
  · exact .of_log_cons rfl ⟨rfl, fun _ => trivial⟩
  · exact .of_log_eq rfl

theorem ProbedInv.outcome {env : Env} {ev : Event} {c c' : Client} (hinv : ProbedInv c)
    (hsame : ∀ r ∈ c.renewalAck ev, r.msg.yiaddr = c.lease.offeredIp)
    (h : Outcome env ev c c') : ProbedInv c' := by
  cases h with
  | move h => exact hinv.move h
  | failed error h => exact (hinv.move h).onError
  | commit h harp =>
    -- The probe recorded just before is the one that counts.
    have hprobed : ProbedClean c.lease.offeredIp (.probe c.lease.offeredIp false :: c.log) = true := by
      simp [ProbedClean, Lts.Since]
    have hcommit : ProbedInv (commitProbed env c) :=
      ProbedInv.commit ⟨trivial, hinv.record⟩ hprobed
    exact hcommit.onBound
  | renewal r h =>
    have hheld : c.lease.state.holdsValidLease = true :=
      State.holdsValidLease_iff.mpr (.inr (Client.renewalAck_state h))
    have hprobed : ProbedClean r.msg.yiaddr c.log = true := by
      rw [hsame r h]
      exact hinv.held hheld
    have hcommit : ProbedInv (acceptRenewal env r c) := ProbedInv.commit hinv.record hprobed
    exact hcommit.onBound
  | lost h => exact hinv.lost

/-- Every ACK to a renewal carries the address the lease holds. -/
def AddressKept (c : Client) (input : Env × Event) : Prop :=
  ∀ r ∈ c.renewalAck input.2, r.msg.yiaddr = c.lease.offeredIp

instance (c : Client) (input : Env × Event) : Decidable (AddressKept c input) :=
  inferInstanceAs (Decidable (∀ r ∈ _, _))

theorem ProbedInv.step {env : Env} {ev : Event} {c : Client} (hinv : ProbedInv c)
    (hkept : AddressKept c (env, ev)) : ProbedInv (c.step (env, ev)) := by
  have hbefore : ProbedInv (c.before ev) := by
    obtain ⟨-, -, hlog, rt, lt, hlease⟩ := c.before_same ev
    exact hinv.congr (by rw [hlease]) (by rw [hlease]) (.of_log_eq hlog)
  refine hbefore.outcome (fun r hr => ?_) (c.step_outcome env ev)
  have hsame := Client.before_of_renewalAck hr
  rw [hsame] at hr ⊢
  exact hkept r hr

theorem start_probedInv (env : Env) (iface : Iface) (netif : Netif) (callbacks : Callbacks)
    (userData : Nat) (options : Option StartOptions) :
    ProbedInv (Client.start env iface netif callbacks userData options) := by
  unfold Client.start startSection
  split
  · rename_i a
    set c := (Client.create iface netif callbacks userData _).update
      fun l => { l with offeredIp := .v4 a }
    have hsend : Adds (fun e => e.isTraffic = true) (beginExchange env (c.emit .startReboot))
        (sendRequestReboot env (beginExchange env (c.emit .startReboot))) := sendMessage_adds ..
    have hlog : (outputStartReboot env c).log =
        (sendRequestReboot env (beginExchange env (c.emit .startReboot))).log := by
      simp [outputStartReboot, enterExchange, Client.armRetransmit]
    have hadds := (hsend.mono (Effect.isTraffic_fitsMove true)).log_congr rfl hlog
    refine ⟨hadds.record (fun e he => e.fitsMove_probedFirst he) ⟨trivial, trivial⟩, fun hs => ?_⟩
    rw [outputStartReboot_lease] at hs
    cases hs
  · refine ⟨(outputStartDiscovery_fitsMove env _).record (fun e he => e.fitsMove_probedFirst he) trivial,
      fun hs => ?_⟩
    rw [outputStartDiscovery_lease] at hs
    cases hs

/-- **No unprobed address is used.**  In every run whose renewal ACKs carry the address held, each
address set on the interface was probed before, after the last (re)start, and nobody answered. -/
theorem applied_address_probed (env₀ : Env) (iface : Iface) (netif : Netif) (callbacks : Callbacks)
    (userData : Nat) (options : Option StartOptions) (inputs : List (Env × Event)) (c : Client)
    (hrun : Lts.Run (Lts.Guarded (Lts.ofTotal Client.step) AddressKept)
      (Client.start env₀ iface netif callbacks userData options) inputs c)
    (newer older : List Effect) (address : Addr)
    (happly : c.log = newer ++ .applyIpAddress address :: older) :
    ∃ after before, older = after ++ .probe address false :: before ∧
      ∀ e ∈ after, e ≠ .startDiscovery ∧ e ≠ .startReboot := by
  have hinv : ProbedInv c := by
    refine hrun.invariant (fun s i s' hs hstep => ?_)
      (start_probedInv env₀ iface netif callbacks userData options)
    obtain ⟨rfl, hkept⟩ := hstep
    exact hs.step hkept
  have hprobed : ProbedClean address older = true := by
    have hrecord := hinv.record
    rw [happly] at hrecord
    exact hrecord.at
  obtain ⟨after, e, before, rfl, he, hafter⟩ := Lts.Since.exists hprobed
  obtain rfl := of_decide_eq_true he
  refine ⟨after, before, rfl, fun e he => ?_⟩
  have hno := hafter e he
  constructor <;> rintro rfl <;> cases hno

/-- The theorem at a renewal that keeps the address: two uses, one probe for both. -/
theorem applied_address_probed_renewed :
    ∃ c newer older, Lts.Run (Lts.Guarded (Lts.ofTotal Client.step) AddressKept) startedClient
        (acquireInputs ⟨10, 0, 0, 5⟩ ⟨10, 0, 0, 1⟩ 3600 ++
          renewInputs .reuse ⟨10, 0, 0, 5⟩ ⟨10, 0, 0, 1⟩ 3600) c ∧
      c.log = newer ++ .applyIpAddress (.v4 ⟨10, 0, 0, 5⟩) :: older ∧
      ∃ after before, older = after ++ .probe (.v4 ⟨10, 0, 0, 5⟩) false :: before ∧
        ∀ e ∈ after, e ≠ .startDiscovery ∧ e ≠ .startReboot := by
  have hrun := Lts.foldl_run_guarded Client.step AddressKept startedClient
    (acquireInputs ⟨10, 0, 0, 5⟩ ⟨10, 0, 0, 1⟩ 3600 ++
      renewInputs .reuse ⟨10, 0, 0, 5⟩ ⟨10, 0, 0, 1⟩ 3600) (by decide +kernel)
  set c := (acquireInputs ⟨10, 0, 0, 5⟩ ⟨10, 0, 0, 1⟩ 3600 ++
    renewInputs .reuse ⟨10, 0, 0, 5⟩ ⟨10, 0, 0, 1⟩ 3600).foldl Client.step startedClient with hc
  have hlog : c.log = c.log.take 1 ++ .applyIpAddress (.v4 ⟨10, 0, 0, 5⟩) :: c.log.drop 2 := by
    rw [hc]
    decide +kernel
  exact ⟨c, _, _, hrun, hlog, applied_address_probed _ _ blankNetif _ _ _ _ _ hrun _ _ _ hlog⟩

/-- The server moves the client to another address in the ACK to a renewal: it is set on the
interface and was never probed. -/
theorem unprobed_address_applied :
    ∃ c, Lts.Run (Lts.ofTotal Client.step) startedClient
        (acquireInputs ⟨10, 0, 0, 5⟩ ⟨10, 0, 0, 1⟩ 3600 ++
          renewInputs .reuse ⟨10, 0, 0, 6⟩ ⟨10, 0, 0, 1⟩ 3600) c ∧
      c.netif.ipAddress = .v4 ⟨10, 0, 0, 6⟩ ∧
      .applyIpAddress (.v4 ⟨10, 0, 0, 6⟩) ∈ c.log ∧
      .probe (.v4 ⟨10, 0, 0, 6⟩) false ∉ c.log :=
  ⟨_, Lts.foldl_run _ _ _, by decide +kernel, by decide +kernel, by decide +kernel⟩

end Dmdhcp
