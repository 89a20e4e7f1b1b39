import Dmdhcp.ServerId

/-!
# What `dmdhcp_release` sends

The decision is taken from the address fields: a RELEASE goes out if `offered_ip` and `server_id` are
IPv4 addresses.  Over the reachable states both are known from the OFFER on, so that the fields say
less than the state does.
-/

namespace Dmdhcp

/-! ## 1. The messages of a release -/

/-- The messages `dmdhcp_release` sends. -/
def Client.releaseMessages (c : Client) (env : Env) : List Sent :=
  ((releaseSection env c).log.take
    ((releaseSection env c).log.length - c.log.length)).filterMap Effect.message

theorem Client.releaseMessages_eq {c : Client} {env : Env} {new : List Effect}
    (h : (releaseSection env c).log = new ++ c.log) :
    c.releaseMessages env = new.filterMap Effect.message := by
  rw [Client.releaseMessages, h, List.length_append, Nat.add_sub_cancel, List.take_left]

-- De-configuring the interface sends nothing.
theorem stopSection_log (env : Env) (c : Client) : ∃ new : List Effect,
    (stopSection env c).log = new ++ c.log ∧ new.filterMap Effect.message = [] := by
  unfold stopSection
  split_ifs
  · rcases lifecycleUnapply_log env c with h | h
    · exact ⟨[], h, rfl⟩
    · exact ⟨[.clearIpAddress], h, rfl⟩
  · exact ⟨[], rfl, rfl⟩

-- One RELEASE if both addresses are known and there is a buffer for it, whatever the state.
theorem Client.releaseMessages_cases (c : Client) (env : Env) : c.releaseMessages env =
    if c.lease.offeredIp.isV4 = true ∧ c.lease.serverId.isV4 = true ∧ env.sendBuffer = true then
      [Sender.release.message c]
    else [] := by
  by_cases hboth : c.lease.offeredIp.isV4 = true ∧ c.lease.serverId.isV4 = true
  · have hrelease : releaseSection env c = stopSection env (Sender.release.send env c) := by
      unfold releaseSection
      rw [if_pos hboth, outputSendRelease_eq]
    obtain ⟨new, hlog, hnone⟩ := stopSection_log env (Sender.release.send env c)
    rw [← hrelease, Sender.release.send_eq env c (isV6_of_isV4 hboth.1)] at hlog
    by_cases hbuffer : env.sendBuffer = true
    · rw [if_pos hbuffer, Client.emit_log] at hlog
      rw [if_pos ⟨hboth.1, hboth.2, hbuffer⟩]
      have hnew : (releaseSection env c).log =
          (new ++ [.sent (Sender.release.message c)]) ++ c.log := by
        rw [hlog, List.append_assoc]
        rfl
      rw [Client.releaseMessages_eq hnew, List.filterMap_append, hnone]
      rfl
    · rw [if_neg hbuffer] at hlog
      rw [if_neg fun h => hbuffer h.2.2, Client.releaseMessages_eq hlog, hnone]
  · have hrelease : releaseSection env c = stopSection env c := by
      unfold releaseSection
      rw [if_neg hboth]
    obtain ⟨new, hlog, hnone⟩ := stopSection_log env c
    rw [← hrelease] at hlog
    rw [if_neg fun h => hboth ⟨h.1, h.2.1⟩, Client.releaseMessages_eq hlog, hnone]

/-! ## 2. What is known in a reachable state -/

/-- The address is known outside `selecting`, and no server is while one is looked for. -/
structure AddressesKnown (c : Client) : Prop where
  started : c.lease.state ≠ .init ∧ c.lease.state ≠ .initReboot
  blank : c.lease.state = .selecting ∨ c.lease.state = .rebooting → c.lease.serverId = .none
  offered : c.lease.state ≠ .selecting → c.lease.offeredIp.isV4 = true

theorem start_addressesKnown (env : Env) (iface : Iface) (netif : Netif) (callbacks : Callbacks)
    (userData : Nat) (options : Option StartOptions) :
    AddressesKnown (Client.start env iface netif callbacks userData options) := by
  have hknown := start_serverKnown env iface netif callbacks userData options
  rcases (start_fresh env iface netif callbacks userData options).state with hs | hs
  · exact ⟨by rw [hs]; decide, hknown.blank, fun h => absurd hs h⟩
  · exact ⟨by rw [hs]; decide, hknown.blank, fun _ => hknown.offered (.inr hs)⟩

-- Nothing leads back to the states before `dmdhcp_start`.
theorem State.MayBecome.started {s s' : State} (h : s.MayBecome s')
    (hs : s ≠ .init ∧ s ≠ .initReboot) : s' ≠ .init ∧ s' ≠ .initReboot := by
  rcases h with rfl | h
  · exact hs
  · constructor
    · rintro rfl
      cases s <;> simp [State.successors] at h
    · rintro rfl
      cases s <;> simp [State.successors] at h

theorem AddressesKnown.step {c : Client} (h : AddressesKnown c) (o : Operation) :
    AddressesKnown (c.operate o) := by
  cases o with
  | setCallbacks callbacks userData => exact ⟨h.started, h.blank, h.offered⟩
  | event env ev =>
    have hmay : c.lease.state.MayBecome (c.operate (.event env ev)).lease.state :=
      c.step_mayBecome env ev
    refine ⟨hmay.started h.started, ?_, ?_⟩
    · intro hs
      cases c.operate_serverStep env ev with
      | kept hid hip huses hblank =>
        rw [hid]
        exact h.blank (by rw [hblank hs]; exact hs)
      | accepted r haccepted hid hip hs' =>
        rcases hs' with ⟨hs', -⟩ | ⟨hs', -⟩ | ⟨hs', -⟩ <;> rw [hs'] at hs <;> rcases hs with hs | hs <;>
          cases hs
      | forgotten hid hip hs' => exact hid
    · intro hs
      cases c.operate_serverStep env ev with
      | kept hid hip huses hblank =>
        rw [hip]
        apply h.offered
        -- `selecting` is left with an OFFER only.
        intro hselecting
        rw [hselecting] at hmay huses
        rcases hmay with hsame | hnext
        · exact hs hsame
        · rw [List.mem_singleton.mp hnext] at huses
          cases huses rfl
      | accepted r haccepted hid hip hs' =>
        rw [hip]
        exact r.yiaddrIsV4
      | forgotten hid hip hs' => exact absurd hs' hs

/-! ## 3. Released and held -/

/-- The RELEASE of the lease of `c`, as the server reads it. -/
structure ReleasesLease (c : Client) (m : Sent) : Prop where
  msgType : m.option optMsgType = some [MsgType.release.toByte]
  ciaddr : m.parsedCiaddr = some c.lease.offeredIp
  serverId : m.Carries optServerId c.lease.serverId
  dst : m.dst = c.lease.serverId

/-- A lease that is held, and whose server is known, is released by one message; nothing else is
released. -/
def Client.ReleasesHeld (c : Client) (env : Env) : Prop :=
  if c.lease.state.holdsValidLease = true ∧ c.lease.serverId.isV4 = true then
    ∃ m, c.releaseMessages env = [m] ∧ ReleasesLease c m
  else c.releaseMessages env = []

/-- The states with an address that was offered, is asked for, probed or declined, but not held. -/
def State.pending : State → Bool
  | .checkingOffer => true
  | .requesting => true
  | .checkingAck => true
  | .declining => true
  | .failed => true
  | _ => false

theorem release_releasesLease {c : Client} (hip : c.lease.offeredIp.isV4 = true)
    (hserver : c.lease.serverId.isV4 = true) : ReleasesLease c (Sender.release.message c) := by
  refine ⟨Sender.message_msgType _ c, ?_, ⟨hserver, ?_⟩, rfl⟩
  · rw [Sender.message_ciaddr, ← Addr.eq_v4_raw hip]
    rfl
  · rw [Sender.message_serverId]
    rfl

-- Where a server is known, an address is, and a message goes out if there is a buffer for it.
theorem AddressesKnown.releasesHeld_iff {c : Client} (h : AddressesKnown c) (env : Env) :
    c.ReleasesHeld env ↔ (c.lease.serverId.isV4 = true →
      (c.lease.state.holdsValidLease = true → env.sendBuffer = true) ∧
      (c.lease.state.pending = true → env.sendBuffer = false)) := by
  have hmessages := c.releaseMessages_cases env
  unfold Client.ReleasesHeld
  by_cases hserver : c.lease.serverId.isV4 = true
  · have hblank : ¬(c.lease.state = .selecting ∨ c.lease.state = .rebooting) := by
      intro hs
      rw [h.blank hs] at hserver
      cases hserver
    have hip := h.offered fun hs => hblank (.inl hs)
    by_cases hheld : c.lease.state.holdsValidLease = true
    · have hpending : c.lease.state.pending ≠ true := by
        rcases State.holdsValidLease_iff.mp hheld with hs | hs | hs <;> rw [hs] <;> decide
      rw [if_pos ⟨hheld, hserver⟩]
      constructor
      · rintro ⟨m, hm, -⟩ -
        refine ⟨fun _ => ?_, fun hp => absurd hp hpending⟩
        by_contra hbuffer
        rw [hmessages, if_neg fun hall => hbuffer hall.2.2] at hm
        cases hm
      · intro hok
        rw [hmessages, if_pos ⟨hip, hserver, (hok hserver).1 hheld⟩]
        exact ⟨_, rfl, release_releasesLease hip hserver⟩
    · have hpending : c.lease.state.pending = true := by
        have hstarted := h.started
        cases hs : c.lease.state <;> rw [hs] at hheld hblank hstarted <;> simp_all [State.pending,
          State.holdsValidLease]
      rw [if_neg fun hall => hheld hall.1]
      constructor
      · intro hnone _
        refine ⟨fun hh => absurd hh hheld, fun _ => ?_⟩
        by_contra hbuffer
        rw [hmessages, if_pos ⟨hip, hserver, Bool.not_eq_false _ ▸ hbuffer⟩] at hnone
        cases hnone
      · intro hok
        have hbuffer := (hok hserver).2 hpending
        rw [hmessages, if_neg]
        intro hall
        rw [hbuffer] at hall
        cases hall.2.2
  · rw [if_neg fun hall => hserver hall.2, hmessages, if_neg fun hall => hserver hall.2.1]
    exact iff_of_true rfl fun hs => absurd hs hserver

/-- **When `dmdhcp_release` releases what is held and nothing else.**  In every reachable state: if a
server identifier is known, then a held lease has a buffer for the message, and an address that is
not held has none. -/
theorem release_held_iff {env : Env} {iface : Iface} {netif : Netif} {callbacks : Callbacks}
    {userData : Nat} {options : Option StartOptions} {ops : List Operation} {c : Client}
    (hrun : Lts.Run (Lts.ofTotal Client.operate)
      (Client.start env iface netif callbacks userData options) ops c) (env' : Env) :
    c.ReleasesHeld env' ↔ (c.lease.serverId.isV4 = true →
      (c.lease.state.holdsValidLease = true → env'.sendBuffer = true) ∧
      (c.lease.state.pending = true → env'.sendBuffer = false)) := by
  have hknown : AddressesKnown c := by
    refine hrun.invariant (fun c o c' h hstep => ?_)
      (start_addressesKnown env iface netif callbacks userData options)
    obtain rfl : c.operate o = c' := hstep
    exact h.step o
  exact hknown.releasesHeld_iff env'

/-- A lease that was acquired is released by one message. -/
theorem release_held_iff_acquired :
    ∃ c, Lts.Run (Lts.ofTotal Client.operate) startedClient
        (operations (acquireInputs ⟨10, 0, 0, 5⟩ ⟨10, 0, 0, 1⟩ 3600)) c ∧
      c.lease.state = .bound ∧ c.lease.serverId.isV4 = true ∧ c.ReleasesHeld (quietEnv 9) := by
  obtain ⟨c, hrun, hbound, hserver⟩ : ∃ c, Lts.Run (Lts.ofTotal Client.operate) startedClient
      (operations (acquireInputs ⟨10, 0, 0, 5⟩ ⟨10, 0, 0, 1⟩ 3600)) c ∧
      c.lease.state = .bound ∧ c.lease.serverId.isV4 = true :=
    ⟨_, Lts.foldl_run Client.operate startedClient _, by decide +kernel, by decide +kernel⟩
  refine ⟨c, hrun, hbound, hserver, (release_held_iff hrun (quietEnv 9)).mpr fun _ => ?_⟩
  rw [hbound]
  exact ⟨fun _ => rfl, fun hp => nomatch hp⟩

/-- An OFFER, and a probe that finds the address in use. -/
def declinedInputs : List (Env × Event) :=
  (acquireInputs ⟨10, 0, 0, 5⟩ ⟨10, 0, 0, 1⟩ 3600).take 1 ++
    [({ quietEnv 7 with arpReply := true }, .retransmit false)]

/-- An address that was declined a moment ago is released. -/
theorem declined_address_released :
    ∃ c, Lts.Run (Lts.ofTotal Client.operate) startedClient (operations declinedInputs) c ∧
      c.lease.state = .declining ∧
      (c.releaseMessages (quietEnv 9)).map Sent.msgType = [.release] ∧
      ¬c.ReleasesHeld (quietEnv 9) := by
  obtain ⟨c, hrun, hdeclining, hsent⟩ : ∃ c, Lts.Run (Lts.ofTotal Client.operate) startedClient
      (operations declinedInputs) c ∧ c.lease.state = .declining ∧
      (c.releaseMessages (quietEnv 9)).map Sent.msgType = [.release] :=
    ⟨_, Lts.foldl_run Client.operate startedClient _, by decide +kernel, by decide +kernel⟩
  refine ⟨c, hrun, hdeclining, hsent, fun hreleases => ?_⟩
  have hheld : ¬(c.lease.state.holdsValidLease = true ∧ c.lease.serverId.isV4 = true) := by
    rw [hdeclining]
    exact fun h => nomatch h.1
  unfold Client.ReleasesHeld at hreleases
  rw [if_neg hheld] at hreleases
  rw [hreleases] at hsent
  cases hsent

end Dmdhcp
