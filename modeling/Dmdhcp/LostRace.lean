import Dmdhcp.Machine

/-!
# A lost lease and the interface

`dmdhcp_lifecycle_handle_lost` unapplies the lease in one locked section and restarts discovery in
another one.  In between the state is still `renewing` or `rebinding`, so an ACK that arrives then
applies the lease again, and the restart leaves the interface configured in `selecting`.
-/

namespace Dmdhcp

def Section.isLostRestart : Section → Bool
  | .lostRestart _ => true
  | _ => false

/-- Some thread is between the two locked sections of `dmdhcp_lifecycle_handle_lost`. -/
def LostPending (m : Machine) : Prop := ∃ t ∈ m.threads, ∃ x ∈ t.todo, x.isLostRestart = true

instance (m : Machine) : Decidable (LostPending m) :=
  inferInstanceAs (Decidable (∃ t ∈ m.threads, ∃ x ∈ t.todo, _))

/-- No lease is applied between the two locked sections of the lost path. -/
def LostUndisturbed (m : Machine) : MachineEvent → Prop
  | .advance i env _ => ∀ x ∈ m.next i, x.applies env m.shared.client = true → ¬LostPending m
  | _ => True

instance (m : Machine) : (e : MachineEvent) → Decidable (LostUndisturbed m e)
  | .advance _ _ _ => inferInstanceAs (Decidable (∀ x ∈ _, _))
  | .datagram _ _ => inferInstanceAs (Decidable True)
  | .fire _ _ => inferInstanceAs (Decidable True)
  | .renew => inferInstanceAs (Decidable True)
  | .teardown _ => inferInstanceAs (Decidable True)

/-- The interface is configured only for a held lease, and not at all in the gap. -/
structure LostInv (m : Machine) : Prop where
  configured : m.shared.client.lease.ifaceConfigured = true →
    m.shared.client.lease.state.holdsValidLease = true
  pending : LostPending m → m.shared.client.lease.ifaceConfigured = false

theorem lifecycleUnapply_ifaceConfigured (env : Env) (c : Client) :
    (lifecycleUnapply env c).lease.ifaceConfigured = false := by
  obtain ⟨route, h⟩ := lifecycleUnapply_lease env c
  rw [h]

theorem teardownSection_ifaceConfigured (env : Env) (how : Teardown) (c : Client) :
    (teardownSection env how c).lease.ifaceConfigured = false := by
  obtain ⟨route, h⟩ := teardownSection_lease env how c
  rw [h]

-- A section that leaves the interface configured has applied the lease, or it found the interface
-- configured and kept the lease, unless it was the restart of the lost path.
theorem Change.configured {env : Env} {c c' : Client} {x : Section} (h : Change env c x c')
    (hc' : c'.lease.ifaceConfigured = true) :
    (x.applies env c = true ∧ c'.lease.state.holdsValidLease = true) ∨
      (c.lease.ifaceConfigured = true ∧
        (c'.lease.state.holdsValidLease = c.lease.state.holdsValidLease ∨
          x.isLostRestart = true)) := by
  cases h with
  | move h => exact .inr ⟨h.frame.ifaceConfigured ▸ hc', .inl h.holds⟩
  | commit h harp =>
    refine .inl ⟨decide_eq_true ⟨h, harp⟩, ?_⟩
    rw [commitProbed, commitLease_state]
    rfl
  -- This is the case that does the damage while a restart is pending.
  | renewal r h =>
    refine .inl ⟨decide_eq_true ⟨rfl, h⟩, ?_⟩
    rw [acceptRenewal, commitLease_state]
    rfl
  | unapply nak =>
    have hno : (lostUnapply env c).lease.ifaceConfigured = false :=
      lifecycleUnapply_ifaceConfigured env c
    rw [hno] at hc'
    cases hc'
  | restart nak =>
    rw [lostRestart, outputStartDiscovery_lease] at hc'
    exact .inr ⟨hc', .inr rfl⟩
  | teardown how =>
    rw [teardownSection_ifaceConfigured] at hc'
    cases hc'
  | record e => exact .inr ⟨hc', .inl rfl⟩
  | disarm t => cases t <;> exact .inr ⟨hc', .inl rfl⟩

-- Only the first locked section of the lost path leads to the second.
theorem LostPending.before {m m' : Machine} {i : Nat} {env : Env} {reentry : Option Teardown}
    {kind : Origin} {x : Section} (hpending : LostPending m')
    (hadv : m.Advanced i kind x (x.exec env reentry m.shared kind).2 m') :
    LostPending m ∨ ∃ nak, x = .lostUnapply nak := by
  obtain ⟨t, ht, y, hy, hrestart⟩ := hpending
  rcases hadv.mem_todo ht hy with hnew | ⟨t', ht', -, hy'⟩
  · have hleaves := Section.exec_leaves hnew
    cases hleaves with
    | lostRestart nak => exact .inr ⟨nak, rfl⟩
    | _ => cases hrestart
  · exact .inl ⟨t', ht', y, hy', hrestart⟩

theorem LostInv.step {m m' : Machine} {e : MachineEvent} (hinv : LostInv m)
    (hstep : m.step e = some m') (hok : LostUndisturbed m e) : LostInv m' := by
  rcases Machine.step_cases hstep with
    ⟨c, hsame, hshared, hthreads⟩ | ⟨i, env, reentry, kind, x, rfl, -, hnext, hshared, hadv⟩
  · obtain ⟨-, -, -, rt, lt, hlease⟩ := hsame
    -- A thread that has just started has not unapplied anything yet.
    refine ⟨?_, fun hpending => ?_⟩
    · rw [hshared, hlease]
      exact hinv.configured
    · rw [hshared, hlease]
      refine hinv.pending ?_
      obtain ⟨t, ht, y, hy, hrestart⟩ := hpending
      rcases hthreads t ht with hold | hentry
      · exact ⟨t, hold, y, hy, hrestart⟩
      · cases hentry <;> rw [List.mem_singleton.mp hy] at hrestart <;> cases hrestart
  · have hchange := Section.exec_change env reentry m.shared kind x
    rw [← hshared] at hchange
    refine ⟨fun hc' => ?_, fun hpending => ?_⟩
    · rcases hchange.configured hc' with ⟨-, hheld⟩ | ⟨hc, hkeeps | hrestart⟩
      · exact hheld
      · rw [hkeeps]
        exact hinv.configured hc
      · -- The restart found the interface configured: excluded by `pending`.
        obtain ⟨t, ht, -, hx⟩ := hadv.mem
        rw [hinv.pending ⟨t, ht, x, hx, hrestart⟩] at hc
        cases hc
    -- A pending restart was pending before, or this step is the unapply itself.
    · by_contra hc
      have hc' := Bool.not_eq_false _ ▸ hc
      rcases hpending.before hadv with hbefore | ⟨nak, rfl⟩
      · rcases hchange.configured hc' with ⟨happlies, -⟩ | ⟨hconf, -⟩
        · exact hok x hnext happlies hbefore
        · rw [hinv.pending hbefore] at hconf
          cases hconf
      · rw [hshared] at hc
        exact hc (lifecycleUnapply_ifaceConfigured env _)

theorem start_lostInv (env : Env) (iface : Iface) (netif : Netif) (callbacks : Callbacks)
    (userData : Nat) (options : Option StartOptions) :
    LostInv (.start (Client.start env iface netif callbacks userData options)) := by
  refine ⟨fun hc => ?_, fun hpending => ?_⟩
  · rw [Machine.start, (start_fresh env iface netif callbacks userData options).ifaceConfigured] at hc
    cases hc
  · obtain ⟨t, ht, -⟩ := hpending
    cases ht

/-- **A configured interface has a lease.**  In every interleaving in which no lease is applied
between the two locked sections of a lost path, the interface is configured only in `bound`,
`renewing` and `rebinding`. -/
theorem configured_implies_held (env₀ : Env) (iface : Iface) (netif : Netif)
    (callbacks : Callbacks) (userData : Nat) (options : Option StartOptions)
    (events : List MachineEvent) (m : Machine)
    (hrun : Lts.Run (Lts.Guarded (Lts.ofPartial Machine.step) LostUndisturbed)
      (.start (Client.start env₀ iface netif callbacks userData options)) events m)
    (hconf : m.shared.client.lease.ifaceConfigured = true) :
    m.shared.client.lease.state = .bound ∨ m.shared.client.lease.state = .renewing ∨
      m.shared.client.lease.state = .rebinding := by
  have hinv : LostInv m := hrun.invariant (fun _ _ _ hs hstep => hs.step hstep.1 hstep.2)
    (start_lostInv env₀ iface netif callbacks userData options)
  exact State.holdsValidLease_iff.mp (hinv.configured hconf)

/-- T1 and T2 pass and the lease expires, undisturbed; then it is acquired again, with xid 10. -/
def reacquiredEvents : List MachineEvent :=
  boundEvents ++ [.fire .lease false] ++ runSections 4 2 (quietEnv 8) ++
    [.fire .lease false] ++ runSections 5 2 (quietEnv 9) ++
    [.fire .lease false] ++ runSections 6 5 (quietEnv 10) ++
    [serverMessage .offer 10] ++ runSections 7 2 (quietEnv 10) ++
    [.fire .retransmit false] ++ runSections 8 2 (quietEnv 10) ++
    [serverMessage .ack 10] ++ runSections 9 2 (quietEnv 10) ++
    [.fire .retransmit false] ++ runSections 10 4 (quietEnv 10)

/-- The theorem at that run, through the lost path and back. -/
theorem configured_implies_held_reacquired :
    ∃ m, Lts.Run (Lts.Guarded (Lts.ofPartial Machine.step) LostUndisturbed) (.start startedClient)
        reacquiredEvents m ∧ .onExpiredOrLost ∈ m.shared.client.log ∧
      m.shared.client.lease.ifaceConfigured = true ∧
      (m.shared.client.lease.state = .bound ∨ m.shared.client.lease.state = .renewing ∨
        m.shared.client.lease.state = .rebinding) := by
  obtain ⟨m, hrun, hresult⟩ := Lts.Passes.run Machine.step LostUndisturbed
    (.start startedClient) reacquiredEvents
    (fun m => (decide (.onExpiredOrLost ∈ m.shared.client.log),
      m.shared.client.lease.ifaceConfigured)) (true, true)
    (by decide +kernel) (by decide +kernel)
  obtain ⟨hlost, hconf⟩ := Prod.mk.inj hresult
  exact ⟨m, hrun, of_decide_eq_true hlost, hconf,
    configured_implies_held _ _ blankNetif _ _ _ _ _ hrun hconf⟩

/-- Every interface call of the step succeeds. -/
def MachineEvent.SetsSucceed : MachineEvent → Prop
  | .advance _ env _ => env.SetsSucceed
  | _ => True

instance : (e : MachineEvent) → Decidable e.SetsSucceed
  | .advance _ env _ => inferInstanceAs (Decidable env.SetsSucceed)
  | .datagram _ _ => inferInstanceAs (Decidable True)
  | .fire _ _ => inferInstanceAs (Decidable True)
  | .renew => inferInstanceAs (Decidable True)
  | .teardown _ => inferInstanceAs (Decidable True)

/-- T1 and T2 pass and the lease expires; the timer thread has unapplied it when the ACK to the
rebinding REQUEST arrives, and restarts discovery after it. -/
def lostRaceEvents : List MachineEvent :=
  boundEvents ++ [.fire .lease false] ++ runSections 4 2 (quietEnv 8) ++
    [.fire .lease false] ++ runSections 5 2 (quietEnv 9) ++
    [.fire .lease false] ++ runSections 6 3 (quietEnv 10) ++
    [serverMessage .ack 9] ++ runSections 7 3 (quietEnv 10) ++ runSections 6 2 (quietEnv 10)

/-- The interface is left configured while the lease is back in `selecting`. -/
theorem lost_lease_left_configured :
    ∃ m, Lts.Run (Lts.Guarded (Lts.ofPartial Machine.step) fun _ e => e.SetsSucceed)
        (.start startedClient) lostRaceEvents m ∧
      m.shared.client.lease.state = .selecting ∧
      m.shared.client.lease.ifaceConfigured = true ∧
      m.shared.client.netif.ipAddress = .v4 ⟨10, 0, 0, 5⟩ := by
  obtain ⟨m, hrun, hresult⟩ := Lts.Passes.run Machine.step
    (fun _ e => e.SetsSucceed) (.start startedClient) lostRaceEvents
    (fun m => (m.shared.client.lease.state, m.shared.client.lease.ifaceConfigured,
      m.shared.client.netif.ipAddress)) (.selecting, true, .v4 ⟨10, 0, 0, 5⟩)
    (by decide +kernel) (by decide +kernel)
  obtain ⟨hstate, hrest⟩ := Prod.mk.inj hresult
  obtain ⟨hconf, hip⟩ := Prod.mk.inj hrest
  exact ⟨m, hrun, hstate, hconf, hip⟩

end Dmdhcp
