import Dmdhcp.Deadlines
import Dmdhcp.Provider

/-!
# The terms of a lease

What an ACK makes of a lease: the two renewal times, the periods programmed from them, and the
fields that are taken from the ACK alone.
-/

namespace Dmdhcp

/-! ## 1. T1 and T2 -/

/-- The value of a four-byte option. -/
def u32Option (options : List UInt8) (code : UInt8) : Option UInt32 :=
  (optionsFind options code).toOption.bind fun opt => opt.getU32.toOption

/-- No option of the code is found. -/
def Absent (options : List UInt8) (code : UInt8) : Prop :=
  ∃ e, optionsFind options code = .error e

/-- An option of the code is found, and its length is not that of a 32-bit value. -/
def WrongLength (options : List UInt8) (code : UInt8) : Prop :=
  ∃ opt, optionsFind options code = .ok opt ∧ opt.data.length ≠ 4

section
variable (options : List UInt8) (code : UInt8)

-- Both renewal times are read alike: the option's value, 0 if it has the wrong length, and a default
-- if it is absent.  Against the exact default, the last two may be wrong.
theorem term_exact_iff (fallback : UInt32) (exact : Nat) :
    (match optionsFind options code with
      | .ok opt => opt.getU32.toOption.getD 0
      | .error _ => fallback).toNat = ((u32Option options code).map UInt32.toNat).getD exact ↔
    (WrongLength options code → exact = 0) ∧ (Absent options code → fallback.toNat = exact) := by
  unfold Absent WrongLength u32Option
  cases hfind : optionsFind options code with
  | error e =>
    refine ⟨fun h => ⟨?_, fun _ => h⟩, fun h => h.2 ⟨e, rfl⟩⟩
    rintro ⟨opt, ⟨⟩, -⟩
  | ok opt =>
    show (opt.getU32.toOption.getD 0).toNat = (opt.getU32.toOption.map UInt32.toNat).getD exact ↔ _
    by_cases hlen : opt.data.length = 4
    · rw [DhcpOption.getU32_eq, dif_pos hlen]
      refine iff_of_true rfl ⟨?_, by rintro ⟨e, ⟨⟩⟩⟩
      rintro ⟨opt', ⟨⟩, hwrong⟩
      exact absurd hlen hwrong
    · rw [DhcpOption.getU32_eq, dif_neg hlen]
      show 0 = exact ↔ _
      exact ⟨fun h => ⟨fun _ => h.symm, by rintro ⟨e, ⟨⟩⟩⟩, fun h => (h.1 ⟨opt, rfl, hlen⟩).symm⟩

end

theorem leaseTimeOf_eq (options : List UInt8) :
    leaseTimeOf options = (u32Option options optLeaseTime).getD 0 := by
  unfold leaseTimeOf u32Option
  cases optionsFind options optLeaseTime <;> rfl

/-- The renewal times as the options give them: the server's own if it sent them, else half and
seven eighths of the lease time `leaseTime`. -/
structure ExactTerms (options : List UInt8) (l : Lease) : Prop where
  t1 : l.t1Sec.toNat =
    ((u32Option options optRenewalT1).map UInt32.toNat).getD (l.leaseTimeSec.toNat / 2)
  t2 : l.t2Sec.toNat =
    ((u32Option options optRebindingT2).map UInt32.toNat).getD (7 * l.leaseTimeSec.toNat / 8)
  ordered : Absent options optRenewalT1 → Absent options optRebindingT2 →
    l.t1Sec ≤ l.t2Sec ∧ l.t2Sec ≤ l.leaseTimeSec

-- The defaults in 32-bit arithmetic.
theorem halfOf_toNat (leaseTime : UInt32) :
    (if leaseTime > 0 then leaseTime / 2 else 0 : UInt32).toNat = leaseTime.toNat / 2 := by
  by_cases hpos : leaseTime > 0
  · rw [if_pos hpos, UInt32.toNat_div]
    rfl
  · rw [if_neg hpos]
    rw [gt_iff_lt, UInt32.lt_iff_toNat_lt, UInt32.toNat_zero] at hpos
    rw [UInt32.toNat_zero]
    omega

theorem sevenEighthsOf_toNat (leaseTime : UInt32) :
    (if leaseTime > 0 then (leaseTime * 7) / 8 else 0 : UInt32).toNat =
      7 * leaseTime.toNat % 2 ^ 32 / 8 := by
  by_cases hpos : leaseTime > 0
  · rw [if_pos hpos, UInt32.toNat_div, UInt32.toNat_mul, Nat.mul_comm]
    rfl
  · rw [if_neg hpos]
    rw [gt_iff_lt, UInt32.lt_iff_toNat_lt, UInt32.toNat_zero] at hpos
    rw [UInt32.toNat_zero]
    omega

/-- **When T1 and T2 are exact.**  An option 58 or 59 of the wrong length counts as 0, which is right
for a lease time below 2 only, and the default for T2 wraps for lease times from 2^32 / 7 on. -/
theorem terms_exact_iff (env : Env) (msg : Message) (options : List UInt8) (l : Lease) :
    ExactTerms options (populateLeaseFromOptions env msg options l) ↔
      (WrongLength options optRenewalT1 → ((u32Option options optLeaseTime).getD 0).toNat < 2) ∧
      (WrongLength options optRebindingT2 → ((u32Option options optLeaseTime).getD 0).toNat < 2) ∧
      (Absent options optRebindingT2 →
        7 * ((u32Option options optLeaseTime).getD 0).toNat < 2 ^ 32) := by
  rw [← leaseTimeOf_eq]
  set leaseTime := leaseTimeOf options with hleaseTime
  have ht1 := term_exact_iff options optRenewalT1
    (if leaseTime > 0 then leaseTime / 2 else 0) (leaseTime.toNat / 2)
  have ht2 := term_exact_iff options optRebindingT2
    (if leaseTime > 0 then (leaseTime * 7) / 8 else 0) (7 * leaseTime.toNat / 8)
  have hhalf := halfOf_toNat leaseTime
  have heighths := sevenEighthsOf_toNat leaseTime
  have hlt := leaseTime.toNat_lt
  constructor
  · rintro ⟨h1, h2, -⟩
    obtain ⟨hwrong1, -⟩ := ht1.mp h1
    obtain ⟨hwrong2, habsent⟩ := ht2.mp h2
    refine ⟨fun h => ?_, fun h => ?_, fun h => ?_⟩
    · have := hwrong1 h
      omega
    · have := hwrong2 h
      omega
    · have := habsent h
      omega
  · rintro ⟨hwrong1, hwrong2, habsent⟩
    have h1 := ht1.mpr ⟨fun h => by have := hwrong1 h; omega, fun _ => hhalf⟩
    have h2 := ht2.mpr ⟨fun h => by have := hwrong2 h; omega,
      fun h => by have := habsent h; omega⟩
    refine ⟨h1, h2, ?_⟩
    rintro ⟨e1, he1⟩ ⟨e2, he2⟩
    have hfits := habsent ⟨e2, he2⟩
    have hn1 : u32Option options optRenewalT1 = none := by rw [u32Option, he1]; rfl
    have hn2 : u32Option options optRebindingT2 = none := by rw [u32Option, he2]; rfl
    rw [hn1] at h1
    rw [hn2] at h2
    replace h1 : (t1Of options leaseTime).toNat = leaseTime.toNat / 2 := h1
    replace h2 : (t2Of options leaseTime).toNat = 7 * leaseTime.toNat / 8 := h2
    show t1Of options leaseTime ≤ t2Of options leaseTime ∧ t2Of options leaseTime ≤ leaseTime
    rw [UInt32.le_iff_toNat_le, UInt32.le_iff_toNat_le, h1, h2]
    omega

/-- The options of an ACK with the given lease time, T1 and T2. -/
def termsOptions (leaseTime t1 t2 : UInt32) : List DhcpOption :=
  [⟨optMsgType, [MsgType.ack.toByte], by decide⟩, ⟨optLeaseTime, u32Be leaseTime, by simp⟩,
    ⟨optRenewalT1, u32Be t1, by simp⟩, ⟨optRebindingT2, u32Be t2, by simp⟩]

/-- A BOOTREPLY that assigns 10.0.0.5. -/
def sampleReply : Message := { sampleRequest with op := .bootreply, yiaddr := .v4 ⟨10, 0, 0, 5⟩ }

/-- An ACK for an infinite lease without options 58 and 59. -/
def infiniteOptions : List UInt8 := encodeOptions ((termsOptions 0xFFFFFFFF 0 0).take 2)

/-- T2 of an infinite lease wraps to 2^29 - 1 seconds, which is before T1. -/
theorem infinite_lease_t2 :
    (populateLeaseFromOptions (quietEnv 7) sampleReply infiniteOptions startedClient.lease).t2Sec =
        536870911 ∧
      ¬ExactTerms infiniteOptions
        (populateLeaseFromOptions (quietEnv 7) sampleReply infiniteOptions startedClient.lease) := by
  have ht2 : (populateLeaseFromOptions (quietEnv 7) sampleReply infiniteOptions
      startedClient.lease).t2Sec = 536870911 := by decide +kernel
  have hlease : (populateLeaseFromOptions (quietEnv 7) sampleReply infiniteOptions
      startedClient.lease).leaseTimeSec = 4294967295 := by decide +kernel
  have habsent : u32Option infiniteOptions optRebindingT2 = none := by decide +kernel
  refine ⟨ht2, fun hexact => ?_⟩
  have hwrong := hexact.t2
  rw [ht2, hlease, habsent] at hwrong
  exact absurd hwrong (by decide)

/-! ## 2. The periods -/

/-- No period is 0 or shorter than the delay it is programmed for. -/
structure PeriodsKept (env : Env) (c : Client) : Prop where
  t1_pos : 0 < (lifecycleArmT1 env c).lease.leaseTimer.periodMs.toNat
  t1 : c.lease.t1Sec.toNat * 1000 ≤ (lifecycleArmT1 env c).lease.leaseTimer.periodMs.toNat
  t2_pos : 0 < (lifecycleArmT2 env c).lease.leaseTimer.periodMs.toNat
  t2 : c.lease.t1Sec.toNat < c.lease.t2Sec.toNat →
    (c.lease.t2Sec.toNat - c.lease.t1Sec.toNat) * 1000 ≤
      (lifecycleArmT2 env c).lease.leaseTimer.periodMs.toNat
  expiry_pos : 0 < (lifecycleArmExpiry env c).lease.leaseTimer.periodMs.toNat
  expiry : c.lease.t2Sec.toNat < c.lease.leaseTimeSec.toNat →
    (c.lease.leaseTimeSec.toNat - c.lease.t2Sec.toNat) * 1000 ≤
      (lifecycleArmExpiry env c).lease.leaseTimer.periodMs.toNat

theorem le_wrapped_iff (n : Nat) : n ≤ n % 2 ^ 32 ↔ n < 2 ^ 32 := by
  constructor
  · intro h
    exact Nat.lt_of_le_of_lt h (Nat.mod_lt n (by decide))
  · intro h
    rw [Nat.mod_eq_of_lt h]

-- The seconds between two deadlines in milliseconds: right if and only if nothing is dropped.
theorem delay_kept_iff (start next : Nat) :
    (0 < delaySec start next * 1000 % 2 ^ 32 ∧
      (start < next → (next - start) * 1000 ≤ delaySec start next * 1000 % 2 ^ 32)) ↔
      (start < next → (next - start) * 1000 < 2 ^ 32) := by
  unfold delaySec
  by_cases h : start < next
  · rw [if_pos h, imp_iff_right h, imp_iff_right h, le_wrapped_iff]
    refine ⟨And.right, fun hfits => ⟨?_, hfits⟩⟩
    rw [Nat.mod_eq_of_lt hfits]
    omega
  · rw [if_neg h]
    exact iff_of_true ⟨by decide, fun h' => absurd h' h⟩ fun h' => absurd h' h

-- T1 alone has a guard against 0, which also hides a product that wraps to 0.
theorem guarded_kept_iff (sec : Nat) :
    (0 < (if sec * 1000 % 2 ^ 32 = 0 then 1 else sec * 1000 % 2 ^ 32) ∧
      sec * 1000 ≤ if sec * 1000 % 2 ^ 32 = 0 then 1 else sec * 1000 % 2 ^ 32) ↔
      sec * 1000 < 2 ^ 32 := by
  by_cases h : sec * 1000 % 2 ^ 32 = 0
  · rw [if_pos h]
    constructor
    · rintro ⟨-, hle⟩
      omega
    · intro hfits
      rw [Nat.mod_eq_of_lt hfits] at h
      rw [h]
      exact ⟨Nat.zero_lt_one, Nat.zero_le 1⟩
  · rw [if_neg h, le_wrapped_iff]
    exact and_iff_right (Nat.pos_of_ne_zero h)

-- Every triple of terms can stand in an ACK.
theorem termsOptions_stored (leaseTime t1 t2 : UInt32) :
    messageType (encodeOptions (termsOptions leaseTime t1 t2)) = some MsgType.ack.toByte ∧
      ∀ env msg l,
        (populateLeaseFromOptions env msg (encodeOptions (termsOptions leaseTime t1 t2)) l).leaseTimeSec
            = leaseTime ∧
        (populateLeaseFromOptions env msg (encodeOptions (termsOptions leaseTime t1 t2)) l).t1Sec
            = t1 ∧
        (populateLeaseFromOptions env msg (encodeOptions (termsOptions leaseTime t1 t2)) l).t2Sec
            = t2 := by
  have hfind (code : UInt8) : optionsFind (encodeOptions (termsOptions leaseTime t1 t2)) code =
      firstOption (termsOptions leaseTime t1 t2) code := by
    have h := optionsFind_encodeOptions (termsOptions leaseTime t1 t2)
      (by simp only [termsOptions, List.forall_mem_cons]; decide) code []
    rwa [List.append_nil] at h
  have hu32 (value : UInt32) : (Except.ok (ofU32Be (value >>> 24).toUInt8 (value >>> 16).toUInt8
      (value >>> 8).toUInt8 (value &&& 0xFF).toUInt8) : Except Errno UInt32).toOption.getD 0 =
        value := ofU32Be_u32Be value
  generalize encodeOptions (termsOptions leaseTime t1 t2) = area at hfind ⊢
  refine ⟨?_, fun env msg l => ⟨?_, ?_, ?_⟩⟩
  · rw [messageType, hfind]
    rfl
  · show leaseTimeOf area = leaseTime
    rw [leaseTimeOf, hfind]
    exact hu32 leaseTime
  · show t1Of area (leaseTimeOf area) = t1
    rw [t1Of, hfind]
    exact hu32 t1
  · show t2Of area (leaseTimeOf area) = t2
    rw [t2Of, hfind]
    exact hu32 t2

/-- **When the timer arithmetic does not wrap.**  For every lease, and so for the terms of every ACK,
which may be any three 32-bit values: the periods are what they should be exactly if the three
delays fit 32-bit milliseconds. -/
theorem periods_kept_iff (env : Env) (c : Client) :
    (PeriodsKept env c ↔
      c.lease.t1Sec.toNat * 1000 < 2 ^ 32 ∧
      (c.lease.t1Sec.toNat < c.lease.t2Sec.toNat →
        (c.lease.t2Sec.toNat - c.lease.t1Sec.toNat) * 1000 < 2 ^ 32) ∧
      (c.lease.t2Sec.toNat < c.lease.leaseTimeSec.toNat →
        (c.lease.leaseTimeSec.toNat - c.lease.t2Sec.toNat) * 1000 < 2 ^ 32)) ∧
    ∀ leaseTime t1 t2 : UInt32, ∃ options, messageType options = some MsgType.ack.toByte ∧
      ∀ env msg l, (populateLeaseFromOptions env msg options l).leaseTimeSec = leaseTime ∧
        (populateLeaseFromOptions env msg options l).t1Sec = t1 ∧
        (populateLeaseFromOptions env msg options l).t2Sec = t2 := by
  refine ⟨?_, fun leaseTime t1 t2 => ⟨_, termsOptions_stored leaseTime t1 t2⟩⟩
  have h1 : (lifecycleArmT1 env c).lease.leaseTimer.periodMs.toNat = _ := periodT1_toNat c.lease
  have h2 : (lifecycleArmT2 env c).lease.leaseTimer.periodMs.toNat = _ := periodT2_toNat c.lease
  have h3 : (lifecycleArmExpiry env c).lease.leaseTimer.periodMs.toNat = _ :=
    periodExpiry_toNat c.lease
  have hd2 := delay_kept_iff c.lease.t1Sec.toNat c.lease.t2Sec.toNat
  have hd3 := delay_kept_iff c.lease.t2Sec.toNat c.lease.leaseTimeSec.toNat
  have hd1 := guarded_kept_iff c.lease.t1Sec.toNat
  rw [← h1] at hd1
  rw [← h2] at hd2
  rw [← h3] at hd3
  rw [← hd1, ← hd2, ← hd3]
  exact ⟨fun h => ⟨⟨h.t1_pos, h.t1⟩, ⟨h.t2_pos, h.t2⟩, h.expiry_pos, h.expiry⟩,
    fun ⟨⟨p1, k1⟩, ⟨p2, k2⟩, p3, k3⟩ => ⟨p1, k1, p2, k2, p3, k3⟩⟩

/-- T1 of an infinite lease is 68 years, and the timer is set to 50 days. -/
theorem infinite_lease_period :
    (probedClient 0xFFFFFFFF).lease.t1Sec = 2147483647 ∧
      (lifecycleArmT1 (quietEnv 7) (probedClient 0xFFFFFFFF)).lease.leaseTimer.periodMs =
        4294966296 ∧
      ¬PeriodsKept (quietEnv 7) (probedClient 0xFFFFFFFF) := by
  have ht1 : (probedClient 0xFFFFFFFF).lease.t1Sec = 2147483647 := by decide +kernel
  have hperiod : (lifecycleArmT1 (quietEnv 7) (probedClient 0xFFFFFFFF)).lease.leaseTimer.periodMs =
      4294966296 := by decide +kernel
  refine ⟨ht1, hperiod, fun hkept => ?_⟩
  have hshort := hkept.t1
  rw [ht1, hperiod] at hshort
  exact absurd hshort (by decide)

/-! ## 3. What an ACK decides -/

/-- The parameters of a lease. -/
structure Terms where
  offeredIp : Addr
  netmask : Addr
  gateway : Addr
  leaseTimeSec : UInt32
  t1Sec : UInt32
  t2Sec : UInt32
  dnsServers : List Addr
  ntpServers : List Addr
  deriving DecidableEq, Repr

def Lease.terms (l : Lease) : Terms :=
  ⟨l.offeredIp, l.netmask, l.gateway, l.leaseTimeSec, l.t1Sec, l.t2Sec, l.dnsServers, l.ntpServers⟩

/-- The terms of a reply, for a lease whose netmask was `netmask`. -/
def Reply.terms (r : Reply) (netmask : Addr) : Terms where
  offeredIp := r.msg.yiaddr
  netmask := addrOr r.options optSubnetMask netmask
  gateway := gatewayOf r.options .none
  leaseTimeSec := leaseTimeOf r.options
  t1Sec := t1Of r.options (leaseTimeOf r.options)
  t2Sec := t2Of r.options (leaseTimeOf r.options)
  dnsServers := r.dnsServers.map .v4
  ntpServers := r.ntpServers.map .v4

/-- The reply has a netmask option that decodes. -/
def Reply.HasNetmask (r : Reply) : Prop :=
  ∃ opt, optionsFind r.options optSubnetMask = .ok opt ∧ opt.data.length = 4

-- The gateway is cleared where it is not overwritten.
theorem gatewayOf_old (options : List UInt8) (old : Addr) :
    gatewayOf options old = gatewayOf options .none := by
  unfold gatewayOf
  cases optionsFind options optRouter with
  | error e => rfl
  | ok opt =>
    by_cases hcount : opt.addrCount > 0
    · simp only [if_pos hcount, DhcpOption.getAddrAt, dif_pos hcount]
      rfl
    · simp only [if_neg hcount]

-- The netmask is kept where it is not overwritten.
theorem addrOr_netmask_iff (r : Reply) (old₁ old₂ : Addr) :
    addrOr r.options optSubnetMask old₁ = addrOr r.options optSubnetMask old₂ ↔
      r.HasNetmask ∨ old₁ = old₂ := by
  unfold addrOr Reply.HasNetmask
  cases optionsFind r.options optSubnetMask with
  | error e =>
    refine ⟨.inr, fun h => h.resolve_left ?_⟩
    rintro ⟨opt, ⟨⟩, -⟩
  | ok opt =>
    dsimp only
    by_cases hlen : opt.data.length = 4
    · rw [DhcpOption.getAddr_eq, dif_pos hlen]
      exact iff_of_true rfl (.inl ⟨opt, rfl, hlen⟩)
    · rw [DhcpOption.getAddr_eq, dif_neg hlen]
      refine ⟨.inr, fun h => h.resolve_left ?_⟩
      rintro ⟨opt', ⟨⟩, hlen'⟩
      exact hlen hlen'

theorem Reply.terms_eq_iff (r : Reply) (old₁ old₂ : Addr) :
    r.terms old₁ = r.terms old₂ ↔ r.HasNetmask ∨ old₁ = old₂ := by
  rw [← addrOr_netmask_iff]
  unfold Reply.terms
  rw [Terms.mk.injEq]
  exact ⟨fun h => h.2.1, fun h => ⟨rfl, h, rfl, rfl, rfl, rfl, rfl, rfl⟩⟩

theorem populate_terms {env : Env} (henv : env.StoresAll) (r : Reply) (l : Lease) :
    (populateLeaseFromOptions env r.msg r.options l).terms = r.terms l.netmask := by
  simp only [populateLeaseFromOptions, Lease.terms, Reply.terms, gatewayOf_old r.options l.gateway,
    dnsServersOf_eq henv, ntpServersOf_eq henv]

-- A lease that accepts an ACK is filled from it, be it to be probed or bound at once.
theorem step_populated {c : Client} {ev : Event} {r : Reply} (h : c.acceptedAck ev = some r)
    (env : Env) :
    (c.step (env, ev)).lease.terms =
        (populateLeaseFromOptions env r.msg r.options c.lease).terms ∧
      (c.step (env, ev)).lease.serverId =
        (populateLeaseFromOptions env r.msg r.options c.lease).serverId := by
  rw [Client.step_eq]
  rcases Client.eventSection_of_acceptedAck h env with hsec | hsec
  · rw [hsec]
    exact ⟨rfl, rfl⟩
  · obtain ⟨configured, route, hl⟩ :=
      commitLease_lease env (c.update (populateLeaseFromOptions env r.msg r.options))
    rw [hsec, After.finish]
    dsimp only
    rw [callOnBound_lease, acceptRenewal, hl]
    exact ⟨rfl, rfl⟩

theorem step_terms {env : Env} (henv : env.StoresAll) {c : Client} {ev : Event} {r : Reply}
    (h : c.acceptedAck ev = some r) :
    (c.step (env, ev)).lease.terms = r.terms c.lease.netmask :=
  (step_populated h env).1.trans (populate_terms henv r c.lease)

-- What is accepted is what the datagram says, whoever accepts it.
theorem acceptedAck_parse {c : Client} {iface : Iface} {payload : List UInt8} {r : Reply}
    (h : c.acceptedAck (.datagram iface payload) = some r) : parseReply payload = some r := by
  simp only [Client.acceptedAck, Client.delivered] at h
  cases hparse : parseReply payload with
  | none => rw [hparse] at h; cases h
  | some r' =>
    rw [hparse] at h
    dsimp only at h
    split_ifs at h with hx
    cases ht : messageType r'.options with
    | none => rw [ht] at h; cases h
    | some msgType =>
      rw [ht] at h
      simp only [Option.map_some] at h
      split_ifs at h
      exact h

/-- **When an accepted ACK decides everything.**  Two leases that accept the same ACK have the same
terms afterwards if and only if it carries a netmask that decodes, or they had the same netmask
before; with such a netmask the terms are those of the ACK alone.  The server identifier, which is
not among them, survives an ACK without option 54 like the netmask does one without option 1. -/
theorem ack_determines_iff {c₁ c₂ : Client} {env₁ env₂ : Env} (henv₁ : env₁.StoresAll)
    (henv₂ : env₂.StoresAll) {iface : Iface} {payload : List UInt8} {r₁ r₂ : Reply}
    (h₁ : c₁.acceptedAck (.datagram iface payload) = some r₁)
    (h₂ : c₂.acceptedAck (.datagram iface payload) = some r₂) :
    ((c₁.step (env₁, .datagram iface payload)).lease.terms =
        (c₂.step (env₂, .datagram iface payload)).lease.terms ↔
      r₁.HasNetmask ∨ c₁.lease.netmask = c₂.lease.netmask) ∧
    (r₁.HasNetmask →
      (c₁.step (env₁, .datagram iface payload)).lease.terms = r₁.terms .none) ∧
    (c₁.step (env₁, .datagram iface payload)).lease.serverId =
      addrOr r₁.options optServerId c₁.lease.serverId := by
  have hsame : r₂ = r₁ :=
    Option.some.inj ((acceptedAck_parse h₂).symm.trans (acceptedAck_parse h₁))
  subst hsame
  rw [step_terms henv₁ h₁, step_terms henv₂ h₂]
  refine ⟨Reply.terms_eq_iff _ _ _, fun h => (Reply.terms_eq_iff _ _ _).mpr (.inl h), ?_⟩
  exact (step_populated h₁ env₁).2

/-- A lease that has requested 10.0.0.5, from a server whose OFFER carried the given options. -/
def requestedFrom (offer : List DhcpOption) : Client :=
  [(quietEnv 7, Event.datagram 1 (replyPayload .offer 7 ⟨10, 0, 0, 5⟩ offer)),
    (quietEnv 7, Event.retransmit false)].foldl Client.step startedClient

/-- The ACK to it. -/
def sampleAck (options : List DhcpOption) : Event :=
  .datagram 1 (replyPayload .ack 7 ⟨10, 0, 0, 5⟩ options)

/-- Every allocation succeeds. -/
def roomyEnv : Env := { quietEnv 7 with dnsRoom := 63, ntpRoom := 63 }

/-- An ACK with a netmask, accepted after two different OFFERs. -/
theorem ack_determines_granted :
    roomyEnv.StoresAll ∧
      ((requestedFrom []).step (roomyEnv, sampleAck (grantOptions ⟨10, 0, 0, 1⟩ 8))).lease.terms =
        ((requestedFrom (grantOptions ⟨10, 0, 0, 9⟩ 5)).step
          (roomyEnv, sampleAck (grantOptions ⟨10, 0, 0, 1⟩ 8))).lease.terms ∧
      ∃ r, (requestedFrom []).acceptedAck (sampleAck (grantOptions ⟨10, 0, 0, 1⟩ 8)) = some r ∧
        ((requestedFrom []).step
          (roomyEnv, sampleAck (grantOptions ⟨10, 0, 0, 1⟩ 8))).lease.terms = r.terms .none := by
  have henv : roomyEnv.StoresAll := by decide
  obtain ⟨r₁, h₁⟩ := Option.isSome_iff_exists.mp (show ((requestedFrom []).acceptedAck
    (sampleAck (grantOptions ⟨10, 0, 0, 1⟩ 8))).isSome = true by decide +kernel)
  obtain ⟨r₂, h₂⟩ := Option.isSome_iff_exists.mp (show ((requestedFrom
    (grantOptions ⟨10, 0, 0, 9⟩ 5)).acceptedAck
      (sampleAck (grantOptions ⟨10, 0, 0, 1⟩ 8))).isSome = true by decide +kernel)
  have hparse : (parseReply (replyPayload .ack 7 ⟨10, 0, 0, 5⟩ (grantOptions ⟨10, 0, 0, 1⟩ 8))).map
      (fun r => optionsFind r.options optSubnetMask) =
        some (.ok ⟨optSubnetMask, [255, 255, 255, 0], by decide⟩) := by decide +kernel
  rw [acceptedAck_parse h₁] at hparse
  have hnetmask : r₁.HasNetmask := ⟨_, Option.some.inj hparse, rfl⟩
  obtain ⟨hiff, hown, -⟩ := ack_determines_iff henv henv h₁ h₂
  exact ⟨henv, hiff.mpr (.inl hnetmask), r₁, h₁, hown hnetmask⟩

/-- An ACK without one: the netmask of the OFFER survives. -/
theorem offered_netmask_survives :
    roomyEnv.StoresAll ∧
      ((requestedFrom []).acceptedAck (sampleAck [])).isSome = true ∧
      ((requestedFrom (grantOptions ⟨10, 0, 0, 1⟩ 8)).acceptedAck (sampleAck [])).isSome = true ∧
      ((requestedFrom []).step (roomyEnv, sampleAck [])).lease.terms ≠
        ((requestedFrom (grantOptions ⟨10, 0, 0, 1⟩ 8)).step (roomyEnv, sampleAck [])).lease.terms ∧
      ((requestedFrom (grantOptions ⟨10, 0, 0, 1⟩ 8)).step
        (roomyEnv, sampleAck [])).lease.netmask = .v4 ⟨255, 255, 255, 0⟩ := by
  decide +kernel

end Dmdhcp
