import Dmdhcp.Lib.Visit
import Dmdhcp.Reactions

/-!
# What the DNS and NTP providers report

The visitors and `dmdhcp_get_ntp_servers` (`dmdhcp_lease_table.c`) walk the lease table and the
lists of each lease.  The lists are filled by OFFERs and ACKs alike and cleared in two places; what
is reported is nevertheless exactly what the last ACK of each held lease carried.  A sink that wants
no more servers may still be called for another lease.
-/

namespace Dmdhcp

/-! ## 1. The visitors -/

section
variable {σ : Type*}

/-- `visit_lease_dns_servers`; what the visitor returns is ignored, so only its context is kept. -/
def visitLeaseDnsServers (visit : σ → Addr → σ) (ctx : σ) (l : Lease) : σ :=
  if l.state.holdsValidLease then l.dnsServers.foldl visit ctx else ctx

/-- `dmdhcp_lease_table_visit_dns_servers`. -/
def visitDnsServers (visit : σ → Addr → σ) (ctx : σ) (leases : List Client) : σ :=
  leases.foldl (fun ctx c => visitLeaseDnsServers visit ctx c.lease) ctx

/-- The loop over the NTP servers of one lease: a visitor that does not return 0 ends it. -/
def visitLeaseNtpServers (visit : σ → Ipv4 → Int × σ) : List Addr → σ → σ
  | [], ctx => ctx
  | .v4 a :: rest, ctx =>
    -- Entries of another family are skipped.
    let (result, ctx) := visit ctx a
    if result ≠ 0 then ctx else visitLeaseNtpServers visit rest ctx
  | _ :: rest, ctx => visitLeaseNtpServers visit rest ctx

/-- `dmdhcp_lease_table_visit_ntp_servers`. -/
def visitNtpServers (visit : σ → Ipv4 → Int × σ) (ctx : σ) (leases : List Client) : σ :=
  leases.foldl (fun ctx c =>
    if c.lease.state.holdsValidLease then visitLeaseNtpServers visit c.lease.ntpServers ctx
    else ctx) ctx

end

/-- The loop over the NTP servers of one lease in `dmdhcp_get_ntp_servers`, on the buffer and the
number of entries written. -/
def copyNtpServers (maxCount : Nat) : List Addr → List Addr × Nat → List Addr × Nat
  | [], s => s
  | a :: rest, (out, written) =>
    if written < maxCount then copyNtpServers maxCount rest (out.set written a, written + 1)
    else (out, written)

/-- The loop over the table in `dmdhcp_get_ntp_servers`. -/
def copyAllNtpServers (maxCount : Nat) : List Client → List Addr × Nat → List Addr × Nat
  | [], s => s
  | c :: rest, s =>
    if s.2 < maxCount then
      copyAllNtpServers maxCount rest
        (if c.lease.state.holdsValidLease then copyNtpServers maxCount c.lease.ntpServers s else s)
    else s

/-- The conversion of a `size_t` to `int`. -/
def toCInt (n : Nat) : Int := Int.bmod n (2 ^ 32)

/-- `dmdhcp_get_ntp_servers`: what it returns, and the buffer as it leaves it. -/
def getNtpServers (out : Option (List Addr)) (maxCount : Nat) (leases : List Client) :
    Except Errno (Int × List Addr) :=
  match out with
  | none => .error .einval
  | some out =>
    if maxCount = 0 then .error .einval
    else
      -- Both loops stop as soon as the buffer is full.
      let (out, written) := copyAllNtpServers maxCount leases (out, 0)
      .ok (toCInt written, out)

/-! ## 2. What they report -/

/-- The leases in table order that hold an address, one list after the other. -/
def servedBy (servers : Lease → List Addr) (leases : List Client) : List Addr :=
  (leases.filter fun c => c.lease.state.holdsValidLease).flatMap fun c => servers c.lease

section
variable {σ : Type*}

theorem flatMap_filter_cons {α β : Type*} (p : α → Bool) (f : α → List β) (a : α) (l : List α) :
    ((a :: l).filter p).flatMap f = (if p a then f a else []) ++ (l.filter p).flatMap f := by
  rw [List.filter_cons]
  by_cases h : p a = true
  · rw [if_pos h, if_pos h, List.flatMap_cons]
  · rw [if_neg h, if_neg h, List.nil_append]

theorem servedBy_cons (servers : Lease → List Addr) (c : Client) (leases : List Client) :
    servedBy servers (c :: leases) =
      (if c.lease.state.holdsValidLease then servers c.lease else []) ++
        servedBy servers leases := by
  unfold servedBy
  rw [flatMap_filter_cons]

theorem visitDnsServers_eq (visit : σ → Addr → σ) (ctx : σ) (leases : List Client) :
    visitDnsServers visit ctx leases = (servedBy Lease.dnsServers leases).foldl visit ctx := by
  induction leases generalizing ctx with
  | nil => rfl
  | cons c cs ih =>
    show visitDnsServers visit (visitLeaseDnsServers visit ctx c.lease) cs = _
    rw [ih, servedBy_cons, List.foldl_append]
    unfold visitLeaseDnsServers
    split_ifs <;> rfl

/-- The IPv4 address in an entry. -/
def Addr.toIpv4 : Addr → Option Ipv4
  | .v4 a => some a
  | _ => Option.none

/-- The IPv4 addresses the provider has to report for one lease. -/
def Client.ntpAddresses (c : Client) : List Ipv4 :=
  if c.lease.state.holdsValidLease then c.lease.ntpServers.filterMap Addr.toIpv4 else []

/-- The sequence of NTP addresses of the leases that hold an address, in table order. -/
def ntpAddresses (leases : List Client) : List Ipv4 :=
  (servedBy Lease.ntpServers leases).filterMap Addr.toIpv4

theorem ntpAddresses_eq (leases : List Client) :
    ntpAddresses leases = leases.flatMap Client.ntpAddresses := by
  induction leases with
  | nil => rfl
  | cons c cs ih =>
    unfold ntpAddresses at ih ⊢
    rw [servedBy_cons, List.filterMap_append, ih, List.flatMap_cons]
    unfold Client.ntpAddresses
    split_ifs <;> rfl

theorem visitLeaseNtpServers_calls (visit : σ → Ipv4 → Int × σ) (servers : List Addr) (ctx : σ) :
    visitLeaseNtpServers visit servers ctx =
      (Visit.calls visit (· ≠ 0) (servers.filterMap Addr.toIpv4) ctx).2 := by
  induction servers generalizing ctx with
  | nil => rfl
  | cons a rest ih =>
    cases a with
    | none => exact ih ctx
    | v6 a => exact ih ctx
    | v4 a =>
      show (if (visit ctx a).1 ≠ 0 then (visit ctx a).2
        else visitLeaseNtpServers visit rest (visit ctx a).2) = _
      rw [show (Addr.v4 a :: rest).filterMap Addr.toIpv4 = a :: rest.filterMap Addr.toIpv4 from rfl]
      by_cases hstop : (visit ctx a).1 ≠ 0
      · rw [if_pos hstop, Visit.calls_of_stop hstop]
      · rw [if_neg hstop, Visit.calls_of_go hstop, ih]

-- The loops are those of the library: the inner one ends at a request to stop, the outer does not.
theorem visitNtpServers_calls (visit : σ → Ipv4 → Int × σ) (leases : List Client) (ctx : σ) :
    visitNtpServers visit ctx leases =
      (Visit.allCalls visit (· ≠ 0) Client.ntpAddresses leases ctx).2 := by
  induction leases generalizing ctx with
  | nil => rfl
  | cons c cs ih =>
    have hrow : (if c.lease.state.holdsValidLease then
          visitLeaseNtpServers visit c.lease.ntpServers ctx
        else ctx) = (Visit.calls visit (· ≠ 0) c.ntpAddresses ctx).2 := by
      unfold Client.ntpAddresses
      by_cases hheld : c.lease.state.holdsValidLease = true
      · rw [if_pos hheld, if_pos hheld, visitLeaseNtpServers_calls]
      · rw [if_neg hheld, if_neg hheld]
        rfl
    show visitNtpServers visit (if c.lease.state.holdsValidLease then
      visitLeaseNtpServers visit c.lease.ntpServers ctx else ctx) cs = _
    rw [hrow, ih]
    rfl

-- With a sink that always returns 0, every IPv4 entry is visited.
theorem visitNtpServers_eq (visit : σ → Ipv4 → Int × σ) (hzero : ∀ ctx a, (visit ctx a).1 = 0)
    (leases : List Client) (ctx : σ) : visitNtpServers visit ctx leases =
      ((servedBy Lease.ntpServers leases).filterMap Addr.toIpv4).foldl
        (fun ctx a => (visit ctx a).2) ctx := by
  have hgo (ctx : σ) (a : Ipv4) : ¬(visit ctx a).1 ≠ 0 := not_not.mpr (hzero ctx a)
  rw [visitNtpServers_calls, Visit.allCalls_context hgo, ← ntpAddresses_eq]
  rfl

end

-- The buffer after the first entries of `servers` were written to it from `written` on.
theorem copyNtpServers_eq (maxCount : Nat) (servers out : List Addr) (done : List Addr)
    (hroom : maxCount ≤ done.length + out.length) (hdone : done.length ≤ maxCount) :
    copyNtpServers maxCount servers (done ++ out, done.length) =
      (done ++ servers.take (maxCount - done.length) ++
          out.drop (min (maxCount - done.length) servers.length),
        done.length + min (maxCount - done.length) servers.length) := by
  -- `done` is what is written so far; the entry after it is the next one to be overwritten.
  induction servers generalizing done out with
  | nil => simp [copyNtpServers]
  | cons a rest ih =>
    rw [copyNtpServers]
    by_cases hlt : done.length < maxCount
    · rw [if_pos hlt]
      cases out with
      | nil => simp at hroom; omega
      | cons o os =>
        -- The first entry of the rest of the buffer is the one that is written.
        have hset : (done ++ o :: os).set done.length a = (done ++ [a]) ++ os := by
          rw [List.set_append_right _ _ (Nat.le_refl _), Nat.sub_self]
          simp
        have hlen : (done ++ [a]).length = done.length + 1 := by simp
        have hstep := ih os (done ++ [a]) (by simp at hroom ⊢; omega) (by rw [hlen]; omega)
        rw [hlen] at hstep
        rw [hset, hstep]
        have hsub : maxCount - done.length = (maxCount - (done.length + 1)) + 1 := by omega
        rw [hsub, List.length_cons, Nat.add_min_add_right, List.take_succ_cons, List.drop_succ_cons]
        refine Prod.ext ?_ ?_
        · simp only [List.append_assoc, List.cons_append, List.nil_append]
        · show done.length + 1 + _ = done.length + (_ + 1)
          omega
    · rw [if_neg hlt, show maxCount - done.length = 0 by omega]
      simp

theorem copyAllNtpServers_eq (maxCount : Nat) (leases : List Client) (out : List Addr)
    (done : List Addr) (hroom : maxCount ≤ done.length + out.length)
    (hdone : done.length ≤ maxCount) :
    copyAllNtpServers maxCount leases (done ++ out, done.length) =
      (done ++ (servedBy Lease.ntpServers leases).take (maxCount - done.length) ++
          out.drop (min (maxCount - done.length) (servedBy Lease.ntpServers leases).length),
        done.length + min (maxCount - done.length)
          (servedBy Lease.ntpServers leases).length) := by
  induction leases generalizing done out with
  | nil => simp [copyAllNtpServers, servedBy]
  | cons c cs ih =>
    rw [copyAllNtpServers]
    by_cases hlt : done.length < maxCount
    · rw [if_pos hlt, servedBy_cons]
      by_cases hheld : c.lease.state.holdsValidLease = true
      · rw [if_pos hheld, if_pos hheld, copyNtpServers_eq maxCount _ out done hroom hdone]
        -- What was written for this lease counts as done for the rest of the table.
        generalize c.lease.ntpServers = first
        generalize hrest : servedBy Lease.ntpServers cs = rest at ih
        have hlen : (done ++ first.take (maxCount - done.length)).length =
            done.length + min (maxCount - done.length) first.length := by
          rw [List.length_append, List.length_take]
        rw [← hlen, ih _ _ (by rw [hlen, List.length_drop]; omega) (by rw [hlen]; omega), hlen,
          List.take_append, List.length_append, List.drop_drop]
        have hsub : maxCount - (done.length + min (maxCount - done.length) first.length) =
            maxCount - done.length - first.length := by omega
        rw [hsub, List.append_assoc done]
        refine Prod.ext ?_ ?_
        · show _ ++ List.drop _ out = _ ++ List.drop _ out
          congr 2
          omega
        · show done.length + _ + _ = done.length + _
          omega
      · rw [if_neg hheld, if_neg hheld, List.nil_append]
        exact ih out done hroom hdone
    · rw [if_neg hlt, show maxCount - done.length = 0 by omega]
      simp

-- `dmdhcp_get_ntp_servers` writes the first entries of the NTP sequence and nothing else.
theorem getNtpServers_eq (out : List Addr) (maxCount : Nat) (hpos : 0 < maxCount)
    (hroom : maxCount ≤ out.length) (leases : List Client) :
    getNtpServers (some out) maxCount leases =
      .ok (toCInt (min maxCount (servedBy Lease.ntpServers leases).length),
        (servedBy Lease.ntpServers leases).take maxCount ++
          out.drop (min maxCount (servedBy Lease.ntpServers leases).length)) := by
  have hcopy := copyAllNtpServers_eq maxCount leases out [] (by simpa using hroom) (by simp)
  simp only [List.nil_append, List.length_nil, Nat.sub_zero, Nat.zero_add] at hcopy
  simp only [getNtpServers, if_neg (show ¬maxCount = 0 by omega), hcopy]

theorem toCInt_eq {n : Nat} (h : n < 2 ^ 31) : toCInt n = n := by
  unfold toCInt
  rw [Int.bmod_eq_of_le]
  · omega
  · omega

/-! ## 3. The addresses in an ACK -/

/-- The addresses in the data of an option: four bytes each, and a shorter rest is none. -/
def addrsOf : List UInt8 → List Ipv4
  | b0 :: b1 :: b2 :: b3 :: rest => ⟨b0, b1, b2, b3⟩ :: addrsOf rest
  | _ => []

theorem addrsOf_length (data : List UInt8) : (addrsOf data).length = data.length / 4 := by
  induction data using addrsOf.induct with
  | case1 b0 b1 b2 b3 rest ih =>
    simp only [addrsOf, List.length_cons, ih]
    omega
  | case2 data hshort =>
    -- The definition gives up exactly on fewer than four bytes.
    have hlt : data.length < 4 := by
      by_contra hge
      match data, hge with
      | [], hge => simp at hge
      | [_], hge => simp at hge
      | [_, _], hge => simp at hge
      | [_, _, _], hge => simp at hge
      | b0 :: b1 :: b2 :: b3 :: rest, _ => exact hshort b0 b1 b2 b3 rest rfl
    rw [Nat.div_eq_of_lt hlt]
    rw [addrsOf]
    · rfl
    · exact hshort

-- Reading behind the first four bytes is reading the rest.
theorem readIpv4_cons (b0 b1 b2 b3 : UInt8) (rest : List UInt8) (i : Nat)
    (h : (i + 1) * 4 + 4 ≤ (b0 :: b1 :: b2 :: b3 :: rest).length)
    (h' : i * 4 + 4 ≤ rest.length) :
    readIpv4 (b0 :: b1 :: b2 :: b3 :: rest) ((i + 1) * 4) h = readIpv4 rest (i * 4) h' := by
  have hat (n : Nat) : (b0 :: b1 :: b2 :: b3 :: rest)[(i + 1) * 4 + n]? = rest[i * 4 + n]? := by
    rw [show (i + 1) * 4 + n = i * 4 + n + 1 + 1 + 1 + 1 by omega]
    simp only [List.getElem?_cons_succ]
  have hget (n : Nat) (hn : n < 4) : rest[i * 4 + n]? = some (rest[i * 4 + n]) :=
    List.getElem?_eq_getElem _
  exact readIpv4_eq ((hat 0).trans (hget 0 (by omega))) ((hat 1).trans (hget 1 (by omega)))
    ((hat 2).trans (hget 2 (by omega))) ((hat 3).trans (hget 3 (by omega)))

theorem addrsOf_getElem? (data : List UInt8) (i : Nat) (h : i * 4 + 4 ≤ data.length) :
    (addrsOf data)[i]? = some (readIpv4 data (i * 4) h) := by
  induction data using addrsOf.induct generalizing i with
  | case1 b0 b1 b2 b3 rest ih =>
    cases i with
    | zero => rfl
    | succ i =>
      have hrest : i * 4 + 4 ≤ rest.length := by
        simp only [List.length_cons] at h
        omega
      rw [addrsOf, List.getElem?_cons_succ, ih i hrest, readIpv4_cons b0 b1 b2 b3 rest i h hrest]
  | case2 data hshort =>
    have hlen := addrsOf_length data
    rw [addrsOf] at hlen
    · simp only [List.length_nil] at hlen
      omega
    · exact hshort

-- With room for all of them, a stored list is the addresses of the option.
theorem storedAddrs_eq (opt : DhcpOption) {room : Nat} (hroom : 63 ≤ room) :
    opt.storedAddrs room = (addrsOf opt.data).map .v4 := by
  have hlen : opt.addrCount ≤ 63 := by
    have hdata := opt.fits
    unfold DhcpOption.addrCount
    omega
  unfold DhcpOption.storedAddrs
  rw [List.take_of_length_le (by simp; omega)]
  -- The code reads the addresses by index, `addrsOf` by recursion: they agree at each index.
  apply List.ext_getElem?
  intro i
  rw [List.getElem?_map, List.getElem?_map]
  by_cases hi : i < opt.addrCount
  · have hread : i * 4 + 4 ≤ opt.data.length := by
      unfold DhcpOption.addrCount at hi
      omega
    rw [List.getElem?_range hi, addrsOf_getElem? opt.data i hread]
    simp only [Option.map_some, DhcpOption.getAddrAt, dif_pos hi]
    rfl
  · rw [List.getElem?_eq_none (by simpa using hi),
      List.getElem?_eq_none (by rw [addrsOf_length]; unfold DhcpOption.addrCount at hi; omega)]
    rfl

/-- The addresses of the option 6 that `dmdhcp_options_find` finds. -/
def Reply.dnsServers (r : Reply) : List Ipv4 :=
  match optionsFind r.options optDnsServer with
  | .ok opt => addrsOf opt.data
  | .error _ => []

/-- The addresses of the option 42; one with a partial address counts as none. -/
def Reply.ntpServers (r : Reply) : List Ipv4 :=
  match optionsFind r.options optNtpServer with
  | .ok opt => if opt.data.length = 0 ∨ opt.data.length % 4 ≠ 0 then [] else addrsOf opt.data
  | .error _ => []

/-- There is room for every address of an option. -/
def Env.StoresAll (env : Env) : Prop := 63 ≤ env.dnsRoom ∧ 63 ≤ env.ntpRoom

instance (env : Env) : Decidable env.StoresAll := inferInstanceAs (Decidable (_ ∧ _))

theorem dnsServersOf_eq {env : Env} (h : env.StoresAll) (r : Reply) :
    dnsServersOf r.options env.dnsRoom = r.dnsServers.map .v4 := by
  unfold dnsServersOf Reply.dnsServers
  cases optionsFind r.options optDnsServer with
  | ok opt => exact storedAddrs_eq opt h.1
  | error e => rfl

theorem ntpServersOf_eq {env : Env} (h : env.StoresAll) (r : Reply) :
    ntpServersOf r.options env.ntpRoom = r.ntpServers.map .v4 := by
  unfold ntpServersOf Reply.ntpServers
  cases optionsFind r.options optNtpServer with
  | error e => rfl
  | ok opt =>
    dsimp only
    -- The length test of option 42, which option 6 has not.
    by_cases hlen : opt.data.length > 0 ∧ opt.data.length % 4 = 0
    · rw [if_pos hlen, if_neg (by omega), storedAddrs_eq opt h.2]
    · rw [if_neg hlen, if_pos (by omega)]
      rfl

/-! ## 4. The table, with the last ACK of each lease -/

/-- The ACK an event delivers to a lease that asked for it. -/
def Client.acceptedAck (c : Client) (ev : Event) : Option Reply :=
  match c.delivered ev with
  | some (r, msgType) =>
    if msgType = MsgType.ack.toByte ∧ (c.lease.state = .requesting ∨ c.lease.state = .rebooting ∨
        c.lease.state = .renewing ∨ c.lease.state = .rebinding) then some r
    else none
  | none => none

/-- A lease and the last ACK it accepted. -/
structure Tracked where
  client : Client
  lastAck : Option Reply
  deriving DecidableEq, Repr

def Tracked.step (input : Env × Event) (t : Tracked) : Tracked where
  client := t.client.step input
  lastAck := (t.client.acceptedAck input.2).or t.lastAck

/-- What can happen to the table: an event of a lease, a `dmdhcp_start`, a `dmdhcp_set_callbacks`, or
the `dmdhcp_stop` or `dmdhcp_release` of the lease on an interface. -/
inductive TableOp
  | event (env : Env) (ev : TableEvent)
  | setCallbacks (iface : Iface) (callbacks : Option Callbacks) (userData : Nat)
  | teardown (iface : Iface)
  deriving DecidableEq, Repr

def tableOperate (leases : List Client) : TableOp → List Client
  | .event env ev => tableStep leases (env, ev)
  | .setCallbacks iface callbacks userData =>
    modifyFirst (fun c => c.lease.iface == iface) (Client.setCallbacks callbacks userData) leases
  | .teardown iface => leases.eraseP fun c => c.lease.iface == iface

/-- `tableOperate` with the ACKs recorded. -/
def trackedOperate (ts : List Tracked) : TableOp → List Tracked
  | .event env (.start iface netif callbacks userData options allocated) =>
    if allocated ∧ findByIface (ts.map Tracked.client) iface = none then
      ts ++ [⟨Client.start env iface netif callbacks userData options, none⟩]
    else ts
  | .event env (.datagram iface payload) =>
    match parseReply payload with
    | none => ts
    | some r =>
      modifyFirst (fun t => t.client.matchesXid iface r.msg.xid)
        (Tracked.step (env, .datagram iface payload)) ts
  | .event env (.retransmit iface stale) =>
    modifyFirst (fun t => t.client.lease.iface == iface) (Tracked.step (env, .retransmit stale)) ts
  | .event env (.leaseTimer iface stale) =>
    modifyFirst (fun t => t.client.lease.iface == iface) (Tracked.step (env, .leaseTimer stale)) ts
  | .event env (.renew iface) =>
    modifyFirst (fun t => t.client.lease.iface == iface) (Tracked.step (env, .renew)) ts
  | .setCallbacks iface callbacks userData =>
    modifyFirst (fun t => t.client.lease.iface == iface)
      (fun t => { t with client := t.client.setCallbacks callbacks userData }) ts
  | .teardown iface => ts.eraseP fun t => t.client.lease.iface == iface

/-- Every allocation for a list entry succeeds. -/
def TableOp.StoresAll : TableOp → Prop
  | .event env _ => env.StoresAll
  | _ => True

instance : DecidablePred TableOp.StoresAll
  | .event env _ => inferInstanceAs (Decidable env.StoresAll)
  | .setCallbacks _ _ _ => isTrue trivial
  | .teardown _ => isTrue trivial

section
variable {α β : Type*}

-- Changing the first match commutes with a projection that both the test and the change respect.
theorem map_modifyFirst (g : α → β) {p : β → Bool} {f : α → α} {f' : β → β}
    (h : ∀ a, p (g a) = true → g (f a) = f' (g a)) (l : List α) :
    (modifyFirst (fun a => p (g a)) f l).map g = modifyFirst p f' (l.map g) := by
  induction l with
  | nil => rfl
  | cons a as ih =>
    rw [List.map_cons, modifyFirst, modifyFirst]
    by_cases hp : p (g a) = true
    · rw [if_pos hp, if_pos hp, List.map_cons, h a hp]
    · rw [if_neg hp, if_neg hp, List.map_cons, ih]

theorem mem_modifyFirst {p : α → Bool} {f : α → α} {l : List α} {a : α}
    (h : a ∈ modifyFirst p f l) : a ∈ l ∨ ∃ b ∈ l, a = f b := by
  induction l with
  | nil => exact .inl h
  | cons b bs ih =>
    rw [modifyFirst] at h
    by_cases hp : p b = true
    · rw [if_pos hp] at h
      rcases List.mem_cons.mp h with h | h
      · exact .inr ⟨b, List.mem_cons_self, h⟩
      · exact .inl (List.mem_cons_of_mem b h)
    · rw [if_neg hp] at h
      rcases List.mem_cons.mp h with rfl | h
      · exact .inl List.mem_cons_self
      · rcases ih h with h | ⟨x, hx, h⟩
        · exact .inl (List.mem_cons_of_mem b h)
        · exact .inr ⟨x, List.mem_cons_of_mem b hx, h⟩

end

-- The record of ACKs does not change what the table does.
theorem trackedOperate_client (ts : List Tracked) (o : TableOp) :
    (trackedOperate ts o).map Tracked.client = tableOperate (ts.map Tracked.client) o := by
  have hon (env : Env) (iface : Iface) (ev : Event) :
      (modifyFirst (fun t => t.client.lease.iface == iface) (Tracked.step (env, ev)) ts).map
        Tracked.client = stepOn env iface ev (ts.map Tracked.client) :=
    map_modifyFirst Tracked.client (p := fun c => c.lease.iface == iface) (fun _ _ => rfl) ts
  cases o with
  | event env ev =>
    cases ev with
    | start iface netif callbacks userData options allocated =>
      simp only [trackedOperate, tableOperate, tableStep]
      split_ifs
      · rw [List.map_append]
        rfl
      · rfl
    | datagram iface payload =>
      simp only [trackedOperate, tableOperate, tableStep, handleDatagram]
      cases hr : parseReply payload with
      | none => rfl
      | some r =>
        -- The lookup has compared the xid already, so the test in `receive` passes.
        apply map_modifyFirst Tracked.client (p := Client.matchesXid iface r.msg.xid)
        intro t hx
        show t.client.receive env iface payload = handleReply env r t.client
        simp only [Client.receive, hr]
        exact if_pos hx
    | retransmit iface stale => exact hon env iface _
    | leaseTimer iface stale => exact hon env iface _
    | renew iface => exact hon env iface _
  | setCallbacks iface callbacks userData =>
    exact map_modifyFirst Tracked.client (p := fun c => c.lease.iface == iface) (fun _ _ => rfl) ts
  | teardown iface =>
    simp only [trackedOperate, tableOperate]
    rw [List.eraseP_map]
    rfl

/-! ## 5. The lists of a confirmed lease -/

/-- The states from the ACK on: the lists are those of the last ACK, not of an OFFER. -/
def State.confirmed : State → Bool
  | .checkingAck => true
  | s => s.holdsValidLease

theorem State.confirmed_of_holds {s : State} (h : s.holdsValidLease = true) :
    s.confirmed = true := by
  cases s <;> first | rfl | cases h

/-- The lists of `l` are those of `r`. -/
structure Lease.ServersOf (l : Lease) (r : Reply) : Prop where
  dns : l.dnsServers = r.dnsServers.map .v4
  ntp : l.ntpServers = r.ntpServers.map .v4

/-- What a lease offers was in the last ACK it accepted. -/
def Tracked.Confirmed (t : Tracked) : Prop :=
  t.client.lease.state.confirmed = true →
    ∃ r, t.lastAck = some r ∧ t.client.lease.ServersOf r

section
variable {env : Env}

theorem populate_serversOf (henv : env.StoresAll) (r : Reply) (l : Lease) :
    (populateLeaseFromOptions env r.msg r.options l).ServersOf r :=
  ⟨dnsServersOf_eq henv r, ntpServersOf_eq henv r⟩

theorem acceptForProbe_serversOf (henv : env.StoresAll) (r : Reply) (next : State) (c : Client) :
    (acceptForProbe env r next c).lease.ServersOf r := by
  have h := populate_serversOf henv r c.lease
  exact ⟨h.dns, h.ntp⟩

theorem acceptRenewal_serversOf (henv : env.StoresAll) (r : Reply) (c : Client) :
    (acceptRenewal env r c).lease.ServersOf r := by
  have h := populate_serversOf henv r c.lease
  obtain ⟨configured, route, hl⟩ :=
    commitLease_lease env (c.update (populateLeaseFromOptions env r.msg r.options))
  unfold acceptRenewal
  rw [hl]
  exact ⟨h.dns, h.ntp⟩

end

-- An ACK to a lease that asked for it is taken over.
theorem Client.eventSection_of_acceptedAck {c : Client} {ev : Event} {r : Reply}
    (h : c.acceptedAck ev = some r) (env : Env) :
    c.eventSection env ev = (acceptForProbe env r .checkingAck c, .done) ∨
      c.eventSection env ev = (acceptRenewal env r c, .onBound true) := by
  have hoffer : MsgType.ack.toByte ≠ MsgType.offer.toByte := by decide
  have hnak : MsgType.ack.toByte ≠ MsgType.nak.toByte := by decide
  cases ev with
  | datagram iface payload =>
    unfold Client.acceptedAck at h
    cases hd : c.delivered (.datagram iface payload) with
    | none => rw [hd] at h; cases h
    | some d =>
      obtain ⟨r', msgType⟩ := d
      rw [hd] at h
      dsimp only at h
      split_ifs at h with hack
      obtain rfl := Option.some.inj h
      obtain ⟨rfl, hs⟩ := hack
      simp only [Client.eventSection, hd, datagramSection]
      rw [if_neg fun hx => hoffer hx.1]
      -- The four states of an accepted ACK are those of two branches of the section.
      by_cases hrequest : c.lease.state = .requesting ∨ c.lease.state = .rebooting
      · exact .inl (if_pos ⟨trivial, hrequest⟩)
      · rw [if_neg fun hx => hrequest hx.2, if_neg fun hx => hnak hx.1]
        have hrenew : c.lease.state = .renewing ∨ c.lease.state = .rebinding := by
          rcases hs with hs | hs | hs
          · exact absurd (.inl hs) hrequest
          · exact absurd (.inr hs) hrequest
          · exact hs
        exact .inr (if_pos ⟨trivial, hrenew⟩)
  | retransmit stale => cases h
  | leaseTimer stale => cases h
  | renew => cases h

-- Without an ACK, a lease that ends confirmed was confirmed and keeps its lists.
theorem Reaction.keeps_servers {env : Env} {ev : Event} {c c₁ : Client} {after : After}
    (h : Reaction env ev c c₁ after) (hnone : c.acceptedAck ev = none)
    (hend : (after.finish env c₁).lease.state.confirmed = true) :
    c.lease.state.confirmed = true ∧
      (after.finish env c₁).lease.dnsServers = c.lease.dnsServers ∧
      (after.finish env c₁).lease.ntpServers = c.lease.ntpServers := by
  cases h with
  | idle hr hl => exact ⟨hend, rfl, rfl⟩
  -- An OFFER fills the lists too, but does not end confirmed.
  | offer r hd hs => cases hend
  | ack r hd hs =>
    simp only [Client.acceptedAck, hd] at hnone
    rw [if_pos ⟨trivial, hs.imp_right .inl⟩] at hnone
    cases hnone
  | restart hover =>
    simp only [After.finish, outputStartDiscovery_lease] at hend
    cases hend
  | renewed r hd hs =>
    simp only [Client.acceptedAck, hd] at hnone
    rw [if_pos ⟨trivial, .inr (.inr hs)⟩] at hnone
    cases hnone
  | lost hl =>
    simp only [After.finish, lifecycleHandleLost, lostRestart, outputStartDiscovery_lease] at hend
    cases hend
  | resend s count hev hs hcount =>
    rw [After.finish, rearmBackoff_lease, Sender.send, sendMessage_lease] at hend ⊢
    exact ⟨hend, rfl, rfl⟩
  | conflict hev hs harp =>
    obtain ⟨state, timer, hstate, hl⟩ :=
      handleConflict_lease env (c.emit (.probe c.lease.offeredIp true))
    rw [(After.finish_eq (handleConflict_ne_lost env _) _).1, hl] at hend
    rcases hstate with rfl | rfl <;> cases hend
  | request hev hs harp =>
    simp only [After.finish, requestOffered_lease] at hend
    cases hend
  -- The final probe confirms nothing new: the ACK came before it.
  | commit hev hs harp =>
    obtain ⟨configured, route, hl⟩ :=
      commitLease_lease env (c.emit (.probe c.lease.offeredIp false))
    rw [After.finish, callOnBound_lease, commitProbed, hl, hs]
    exact ⟨rfl, rfl, rfl⟩
  | renew hev hs =>
    rw [After.finish, outputStartRenew_lease, hs]
    exact ⟨rfl, rfl, rfl⟩
  | t1 hev hs =>
    rw [After.finish, outputStartRenew_armT2_lease, hs]
    exact ⟨rfl, rfl, rfl⟩
  | t2 hev hs =>
    rw [After.finish, outputStartRebind_armExpiry_lease, hs]
    exact ⟨rfl, rfl, rfl⟩

theorem Client.before_acceptedAck (c : Client) (ev : Event) :
    (c.before ev).acceptedAck ev = c.acceptedAck ev := by
  cases ev <;> rfl

theorem Client.before_servers (c : Client) (ev : Event) :
    (c.before ev).lease.dnsServers = c.lease.dnsServers ∧
      (c.before ev).lease.ntpServers = c.lease.ntpServers := by
  obtain ⟨_, _, h⟩ := (c.before_same ev).lease
  rw [h]
  exact ⟨rfl, rfl⟩

theorem Tracked.step_confirmed {env : Env} (henv : env.StoresAll) (ev : Event) {t : Tracked}
    (h : t.Confirmed) : (t.step (env, ev)).Confirmed := by
  intro hend
  show ∃ r, (t.client.acceptedAck ev).or t.lastAck = some r ∧
    (t.client.step (env, ev)).lease.ServersOf r
  have hstep := t.client.step_eq env ev
  cases hack : t.client.acceptedAck ev with
  | some r =>
    refine ⟨r, rfl, ?_⟩
    rw [hstep]
    rcases Client.eventSection_of_acceptedAck hack env with hsec | hsec
    · rw [hsec]
      exact acceptForProbe_serversOf henv r _ _
    · rw [hsec, After.finish]
      dsimp only
      rw [callOnBound_lease]
      exact acceptRenewal_serversOf henv r _
  | none =>
    have hnone : (t.client.before ev).acceptedAck ev = none :=
      (t.client.before_acceptedAck ev).trans hack
    -- The last ACK is the one of before, and so are the lists.
    have hend' : (t.client.step (env, ev)).lease.state.confirmed = true := hend
    rw [hstep] at hend' ⊢
    have hkeep := (t.client.eventSection_reaction env ev).keeps_servers hnone hend'
    have hbefore := t.client.before_servers ev
    obtain ⟨r, hr, hservers⟩ := h ((t.client.before_state ev) ▸ hkeep.1)
    refine ⟨r, hr, ?_, ?_⟩
    · rw [hkeep.2.1, hbefore.1, hservers.dns]
    · rw [hkeep.2.2, hbefore.2, hservers.ntp]

-- What `dmdhcp_start` leaves has accepted nothing yet.
theorem Tracked.start_confirmed (env : Env) (iface : Iface) (netif : Netif) (callbacks : Callbacks)
    (userData : Nat) (options : Option StartOptions) :
    Tracked.Confirmed ⟨Client.start env iface netif callbacks userData options, none⟩ := by
  intro hend
  rcases (start_fresh env iface netif callbacks userData options).state with hs | hs
  · rw [hs] at hend
    cases hend
  · rw [hs] at hend
    cases hend

-- Every operation on the table keeps every lease's lists confirmed.
theorem trackedOperate_confirmed {ts : List Tracked} {o : TableOp} (ho : o.StoresAll)
    (h : ∀ t ∈ ts, t.Confirmed) : ∀ t ∈ trackedOperate ts o, t.Confirmed := by
  have hmodify (p : Tracked → Bool) (f : Tracked → Tracked)
      (hf : ∀ t : Tracked, t.Confirmed → (f t).Confirmed) :
      ∀ t ∈ modifyFirst p f ts, t.Confirmed := by
    intro t ht
    rcases mem_modifyFirst ht with ht | ⟨t', ht', rfl⟩
    · exact h t ht
    · exact hf t' (h t' ht')
  have hstep (p : Tracked → Bool) (env : Env) (henv : env.StoresAll) (ev : Event) :
      ∀ t ∈ modifyFirst p (Tracked.step (env, ev)) ts, t.Confirmed :=
    hmodify p _ fun t ht => Tracked.step_confirmed henv ev ht
  cases o with
  | event env ev =>
    cases ev with
    | start iface netif callbacks userData options allocated =>
      simp only [trackedOperate]
      split_ifs
      · intro t ht
        rcases List.mem_append.mp ht with ht | ht
        · exact h t ht
        · rw [List.mem_singleton.mp ht]
          exact Tracked.start_confirmed env iface netif callbacks userData options
      · exact h
    | datagram iface payload =>
      simp only [trackedOperate]
      cases parseReply payload with
      | none => exact h
      | some r => exact hstep _ env ho _
    | retransmit iface stale => exact hstep _ env ho _
    | leaseTimer iface stale => exact hstep _ env ho _
    | renew iface => exact hstep _ env ho _
  | setCallbacks iface callbacks userData =>
    -- Neither the state nor the lists are touched.
    exact hmodify _ _ fun t ht hend =>
      have ⟨r, hr, hservers⟩ := ht hend
      ⟨r, hr, hservers.dns, hservers.ntp⟩
  | teardown iface => exact fun t ht => h t (List.mem_of_mem_eraseP ht)

/-! ## 6. Whole runs -/

/-- The addresses in the last ACKs of the leases that hold an address, in table order. -/
def confirmedServers (servers : Reply → List Ipv4) (ts : List Tracked) : List Ipv4 :=
  (ts.filter fun t => t.client.lease.state.holdsValidLease).flatMap fun t =>
    (t.lastAck.map servers).getD []

theorem confirmedServers_cons (servers : Reply → List Ipv4) (t : Tracked) (ts : List Tracked) :
    confirmedServers servers (t :: ts) =
      (if t.client.lease.state.holdsValidLease then (t.lastAck.map servers).getD [] else []) ++
        confirmedServers servers ts := by
  unfold confirmedServers
  rw [flatMap_filter_cons]

-- The lists of the held leases are those of their last ACKs.
theorem servedBy_confirmed {list : Lease → List Addr} {servers : Reply → List Ipv4}
    (hlist : ∀ l r, Lease.ServersOf l r → list l = (servers r).map .v4) {ts : List Tracked}
    (h : ∀ t ∈ ts, t.Confirmed) :
    servedBy list (ts.map Tracked.client) = (confirmedServers servers ts).map .v4 := by
  induction ts with
  | nil => rfl
  | cons t ts ih =>
    rw [List.map_cons, servedBy_cons, confirmedServers_cons, List.map_append,
      ih fun t' ht' => h t' (List.mem_cons_of_mem t ht')]
    congr 1
    by_cases hheld : t.client.lease.state.holdsValidLease = true
    · obtain ⟨r, hr, hservers⟩ := h t List.mem_cons_self (State.confirmed_of_holds hheld)
      rw [if_pos hheld, if_pos hheld, hr]
      exact hlist _ r hservers
    · rw [if_neg hheld, if_neg hheld]
      rfl

theorem foldl_trackedOperate (ops : List TableOp) (ts : List Tracked) :
    (ops.foldl trackedOperate ts).map Tracked.client =
      ops.foldl tableOperate (ts.map Tracked.client) := by
  induction ops generalizing ts with
  | nil => rfl
  | cons o os ih => rw [List.foldl_cons, List.foldl_cons, ih, trackedOperate_client]

theorem foldl_trackedOperate_confirmed {ops : List TableOp} (hops : ∀ o ∈ ops, o.StoresAll) :
    ∀ t ∈ ops.foldl trackedOperate [], t.Confirmed := by
  have hrun := (Lts.foldl_run trackedOperate [] ops).guard (fun _ o => o.StoresAll)
    fun o ho _ => hops o ho
  exact hrun.invariant (I := fun ts => ∀ t ∈ ts, t.Confirmed)
    (fun _ _ _ hinv hstep => hstep.1 ▸ trackedOperate_confirmed hstep.2 hinv)
    (fun _ ht => absurd ht List.not_mem_nil)

/-- **Providers report the confirmed configuration.**  After any run over any number of leases in
which no list entry fails to be allocated, with `ts` the table and the last ACK of each lease: every
lease that holds an address has accepted an ACK, and the two visitors and `dmdhcp_get_ntp_servers`
report the addresses of these ACKs, in table order.  The returned `int` is the number of entries
written, as long as that number fits one. -/
theorem providers_report_confirmed (ops : List TableOp) (hops : ∀ o ∈ ops, o.StoresAll) :
    let ts := ops.foldl trackedOperate []
    let leases := ops.foldl tableOperate []
    let dns := confirmedServers Reply.dnsServers ts
    let ntp := confirmedServers Reply.ntpServers ts
    ts.map Tracked.client = leases ∧
      (∀ t ∈ ts, t.client.lease.state.holdsValidLease = true → t.lastAck.isSome = true) ∧
      (∀ (σ : Type) (visit : σ → Addr → σ) (ctx : σ),
        visitDnsServers visit ctx leases = (dns.map .v4).foldl visit ctx) ∧
      (∀ (σ : Type) (visit : σ → Ipv4 → Int × σ), (∀ ctx a, (visit ctx a).1 = 0) → ∀ ctx : σ,
        visitNtpServers visit ctx leases = ntp.foldl (fun ctx a => (visit ctx a).2) ctx) ∧
      ∀ (out : List Addr) (n : Nat), 0 < n → n ≤ out.length →
        getNtpServers (some out) n leases =
          .ok (toCInt (min n ntp.length),
            (ntp.take n).map .v4 ++ out.drop (min n ntp.length)) ∧
        (min n ntp.length < 2 ^ 31 → toCInt (min n ntp.length) = (min n ntp.length : Nat)) := by
  intro ts leases dns ntp
  have hclients : ts.map Tracked.client = leases := foldl_trackedOperate ops []
  have hconfirmed := foldl_trackedOperate_confirmed hops
  have hdns : servedBy Lease.dnsServers leases = dns.map .v4 :=
    hclients ▸ servedBy_confirmed (fun _ _ h => h.dns) hconfirmed
  have hntp : servedBy Lease.ntpServers leases = ntp.map .v4 :=
    hclients ▸ servedBy_confirmed (fun _ _ h => h.ntp) hconfirmed
  refine ⟨hclients, ?_, ?_, ?_, ?_⟩
  · intro t ht hheld
    obtain ⟨r, hr, -⟩ := hconfirmed t ht (State.confirmed_of_holds hheld)
    rw [hr]
    rfl
  · intro σ visit ctx
    rw [visitDnsServers_eq, hdns]
  · intro σ visit hzero ctx
    rw [visitNtpServers_eq visit hzero, hntp, List.filterMap_map]
    show (ntp.filterMap fun a => some a).foldl _ ctx = _
    rw [List.filterMap_some]
  · intro out n hpos hroom
    constructor
    · rw [getNtpServers_eq out n hpos hroom, hntp, List.length_map, List.map_take]
    · exact toCInt_eq

/-- The options of a server that also names two DNS servers and an NTP server; the tail of the first
option is no address. -/
def serverOptions : List DhcpOption :=
  [⟨optDnsServer, [10, 0, 0, 2, 10, 0, 0, 3, 9], by decide⟩,
    ⟨optNtpServer, [10, 0, 0, 4], by decide⟩]

/-- A lease is acquired on interface 1, from an OFFER with other servers than the ACK, while the
lease on interface 2 is still waiting for an OFFER. -/
def serverOps : List TableOp :=
  let env : Env := { quietEnv 7 with dnsRoom := 63, ntpRoom := 63 }
  [.event env (.start 2 blankNetif ⟨true, true, true⟩ 0 none true),
    .event env (.start 1 blankNetif ⟨true, true, true⟩ 0 none true),
    .event env (.datagram 1 (replyPayload .offer 7 ⟨10, 0, 0, 9⟩
      [⟨optDnsServer, [10, 0, 0, 8], by decide⟩])),
    .event env (.retransmit 1 false),
    .event env (.datagram 1 (replyPayload .ack 7 ⟨10, 0, 0, 9⟩ serverOptions)),
    .event env (.retransmit 1 false)]

theorem providers_report_confirmed_acquired :
    (∀ o ∈ serverOps, o.StoresAll) ∧
      visitDnsServers (fun seen a => seen ++ [a]) [] (serverOps.foldl tableOperate []) =
        [.v4 ⟨10, 0, 0, 2⟩, .v4 ⟨10, 0, 0, 3⟩] ∧
      getNtpServers (some [.none, .none]) 2 (serverOps.foldl tableOperate []) =
        .ok (1, [.v4 ⟨10, 0, 0, 4⟩, .none]) := by
  have hops : ∀ o ∈ serverOps, o.StoresAll := by decide
  have hdns : confirmedServers Reply.dnsServers (serverOps.foldl trackedOperate []) =
      [⟨10, 0, 0, 2⟩, ⟨10, 0, 0, 3⟩] := by
    decide +kernel
  have hntp : confirmedServers Reply.ntpServers (serverOps.foldl trackedOperate []) =
      [⟨10, 0, 0, 4⟩] := by
    decide +kernel
  obtain ⟨-, -, hvisit, -, hget⟩ := providers_report_confirmed serverOps hops
  refine ⟨hops, ?_, ?_⟩
  · rw [hvisit, hdns]
    rfl
  · rw [(hget [.none, .none] 2 (by decide) (by decide)).1, hntp]
    rfl

/-! ## 7. A sink that asks to stop

The sink returns zero to go on.  What it returns is looked at in the inner of two loops, and the
`break` there leaves only the servers of one lease: the sink is called again on those of the next. -/

section
variable {σ : Type*}

/-- The calls `dmdhcp_lease_table_visit_ntp_servers` makes, with what the sink returned. -/
def ntpCalls (visit : σ → Ipv4 → Int × σ) (ctx : σ) (leases : List Client) : List (Ipv4 × Int) :=
  (visitNtpServers (Visit.recorded visit) (ctx, []) leases).2

/-- **The sink is not called after it asked to stop, if no lease with NTP servers follows.**  For
every table, sink and context: the calls of the sink are on the first addresses of the sequence and
end with the first result that is not 0, exactly if after the lease with the address at which the
sink, called on the sequence in order, would first ask to stop, no lease that holds an address has
an NTP server to report.  The calls are read off a sink that keeps them, which works on its context
as the sink itself does. -/
theorem stop_honoured_iff (visit : σ → Ipv4 → Int × σ) (ctx : σ) (leases : List Client) :
    (visitNtpServers (Visit.recorded visit) (ctx, []) leases).1 = visitNtpServers visit ctx leases ∧
      (Visit.Honours (· ≠ 0) (ntpCalls visit ctx leases) (ntpAddresses leases) ↔
        ∀ before c after, leases = before ++ c :: after →
          ¬Visit.Stops visit (· ≠ 0) (ntpAddresses before) ctx →
          Visit.Stops visit (· ≠ 0) (ntpAddresses (before ++ [c])) ctx →
          ntpAddresses after = []) := by
  have hrecorded : visitNtpServers (Visit.recorded visit) (ctx, []) leases =
      (visitNtpServers visit ctx leases,
        (Visit.allCalls visit (· ≠ 0) Client.ntpAddresses leases ctx).1) := by
    rw [visitNtpServers_calls, visitNtpServers_calls, Visit.allCalls_recorded, List.nil_append]
  refine ⟨by rw [hrecorded], ?_⟩
  have hcalls : ntpCalls visit ctx leases =
      (Visit.allCalls visit (· ≠ 0) Client.ntpAddresses leases ctx).1 := by
    unfold ntpCalls
    rw [hrecorded]
  simp only [ntpAddresses_eq, hcalls]
  exact Visit.honours_allCalls_iff Client.ntpAddresses leases ctx

end

/-- The two leases of `serverOps`, after the one on interface 2 was acquired too. -/
def twoServerOps : List TableOp :=
  let env : Env := { quietEnv 7 with dnsRoom := 63, ntpRoom := 63 }
  serverOps ++
    [.event env (.datagram 2 (replyPayload .offer 7 ⟨10, 0, 0, 7⟩ [])),
      .event env (.retransmit 2 false),
      .event env (.datagram 2 (replyPayload .ack 7 ⟨10, 0, 0, 7⟩ serverOptions)),
      .event env (.retransmit 2 false)]

/-- A sink that takes one server is called on that of the other lease too. -/
theorem stop_ignored_across_leases :
    let leases := twoServerOps.foldl tableOperate []
    let calls := ntpCalls (fun count _ => (1, count + 1)) 0 leases
    calls = [(⟨10, 0, 0, 4⟩, 1), (⟨10, 0, 0, 4⟩, 1)] ∧
      ¬Visit.Honours (· ≠ 0) calls (ntpAddresses leases) := by
  intro leases calls
  have hcalls : calls = [(⟨10, 0, 0, 4⟩, 1), (⟨10, 0, 0, 4⟩, 1)] := by decide +kernel
  refine ⟨hcalls, fun h => ?_⟩
  have hlast := h.ended [] (⟨10, 0, 0, 4⟩, 1) [(⟨10, 0, 0, 4⟩, 1)] hcalls (by decide)
  cases hlast

end Dmdhcp
