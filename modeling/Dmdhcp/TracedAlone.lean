import Dmdhcp.Traced

/-!
# What the code with its locks computes

With nobody interfering and handlers that do nothing, each operation is the function of the same name
without locks: the traced code refines the model of the other modules.
-/

namespace Dmdhcp.Traced

open Locking

/-! ## 1. One lease -/

/-- The world with `c` as the lease at `id`. -/
def World.put (w : World) (id : LeaseId) (c : Client) : World :=
  { w with leases := Function.update w.leases id c }

section
variable {w : World} {id : LeaseId}

theorem World.put_leases (w : World) (id : LeaseId) (c : Client) :
    (w.put id c).leases id = c := Function.update_self ..

theorem World.put_self (w : World) (id : LeaseId) : w.put id (w.leases id) = w := by
  unfold World.put
  rw [Function.update_eq_self]

theorem World.put_update (w : World) (id : LeaseId) (c : Client) (f : Client → Client) :
    (w.put id c).update id f = w.put id (f c) := by
  unfold World.update World.put
  simp only [Function.update_self, Function.update_idem]

theorem lease_alone (w : World) (id : LeaseId) (c : Client) :
    Alone (lease id) (w.put id c) c (w.put id c) := by
  have h : Alone (lease id) (w.put id c) ((w.put id c).leases id) (w.put id c) :=
    .bind (.read _) (.pure _ _)
  rw [World.put_leases] at h
  exact h

theorem onLease_alone (w : World) (id : LeaseId) (c : Client) (f : Client → Client) :
    Alone (onLease id f) (w.put id c) () (w.put id (f c)) := by
  have h : Alone (onLease id f) (w.put id c) () ((w.put id c).update id f) := .write _ _
  rw [World.put_update] at h
  exact h

theorem withLease_alone {α : Type} {a invalid : α} {body : LeaseId → Code α} {w' : World}
    (hmagic : w.magic id = true) (h : Alone (body id) w a w') :
    Alone (withLease (some id) invalid body) w a w' := by
  apply Alone.bind (.read w)
  rw [if_pos hmagic]
  exact h

theorem invoke_alone (hscript : w.script = []) (isSet : Bool) (id : LeaseId) (c : Client)
    (handler : Handler) : Alone (invoke isSet id handler) (w.put id c) ()
      (w.put id (if isSet then c.emit handler.effect else c)) := by
  unfold invoke
  cases isSet with
  | true =>
    simp only [if_true]
    apply Alone.bind (.call _ _)
    apply Alone.bind (onLease_alone w id c _)
    apply Alone.bind (.read _)
    rw [show (w.put id (c.emit handler.effect)).script = [] from hscript]
    exact .pure _ _
  | false => exact .pure _ _

-- Dropping the lock around a handler changes nothing when nobody comes in between.
theorem invokeUnlocked_alone (hscript : w.script = []) (isSet : Bool) (id : LeaseId) (c : Client)
    (handler : Handler) :
    Alone (do unlock (.lease id); invoke isSet id handler; lock (.lease id)) (w.put id c) ()
      (w.put id (if isSet then c.emit handler.effect else c)) :=
  .bind (.unlock _ _) (.bind (invoke_alone hscript isSet id c handler) (.lock _ _))

/-- What a locked section leaves, done at once. -/
def finished (env : Env) (r : Client × After) : Client := r.2.finish env r.1

theorem handleConflict_alone (hscript : w.script = []) (id : LeaseId) (c : Client) :
    Alone (handleConflict id) (w.put id c) ()
      (w.put id (finished w.env (Dmdhcp.handleConflict w.env c))) := by
  unfold handleConflict finished Dmdhcp.handleConflict
  apply Alone.bind (.read _)
  apply Alone.bind (onLease_alone w id c _)
  apply Alone.bind (lease_alone w id _)
  rw [show (w.put id c).env = w.env from rfl]
  dsimp only
  generalize (sendDecline w.env c).update _ = declined
  split_ifs
  · apply Alone.bind (onLease_alone w id declined _)
    exact invokeUnlocked_alone hscript _ id _ _
  · exact onLease_alone w id declined _

theorem runConflictProbe_alone (hscript : w.script = []) (id : LeaseId) (c : Client) :
    Alone (runConflictProbe id) (w.put id c) ()
      (w.put id (finished w.env (Dmdhcp.runConflictProbe w.env c))) := by
  unfold runConflictProbe finished Dmdhcp.runConflictProbe
  apply Alone.bind (.read _)
  apply Alone.bind (onLease_alone w id c _)
  apply Alone.bind (lease_alone w id _)
  rw [show (w.put id c).env = w.env from rfl]
  dsimp only
  generalize c.emit _ = probed
  split_ifs
  · exact handleConflict_alone hscript id probed
  · exact onLease_alone w id probed _
  · apply Alone.bind (onLease_alone w id probed _)
    have h := invokeUnlocked_alone hscript probed.lease.callbacks.onBound id
      (commitLease w.env probed) (.onBound false)
    obtain ⟨configured, route, hl⟩ := commitLease_lease w.env probed
    rw [After.finish, callOnBound, hl]
    exact h

theorem retransmitSwitch_alone (hscript : w.script = []) (id : LeaseId) (c : Client) :
    Alone (retransmitSwitch id) (w.put id c) ()
      (w.put id (finished w.env (retransmitTimerSection w.env c))) := by
  unfold retransmitSwitch finished retransmitTimerSection
  apply Alone.bind (.read _)
  rw [World.put_leases, show (w.put id c).env = w.env from rfl]
  cases c.lease.state with
  | checkingOffer => exact runConflictProbe_alone hscript id c
  | checkingAck => exact runConflictProbe_alone hscript id c
  | init => exact .pure _ _
  | initReboot => exact .pure _ _
  | bound => exact .pure _ _
  | failed => exact .pure _ _
  | _ => exact onLease_alone w id c _

/-- **The retransmit timer with its locks.** -/
theorem retransmitTimerCallback_alone (hscript : w.script = []) (hmagic : w.magic id = true)
    (c : Client) : Alone (retransmitTimerCallback id) (w.put id c) ()
      (w.put id (Dmdhcp.retransmitTimerCallback w.env c)) := by
  apply withLease_alone (w := w.put id c) hmagic
  apply Alone.bind (.lock _ _)
  exact .bind (retransmitSwitch_alone hscript id c) (.unlock _ _)

theorem lifecycleHandleLost_alone (hscript : w.script = []) (id : LeaseId) (c : Client) :
    Alone (lifecycleHandleLost id) (w.put id c) ()
      (w.put id (Dmdhcp.lifecycleHandleLost w.env c)) := by
  apply Alone.bind (.lock _ _)
  apply Alone.bind (.read _)
  apply Alone.bind (onLease_alone w id c _)
  apply Alone.bind (lease_alone w id _)
  apply Alone.bind (.unlock _ _)
  apply Alone.bind (invoke_alone hscript _ id _ _)
  apply Alone.bind (.lock _ _)
  apply Alone.bind (.read _)
  exact .bind (onLease_alone w id _ _) (.unlock _ _)

/-- **The lease timer with its locks.** -/
theorem leaseTimerCallback_alone (hscript : w.script = []) (hmagic : w.magic id = true)
    (c : Client) : Alone (leaseTimerCallback id) (w.put id c) ()
      (w.put id (Dmdhcp.leaseTimerCallback w.env c)) := by
  apply withLease_alone (w := w.put id c) hmagic
  apply Alone.bind (.lock _ _)
  apply Alone.bind (.read _)
  show Alone _ _ () (w.put id (finished w.env (leaseTimerSection w.env c)))
  unfold finished leaseTimerSection
  rw [World.put_leases, show (w.put id c).env = w.env from rfl]
  dsimp only
  split_ifs
  · exact .bind (onLease_alone w id c _) (.unlock _ _)
  · exact .bind (onLease_alone w id c _) (.unlock _ _)
  · exact .bind (.unlock _ _) (lifecycleHandleLost_alone hscript id c)
  · exact .unlock _ _

theorem dispatch_alone (hscript : w.script = []) (id : LeaseId) (r : Reply) (msgType : UInt8)
    (c : Client) : Alone (dispatch id r msgType) (w.put id c) ()
      (w.put id (finished w.env (datagramSection w.env r msgType c))) := by
  unfold dispatch finished datagramSection
  apply Alone.bind (.lock _ _)
  apply Alone.bind (.read _)
  rw [World.put_leases, show (w.put id c).env = w.env from rfl]
  dsimp only
  split_ifs
  · exact .bind (onLease_alone w id c _) (.unlock _ _)
  · exact .bind (onLease_alone w id c _) (.unlock _ _)
  · exact .bind (onLease_alone w id c _) (.unlock _ _)
  · apply Alone.bind (onLease_alone w id c _)
    apply Alone.bind (.unlock _ _)
    have h := invoke_alone hscript c.lease.callbacks.onBound id (acceptRenewal w.env r c)
      (.onBound true)
    -- The handler read before the section is the one the section leaves.
    obtain ⟨configured, route, hl⟩ :=
      commitLease_lease w.env (c.update (populateLeaseFromOptions w.env r.msg r.options))
    rw [After.finish, callOnBound, show (acceptRenewal w.env r c).lease = _ from hl]
    exact h
  · exact .bind (.unlock _ _) (lifecycleHandleLost_alone hscript id c)
  · exact .unlock _ _

/-! ## 2. Datagrams and the table -/

/-- The leases in table order. -/
def World.clients (w : World) : List Client := w.table.map w.leases

-- Changing the lease found first is changing the first match.
theorem World.put_clients {p : Client → Bool} {f : Client → Client} {ids : List LeaseId}
    (hnodup : ids.Nodup) (hfind : ids.find? (fun id => p (w.leases id)) = some id) :
    ids.map (w.put id (f (w.leases id))).leases = modifyFirst p f (ids.map w.leases) := by
  induction ids with
  | nil => cases hfind
  | cons i ids ih =>
    rw [List.find?_cons] at hfind
    rw [List.map_cons, List.map_cons, modifyFirst]
    cases hp : p (w.leases i) with
    | true =>
      rw [hp] at hfind
      obtain rfl := Option.some.inj hfind
      rw [if_pos rfl, World.put_leases]
      congr 1
      apply List.map_congr_left
      intro j hj
      -- No lease is listed twice, so the rest of the table is not touched.
      have hne : j ≠ i := fun h => (List.nodup_cons.mp hnodup).1 (h ▸ hj)
      exact Function.update_of_ne hne _ _
    | false =>
      rw [hp] at hfind
      rw [if_neg Bool.false_ne_true, ih (List.nodup_cons.mp hnodup).2 hfind]
      congr 1
      -- The entry that was passed over does not match, so it is not the one found.
      refine Function.update_of_ne (fun h => ?_) _ _
      have hpid := List.find?_some hfind
      rw [← h, hp] at hpid
      cases hpid

theorem World.modifyFirst_clients_of_none {p : Client → Bool} {f : Client → Client}
    {ids : List LeaseId} (hfind : ids.find? (fun id => p (w.leases id)) = none) :
    modifyFirst p f (ids.map w.leases) = ids.map w.leases := by
  apply modifyFirst_eq_self
  intro a ha
  rw [List.find?_map, show (p ∘ w.leases) = fun id => p (w.leases id) from rfl, hfind] at ha
  cases ha

/-- **A datagram with its locks.** -/
theorem handleDatagram_alone (hscript : w.script = []) (hnodup : w.table.Nodup) (iface : Iface)
    (payload : List UInt8) : ∃ w', Alone (handleDatagram iface payload) w () w' ∧
      w'.table = w.table ∧ w'.magic = w.magic ∧ w'.script = w.script ∧
      w'.clients = Dmdhcp.handleDatagram w.env iface payload w.clients := by
  unfold handleDatagram Dmdhcp.handleDatagram
  cases parseReply payload with
  | none => exact ⟨w, .pure _ _, rfl, rfl, rfl, rfl⟩
  | some r =>
    have hfound : Alone (findByXid iface r.msg.xid) w
        (w.table.find? fun id => (w.leases id).matchesXid iface r.msg.xid) w :=
      .bind (.lock _ w) (.bind (.read w) (.bind (.unlock _ w) (.pure _ _)))
    cases hfind : w.table.find? fun id => (w.leases id).matchesXid iface r.msg.xid with
    | none =>
      rw [hfind] at hfound
      exact ⟨w, .bind hfound (.pure _ _), rfl, rfl, rfl,
        (World.modifyFirst_clients_of_none hfind).symm⟩
    | some id =>
      rw [hfind] at hfound
      cases htype : messageType r.options with
      | none =>
        -- Without a message type the lease that was found is left alone.
        refine ⟨w, .bind hfound (by rw [htype]; exact .pure _ _), rfl, rfl, rfl, ?_⟩
        symm
        apply modifyFirst_eq_self
        intro a _
        rw [handleReply, htype]
      | some msgType =>
        have hdispatch := dispatch_alone hscript id r msgType (w.leases id)
        have hreply : finished w.env (datagramSection w.env r msgType (w.leases id)) =
            handleReply w.env r (w.leases id) := by
          rw [handleReply, htype]
          rfl
        rw [World.put_self, hreply] at hdispatch
        refine ⟨w.put id (handleReply w.env r (w.leases id)),
          .bind hfound (by rw [htype]; exact hdispatch), rfl, rfl, rfl, ?_⟩
        exact World.put_clients hnodup hfind

/-! ## 3. The public operations -/

/-- **`dmdhcp_renew` and `dmdhcp_set_callbacks` with their locks.** -/
theorem renew_alone (hmagic : w.magic id = true) (c : Client) :
    Alone (renew (some id)) (w.put id c) (.ok ()) (w.put id (c.renew w.env)) := by
  apply withLease_alone (w := w.put id c) hmagic
  apply Alone.bind (.lock _ _)
  apply Alone.bind (.read _)
  apply Alone.bind (onLease_alone w id c _)
  exact .bind (.unlock _ _) (.pure _ _)

theorem setCallbacks_alone (hmagic : w.magic id = true) (callbacks : Option Callbacks)
    (userData : Nat) (c : Client) :
    Alone (setCallbacks (some id) callbacks userData) (w.put id c) (.ok ())
      (w.put id (c.setCallbacks callbacks userData)) := by
  apply withLease_alone (w := w.put id c) hmagic
  apply Alone.bind (.lock _ _)
  apply Alone.bind (onLease_alone w id c _)
  exact .bind (.unlock _ _) (.pure _ _)

/-- The world without the lease at `id`, whose memory holds `c`. -/
def World.gone (w : World) (id : LeaseId) (c : Client) : World :=
  { w.put id c with
    table := w.table.erase id
    magic := Function.update w.magic id false }

theorem remove_alone (w : World) (id : LeaseId) :
    Alone (remove id) w () { w with table := w.table.erase id } :=
  .bind (.lock _ w) (.bind (.write _ w) (.unlock _ _))

/-- **`dmdhcp_stop` and `dmdhcp_release` with their locks.** -/
theorem stop_alone (hmagic : w.magic id = true) (c : Client) :
    Alone (stop (some id)) (w.put id c) () (w.gone id (stopSection w.env c)) := by
  apply withLease_alone (w := w.put id c) hmagic
  apply Alone.bind (remove_alone _ id)
  apply Alone.bind (.lock _ _)
  apply Alone.bind (.read _)
  apply Alone.bind (onLease_alone { w with table := w.table.erase id } id c _)
  exact .bind (.unlock _ _) (.write _ _)

theorem release_alone (hmagic : w.magic id = true) (c : Client) :
    Alone (release (some id)) (w.put id c) (.ok ()) (w.gone id (releaseSection w.env c)) := by
  apply withLease_alone (w := w.put id c) hmagic
  apply Alone.bind (remove_alone _ id)
  apply Alone.bind (.lock _ _)
  apply Alone.bind (.read _)
  apply Alone.bind (onLease_alone { w with table := w.table.erase id } id c _)
  exact .bind (.unlock _ _) (.bind (.write _ _) (.pure _ _))

/-- The world after `create` has filled the lease at `id`. -/
def World.created (w : World) (id : LeaseId) (c : Client) : World :=
  { w.put id c with magic := Function.update w.magic id true }

theorem create_alone (hfresh : w.fresh = some id) (iface : Iface) (netif : Netif)
    (callbacks : Option Callbacks) (userData : Nat) (options : Option StartOptions) :
    Alone (create iface netif callbacks userData options) w (some id)
      (w.created id (Client.create iface netif (callbacks.getD ⟨false, false, false⟩) userData
        (options.bind StartOptions.hostname))) := by
  apply Alone.bind (.read w)
  rw [hfresh]
  exact .bind (.write _ w) (.pure _ _)

-- An interface that no lease of the table has, and room for one more.
theorem insert_alone {c : Client} (hnew : id ∉ w.table) (hpushed : w.pushed = true)
    (hfree : findByIface w.clients c.lease.iface = none) :
    Alone (insert id) (w.created id c) (.ok ())
      { w.created id c with table := w.table ++ [id] } := by
  have htaken : ((w.created id c).table.any fun other =>
      ((w.created id c).leases other).lease.iface ==
        ((w.created id c).leases id).lease.iface) = false := by
    rw [show (w.created id c).leases id = c from World.put_leases w id c]
    rw [List.any_eq_false]
    intro other hother
    have hne : other ≠ id := fun h => hnew (h ▸ hother)
    rw [show (w.created id c).leases other = w.leases other from Function.update_of_ne hne _ _]
    exact List.find?_eq_none.mp hfree _ (List.mem_map_of_mem hother)
  unfold insert
  apply Alone.bind (.lock _ _)
  apply Alone.bind (.read _)
  rw [htaken, show (w.created id c).pushed = true from hpushed]
  exact .bind (.write _ _) (.bind (.unlock _ _) (.pure _ _))

/-- **`dmdhcp_start` with its locks.** -/
theorem start_alone {iface : Iface} (hfresh : w.fresh = some id) (hnew : id ∉ w.table)
    (hpushed : w.pushed = true) (hfree : findByIface w.clients iface = none) (netif : Netif)
    (callbacks : Option Callbacks) (userData : Nat) (options : Option StartOptions) :
    ∃ w', Alone (start (some iface) netif callbacks userData options) w (some id) w' ∧
      w'.table = w.table ++ [id] ∧ w'.magic = Function.update w.magic id true ∧
      w'.script = w.script ∧ w'.clients = w.clients ++ [Client.start w.env iface netif
        (callbacks.getD ⟨false, false, false⟩) userData options] := by
  let c := Client.create iface netif (callbacks.getD ⟨false, false, false⟩) userData
    (options.bind StartOptions.hostname)
  let inserted : World := { w.created id c with table := w.table ++ [id] }
  have hput : inserted.put id c = inserted := by
    show World.put inserted id c = inserted
    conv_rhs => rw [← World.put_self inserted id]
    rw [show inserted.leases id = c from World.put_leases w id c]
  have hsection := onLease_alone inserted id c (startSection w.env options)
  rw [hput] at hsection
  refine ⟨inserted.put id (startSection w.env options c), ?_, rfl, rfl, rfl, ?_⟩
  · apply Alone.bind (create_alone hfresh iface netif callbacks userData options)
    apply Alone.bind (insert_alone hnew hpushed hfree)
    apply Alone.bind (.lock _ _)
    apply Alone.bind (.read _)
    apply Alone.bind hsection
    exact .bind (.unlock _ _) (.pure _ _)
  · unfold World.clients
    rw [show (inserted.put id (startSection w.env options c)).table = w.table ++ [id] from rfl,
      List.map_append, List.map_singleton, World.put_leases]
    congr 1
    apply List.map_congr_left
    intro other hother
    have hne : other ≠ id := fun h => hnew (h ▸ hother)
    exact (Function.update_of_ne hne _ _).trans (Function.update_of_ne hne _ _)

/-! ## 4. The walks over the table -/

section
variable {τ : Type}

theorem sinkDns_alone (visit : τ → Addr → τ) (w : World) (id : LeaseId) (servers : List Addr)
    (ctx : τ) : Alone (sinkDns visit id servers ctx) w (servers.foldl visit ctx) w := by
  induction servers generalizing ctx with
  | nil => exact .pure _ _
  | cons a rest ih => exact .bind (.call _ w) (ih _)

theorem sinkNtp_alone (visit : τ → Ipv4 → Int × τ) (w : World) (id : LeaseId)
    (servers : List Addr) (ctx : τ) :
    Alone (sinkNtp visit id servers ctx) w (Dmdhcp.visitLeaseNtpServers visit servers ctx) w := by
  induction servers generalizing ctx with
  | nil => exact .pure _ _
  | cons a rest ih =>
    cases a with
    | none => exact ih ctx
    | v6 a => exact ih ctx
    | v4 a =>
      apply Alone.bind (.call _ w)
      show Alone _ w (if (visit ctx a).1 ≠ 0 then (visit ctx a).2
        else Dmdhcp.visitLeaseNtpServers visit rest (visit ctx a).2) w
      -- The loop ends here if the sink returned something else than 0.
      split_ifs
      · exact .pure _ _
      · exact ih _

-- A walk that leaves each lease as it is computes a fold over the table.
theorem visitTable_alone {visitLease : LeaseId → τ → Code τ} {step : τ → Client → τ}
    (hstep : ∀ id ctx, Alone (visitLease id ctx) w (step ctx (w.leases id)) w)
    (hmagic : ∀ id ∈ w.table, w.magic id = true) (ctx : τ) :
    Alone (visitTable visitLease ctx) w (w.clients.foldl step ctx) w := by
  have heach (ids : List LeaseId) (hids : ∀ id ∈ ids, w.magic id = true) (ctx : τ) :
      Alone (visitEach visitLease ids ctx) w ((ids.map w.leases).foldl step ctx) w := by
    induction ids generalizing ctx with
    | nil => exact .pure _ _
    | cons id rest ih =>
      apply Alone.bind (.read w)
      rw [if_pos (hids id List.mem_cons_self)]
      apply Alone.bind (.lock _ w)
      apply Alone.bind (hstep id ctx)
      apply Alone.bind (.unlock _ w)
      exact ih (fun i hi => hids i (List.mem_cons_of_mem id hi)) _
  apply Alone.bind (.lock _ w)
  apply Alone.bind (.read w)
  exact .bind (heach w.table hmagic ctx) (.bind (.unlock _ w) (.pure _ _))

/-- **The visitors with their locks.** -/
theorem visitDnsServers_alone (hmagic : ∀ id ∈ w.table, w.magic id = true)
    (visit : τ → Addr → τ) (ctx : τ) :
    Alone (visitDnsServers visit ctx) w (Dmdhcp.visitDnsServers visit ctx w.clients) w := by
  apply visitTable_alone _ hmagic ctx
  intro id ctx
  apply Alone.bind (.bind (.read w) (.pure w (w.leases id)))
  unfold Dmdhcp.visitLeaseDnsServers
  split_ifs
  · exact sinkDns_alone visit w id _ ctx
  · exact .pure _ _

theorem visitNtpServers_alone (hmagic : ∀ id ∈ w.table, w.magic id = true)
    (visit : τ → Ipv4 → Int × τ) (ctx : τ) :
    Alone (visitNtpServers visit ctx) w (Dmdhcp.visitNtpServers visit ctx w.clients) w := by
  apply visitTable_alone _ hmagic ctx
  intro id ctx
  apply Alone.bind (.bind (.read w) (.pure w (w.leases id)))
  split_ifs
  · exact sinkNtp_alone visit w id _ ctx
  · exact .pure _ _

end

theorem getNtpServers_alone (hmagic : ∀ id ∈ w.table, w.magic id = true)
    (out : Option (List Addr)) (maxCount : Nat) :
    Alone (getNtpServers out maxCount) w (Dmdhcp.getNtpServers out maxCount w.clients) w := by
  have hcopy (ids : List LeaseId) (hids : ∀ id ∈ ids, w.magic id = true) (s : List Addr × Nat) :
      Alone (copyAllNtpServers maxCount ids s) w
        (Dmdhcp.copyAllNtpServers maxCount (ids.map w.leases) s) w := by
    induction ids generalizing s with
    | nil => exact .pure _ _
    | cons id rest ih =>
      rw [copyAllNtpServers, List.map_cons, Dmdhcp.copyAllNtpServers]
      by_cases hroom : s.2 < maxCount
      · rw [if_pos hroom, if_pos hroom]
        apply Alone.bind (.read w)
        rw [if_pos (hids id List.mem_cons_self)]
        apply Alone.bind (.lock _ w)
        apply Alone.bind (.bind (.read w) (.pure w (w.leases id)))
        apply Alone.bind (.unlock _ w)
        exact ih (fun i hi => hids i (List.mem_cons_of_mem id hi)) _
      · rw [if_neg hroom, if_neg hroom]
        exact .pure _ _
  cases out with
  | none => exact .pure _ _
  | some out =>
    unfold getNtpServers Dmdhcp.getNtpServers
    dsimp only
    split_ifs
    · exact .pure _ _
    · apply Alone.bind (.lock _ w)
      apply Alone.bind (.read w)
      apply Alone.bind (hcopy w.table hmagic (out, 0))
      exact .bind (.unlock _ w) (.pure _ _)

end

end Dmdhcp.Traced
