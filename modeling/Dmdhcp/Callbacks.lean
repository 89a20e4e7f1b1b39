import Mathlib.Computability.Language
import Dmdhcp.Reactions
import Dmdhcp.Mirror

/-!
# The callback protocol

Callbacks run between the locked sections of an operation, and may themselves call into the module.
A `Session` is a lease together with the invocations of its callbacks and the client each of them
found; what the callbacks of a step do is a script of calls.  The order of the invocations is a
regular language, tied to the state of the lease by three phases.
-/

open scoped Computability

namespace Dmdhcp

/-! ## 1. Sessions -/

/-- A member of `dmdhcp_callbacks_t`, with the arguments it is called with. -/
inductive Callback
  | onBound (isRenewal : Bool)
  | onExpiredOrLost
  | onError (error : Errno)
  deriving DecidableEq, Repr

def Callback.isSet (callbacks : Callbacks) : Callback → Bool
  | .onBound _ => callbacks.onBound
  | .onExpiredOrLost => callbacks.onExpiredOrLost
  | .onError _ => callbacks.onError

def Callback.call : Callback → Client → Client
  | .onBound isRenewal => callOnBound isRenewal
  | .onExpiredOrLost => callOnExpiredOrLost
  | .onError error => callOnError error

/-- What the application may call, from a callback or on its own.  The accessors read the lease and
leave it as it is. -/
inductive UserCall
  | accessor
  | setCallbacks (callbacks : Option Callbacks) (userData : Nat)
  | renew (env : Env)
  deriving DecidableEq, Repr

def Client.serve (c : Client) : UserCall → Client
  | .accessor => c
  | .setCallbacks callbacks userData => c.setCallbacks callbacks userData
  | .renew env => c.renew env

/-- A callback that was called, and the client as it was then. -/
structure Invocation where
  callback : Callback
  found : Client
  deriving DecidableEq, Repr

/-- A lease and the invocations of its callbacks, newest first. -/
structure Session where
  client : Client
  invocations : List Invocation
  deriving DecidableEq, Repr

/-- The callbacks called so far, oldest first. -/
def Session.trace (s : Session) : List Callback := (s.invocations.map Invocation.callback).reverse

/-- Call a callback, if it is set, and let it make its calls. -/
def Session.invoke (callback : Callback) (script : List UserCall) (s : Session) : Session :=
  if callback.isSet s.client.lease.callbacks then
    { client := script.foldl Client.serve (callback.call s.client)
      invocations := ⟨callback, s.client⟩ :: s.invocations }
  else s

/-- What a locked section leaves to be done, with a callback that makes calls of its own. -/
def After.deliver (env : Env) (script : List UserCall) : After → Session → Session
  | .done, s => s
  | .onBound isRenewal, s => s.invoke (.onBound isRenewal) script
  | .onError error, s => s.invoke (.onError error) script
  | .lost, s =>
    -- The second locked section of `dmdhcp_lifecycle_handle_lost` finds what the callback left.
    let s := Session.invoke .onExpiredOrLost script { s with client := lostUnapply env s.client }
    { s with client := lostRestart env s.client }

/-- An event with what the callback it may lead to does, or a call of the application. -/
inductive SessionOp
  | event (env : Env) (ev : Event) (script : List UserCall)
  | call (u : UserCall)
  deriving DecidableEq, Repr

def Session.step (s : Session) : SessionOp → Session
  | .event env ev script =>
    let (c, after) := s.client.eventSection env ev
    after.deliver env script { s with client := c }
  | .call u => { s with client := s.client.serve u }

/-- `dmdhcp_start` with all three callbacks set. -/
def Session.start (env : Env) (iface : Iface) (netif : Netif) (userData : Nat)
    (options : Option StartOptions) : Session where
  client := Client.start env iface netif ⟨true, true, true⟩ userData options
  invocations := []

/-- The call leaves all three callbacks set. -/
def UserCall.KeepsCallbacks : UserCall → Prop
  | .setCallbacks callbacks _ => callbacks = some ⟨true, true, true⟩
  | _ => True

/-- The callbacks stay set. -/
def SessionOp.KeepsCallbacks : SessionOp → Prop
  | .event _ _ script => ∀ u ∈ script, u.KeepsCallbacks
  | .call u => u.KeepsCallbacks

/-- Every `dmnetif_set_*` call succeeds. -/
def SessionOp.SetsSucceed : SessionOp → Prop
  | .event env _ _ => env.SetsSucceed
  | .call _ => True

instance : DecidablePred UserCall.KeepsCallbacks
  | .accessor => isTrue trivial
  | .setCallbacks callbacks _ => inferInstanceAs (Decidable (callbacks = some ⟨true, true, true⟩))
  | .renew _ => isTrue trivial

instance : DecidablePred SessionOp.KeepsCallbacks
  | .event _ _ script => inferInstanceAs (Decidable (∀ u ∈ script, u.KeepsCallbacks))
  | .call u => inferInstanceAs (Decidable u.KeepsCallbacks)

instance : DecidablePred SessionOp.SetsSucceed
  | .event env _ _ => inferInstanceAs (Decidable env.SetsSucceed)
  | .call _ => isTrue trivial

/-! ## 2. The language -/

/-- A first bind and its renewals. -/
def openPeriod : Language Callback := {[.onBound false]} * {[.onBound true]}∗

/-- A bound period, closed by the loss of the lease. -/
def boundPeriod : Language Callback := openPeriod * {[.onExpiredOrLost]}

/-- `(on_bound(false) on_bound(true)* on_expired_or_lost)* (on_error)?` -/
def callbackProtocol : Language Callback :=
  boundPeriod∗ * (1 + {[.onError .eaddrinuse]})

/-- Where a lease stands in the protocol. -/
inductive Phase
  | outside
  | inside
  | ended
  deriving DecidableEq, Repr

def State.phase : State → Phase
  | .bound => .inside
  | .renewing => .inside
  | .rebinding => .inside
  | .failed => .ended
  | _ => .outside

/-- The callbacks that lead to a phase. -/
def Phase.words : Phase → Language Callback
  | .outside => boundPeriod∗
  | .inside => boundPeriod∗ * openPeriod
  | .ended => boundPeriod∗ * {[.onError .eaddrinuse]}

/-- The moves of the protocol: the callbacks one step calls, and the phase it leads to. -/
inductive Phase.Calls : Phase → List Callback → Phase → Prop
  | none (p : Phase) : Calls p [] p
  | bind : Calls .outside [.onBound false] .inside
  | renew : Calls .inside [.onBound true] .inside
  | lose : Calls .inside [.onExpiredOrLost] .outside
  | fail : Calls .outside [.onError .eaddrinuse] .ended

-- `on_error` is called exactly when the protocol ends.
theorem Phase.Calls.error_iff {p q : Phase} {v : List Callback} (h : p.Calls v q) :
    (∃ e, .onError e ∈ v) ↔ p ≠ .ended ∧ q = .ended := by
  cases h with
  | none p => simp
  | bind => simp
  | renew => simp
  | lose => simp
  | fail => exact ⟨fun _ => ⟨nofun, rfl⟩, fun _ => ⟨_, List.mem_cons_self⟩⟩

section
variable {w : List Callback}

theorem words_first (h : w ∈ Phase.outside.words) : w ++ [.onBound false] ∈ Phase.inside.words := by
  apply Language.append_mem_mul h
  exact Language.append_mem_mul (a := [Callback.onBound false]) rfl (Language.nil_mem_kstar _)

theorem kstar_append {l : Language Callback} {v : List Callback} (h : w ∈ l∗) (hv : v ∈ l) :
    w ++ v ∈ l∗ :=
  kstar_mul_le_kstar (a := l) (Language.append_mem_mul h hv)

theorem words_renewal (h : w ∈ Phase.inside.words) : w ++ [.onBound true] ∈ Phase.inside.words := by
  -- The renewal goes to the end of the open period.
  obtain ⟨periods, hperiods, current, hcurrent, rfl⟩ := Language.mem_mul.mp h
  obtain ⟨first, hfirst, renewals, hrenewals, rfl⟩ := Language.mem_mul.mp hcurrent
  rw [List.append_assoc, List.append_assoc]
  exact Language.append_mem_mul hperiods
    (Language.append_mem_mul hfirst (kstar_append hrenewals rfl))

theorem words_lost (h : w ∈ Phase.inside.words) : w ++ [.onExpiredOrLost] ∈ Phase.outside.words := by
  obtain ⟨periods, hperiods, current, hcurrent, rfl⟩ := Language.mem_mul.mp h
  rw [List.append_assoc]
  exact kstar_append hperiods (Language.append_mem_mul hcurrent rfl)

theorem words_error (h : w ∈ Phase.outside.words) :
    w ++ [.onError .eaddrinuse] ∈ Phase.ended.words :=
  Language.append_mem_mul h rfl

theorem Phase.Calls.words {p q : Phase} {v : List Callback} (h : p.Calls v q) (hw : w ∈ p.words) :
    w ++ v ∈ q.words := by
  cases h with
  | none p =>
    rw [List.append_nil]
    exact hw
  | bind => exact words_first hw
  | renew => exact words_renewal hw
  | lose => exact words_lost hw
  | fail => exact words_error hw

-- Whatever has been called can be completed to a word of the protocol.
theorem Phase.words_isPrefix {p : Phase} (h : w ∈ p.words) : ∃ v ∈ callbackProtocol, w <+: v := by
  have hone : ([] : List Callback) ∈ (1 + {[.onError .eaddrinuse]} : Language Callback) :=
    (Language.mem_add _ _ _).mpr (.inl Language.nil_mem_one)
  cases p with
  | outside => exact ⟨w ++ [], Language.append_mem_mul h hone, List.prefix_append _ _⟩
  | inside =>
    -- The open period is completed by its loss.
    refine ⟨w ++ [.onExpiredOrLost] ++ [], Language.append_mem_mul (words_lost h) hone, ?_⟩
    rw [List.append_assoc]
    exact List.prefix_append _ _
  | ended =>
    obtain ⟨periods, hperiods, last, hlast, rfl⟩ := Language.mem_mul.mp h
    refine ⟨periods ++ last, Language.append_mem_mul hperiods ?_, List.prefix_rfl⟩
    exact (Language.mem_add _ _ _).mpr (.inr hlast)

theorem openPeriod_no_error (h : w ∈ openPeriod) (e : Errno) : .onError e ∉ w := by
  obtain ⟨first, hfirst, renewals, hrenewals, rfl⟩ := Language.mem_mul.mp h
  obtain ⟨ws, rfl, hws⟩ := Language.mem_kstar.mp hrenewals
  intro hmem
  rcases List.mem_append.mp hmem with hmem | hmem
  · rw [show first = [.onBound false] from hfirst] at hmem
    simp at hmem
  · obtain ⟨y, hy, he⟩ := List.mem_flatten.mp hmem
    rw [show y = [.onBound true] from hws y hy] at he
    simp at he

theorem boundPeriods_no_error (h : w ∈ boundPeriod∗) (e : Errno) : .onError e ∉ w := by
  obtain ⟨ws, rfl, hws⟩ := Language.mem_kstar.mp h
  intro hmem
  obtain ⟨period, hperiod, he⟩ := List.mem_flatten.mp hmem
  obtain ⟨body, hbody, last, hlast, rfl⟩ := Language.mem_mul.mp (hws period hperiod)
  rcases List.mem_append.mp he with he | he
  · exact openPeriod_no_error hbody e he
  · rw [show last = [.onExpiredOrLost] from hlast] at he
    simp at he

-- `on_error` closes the protocol: nothing follows it, and what precedes it are complete periods.
theorem Phase.words_error_last {p : Phase} (h : w ∈ p.words) {before after : List Callback}
    {e : Errno} (heq : w = before ++ .onError e :: after) :
    p = .ended ∧ before ∈ boundPeriod∗ ∧ after = [] := by
  have hmem : .onError e ∈ w := by rw [heq]; simp
  cases p with
  | outside => exact absurd hmem (boundPeriods_no_error h e)
  | inside =>
    obtain ⟨periods, hperiods, current, hcurrent, rfl⟩ := Language.mem_mul.mp h
    rcases List.mem_append.mp hmem with hmem | hmem
    · exact absurd hmem (boundPeriods_no_error hperiods e)
    · exact absurd hmem (openPeriod_no_error hcurrent e)
  | ended =>
    obtain ⟨periods, hperiods, last, hlast, rfl⟩ := Language.mem_mul.mp h
    rw [show last = [.onError .eaddrinuse] from hlast] at heq
    -- The error is not among the periods, so it is the last callback.
    rcases List.append_eq_append_iff.mp heq with ⟨rest, hb, hr⟩ | ⟨rest, hp, hr⟩
    · have hnil : rest = [] := by
        cases rest with
        | nil => rfl
        | cons x xs => simp at hr
      rw [hnil, List.nil_append] at hr
      rw [hb, hnil, List.append_nil]
      exact ⟨rfl, hperiods, (List.cons.inj hr).2.symm⟩
    · have hnil : rest = [] := by
        cases rest with
        | nil => rfl
        | cons x xs =>
          have hx := (List.cons.inj hr).1
          rw [hp, ← hx] at hperiods
          exact absurd (by simp) (boundPeriods_no_error hperiods e)
      rw [hnil, List.nil_append] at hr
      rw [hp, hnil, List.append_nil] at hperiods
      exact ⟨rfl, hperiods, (List.cons.inj hr).2⟩

end

/-! ## 3. One step -/

/-- How the locked section of an event moves the phase, by what it leaves to be done. -/
inductive Phase.Moves : Phase → After → Phase → Prop
  | stay (p : Phase) : Moves p .done p
  | bind : Moves .outside (.onBound false) .inside
  | renew : Moves .inside (.onBound true) .inside
  | fail : Moves .outside (.onError .eaddrinuse) .ended
  | lose : Moves .inside .lost .inside

theorem State.phase_of_held {s : State} (h : s.holdsValidLease = true) : s.phase = .inside := by
  rcases State.holdsValidLease_iff.mp h with rfl | rfl | rfl <;> rfl

theorem Reaction.phase {env : Env} {ev : Event} {c c₁ : Client} {after : After}
    (h : Reaction env ev c c₁ after) : c.lease.state.phase.Moves after c₁.lease.state.phase := by
  -- A section that leaves nothing to be done does not change the phase.
  have hstay (heq : c₁.lease.state.phase = c.lease.state.phase) (hdone : after = .done) :
      c.lease.state.phase.Moves after c₁.lease.state.phase := by
    rw [heq, hdone]
    exact .stay _
  cases h with
  | idle hr hl => exact hstay rfl rfl
  | offer r hd hs => exact hstay (by rw [acceptForProbe_lease, hs]; rfl) rfl
  | ack r hd hs =>
    rcases hs with hs | hs
    · exact hstay (by rw [acceptForProbe_lease, hs]; rfl) rfl
    · exact hstay (by rw [acceptForProbe_lease, hs]; rfl) rfl
  -- Discovery restarts silently only where no period is open.
  | restart hover =>
    rcases hover with ⟨-, hs | hs⟩ | ⟨-, ⟨hs | hs, -⟩ | hs⟩ <;>
      exact hstay (by rw [outputStartDiscovery_lease, hs]; rfl) rfl
  | renewed r hd hs =>
    rw [show c.lease.state.phase = .inside from
      State.phase_of_held (State.holdsValidLease_iff.mpr (.inr hs)),
      acceptRenewal, commitLease_state]
    exact .renew
  | lost hl =>
    have hheld : c.lease.state.phase = .inside := by
      rcases hl with ⟨-, hs | hs⟩ | ⟨-, hs⟩ <;> rw [hs] <;> rfl
    rw [hheld]
    exact .lose
  | resend s count hev hs hcount =>
    exact hstay (by rw [rearmBackoff_lease, Sender.send, sendMessage_lease]; rfl) rfl
  | conflict hev hs harp =>
    have hout : c.lease.state.phase = .outside := by
      rcases hs with hs | hs <;> rw [hs] <;> rfl
    -- Only the last conflict calls the handler.
    by_cases hlast : c.lease.declineRetryCount + 1 > maxDeclineRetries
    · rw [handleConflict_failed env (c.emit (.probe c.lease.offeredIp true)) hlast, hout]
      exact .fail
    · rw [handleConflict_declining env (c.emit (.probe c.lease.offeredIp true)) hlast, hout]
      exact .stay _
  | request hev hs harp => exact hstay (by rw [requestOffered_lease, hs]; rfl) rfl
  | commit hev hs harp =>
    rw [hs, commitProbed, commitLease_state]
    exact .bind
  | renew hev hs => exact hstay (by rw [outputStartRenew_lease, hs]; rfl) rfl
  | t1 hev hs =>
    exact hstay (by
      rw [outputStartRenew_armT2_lease, hs]; rfl) rfl
  | t2 hev hs =>
    exact hstay (by
      rw [outputStartRebind_armExpiry_lease, hs]
      rfl) rfl

/-- What the calls of a callback leave alone. -/
structure Serves (c c' : Client) : Prop where
  phase : c'.lease.state.phase = c.lease.state.phase
  callbacks : c'.lease.callbacks = c.lease.callbacks
  ifaceConfigured : c'.lease.ifaceConfigured = c.lease.ifaceConfigured

theorem Serves.trans {c₁ c₂ c₃ : Client} (h₁ : Serves c₁ c₂) (h₂ : Serves c₂ c₃) : Serves c₁ c₃ :=
  ⟨h₂.phase.trans h₁.phase, h₂.callbacks.trans h₁.callbacks,
    h₂.ifaceConfigured.trans h₁.ifaceConfigured⟩

theorem Client.renew_serves (env : Env) (c : Client) : Serves c (c.renew env) := by
  unfold Client.renew
  by_cases hs : c.lease.state = .bound
  · rw [if_pos hs]
    have hframe := (show Move env c (outputStartRenew env c) from .renew hs).frame
    exact ⟨by rw [outputStartRenew_lease, hs]; rfl, hframe.callbacks, hframe.ifaceConfigured⟩
  · rw [if_neg hs]
    exact ⟨rfl, rfl, rfl⟩

theorem Client.serve_serves {u : UserCall} (hu : u.KeepsCallbacks) {c : Client}
    (hc : c.lease.callbacks = ⟨true, true, true⟩) : Serves c (c.serve u) := by
  cases u with
  | accessor => exact ⟨rfl, rfl, rfl⟩
  | setCallbacks callbacks userData =>
    refine ⟨rfl, ?_, rfl⟩
    rw [hc, show callbacks = some ⟨true, true, true⟩ from hu]
    rfl
  | renew env => exact c.renew_serves env

theorem script_serves {script : List UserCall} (hscript : ∀ u ∈ script, u.KeepsCallbacks) {c : Client}
    (hc : c.lease.callbacks = ⟨true, true, true⟩) : Serves c (script.foldl Client.serve c) := by
  induction script generalizing c with
  | nil => exact ⟨rfl, rfl, rfl⟩
  | cons u us ih =>
    have hfirst := c.serve_serves (hscript u List.mem_cons_self) hc
    have hrest := ih (fun u' hu' => hscript u' (List.mem_cons_of_mem u hu'))
      (hfirst.callbacks.trans hc)
    exact hfirst.trans hrest

theorem Callback.call_lease (callback : Callback) (c : Client) :
    (callback.call c).lease = c.lease := by
  cases callback with
  | onBound isRenewal => exact callOnBound_lease isRenewal c
  | onExpiredOrLost => exact callOnExpiredOrLost_lease c
  | onError error => exact callOnError_lease error c

-- A callback that is set is called once, on the client as it is.
theorem Session.invoke_spec (callback : Callback) {script : List UserCall}
    (hscript : ∀ u ∈ script, u.KeepsCallbacks) {s : Session}
    (hset : s.client.lease.callbacks = ⟨true, true, true⟩) :
    (s.invoke callback script).invocations = ⟨callback, s.client⟩ :: s.invocations ∧
      Serves s.client (s.invoke callback script).client := by
  have hisSet : callback.isSet s.client.lease.callbacks = true := by
    rw [hset]
    cases callback <;> rfl
  have hcall : (callback.call s.client).lease = s.client.lease := callback.call_lease s.client
  have hserves := script_serves hscript (c := callback.call s.client) (by rw [hcall]; exact hset)
  rw [Session.invoke, if_pos hisSet]
  refine ⟨rfl, ?_, ?_, ?_⟩
  · rw [← hcall]
    exact hserves.phase
  · rw [← hcall]
    exact hserves.callbacks
  · rw [← hcall]
    exact hserves.ifaceConfigured

/-- The interface and the default route are gone. -/
structure Client.Deconfigured (c : Client) : Prop where
  ifaceConfigured : c.lease.ifaceConfigured = false
  netif : c.netif.Unconfigured
  defaultRoute : c.lease.defaultRoute = none

theorem removeDefaultRoute_defaultRoute (c : Client) :
    (removeDefaultRoute c).lease.defaultRoute = none := by
  unfold removeDefaultRoute
  split
  · rfl
  · assumption

-- The first locked section of the lost path leaves the callbacks and the state.
theorem lostUnapply_keeps (env : Env) (c : Client) :
    (lostUnapply env c).lease.callbacks = c.lease.callbacks ∧
      (lostUnapply env c).lease.state = c.lease.state := by
  obtain ⟨route, h⟩ := lostUnapply_lease env c
  rw [h]
  exact ⟨rfl, rfl⟩

theorem lostUnapply_deconfigured {env : Env} (henv : env.SetsSucceed) {c : Client}
    (hc : c.lease.ifaceConfigured = true) : (lostUnapply env c).Deconfigured := by
  unfold lostUnapply lifecycleUnapply
  rw [if_pos hc]
  exact ⟨rfl, clearInterface_unconfigured henv _, removeDefaultRoute_defaultRoute c⟩

/-- What holds of a session at every moment; `sets` says that the interface calls succeed. -/
structure SessionInv (sets : Prop) (s : Session) : Prop where
  callbacks : s.client.lease.callbacks = ⟨true, true, true⟩
  trace : s.trace ∈ s.client.lease.state.phase.words
  configured : sets → s.client.lease.state.phase = .inside → s.client.lease.ifaceConfigured = true
  expired : sets → ∀ i ∈ s.invocations, i.callback = .onExpiredOrLost → i.found.Deconfigured

theorem State.held_of_phase {s : State} (h : s.phase = .inside) : s.holdsValidLease = true := by
  cases s <;> first | rfl | cases h

theorem commitLease_callbacks (env : Env) (c : Client) :
    (commitLease env c).lease.callbacks = c.lease.callbacks := by
  obtain ⟨configured, route, h⟩ := commitLease_lease env c
  rw [h]

-- A locked section keeps the callbacks, and a held lease stays applied.
theorem Reaction.keeps {env : Env} {ev : Event} {c c₁ : Client} {after : After}
    (h : Reaction env ev c c₁ after) :
    c₁.lease.callbacks = c.lease.callbacks ∧
      (env.SetsSucceed → (c.lease.state.phase = .inside → c.lease.ifaceConfigured = true) →
        c₁.lease.state.phase = .inside → c₁.lease.ifaceConfigured = true) := by
  rcases h.move_or_commit with ⟨hmove, -⟩ | ⟨rfl, -⟩ | ⟨r, rfl, -⟩ | ⟨rfl, -⟩
  · refine ⟨hmove.frame.callbacks, fun _ hconf hphase => ?_⟩
    -- A move neither gains nor loses a lease, so the period was open before.
    have hheld := State.held_of_phase hphase
    rw [hmove.holds] at hheld
    rw [hmove.frame.ifaceConfigured]
    exact hconf (State.phase_of_held hheld)
  · refine ⟨commitLease_callbacks env _, fun henv _ _ => ?_⟩
    rw [commitProbed, commitLease_lease_of_succeed henv]
  · refine ⟨commitLease_callbacks env _, fun henv _ _ => ?_⟩
    rw [acceptRenewal, commitLease_lease_of_succeed henv]
  · exact ⟨rfl, fun _ hconf => hconf⟩

/-- `s'` comes from `s` by one move of the protocol. -/
structure Session.Advances (sets : Prop) (s s' : Session) (new : List Invocation) : Prop where
  invocations : s'.invocations = new ++ s.invocations
  calls : s.client.lease.state.phase.Calls (new.map Invocation.callback).reverse
    s'.client.lease.state.phase
  callbacks : s'.client.lease.callbacks = ⟨true, true, true⟩
  configured : sets → s'.client.lease.state.phase = .inside →
    s'.client.lease.ifaceConfigured = true
  expired : sets → ∀ i ∈ new, i.callback = .onExpiredOrLost → i.found.Deconfigured

section
variable {sets : Prop}

theorem SessionInv.advance {s s' : Session} {new : List Invocation} (hinv : SessionInv sets s)
    (h : Session.Advances sets s s' new) : SessionInv sets s' := by
  refine ⟨h.callbacks, ?_, h.configured, fun hsets i hi => ?_⟩
  · rw [Session.trace, h.invocations, List.map_append, List.reverse_append]
    exact h.calls.words hinv.trace
  · rw [h.invocations] at hi
    rcases List.mem_append.mp hi with hi | hi
    · exact h.expired hsets i hi
    · exact hinv.expired hsets i hi

-- A callback other than `on_expired_or_lost`, called on `c` in the phase it leads to.
theorem Session.invoke_advances {s : Session} {c : Client} {callback : Callback}
    {script : List UserCall} (hscript : ∀ u ∈ script, u.KeepsCallbacks)
    (hset : c.lease.callbacks = ⟨true, true, true⟩)
    (hconf : sets → c.lease.state.phase = .inside → c.lease.ifaceConfigured = true)
    (hcalls : s.client.lease.state.phase.Calls [callback] c.lease.state.phase)
    (hother : callback ≠ .onExpiredOrLost) :
    Session.Advances sets s (Session.invoke callback script { s with client := c })
      [⟨callback, c⟩] := by
  obtain ⟨hinv, hserves⟩ := Session.invoke_spec callback hscript
    (s := { s with client := c }) hset
  refine ⟨hinv, ?_, hserves.callbacks.trans hset, fun hsets hphase => ?_, fun _ i hi heq => ?_⟩
  · rw [hserves.phase]
    exact hcalls
  · rw [hserves.ifaceConfigured]
    exact hconf hsets (hserves.phase.symm.trans hphase)
  · rw [List.mem_singleton.mp hi] at heq
    exact absurd heq hother

-- The lost path: the callback finds the interface de-configured, and discovery starts over after
-- whatever the callback did.
theorem Session.lost_advances {env : Env} (henv : sets → env.SetsSucceed) {s : Session} {c : Client}
    {script : List UserCall} (hscript : ∀ u ∈ script, u.KeepsCallbacks)
    (hset : c.lease.callbacks = ⟨true, true, true⟩)
    (hconf : sets → c.lease.ifaceConfigured = true)
    (hphase : s.client.lease.state.phase = .inside) :
    Session.Advances sets s (After.lost.deliver env script { s with client := c })
      [⟨.onExpiredOrLost, lostUnapply env c⟩] := by
  have hset' : (lostUnapply env c).lease.callbacks = ⟨true, true, true⟩ := by
    rw [← hset]
    exact (lostUnapply_keeps env c).1
  obtain ⟨hinv, hserves⟩ := Session.invoke_spec .onExpiredOrLost hscript
    (s := { s with client := lostUnapply env c }) hset'
  unfold After.deliver
  dsimp only
  refine ⟨hinv, ?_, ?_, fun _ => ?_, fun hsets i hi heq => ?_⟩
  -- Whatever the callback did, the restart ends in `selecting`.
  · rw [hphase, lostRestart, outputStartDiscovery_lease]
    exact .lose
  · rw [lostRestart, outputStartDiscovery_lease]
    exact hserves.callbacks.trans hset'
  · rw [lostRestart, outputStartDiscovery_lease]
    intro h
    cases h
  · rw [List.mem_singleton.mp hi]
    exact lostUnapply_deconfigured (henv hsets) (hconf hsets)

theorem After.deliver_advances {env : Env} (henv : sets → env.SetsSucceed) {s : Session}
    {c : Client} {after : After} {script : List UserCall} (hscript : ∀ u ∈ script, u.KeepsCallbacks)
    (hset : c.lease.callbacks = ⟨true, true, true⟩)
    (hconf : sets → c.lease.state.phase = .inside → c.lease.ifaceConfigured = true)
    (hmoves : s.client.lease.state.phase.Moves after c.lease.state.phase) :
    ∃ new, Session.Advances sets s (after.deliver env script { s with client := c }) new := by
  generalize hp : s.client.lease.state.phase = p at hmoves
  generalize hq : c.lease.state.phase = q at hmoves
  cases hmoves with
  | stay p =>
    refine ⟨[], rfl, ?_, hset, hconf, fun _ i hi => absurd hi List.not_mem_nil⟩
    rw [hp, show (After.done.deliver env script { s with client := c }).client = c from rfl, hq]
    exact .none _
  | bind =>
    exact ⟨_, Session.invoke_advances hscript hset hconf (by rw [hp, hq]; exact .bind) nofun⟩
  | renew =>
    exact ⟨_, Session.invoke_advances hscript hset hconf (by rw [hp, hq]; exact .renew) nofun⟩
  | fail =>
    exact ⟨_, Session.invoke_advances hscript hset hconf (by rw [hp, hq]; exact .fail) nofun⟩
  | lose => exact ⟨_, Session.lost_advances henv hscript hset (fun hsets => hconf hsets hq) hp⟩

/-- **One step of a session** is one move of the protocol. -/
theorem SessionInv.step {s : Session} (hinv : SessionInv sets s) {op : SessionOp}
    (hop : op.KeepsCallbacks) (hsucceed : sets → op.SetsSucceed) :
    ∃ new, Session.Advances sets s (s.step op) new := by
  cases op with
  | call u =>
    have hserves := Client.serve_serves hop hinv.callbacks
    refine ⟨[], rfl, ?_, hserves.callbacks.trans hinv.callbacks, fun hsets hphase => ?_,
      fun _ i hi => absurd hi List.not_mem_nil⟩
    · rw [show (s.step (.call u)).client.lease.state.phase = _ from hserves.phase]
      exact .none _
    · rw [show (s.step (.call u)).client.lease.ifaceConfigured = _ from hserves.ifaceConfigured]
      exact hinv.configured hsets (hserves.phase.symm.trans hphase)
  | event env ev script =>
    have hreact := s.client.eventSection_reaction env ev
    obtain ⟨-, -, -, rt, lt, hbefore⟩ := s.client.before_same ev
    have hkeeps := hreact.keeps
    have hphase := hreact.phase
    rw [hbefore] at hkeeps hphase
    exact After.deliver_advances hsucceed hop (hkeeps.1.trans hinv.callbacks)
      (fun hsets => hkeeps.2 (hsucceed hsets) (hinv.configured hsets)) hphase

theorem start_sessionInv (env : Env) (iface : Iface) (netif : Netif) (userData : Nat)
    (options : Option StartOptions) :
    SessionInv sets (Session.start env iface netif userData options) := by
  have hfresh := start_fresh env iface netif ⟨true, true, true⟩ userData options
  have hphase : (Session.start env iface netif userData options).client.lease.state.phase =
      .outside := by
    rcases hfresh.state with hs | hs
    · rw [show (Session.start env iface netif userData options).client.lease.state = _ from hs]
      rfl
    · rw [show (Session.start env iface netif userData options).client.lease.state = _ from hs]
      rfl
  refine ⟨?_, ?_, fun _ h => ?_, fun _ i hi => absurd hi List.not_mem_nil⟩
  · unfold Session.start Client.start startSection
    split
    · rw [outputStartReboot_lease]
      rfl
    · rw [outputStartDiscovery_lease]
      rfl
  · rw [hphase]
    exact Language.nil_mem_kstar _
  · rw [hphase] at h
    cases h

-- The whole run; `sets` may be any reason for the interface calls to succeed.
theorem run_sessionInv {env : Env} {iface : Iface} {netif : Netif} {userData : Nat}
    {options : Option StartOptions} {ops : List SessionOp} {s : Session}
    (hrun : Lts.Run (Lts.Guarded (Lts.ofTotal Session.step) fun _ op => op.KeepsCallbacks)
      (Session.start env iface netif userData options) ops s)
    (hsucceed : ∀ op ∈ ops, sets → op.SetsSucceed) : SessionInv sets s := by
  refine (hrun.guard (fun _ op => sets → op.SetsSucceed) fun op hop _ => hsucceed op hop).invariant
    (fun s op s' hs hstep => ?_) (start_sessionInv env iface netif userData options)
  obtain ⟨⟨hstep, hop⟩, hsets⟩ := hstep
  obtain ⟨new, hadv⟩ := hs.step hop hsets
  rw [show s.step op = s' from hstep] at hadv
  exact hs.advance hadv

end

theorem State.phase_ended_iff {s : State} : s.phase = .ended ↔ s = .failed := by
  cases s <;> simp [State.phase]

/-! ## 4. Every run -/

/-- **The callback protocol.** With all three callbacks set, whatever they call: the invocations are a
prefix of a word of the protocol; `on_error` is the last one, comes after complete bound periods
only, and is called by exactly the step that enters `failed`; and where the interface calls succeed,
`on_expired_or_lost` finds the interface de-configured. -/
theorem callbacks_follow_protocol {env : Env} {iface : Iface} {netif : Netif} {userData : Nat}
    {options : Option StartOptions} {ops : List SessionOp} {s : Session}
    (hrun : Lts.Run (Lts.Guarded (Lts.ofTotal Session.step) fun _ op => op.KeepsCallbacks)
      (Session.start env iface netif userData options) ops s) :
    (∃ w ∈ callbackProtocol, s.trace <+: w) ∧
    (∀ before e after, s.trace = before ++ .onError e :: after →
      before ∈ boundPeriod∗ ∧ after = []) ∧
    (∀ op, op.KeepsCallbacks → ∃ new, (s.step op).invocations = new ++ s.invocations ∧
      ((∃ i ∈ new, ∃ e, i.callback = .onError e) ↔
        s.client.lease.state ≠ .failed ∧ (s.step op).client.lease.state = .failed)) ∧
    ((∀ op ∈ ops, op.SetsSucceed) →
      ∀ i ∈ s.invocations, i.callback = .onExpiredOrLost → i.found.Deconfigured) := by
  have hinv : SessionInv False s := run_sessionInv hrun fun op _ hno => hno.elim
  refine ⟨Phase.words_isPrefix hinv.trace, fun before e after heq => ?_, fun op hop => ?_,
    fun hsucceed => ?_⟩
  · exact (Phase.words_error_last hinv.trace heq).2
  · obtain ⟨new, hadv⟩ := hinv.step hop False.elim
    refine ⟨new, hadv.invocations, ?_⟩
    have herror := hadv.calls.error_iff
    rw [State.phase_ended_iff, Ne, State.phase_ended_iff] at herror
    rw [← herror]
    simp only [List.mem_reverse, List.mem_map]
    exact ⟨fun ⟨i, hi, e, he⟩ => ⟨e, i, hi, he⟩, fun ⟨e, i, hi, he⟩ => ⟨i, hi, e, he⟩⟩
  · have hsets : SessionInv True s := run_sessionInv hrun fun op hop _ => hsucceed op hop
    exact hsets.expired trivial

/-- A lease that is acquired, renewed from inside `on_bound`, and then refused by the server. -/
def refusedRenewal : List SessionOp :=
  (acquireInputs ⟨10, 0, 0, 7⟩ ⟨10, 0, 0, 1⟩ 3600).map
      (fun input => .event input.1 input.2 [.accessor, .renew (quietEnv 8)]) ++
    [.event (quietEnv 9) (.datagram 1 (replyPayload .nak 8 ⟨0, 0, 0, 0⟩ []))
      [.setCallbacks (some ⟨true, true, true⟩) 3]]

theorem callbacks_follow_protocol_refused :
    ∃ s, Lts.Run (Lts.Guarded (Lts.ofTotal Session.step) fun _ op => op.KeepsCallbacks)
        (Session.start (quietEnv 7) 1 blankNetif 0 none) refusedRenewal s ∧
      s.trace = [.onBound false, .onExpiredOrLost] ∧
      (∃ w ∈ callbackProtocol, [Callback.onBound false, .onExpiredOrLost] <+: w) ∧
      ∀ i ∈ s.invocations, i.callback = .onExpiredOrLost → i.found.Deconfigured := by
  have hrun := Lts.foldl_run_guarded Session.step (fun _ op => op.KeepsCallbacks)
    (Session.start (quietEnv 7) 1 blankNetif 0 none) refusedRenewal (by decide +kernel)
  have htrace : (refusedRenewal.foldl Session.step
      (Session.start (quietEnv 7) 1 blankNetif 0 none)).trace =
        [.onBound false, .onExpiredOrLost] := by decide +kernel
  obtain ⟨hword, -, -, hexpired⟩ := callbacks_follow_protocol hrun
  rw [htrace] at hword
  exact ⟨_, hrun, htrace, hword, hexpired (by decide +kernel)⟩

/-! ## 5. Callbacks that call back add no new behaviour -/

/-- A call of the application, as operations of a sequential run. -/
def UserCall.operations : UserCall → List Operation
  | .accessor => []
  | .setCallbacks callbacks userData => [.setCallbacks callbacks userData]
  | .renew env => [.event env .renew]

theorem Client.serve_run (c : Client) (u : UserCall) :
    Lts.Run (Lts.ofTotal Client.operate) c u.operations (c.serve u) := by
  cases u with
  | accessor => exact .nil c
  | setCallbacks callbacks userData => exact .cons rfl (.nil _)
  | renew env => exact .cons rfl (.nil _)

theorem script_run (script : List UserCall) (c : Client) :
    Lts.Run (Lts.ofTotal Client.operate) c (script.flatMap UserCall.operations)
      (script.foldl Client.serve c) := by
  induction script generalizing c with
  | nil => exact .nil c
  | cons u us ih =>
    rw [List.flatMap_cons]
    exact (c.serve_run u).append (ih _)

-- A restart does not look at the callbacks.
theorem outputStartDiscovery_setCallbacks (env : Env) (callbacks : Option Callbacks) (userData : Nat)
    (c : Client) : outputStartDiscovery env (c.setCallbacks callbacks userData) =
      (outputStartDiscovery env c).setCallbacks callbacks userData := by
  unfold outputStartDiscovery
  dsimp only
  rw [sendDiscover_eq, sendDiscover_eq, Sender.send_eq _ _ _ rfl, Sender.send_eq _ _ _ rfl]
  cases env.sendBuffer with
  | true => rfl
  | false => rfl

-- In the lost path the calls of the callback commute with the restart: the lease is not in `bound`,
-- so a `dmdhcp_renew` does nothing.
theorem lostRestart_script (env : Env) (script : List UserCall) {c : Client}
    (hs : c.lease.state ≠ .bound) : ∃ ops, Lts.Run (Lts.ofTotal Client.operate) (lostRestart env c) ops
      (lostRestart env (script.foldl Client.serve c)) := by
  induction script generalizing c with
  | nil => exact ⟨[], .nil _⟩
  | cons u us ih =>
    cases u with
    | accessor => exact ih hs
    | setCallbacks callbacks userData =>
      obtain ⟨ops, hrun⟩ := ih (c := c.setCallbacks callbacks userData) hs
      rw [lostRestart, outputStartDiscovery_setCallbacks] at hrun
      have hstep : Lts.ofTotal Client.operate (lostRestart env c)
          (.setCallbacks callbacks userData)
          ((outputStartDiscovery env c).setCallbacks callbacks userData) := rfl
      exact ⟨_, .cons hstep hrun⟩
    | renew env' =>
      have hidle : c.serve (.renew env') = c := if_neg hs
      rw [List.foldl_cons, hidle]
      exact ih hs

theorem Session.invoke_client (callback : Callback) (script : List UserCall) (s : Session) :
    (s.invoke callback script).client = callback.call s.client ∨
      (s.invoke callback script).client = script.foldl Client.serve (callback.call s.client) := by
  unfold Session.invoke
  split_ifs with hset
  · exact .inr rfl
  · left
    cases callback with
    | onBound isRenewal => exact (if_neg hset).symm
    | onExpiredOrLost => exact (if_neg hset).symm
    | onError error => exact (if_neg hset).symm

-- The lease is lost in `renewing` or `rebinding`, never in `bound`.
theorem Reaction.lost_state {env : Env} {ev : Event} {c c₁ : Client}
    (h : Reaction env ev c c₁ .lost) : c₁.lease.state ≠ .bound := by
  rcases h.move_or_commit with ⟨-, h | h⟩ | ⟨-, h, -⟩ | ⟨r, -, h, -⟩ | ⟨rfl, -, hl⟩
  · cases h
  · cases h
  · cases h
  · cases h
  · rcases hl with ⟨-, hs | hs⟩ | ⟨-, hs⟩ <;> rw [hs] <;> decide

/-- **Sessions are sequential runs.** What a step with its callback's calls does to the lease, a
sequential run of events and `dmdhcp_set_callbacks` does too. -/
theorem Session.step_run (s : Session) (op : SessionOp) :
    ∃ ops, Lts.Run (Lts.ofTotal Client.operate) s.client ops (s.step op).client := by
  cases op with
  | call u => exact ⟨_, s.client.serve_run u⟩
  | event env ev script =>
    have hfirst : Lts.Run (Lts.ofTotal Client.operate) s.client [.event env ev]
        ((s.client.eventSection env ev).2.finish env (s.client.eventSection env ev).1) :=
      .cons (s.client.step_eq env ev) (.nil _)
    have hreact := s.client.eventSection_reaction env ev
    simp only [Session.step]
    generalize s.client.eventSection env ev = p at hfirst hreact
    obtain ⟨c, after⟩ := p
    -- The callback of `on_bound` and `on_error` comes last, so its calls simply follow the event.
    have hlast (callback : Callback) (hfin : after.finish env c = callback.call c) :
        ∃ ops, Lts.Run (Lts.ofTotal Client.operate) s.client ops
          (Session.invoke callback script { s with client := c }).client := by
      rw [show After.finish env after c = _ from hfin] at hfirst
      rcases Session.invoke_client callback script { s with client := c } with heq | heq
      · rw [heq]
        exact ⟨_, hfirst⟩
      · rw [heq]
        exact ⟨_, hfirst.append (script_run script _)⟩
    cases after with
    | done => exact ⟨_, hfirst⟩
    | onBound isRenewal => exact hlast (.onBound isRenewal) rfl
    | onError error => exact hlast (.onError error) rfl
    | lost =>
      have hs : (Callback.call .onExpiredOrLost (lostUnapply env c)).lease.state ≠ .bound := by
        rw [Callback.call_lease, (lostUnapply_keeps env c).2]
        exact hreact.lost_state
      obtain ⟨ops, hrest⟩ := lostRestart_script env script hs
      unfold After.deliver
      dsimp only
      rcases Session.invoke_client .onExpiredOrLost script
        { s with client := lostUnapply env c } with heq | heq
      · rw [heq]
        exact ⟨_, hfirst⟩
      · rw [heq]
        exact ⟨_, hfirst.append hrest⟩

theorem Session.run_operations {s s' : Session} {ops : List SessionOp}
    (hrun : Lts.Run (Lts.ofTotal Session.step) s ops s') :
    ∃ ops', Lts.Run (Lts.ofTotal Client.operate) s.client ops' s'.client := by
  induction hrun with
  | nil s => exact ⟨[], .nil _⟩
  | cons hstep _ ih =>
    obtain ⟨first, hfirst⟩ := Session.step_run _ _
    obtain ⟨rest, hrest⟩ := ih
    rw [hstep] at hfirst
    exact ⟨first ++ rest, hfirst.append hrest⟩

end Dmdhcp
