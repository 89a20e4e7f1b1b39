import Dmdhcp.Machine

/-!
# Sequential runs are interleavings

A sequential run of a lease is an interleaving in which every operation gets a thread of its own
and runs to its end before the next one starts.  What is proved about interleavings therefore
covers the sequential runs, and their counterexamples are counterexamples here.
-/

namespace Dmdhcp

/-- The lease is in use: nothing of a teardown has happened to it. -/
structure Shared.Live (s : Shared) : Prop where
  inTable : s.inTable = true
  magic : s.magic = true
  destroyed : s.destroyed = []
  freed : s.freed = false

def Machine.Reaches (m m' : Machine) : Prop :=
  ∃ events, Lts.Run (Lts.ofPartial Machine.step) m events m'

theorem Machine.Reaches.refl (m : Machine) : m.Reaches m := ⟨[], .nil m⟩

theorem Machine.Reaches.trans {m₁ m₂ m₃ : Machine} (h₁ : m₁.Reaches m₂) (h₂ : m₂.Reaches m₃) :
    m₁.Reaches m₃ := by
  obtain ⟨es₁, hrun₁⟩ := h₁
  obtain ⟨es₂, hrun₂⟩ := h₂
  exact ⟨es₁ ++ es₂, hrun₁.append hrun₂⟩

theorem Machine.Reaches.step {m m' : Machine} {e : MachineEvent} (h : m.step e = some m') :
    m.Reaches m' := ⟨[e], .cons h (.nil m')⟩

/-- Thread `i` has `todo` left, on a lease in use with client `c`. -/
structure Machine.At (m : Machine) (i : Nat) (kind : Origin) (todo : List Section) (c : Client) :
    Prop where
  live : m.shared.Live
  thread : m.threads[i]? = some ⟨kind, todo⟩
  client : m.shared.client = c

/-- The sections of the operations other than teardown. -/
def Section.isOrdinary : Section → Bool
  | .teardownGuard _ => false
  | .tableRemove _ => false
  | .teardown _ => false
  | .clearMagic => false
  | .destroyTimer _ => false
  | .free => false
  | _ => true

theorem Section.exec_live {env : Env} {s : Shared} {caller : Origin} {x : Section}
    (hx : x.isOrdinary = true) (h : s.Live) : (x.exec env none s caller).1.Live := by
  cases x with
  | lookup iface r =>
    simp only [Section.exec, h.inTable, if_true]
    exact ⟨h.inTable, h.magic, h.destroyed, h.freed⟩
  | onBound isRenewal =>
    simp only [Section.exec]
    split_ifs <;> exact ⟨h.inTable, h.magic, h.destroyed, h.freed⟩
  | teardownGuard how => cases hx
  | tableRemove how => cases hx
  | teardown how => cases hx
  | clearMagic => cases hx
  | destroyTimer t => cases hx
  | free => cases hx
  | _ => exact ⟨h.inTable, h.magic, h.destroyed, h.freed⟩

section
variable {m : Machine} {i : Nat} {kind : Origin} {rest : List Section} {c : Client}

-- The thread runs its next section, which takes `c` to `c'` and leaves `new` to do.
theorem Machine.At.next {x : Section} (h : m.At i kind (x :: rest) c) (env : Env)
    (new : List Section) (c' : Client) (hx : x.isOrdinary = true)
    (hexec : ∀ s : Shared, s.Live → s.client = c →
      (x.exec env none s kind).1.client = c' ∧ (x.exec env none s kind).2 = new) :
    ∃ m', m.Reaches m' ∧ m'.At i kind (new ++ rest) c' := by
  obtain ⟨hc', rfl⟩ := hexec m.shared h.live h.client
  have hready : m.Ready i := by
    intro t ht
    obtain ⟨y, hy, hjoins⟩ := Option.bind_eq_some_iff.mp ht
    rw [Lts.Pool.next, h.thread] at hy
    obtain rfl := Option.some.inj hy
    cases x with
    | destroyTimer t => cases hx
    | _ => cases hjoins
  have hlt : i < m.threads.length := (List.getElem?_eq_some_iff.mp h.thread).1
  refine ⟨⟨(x.exec env none m.shared kind).1,
    m.threads.set i ⟨kind, (x.exec env none m.shared kind).2 ++ rest⟩⟩,
    .step (e := .advance i env none) ?_, Section.exec_live hx h.live, ?_, hc'⟩
  · rw [Machine.step, if_pos hready, Lts.Pool.advance, h.thread]
  · rw [List.getElem?_set, if_pos rfl, if_pos hlt]

-- What a locked section left to do runs to its end.
theorem Machine.At.finish {after : After} {nak : Option UInt32}
    (h : m.At i kind (after.sections nak ++ rest) c) (env : Env) :
    ∃ m', m.Reaches m' ∧ m'.At i kind rest (after.finish env c) := by
  have hcallback (isSet : Bool) : reentrySections isSet none = [] := by
    unfold reentrySections
    split
    · contradiction
    · rfl
  cases after with
  | done => exact ⟨m, .refl m, h⟩
  | onBound isRenewal =>
    exact h.next env [] _ rfl fun s _ hc => ⟨by rw [← hc]; rfl, hcallback _⟩
  | onError error =>
    exact h.next env [] _ rfl fun s _ hc => ⟨by rw [← hc]; rfl, hcallback _⟩
  | lost =>
    obtain ⟨m₁, hreach₁, hat₁⟩ := h.next env [.onExpired, .lostRestart nak]
      (lostUnapply env c) rfl fun s _ hc => ⟨by rw [← hc]; rfl, rfl⟩
    obtain ⟨m₂, hreach₂, hat₂⟩ := hat₁.next env []
      (callOnExpiredOrLost (lostUnapply env c)) rfl
      fun s _ hc => ⟨by rw [← hc]; rfl, hcallback _⟩
    obtain ⟨m₃, hreach₃, hat₃⟩ := hat₂.next env []
      (After.lost.finish env c) rfl fun s _ hc => ⟨by
        simp only [Section.exec, Shared.locked, hc]
        rfl, rfl⟩
    exact ⟨m₃, (hreach₁.trans hreach₂).trans hreach₃, hat₃⟩

-- The same where the lock is taken once more at the end.
theorem Machine.At.finishRelocked {after : After} (h : m.At i kind (after.relocked ++ rest) c)
    (env : Env) : ∃ m', m.Reaches m' ∧ m'.At i kind rest (after.finish env c) := by
  have hrelock {c' : Client} {m' : Machine} (hat : m'.At i kind (.relock :: rest) c') :
      ∃ m'', m'.Reaches m'' ∧ m''.At i kind rest c' :=
    hat.next env [] c' rfl fun s _ hc => ⟨hc, rfl⟩
  have hcalls (hne : after.relocked = after.sections none ++ [.relock]) :
      ∃ m', m.Reaches m' ∧ m'.At i kind rest (after.finish env c) := by
    rw [hne, List.append_assoc] at h
    obtain ⟨m₁, hreach₁, hat₁⟩ := h.finish env
    obtain ⟨m₂, hreach₂, hat₂⟩ := hrelock hat₁
    exact ⟨m₂, hreach₁.trans hreach₂, hat₂⟩
  cases after with
  | done => exact ⟨m, .refl m, h⟩
  | onBound isRenewal => exact hcalls rfl
  | onError error => exact hcalls rfl
  | lost => exact hcalls rfl

end

-- A thread starts on a lease in use.
theorem Machine.at_spawn {m : Machine} (hlive : m.shared.Live) (c : Client)
    (t : Lts.Thread Origin Section) :
    Machine.At ((m.setClient c).spawn t) m.threads.length t.kind t.todo c :=
  ⟨⟨hlive.inTable, hlive.magic, hlive.destroyed, hlive.freed⟩, List.getElem?_concat_length, rfl⟩

/-- `m` can reach a state in which the lease is in use and the client is `c`. -/
def Machine.Attains (m : Machine) (c : Client) : Prop :=
  ∃ m', m.Reaches m' ∧ m'.shared.Live ∧ m'.shared.client = c

theorem Machine.Attains.of_reaches {m m' : Machine} {c : Client} (h : m.Reaches m')
    (h' : m'.Attains c) : m.Attains c := by
  obtain ⟨m'', hreach, hlive, hc⟩ := h'
  exact ⟨m'', h.trans hreach, hlive, hc⟩

/-- The locked section of a timer's callback. -/
def TimerKind.callback : TimerKind → Section
  | .retransmit => .retransmit
  | .lease => .leaseTimer

section
variable {m : Machine} (hlive : m.shared.Live) (env : Env)
include hlive

theorem Machine.attains_receive (iface : Iface) (payload : List UInt8) :
    m.Attains (m.shared.client.receive env iface payload) := by
  unfold Client.receive
  split
  · exact ⟨m, .refl m, hlive, rfl⟩
  · rename_i r hr
    refine .of_reaches (.step (e := .datagram iface payload) (by rw [Machine.step, hr])) ?_
    have hat := Machine.at_spawn hlive m.shared.client ⟨.rx, [.lookup iface r]⟩
    have hlookup (s : Shared) (hs : s.Live) : (Section.lookup iface r).exec env none s .rx =
        (s.touch [.lookup], _) := if_pos hs.inTable
    split_ifs with hx
    · unfold handleReply
      split
      · rename_i hnone
        obtain ⟨m₁, hreach, hat₁⟩ := hat.next env [] _ rfl fun s hs hc => by
          rw [hlookup s hs, hc, if_pos hx, hnone]
          exact ⟨hc, rfl⟩
        exact ⟨m₁, hreach, hat₁.live, hat₁.client⟩
      · rename_i msgType hsome
        obtain ⟨m₁, hreach₁, hat₁⟩ := hat.next env [.datagram r msgType] _ rfl
          fun s hs hc => by
            rw [hlookup s hs, hc, if_pos hx, hsome]
            exact ⟨hc, rfl⟩
        obtain ⟨m₂, hreach₂, hat₂⟩ := hat₁.next env
          ((datagramSection env r msgType m.shared.client).2.sections (some r.msg.xid))
          (datagramSection env r msgType m.shared.client).1 rfl
          fun s _ hc => ⟨by rw [← hc]; rfl, by rw [← hc]; rfl⟩
        obtain ⟨m₃, hreach₃, hat₃⟩ := hat₂.finish env
        exact ⟨m₃, (hreach₁.trans hreach₂).trans hreach₃, hat₃.live, hat₃.client⟩
    · obtain ⟨m₁, hreach, hat₁⟩ := hat.next env [] _ rfl fun s hs hc => by
        rw [hlookup s hs, hc, if_neg hx]
        exact ⟨hc, rfl⟩
      exact ⟨m₁, hreach, hat₁.live, hat₁.client⟩

include env in
-- A timer fires, stale or not: its thread passes the check of `magic`.
theorem Machine.reaches_fire (t : TimerKind) (stale : Bool) : ∃ m', m.Reaches m' ∧
    m'.At m.threads.length (.timer t) [t.callback]
      (if stale then m.shared.client else m.shared.client.disarm t) := by
  have halive : t ∉ m.shared.destroyed := by
    rw [hlive.destroyed]
    exact List.not_mem_nil
  have hat := Machine.at_spawn hlive (if stale then m.shared.client else m.shared.client.disarm t)
    ⟨.timer t, [.timerGuard t]⟩
  have hguard (s : Shared) (hs : s.Live) :
      ((Section.timerGuard t).exec env none s (.timer t)).2 = [t.callback] := by
    simp only [Section.exec, hs.magic, if_true]
    cases t <;> rfl
  obtain ⟨m₁, hreach, hat₁⟩ := hat.next env [t.callback] _ rfl
    fun s hs hc => ⟨hc, hguard s hs⟩
  exact ⟨m₁, .trans (.step (e := .fire t stale) (if_neg halive)) hreach, hat₁⟩

theorem Machine.attains_retransmit (stale : Bool) :
    m.Attains (retransmitTimerCallback env (m.shared.client.before (.retransmit stale))) := by
  obtain ⟨m₁, hreach₁, hat₁⟩ := Machine.reaches_fire hlive env .retransmit stale
  have hbefore : (if stale then m.shared.client else m.shared.client.disarm .retransmit) =
      m.shared.client.before (.retransmit stale) := by cases stale <;> rfl
  rw [hbefore] at hat₁
  obtain ⟨m₂, hreach₂, hat₂⟩ := hat₁.next env
    (retransmitTimerSection env (m.shared.client.before (.retransmit stale))).2.relocked
    (retransmitTimerSection env (m.shared.client.before (.retransmit stale))).1 rfl
    fun s _ hc => ⟨by rw [← hc]; rfl, by rw [← hc]; rfl⟩
  obtain ⟨m₃, hreach₃, hat₃⟩ := hat₂.finishRelocked env
  exact ⟨m₃, (hreach₁.trans hreach₂).trans hreach₃, hat₃.live, hat₃.client⟩

theorem Machine.attains_leaseTimer (stale : Bool) :
    m.Attains (leaseTimerCallback env (m.shared.client.before (.leaseTimer stale))) := by
  obtain ⟨m₁, hreach₁, hat₁⟩ := Machine.reaches_fire hlive env .lease stale
  have hbefore : (if stale then m.shared.client else m.shared.client.disarm .lease) =
      m.shared.client.before (.leaseTimer stale) := by cases stale <;> rfl
  rw [hbefore] at hat₁
  obtain ⟨m₂, hreach₂, hat₂⟩ := hat₁.next env
    ((leaseTimerSection env (m.shared.client.before (.leaseTimer stale))).2.sections none)
    (leaseTimerSection env (m.shared.client.before (.leaseTimer stale))).1 rfl
    fun s _ hc => ⟨by rw [← hc]; rfl, by rw [← hc]; rfl⟩
  obtain ⟨m₃, hreach₃, hat₃⟩ := hat₂.finish env
  exact ⟨m₃, (hreach₁.trans hreach₂).trans hreach₃, hat₃.live, hat₃.client⟩

theorem Machine.attains_renew : m.Attains (m.shared.client.renew env) := by
  have hspawn : m.step .renew = some (m.spawn ⟨.app, [.renewGuard]⟩) :=
    if_neg (by rw [hlive.freed]; exact Bool.false_ne_true)
  have hat := Machine.at_spawn hlive m.shared.client ⟨.app, [.renewGuard]⟩
  obtain ⟨m₁, hreach₁, hat₁⟩ := hat.next env [.renew] _ rfl
    fun s hs hc => ⟨hc, if_pos hs.magic⟩
  obtain ⟨m₂, hreach₂, hat₂⟩ := hat₁.next env [] (m.shared.client.renew env) rfl
    fun s _ hc => ⟨by rw [← hc]; rfl, rfl⟩
  exact ⟨m₂, (Reaches.step hspawn |>.trans hreach₁).trans hreach₂, hat₂.live, hat₂.client⟩

-- One sequential step is taken by a thread that nothing interrupts.
theorem Machine.attains_step (ev : Event) : m.Attains (m.shared.client.step (env, ev)) := by
  cases ev with
  | datagram iface payload => exact attains_receive hlive env iface payload
  | retransmit stale => exact attains_retransmit hlive env stale
  | leaseTimer stale => exact attains_leaseTimer hlive env stale
  | renew => exact attains_renew hlive env

end

/-- **Every sequential run** of a lease is an interleaving of the machine. -/
theorem sequential_run_interleaves {c c' : Client} {inputs : List (Env × Event)}
    (hrun : Runs c inputs c') : (Machine.start c).Attains c' := by
  have hattains : ∀ m : Machine, m.shared.Live → m.shared.client = c → m.Attains c' := by
    induction hrun with
    | nil c => exact fun m hlive hc => ⟨m, .refl m, hlive, hc⟩
    | @cons c c₁ c' input inputs hstep _ ih =>
      intro m hlive hc
      obtain ⟨m₁, hreach, hlive₁, hc₁⟩ := Machine.attains_step hlive input.1 input.2
      rw [hc] at hc₁
      exact .of_reaches hreach (ih m₁ hlive₁ (hc₁.trans hstep))
  exact hattains _ ⟨rfl, rfl, rfl, rfl⟩ rfl

end Dmdhcp
