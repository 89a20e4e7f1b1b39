import Dmdhcp.Lifecycle

/-!
# The retransmit timer

The second half of `dmdhcp_output.c`: resending, the ARP conflict probe and the pause after a
DECLINE, all on `retransmit_timer` and told apart by the state.
-/

namespace Dmdhcp

/-- A confirmed address conflict. -/
def handleConflict (env : Env) (c : Client) : Client × After :=
  let c := (sendDecline env c).update fun l =>
    { l with declineRetryCount := l.declineRetryCount + 1 }
  if c.lease.declineRetryCount > maxDeclineRetries then
    -- No timer is armed: `failed` is final.
    (c.update fun l => { l with state := .failed }, .onError .eaddrinuse)
  else
    ((c.update fun l => { l with state := .declining }).armRetransmit env declinePauseMs, .done)

/-- A clean probe of an offered address: ask for it. -/
def requestOffered (env : Env) (c : Client) : Client :=
  let c := (sendRequestSelecting env c).update fun l =>
    { l with
      state := .requesting
      retransmitCount := 0
      retransmitIntervalMs := retransmitInitialMs }
  c.armRetransmit env c.lease.retransmitIntervalMs

/-- `dmarp_resolve` for `offered_ip`, and what follows from its answer. -/
def runConflictProbe (env : Env) (c : Client) : Client × After :=
  let c := c.emit (.probe c.lease.offeredIp env.arpReply)
  if env.arpReply then handleConflict env c
  else if c.lease.state = .checkingOffer then (requestOffered env c, .done)
  -- `checking_ack`: the address is ours.
  else (commitLease env c, .onBound false)

/-- One more REQUEST of the current kind, or back to discovery after the last one. -/
def resendRequest (env : Env) (c : Client) : Client :=
  let c := c.update fun l => { l with retransmitCount := l.retransmitCount + 1 }
  if c.lease.retransmitCount > maxRequestRetransmits then outputStartDiscovery env c
  else
    rearmBackoff env
      (if c.lease.state = .requesting then sendRequestSelecting env c else sendRequestReboot env c)

/-- The locked section of `retransmit_timer_callback`. -/
def retransmitTimerSection (env : Env) (c : Client) : Client × After :=
  match c.lease.state with
  | .selecting => (rearmBackoff env (sendDiscover env c), .done)
  | .requesting => (resendRequest env c, .done)
  | .rebooting => (resendRequest env c, .done)
  | .renewing => (rearmBackoff env (sendRequestRenew env c), .done)
  | .rebinding => (rearmBackoff env (sendRequestRebind env c), .done)
  | .checkingOffer => runConflictProbe env c
  | .checkingAck => runConflictProbe env c
  | .declining => (outputStartDiscovery env c, .done)
  -- A fire that comes after the state has moved on does nothing.
  | .init => (c, .done)
  | .initReboot => (c, .done)
  | .bound => (c, .done)
  | .failed => (c, .done)

def retransmitTimerCallback (env : Env) (c : Client) : Client :=
  let (c, after) := retransmitTimerSection env c
  after.finish env c

end Dmdhcp
