import WallyIo.Dispatch.Common
import WallyIo.Library.Timer

/-!
# Outgoing publications

A publication with quality of service 1 or 2 that has been sent to a client and
waits for the client's responses.  A timer re-sends what has not been answered,
up to a configured number of times.

Main results:

- Theorems {lit}`Qos2TxPublication.responseReceived_of_waitingForRec` and
  {lit}`Qos2TxPublication.responseReceived_of_waitingForComp`: what a response does.
- Theorems {lit}`Qos2TxPublication.ackTimeoutExpired_of_waitingForRec` and
  {lit}`Qos2TxPublication.ackTimeoutExpired_of_waitingForComp`: what an expired
  timer does.
- Theorem {lit}`Qos2TxPublication.state_startAckTimeout`: only the first wait is one
  for a PUBREC.
-/

namespace WallyIo
namespace Dispatch

open Protocol Library

/-- Which acknowledgements are responses to a PUBLISH of the server. -/
def isResponse (ack : PublishAck) : Bool :=
  ack.type == .puback || ack.type == .pubrec || ack.type == .pubcomp

/-- What all outgoing publications have in common. -/
structure TxPublication where
  publish : Publish
  maxRetries : Nat
  retryCount : UInt16
  retryOnTimeout : Timer
deriving DecidableEq, Repr

namespace TxPublication

/-- The constructor. -/
def create (maxRetries : Nat) (publish : Publish) : TxPublication where
  publish := publish
  maxRetries := maxRetries
  retryCount := 0
  retryOnTimeout := Timer.idle

variable (p : TxPublication)

/-- The identifier of the packet that is published. -/
def packetIdentifier : UInt16 := p.publish.packetIdentifier

/-- The test {lit}`++retry_count_ <= max_retries_`. -/
def mayRetry : Bool := decide ((p.retryCount + 1).toNat ≤ p.maxRetries)

end TxPublication

/-! ## Quality of service 1 -/

/-- States of a publication with quality of service 1. -/
inductive Qos1State
  | initial
  | waitingForAck
  | completed
  | terminallyFailed
deriving DecidableEq, Repr

/-- An outgoing publication with quality of service 1. -/
structure Qos1TxPublication extends TxPublication where
  state : Qos1State
deriving DecidableEq, Repr

namespace Qos1TxPublication

/-- The constructor, which assigns the quality of service. -/
def create (maxRetries : Nat) (publish : Publish) : Except Fault Qos1TxPublication := do
  let publish ← publish.setQos .atLeastOnce
  return { TxPublication.create maxRetries publish with state := .initial }

variable (p : Qos1TxPublication)

/-- Wait for the acknowledgement. -/
def startAckTimeout : Qos1TxPublication :=
  { p with state := .waitingForAck, retryOnTimeout := p.retryOnTimeout.restart }

/-- Send the packet and wait. -/
def start : List SenderCall × Qos1TxPublication :=
  ([.send (.publish p.publish)], p.startAckTimeout)

/-- The client acknowledged the packet. -/
def responseReceived (ack : PublishAck) : Except Fault (Reaction Qos1TxPublication) := do
  assert (p.state == .waitingForAck)
  assert (ack.type == .puback)
  assert (ack.packetIdentifier == p.publish.packetIdentifier)
  return ⟨[], true, { p with state := .completed, retryOnTimeout := p.retryOnTimeout.cancel }⟩

/-- The client did not answer in time. -/
def ackTimeoutExpired : Except Fault (Reaction Qos1TxPublication) := do
  assert (p.state == .waitingForAck)
  let retried := { p with retryCount := p.retryCount + 1 }
  if p.mayRetry then
    return ⟨[.send (.publish p.publish)], false, retried.startAckTimeout⟩
  else
    return ⟨[], true, { retried with state := .terminallyFailed }⟩

end Qos1TxPublication

/-! ## Quality of service 2 -/

/-- States of a publication with quality of service 2. -/
inductive Qos2State
  | initial
  | waitingForRec
  | waitingForComp
  | completed
  | terminallyFailed
deriving DecidableEq, Repr

/-- An outgoing publication with quality of service 2. -/
structure Qos2TxPublication extends TxPublication where
  state : Qos2State
deriving DecidableEq, Repr

namespace Qos2TxPublication

/-- The text logged when a client skips PUBREC. -/
def pubrecExpected : String :=
  "Protocol violation: client did not send expected PUBREC but one of PUBCOMP or PUBACK"

/-- The constructor, which assigns the quality of service. -/
def create (maxRetries : Nat) (publish : Publish) : Except Fault Qos2TxPublication := do
  let publish ← publish.setQos .exactlyOnce
  return { TxPublication.create maxRetries publish with state := .initial }

variable (p : Qos2TxPublication)

/-- Wait for the next response.  Only the first wait is one for a PUBREC. -/
def startAckTimeout : Qos2TxPublication :=
  { p with
    state := if p.state = .initial then .waitingForRec else .waitingForComp
    retryOnTimeout := p.retryOnTimeout.restart }

/-- Send the packet and wait. -/
def start : List SenderCall × Qos2TxPublication :=
  ([.send (.publish p.publish)], p.startAckTimeout)

/-- The PUBREL of this publication. -/
def pubrel : MqttPacket := .publishAck (.pubrel p.publish.packetIdentifier)

/-- The publication after a response has cancelled its timer. -/
def answered : Qos2TxPublication := { p with retryOnTimeout := p.retryOnTimeout.cancel }

/-- The client responded. -/
def responseReceived (ack : PublishAck) : Except Fault (Reaction Qos2TxPublication) := do
  assert (p.state == .waitingForRec || p.state == .waitingForComp)
  if p.state = .waitingForRec then
    if ack.type ≠ .pubrec then
      return ⟨[.stop pubrecExpected], false, p.answered⟩
    else
      assert (ack.packetIdentifier == p.publish.packetIdentifier)
      return ⟨[.send p.pubrel], false, p.answered.startAckTimeout⟩
  else
    if ack.type = .pubrec then
      return ⟨[.send p.pubrel], false, p.answered.startAckTimeout⟩
    else
      assert (ack.type == .pubcomp)
      return ⟨[], true, { p.answered with state := .completed }⟩

/-- The publication after an expired timer has been counted. -/
def retried : Qos2TxPublication := { p with retryCount := p.retryCount + 1 }

/-- The publication whose packet is marked as a duplicate. -/
def duplicate : Qos2TxPublication := { p with publish := p.publish.setDup true }

/-- The client did not answer in time. -/
def ackTimeoutExpired : Except Fault (Reaction Qos2TxPublication) := do
  assert (p.state == .waitingForRec || p.state == .waitingForComp)
  if p.mayRetry then
    if p.state = .waitingForRec then
      return ⟨[.send (.publish p.duplicate.publish)], false,
        p.retried.duplicate.startAckTimeout⟩
    else
      return ⟨[.send p.pubrel], false, p.retried.startAckTimeout⟩
  else
    return ⟨[], true, { p.retried with state := .terminallyFailed }⟩

/-! ### What the operations do -/

variable {p}

@[simp]
theorem packetIdentifier_startAckTimeout :
    p.startAckTimeout.packetIdentifier = p.packetIdentifier := rfl

@[simp]
theorem packetIdentifier_answered : p.answered.packetIdentifier = p.packetIdentifier := rfl

@[simp]
theorem packetIdentifier_retried : p.retried.packetIdentifier = p.packetIdentifier := rfl

@[simp]
theorem packetIdentifier_duplicate :
    p.duplicate.packetIdentifier = p.packetIdentifier := rfl

/-- The first wait is one for a PUBREC. -/
theorem state_startAckTimeout_of_initial (h : p.state = .initial) :
    p.startAckTimeout.state = .waitingForRec := by
  simp [startAckTimeout, h]

/-- Every later wait is one for a PUBCOMP. -/
theorem state_startAckTimeout (h : p.state ≠ .initial) :
    p.startAckTimeout.state = .waitingForComp := by
  simp [startAckTimeout, h]

/-- A new publication has sent nothing and waits for nothing. -/
theorem create_eq_ok {maxRetries : Nat} {publish : Publish}
    (h : create maxRetries publish = .ok p) :
    p.state = .initial ∧ p.maxRetries = maxRetries ∧ p.retryCount = 0 ∧
      p.retryOnTimeout = Timer.idle ∧ publish.setQos .exactlyOnce = .ok p.publish := by
  unfold create at h
  cases hqos : publish.setQos .exactlyOnce with
  | error f => simp [hqos, bind, Except.bind] at h
  | ok publish' =>
      simp only [hqos, bind, Except.bind, pure, Except.pure, Except.ok.injEq] at h
      subst h
      exact ⟨rfl, rfl, rfl, rfl, rfl⟩

/-- What a response does to a publication that waits for a PUBREC. -/
theorem responseReceived_of_waitingForRec {ack : PublishAck} (h : p.state = .waitingForRec) :
    p.responseReceived ack =
      if ack.type ≠ .pubrec then .ok ⟨[.stop pubrecExpected], false, p.answered⟩
      else if ack.packetIdentifier = p.packetIdentifier then
        .ok ⟨[.send p.pubrel], false, p.answered.startAckTimeout⟩
      else .error .assertion := by
  unfold responseReceived
  by_cases hrec : ack.type = .pubrec
  · by_cases hid : ack.packetIdentifier = p.publish.packetIdentifier
    · simp [h, hrec, hid, TxPublication.packetIdentifier, bind, Except.bind, pure,
        Except.pure]
    · simp [h, hrec, hid, TxPublication.packetIdentifier, assert, bind, Except.bind]
  · simp [h, hrec, bind, Except.bind, pure, Except.pure]

/-- What a response does to a publication that waits for a PUBCOMP. -/
theorem responseReceived_of_waitingForComp {ack : PublishAck}
    (h : p.state = .waitingForComp) :
    p.responseReceived ack =
      if ack.type = .pubrec then .ok ⟨[.send p.pubrel], false, p.answered.startAckTimeout⟩
      else if ack.type = .pubcomp then
        .ok ⟨[], true, { p.answered with state := .completed }⟩
      else .error .assertion := by
  unfold responseReceived
  by_cases hrec : ack.type = .pubrec
  · simp [h, hrec, bind, Except.bind, pure, Except.pure]
  · by_cases hcomp : ack.type = .pubcomp
    · simp [h, hcomp, bind, Except.bind, pure, Except.pure]
    · simp [h, hrec, hcomp, assert, bind, Except.bind]

/-- In every other state a response runs into an assertion. -/
theorem responseReceived_of_not_waiting {ack : PublishAck} (hrec : p.state ≠ .waitingForRec)
    (hcomp : p.state ≠ .waitingForComp) : p.responseReceived ack = .error .assertion := by
  simp [responseReceived, hrec, hcomp, assert, bind, Except.bind]

/-- What an expired timer does to a publication that waits for a PUBREC. -/
theorem ackTimeoutExpired_of_waitingForRec (h : p.state = .waitingForRec) :
    p.ackTimeoutExpired =
      if p.mayRetry then .ok ⟨[.send (.publish (p.publish.setDup true))], false,
        p.retried.duplicate.startAckTimeout⟩
      else .ok ⟨[], true, { p.retried with state := .terminallyFailed }⟩ := by
  unfold ackTimeoutExpired
  by_cases hretry : p.mayRetry = true
  · simp [h, hretry, duplicate, bind, Except.bind, pure, Except.pure]
  · simp [h, hretry, bind, Except.bind, pure, Except.pure]

/-- What an expired timer does to a publication that waits for a PUBCOMP. -/
theorem ackTimeoutExpired_of_waitingForComp (h : p.state = .waitingForComp) :
    p.ackTimeoutExpired =
      if p.mayRetry then .ok ⟨[.send p.pubrel], false, p.retried.startAckTimeout⟩
      else .ok ⟨[], true, { p.retried with state := .terminallyFailed }⟩ := by
  unfold ackTimeoutExpired
  by_cases hretry : p.mayRetry = true
  · simp [h, hretry, bind, Except.bind, pure, Except.pure]
  · simp [h, hretry, bind, Except.bind, pure, Except.pure]

/-- In every other state an expired timer runs into an assertion. -/
theorem ackTimeoutExpired_of_not_waiting (hrec : p.state ≠ .waitingForRec)
    (hcomp : p.state ≠ .waitingForComp) : p.ackTimeoutExpired = .error .assertion := by
  simp [ackTimeoutExpired, hrec, hcomp, assert, bind, Except.bind]

end Qos2TxPublication

end Dispatch
end WallyIo
