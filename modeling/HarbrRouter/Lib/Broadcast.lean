import Mathlib.Tactic.Common

/-!
# Broadcast channels

A channel on which every receiver sees the messages sent after it subscribed. Only what decides
whether a receiver has something to receive is kept: how many messages were sent, how many receivers
there are, and for each receiver how many messages were sent before the next one it will see.

* `send_eq_none_iff`: a message is refused where there is no receiver.
* `ready_of_send`: a message that is sent reaches every receiver.
* `not_ready_subscribe`: a new receiver sees none of the messages sent before.
-/

set_option autoImplicit false

namespace Broadcast

/-- A channel. -/
structure Channel where
  sent : ℕ
  receivers : ℕ
deriving DecidableEq, Repr

namespace Channel

/-- A new channel, with its first receiver. -/
def new : Channel := ⟨0, 1⟩

/-- Send a message. -/
def send (c : Channel) : Option Channel :=
  if c.receivers = 0 then none else some { c with sent := c.sent + 1 }

/-- A new receiver, and where it stands. -/
def subscribe (c : Channel) : Channel × ℕ := ({ c with receivers := c.receivers + 1 }, c.sent)

/-- A receiver goes away. -/
def drop (c : Channel) : Channel := { c with receivers := c.receivers - 1 }

/-- A receiver that stands there has something to receive: the next message, or the news that it was
overwritten. -/
def Ready (c : Channel) (next : ℕ) : Prop := next < c.sent

instance (c : Channel) (next : ℕ) : Decidable (c.Ready next) := inferInstanceAs (Decidable (_ < _))

variable {c c' : Channel} {next : ℕ}

/-- A message is refused exactly where nobody receives. -/
theorem send_eq_none_iff : c.send = none ↔ c.receivers = 0 := by
  unfold send
  split_ifs with h
  · simp [h]
  · simp [h]

/-- Sending counts one more message. -/
theorem send_eq_some (h : c.send = some c') : c' = { c with sent := c.sent + 1 } := by
  unfold send at h
  split_ifs at h
  exact (Option.some.inj h).symm

/-- A message that is sent reaches every receiver. -/
theorem ready_of_send (h : c.send = some c') (hnext : next ≤ c.sent) : c'.Ready next := by
  rw [send_eq_some h]
  exact Nat.lt_succ_of_le hnext

/-- A new receiver sees none of the messages sent before. -/
theorem not_ready_subscribe (c : Channel) : ¬ c.subscribe.1.Ready c.subscribe.2 :=
  Nat.lt_irrefl c.sent

end Channel

end Broadcast
