import Mathlib.Data.List.Basic

/-!
# Support — Oneshot

`tokio::sync::oneshot`: a channel for one value, whose ends can be dropped.

A value that was sent and not received is dropped with the receiver, and a value sent to a channel
without a receiver is given back to the sender, which drops it here.
-/

/-- A channel with both its ends; with a value that was not received yet; whose sender was dropped
without sending; whose receiver is gone. -/
inductive Oneshot (α : Type) where
  | empty
  | sent (a : α)
  | abandoned
  | closed
deriving DecidableEq

namespace Oneshot

variable {α : Type}

/-- `Sender::send` -/
def send (a : α) : Oneshot α → Oneshot α
  | .empty => .sent a
  | channel => channel

/-- The sender is dropped. -/
def dropSender : Oneshot α → Oneshot α
  | .empty => .abandoned
  | channel => channel

/-- The receiver is dropped, or has its value. -/
def close : Oneshot α → Oneshot α := fun _ => .closed

/-- A poll of the receiver: pending, or the value, or the error that the sender is gone. -/
def poll : Oneshot α → Option (Option α)
  | .sent a => some (some a)
  | .abandoned => some none
  | _ => none

variable {channel : Oneshot α}

theorem send_eq_sent_iff {a b : α} :
    send a channel = .sent b ↔ channel = .sent b ∨ (channel = .empty ∧ a = b) := by
  cases channel <;> simp [send]

theorem dropSender_eq_sent_iff {b : α} :
    dropSender channel = .sent b ↔ channel = .sent b := by
  cases channel <;> simp [dropSender]

theorem poll_eq_value_iff {a : α} :
    poll channel = some (some a) ↔ channel = .sent a := by
  cases channel <;> simp [poll]

end Oneshot
