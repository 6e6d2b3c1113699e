import RpiNestApi.Async.Reader
import RpiNestApi.Device.Status

/-
The status while the device changes.

`getCurrentStatus` runs its commands side by side, and each of them prints what there is
when it runs.  The status is made of values that the device has had during the request, of
each at a time of its own.
-/

namespace RpiNestApi.DeviceStatus

open Async ShellCommand

/-- What every command prints at one time. -/
abbrev Commands := Spawn → Except Exception String

/-- Between the two times the service would have returned the value. -/
def ReadBetween (commands : Nat → Commands) (start finish : Nat) {α : Type}
    (service : ShellCommand.Service α) (a : α) : Prop :=
  ∃ t, start ≤ t ∧ t ≤ finish ∧ service.eval (commands t) = .ok a

section Reads

variable {commands : Nat → Commands} {start finish : Nat}

theorem ReadBetween.mono {α : Type} {service : ShellCommand.Service α} {a : α} {finish' : Nat}
    (h : ReadBetween commands start finish service a) (hfinish : finish ≤ finish') :
    ReadBetween commands start finish' service a := by
  obtain ⟨t, ht, ht', ha⟩ := h
  exact ⟨t, ht, ht'.trans hfinish, ha⟩

end Reads

end RpiNestApi.DeviceStatus
