/-!
# The cancellation switch

Somebody else may hold a switch that cancels the wait for receipts. What is going
to happen to it is a list of signals, each with its time. Signals take effect in
the order of the list, none before its time and none before the one in front of
it. A signal takes effect only while time passes, and one that comes at the very
end of a stretch of time belongs to the next stretch.
-/

namespace ChainClient.Scenario

/-- What happens to a switch. -/
inductive Signal where
  | set (cancelled : Bool)
  /-- It is given up, and stays as it is. -/
  | abandon
  deriving DecidableEq, Repr

/-- A switch, and what is going to happen to it at which time in milliseconds. -/
structure Switch where
  cancelled : Bool
  coming : List (Nat × Signal)
  deriving DecidableEq, Repr

namespace Switch

def untouched : Switch :=
  ⟨false, []⟩

/-- Apply the signals that come before a time. -/
def settleBefore (time : Nat) (cancelled : Bool) : List (Nat × Signal) → Switch
  | [] => ⟨cancelled, []⟩
  | (at_, signal) :: rest =>
      if at_ < time then
        match signal with
        | .set value => settleBefore time value rest
        | .abandon => ⟨cancelled, []⟩
      else ⟨cancelled, (at_, signal) :: rest⟩

/-- The switch after a stretch of time during which nobody looks at it. -/
def pass (start finish : Nat) (switch : Switch) : Switch :=
  if start < finish then settleBefore finish switch.cancelled switch.coming else switch

/-- Watch the signals until the switch says that the wait is cancelled, or until
a deadline, and give the time that the watch ends. Signals of one moment are seen
together, so that only the last of them counts. -/
def watchUntil (deadline now : Nat) (cancelled : Bool) : List (Nat × Signal) → Nat × Switch
  | [] => (if cancelled then now else deadline, ⟨cancelled, []⟩)
  | (at_, signal) :: rest =>
      if cancelled && now < at_ then (now, ⟨true, (at_, signal) :: rest⟩)
      else if max now at_ < deadline then
        match signal with
        | .set value => watchUntil deadline (max now at_) value rest
        | .abandon => (if cancelled then now else deadline, ⟨cancelled, []⟩)
      else (deadline, ⟨cancelled, (at_, signal) :: rest⟩)

/-- Watch a switch until a deadline. A wait that is cancelled already ends at once. -/
def watch (start deadline : Nat) (switch : Switch) : Nat × Switch :=
  if switch.cancelled then (start, switch) else watchUntil deadline start false switch.coming

@[simp] theorem pass_self (time : Nat) (switch : Switch) : switch.pass time time = switch := by
  simp [pass]

/-- Watching the switch that nobody holds lasts until the deadline. -/
@[simp] theorem watch_untouched (start deadline : Nat) :
    untouched.watch start deadline = (deadline, untouched) := by
  simp [untouched, watch, watchUntil]

theorem watch_of_cancelled (start deadline : Nat) (switch : Switch)
    (hcancelled : switch.cancelled = true) : switch.watch start deadline = (start, switch) := by
  simp [watch, hcancelled]

end Switch

end ChainClient.Scenario
