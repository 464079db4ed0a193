import Mathlib.Data.List.Basic

/-!
# The timers of the driver library

A `Timer` of `liburb` does not wait itself. `delay` makes another object of the class, the `inner`
one, and puts it into the queue `s_timers_` of `EvHelper`, which is ordered by the time at which a
timer is to fire. `timeout_cb` takes the timers that are due out of the queue and calls their
methods one after the other. Whether a timer is active is a flag of each object: `delay` sets that
of the inner object, and reads its own.

The clock counts nanoseconds, the queue tenths of a second.
-/

namespace Urb.Ev

/-- A `Timer` that was put into the queue. `M` are the methods that are called. -/
structure Inner (M : Type) where
  active : Bool
  method : M
  fireTime : Nat
  deriving DecidableEq, Repr

/-- The timer of an owner, with the place of its inner object among all objects. -/
structure Timer where
  active : Bool := false
  inner : Option Nat := none
  deriving DecidableEq, Repr

/-- `EvHelper`, with the clock. The callbacks are those that the running `timeout_cb` has taken out
    of the queue and not called yet. -/
structure EvHelper (M : Type) where
  objects : List (Inner M) := []
  /-- `s_timers_`, by fire time -/
  timers : List (Nat × List Nat) := []
  callbacks : List Nat := []
  now : Nat := 0

/-- `time_point_cast` to tenths of a second. -/
def deciseconds (ns : Nat) : Nat := ns / 100000000

/-- `s_timers_[key].push_back(t)`, in the order of the keys. -/
def insertTimer (key t : Nat) : List (Nat × List Nat) → List (Nat × List Nat)
  | [] => [(key, [t])]
  | (k, ts) :: rest =>
    if key < k then (key, [t]) :: (k, ts) :: rest
    else if key = k then (k, ts ++ [t]) :: rest
    else (k, ts) :: insertTimer key t rest

namespace EvHelper

variable {M : Type}

/-- `scheduleTimer`, of a new object. -/
def scheduleTimer (ev : EvHelper M) (t : Inner M) : EvHelper M :=
  { ev with
    objects := ev.objects ++ [t]
    timers := insertTimer t.fireTime ev.objects.length ev.timers }

/-- The active flag of an object is cleared. -/
def deactivate (ev : EvHelper M) (i : Nat) : EvHelper M :=
  { ev with objects := ev.objects.modify i ({ · with active := false }) }

/-- The part of `timeout_cb` under the lock: the timers that are due are taken out of the queue. -/
def takeDue (ev : EvHelper M) : EvHelper M :=
  let due := fun e : Nat × List Nat => decide (e.1 ≤ deciseconds ev.now)
  { ev with
    timers := ev.timers.dropWhile due
    callbacks := (ev.timers.takeWhile due).flatMap (·.2) }

/-- The next callback of `timeout_cb`: an active timer is made inactive and its method is called
    (`executeMethod`). -/
def executeNext (ev : EvHelper M) : EvHelper M × Option M :=
  match ev.callbacks with
  | [] => (ev, none)
  | i :: rest =>
    match ev.objects[i]? with
    | some t =>
      if t.active then ({ ev with callbacks := rest }.deactivate i, some t.method)
      else ({ ev with callbacks := rest }, none)
    | none => ({ ev with callbacks := rest }, none)

end EvHelper

namespace Timer

variable {M : Type}

/-- `delay` -/
def delay (timer : Timer) (ev : EvHelper M) (ns : Nat) (method : M) : Timer × EvHelper M :=
  if timer.active then (timer, ev)
  else
    ({ timer with inner := some ev.objects.length },
      ev.scheduleTimer { active := true, method, fireTime := deciseconds (ev.now + ns) })

/-- `cancel`, which the destructor calls. -/
def cancel (timer : Timer) (ev : EvHelper M) : Timer × EvHelper M :=
  ({ timer with active := false },
    match timer.inner with
    | some i => ev.deactivate i
    | none => ev)

end Timer

end Urb.Ev
