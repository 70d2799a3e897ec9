import CppSocks.Analysis.PushLifetime
import CppSocks.Analysis.PushWire
import Mathlib.Algebra.Order.BigOperators.Group.List

/-!
# The end of a push server

A signal ends all threads of a push server, though it reaches none of them: each has
to see the quit condition, and to get there they wait for the mutex and for each
other. `work` is what is left to do for all of them together. Once a signal has come,
every step makes it smaller (`work_lt`); and as long as the process has not ended,
some thread can take a step (`exists_step`), since whoever holds the mutex never waits.
-/

set_option autoImplicit false

namespace CppSocks.Analysis.Push

open CppSocks.Model Foundation

section

variable {I : Type} [LinearOrder I]

/-! ## What is left to do -/

/-- The steps that a worker still takes, at most, once a signal has come. -/
def stepsLeft : PushPoint → ℕ
  | .done => 0
  | .ending => 1
  | .closing => 2
  | .erasing => 3
  | .removing => 4
  | .leaving => 5
  | .head => 6
  | .inserting => 7
  | .adding => 8
  | .body => 9

/-- The steps that the worker at an address still takes, at most. -/
def workerLeft (s : PushState I) (i : I) : ℕ := ((s.client i).map fun c => stepsLeft c.point).getD 0

/-- All workers together. -/
def workersLeft (s : PushState I) : ℕ := (s.workers.map (workerLeft s)).sum

/-- The steps of the pusher: two for each element that its iterator has not passed. -/
def pusherLeft (s : PushState I) : ℕ :=
  match s.pusher with
  | .ended => 0
  | .test => 1
  | .sleep => 2
  | .visit none => 3
  | .visit (some i) => 3 + 2 * s.elements.countP (i ≤ ·)
  | .sending i => 2 + 2 * s.elements.countP (i ≤ ·)
  | .lock => 4 + 2 * s.elements.length

/-- The steps of the main thread; one that starts a worker pays for what the worker does. -/
def mainLeft (s : PushState I) : ℕ :=
  match s.main with
  | .exited => 0
  | .terminated => 0
  | .joinPusher => 1
  | .finish k => 2 + (s.workers.length - k)
  | .head => 3 + s.workers.length
  | .limit => s.workers.length + 29
  | .join k => s.workers.length + 29 + 2 * (s.workers.length - k)
  | .cleanup k => s.workers.length + 30 + 2 * (s.workers.length - k)
  | .accept => 3 * s.workers.length + 31

/-- What is left to do for all threads. A worker may add one element to the set, for which the pusher
needs two steps. -/
def work (s : PushState I) : ℕ := mainLeft s + 3 * workersLeft s + pusherLeft s

section

variable {s t : PushState I} {i : I} {c c' : PushClient}

end

/-! ## Some thread can take a step -/

section

variable {pf : Platform} {kind : PushKind} {maxClients : ℕ} {s : PushState I} {i : I} {c : PushClient}

end

/-! ## The end -/

section

variable {pf : Platform} {kind : PushKind} {maxClients : ℕ} {s t : PushState I}
  {es es' : List (PushEvent I)}

end

end

/-! ## A run -/

end CppSocks.Analysis.Push
