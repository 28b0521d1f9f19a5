import InitialLoad.Server.Procedure

/-!
# Disturbances

A server can be made to fail on purpose.  A `Disturbance` waits at one point of
the interface, lets a number of calls pass, and fails the next one; after that
it is gone.  At every call the first disturbance that waits at its point has its
turn, and no other.
-/

namespace InitialLoad

/-- A failure to come at a point of the interface, after `spared` calls there. -/
structure Disturbance where
  point : CallPoint
  spared : Nat
  failure : Failure

namespace Disturbance

/-- What a call at a point meets: a failure or none, and what is still to come. -/
def meet (point : CallPoint) : List Disturbance → Option Failure × List Disturbance
  | [] => (none, [])
  | d :: rest =>
    if d.point = point then
      match d.spared with
      | 0 => (some d.failure, rest)
      | n + 1 => (none, { d with spared := n } :: rest)
    else
      let (failure, more) := meet point rest
      (failure, d :: more)

/-- The server with disturbances in front of it. -/
def server {σ : Type} (inner : Server σ) : Server (List Disturbance × σ) :=
  ⟨fun q state =>
    match meet q.point state.1 with
    | (some failure, rest) => (.error failure, (rest, state.2))
    | (none, rest) =>
      let (answer, s) := inner.answer q state.2
      (answer, (rest, s))⟩

end Disturbance

end InitialLoad
