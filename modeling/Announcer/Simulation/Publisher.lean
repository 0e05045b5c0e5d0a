/-!
# Publishers

The bootstrap of a connection gets its sender wrapped in a publisher. It performs
once, and when it is given up and no performance is under way, it stops its
sender (specification, 4.3).
-/
namespace Announcer.Simulation

structure Publisher where
  held : Bool
  performed : Bool
  performing : Bool
  dropped : Bool
  deriving DecidableEq, Repr, Inhabited

inductive Handling where
  | perform
  | abort
  /-- Whoever holds it lets go of it. -/
  | release
  /-- It goes when nothing keeps it any more. -/
  | expire
  deriving DecidableEq, Repr

inductive Order where
  | nothing
  | refuse
  | call
  | stop
  deriving DecidableEq, Repr

namespace Publisher

def fresh : Publisher := ⟨true, false, false, false⟩

def release (p : Publisher) : Publisher := { p with held := false }

def perform (p : Publisher) : Publisher := { p with performed := true, performing := true }

def finish (p : Publisher) : Publisher := { p with performing := false }

def drop (p : Publisher) : Publisher := { p with dropped := true }

/-- True when nothing keeps it any more and its sender was not stopped yet. -/
def isLoose (p : Publisher) : Bool := !p.held && !p.performing && !p.dropped

/-- Sees to something (`performOperation`, `abortOperation`, destruction; specification, 4.3);
`isIdle` says whether the sender can still be asked. -/
def handle (p : Publisher) (isIdle : Bool) : Handling → Publisher × Order
  | .perform =>
    if !p.held then (p, .nothing)
    else if p.performed then (p, .refuse)
    else ({ p with performed := true, performing := isIdle }, .call)
  | .abort => (p, if p.held then .stop else .nothing)
  | .release => (p.release, .nothing)
  | .expire => if p.isLoose then (p.drop, .stop) else (p, .nothing)

end Publisher

end Announcer.Simulation
