/-!
# Credentials

A provider holds a bearer token and publishes its state (specification, 6).
Whoever watches it learns that something was published, even when the state is
the same as before.
-/
namespace Announcer

inductive AuthState where
  | uninitialized
  | refreshed
  | expired
  | unrecoverableError
  deriving DecidableEq, Repr, Inhabited

namespace AuthState

def all : List AuthState := [.uninitialized, .refreshed, .expired, .unrecoverableError]

def name : AuthState → String
  | .uninitialized => "uninitialized"
  | .refreshed => "refreshed"
  | .expired => "expired"
  | .unrecoverableError => "unrecoverable_error"

def ofName? (s : String) : Option AuthState := all.find? (fun x => x.name = s)

end AuthState

/-- A provider whose token is set by hand. -/
structure Credentials where
  token : String
  state : AuthState
  /-- How many tokens were reported as rejected. -/
  failures : Nat
  published : Nat
  deriving DecidableEq, Repr, Inhabited

namespace Credentials

def none : Credentials := ⟨"", .uninitialized, 0, 0⟩

def setToken (c : Credentials) (token : String) : Credentials :=
  { c with token := token, state := .refreshed, published := c.published + 1 }

def revoke (c : Credentials) (state : AuthState) : Credentials :=
  { c with token := "", state := state, published := c.published + 1 }

/-- Counts a token that the service rejected. The state becomes `expired` when
it is the current one; a stale token changes nothing else. -/
def reportFailure (c : Credentials) (token : String) : Credentials :=
  let c := { c with failures := c.failures + 1 }
  if c.token = token then { c with state := .expired, published := c.published + 1 } else c

def withToken (token : String) : Credentials := none.setToken token

end Credentials

/-- Someone who watches a provider: what it has seen of its publications. -/
structure Watcher where
  seen : Nat
  deriving DecidableEq, Repr, Inhabited

def Credentials.watch (c : Credentials) : Watcher := ⟨c.published⟩

def Watcher.hasNews (w : Watcher) (c : Credentials) : Bool := w.seen ≠ c.published

end Announcer
