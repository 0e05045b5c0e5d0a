/-!
# Virtual time

A simulated world runs on a clock that moves only when nothing else can happen.
A `Timeline` says how one kind of world does that: `work` is one thing that
happens at the present moment, and `due` the next moment at which something
will. The number of steps is bounded by `budget`.
-/
namespace Announcer.Simulation

structure Timeline (σ : Type) where
  /-- One thing that happens now, none when all is quiet. -/
  work : σ → Option σ
  /-- When something happens next, none when never. -/
  due : σ → Option Nat
  now : σ → Nat
  moveTo : Nat → σ → σ

def budget : Nat := 1000000000

namespace Timeline

variable {σ : Type} (t : Timeline σ)

def settle : Nat → σ → σ
  | 0, s => s
  | fuel + 1, s =>
    match t.work s with
    | some s => settle fuel s
    | none => s

/-- Lets everything happen up to the moment `limit`, and leaves the clock there. -/
def runTo : Nat → Nat → σ → σ
  | 0, _, s => s
  | fuel + 1, limit, s =>
    match t.work s with
    | some s => runTo fuel limit s
    | none =>
      match t.due s with
      | some next =>
        if next ≤ limit then runTo fuel limit (t.moveTo (max next (t.now s)) s)
        else t.moveTo (max limit (t.now s)) s
      | none => t.moveTo (max limit (t.now s)) s

def runUntil (p : σ → Bool) : Nat → σ → σ
  | 0, s => s
  | fuel + 1, s =>
    if p s then s
    else
      match t.work s with
      | some s => runUntil p fuel s
      | none =>
        match t.due s with
        | some next => runUntil p fuel (t.moveTo (max next (t.now s)) s)
        | none => s

end Timeline

def earliest (moments : List Nat) : Option Nat := moments.min?

end Announcer.Simulation
