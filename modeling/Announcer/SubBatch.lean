import Announcer.Config
/-!
# Sub-batches

A list of configs is cut, in order, into runs that each travel in one event
(specification, 4.2). A run ends when the next config would be one too many or
would pass the size limit; a config larger than the limit travels alone.
-/
namespace Announcer

namespace SubBatch

/-- True when a run of `count` configs and `bytes` bytes cannot take `c` as well. -/
def full (maxCount : Option Nat) (maxBytes count bytes : Nat) (c : Config) : Bool :=
  (maxCount.any (fun max => max ≤ count)) || maxBytes < bytes + c.size

/-- Cuts the rest behind an open run of `count` configs and `bytes` bytes, kept
in reverse. -/
def cut (maxCount : Option Nat) (maxBytes : Nat) (run : List Config) (count bytes : Nat) :
    List Config → List (List Config)
  | [] => [run.reverse]
  | c :: rest =>
    if full maxCount maxBytes count bytes c then
      run.reverse :: cut maxCount maxBytes [c] 1 c.size rest
    else cut maxCount maxBytes (c :: run) (count + 1) (bytes + c.size) rest

end SubBatch

def subBatches (maxCount : Option Nat) (maxBytes : Nat) : List Config → List (List Config)
  | [] => []
  | c :: rest => SubBatch.cut maxCount maxBytes [c] 1 c.size rest

end Announcer
