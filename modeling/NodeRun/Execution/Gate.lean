/-!
A counting semaphore that serves its waiters in order. A waiter to whom a permit was handed keeps
it until it is polled, or gives it back when it leaves.
-/

namespace NodeRun

structure Gate where
  free : Nat
  queue : List Nat
  granted : List Nat
  deriving DecidableEq, Repr

namespace Gate

def ofLimit (n : Nat) : Gate := ⟨n, [], []⟩

def take? (g : Gate) : Option Gate :=
  match g.free with
  | 0 => none
  | n + 1 => some { g with free := n }

def enqueue (g : Gate) (id : Nat) : Gate := { g with queue := g.queue ++ [id] }

def release (g : Gate) : Gate :=
  match g.queue with
  | [] => { g with free := g.free + 1 }
  | id :: rest => { g with queue := rest, granted := g.granted ++ [id] }

def isGranted (g : Gate) (id : Nat) : Bool := g.granted.contains id

def claim (g : Gate) (id : Nat) : Gate := { g with granted := g.granted.erase id }

def leave (g : Gate) (id : Nat) : Gate :=
  if g.isGranted id then (g.claim id).release else { g with queue := g.queue.erase id }

end Gate

end NodeRun
