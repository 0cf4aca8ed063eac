import NodeRun.Command

/-!
The executions that can still be stopped, at most one for each trace. A registration is known by
its generation, a word that counts registrations, so that an execution that ends takes away no
registration but its own.
-/

namespace NodeRun

structure Registration where
  node : String
  execution : Nat
  generation : UInt64
  deriving DecidableEq, Repr

structure Running where
  entries : Table Registration
  next : UInt64
  deriving DecidableEq, Repr

inductive Stopping where
  | nothing
  | elsewhere
  | execution (id : Nat)
  deriving DecidableEq, Repr

namespace Running

def fresh : Running := ⟨∅, 0⟩

def size (r : Running) : Nat := r.entries.size

def get? (r : Running) (trace : String) : Option Registration := r.entries.get? trace

def register (r : Running) (trace node : String) (execution : Nat) : Running :=
  ⟨r.entries.insert trace ⟨node, execution, r.next⟩, r.next + 1⟩

def release (r : Running) (trace : String) (generation : UInt64) : Running :=
  match r.get? trace with
  | some x => if x.generation = generation then { r with entries := r.entries.erase trace } else r
  | none => r

def stopping (r : Running) (s : StopRequest) : Stopping :=
  match r.get? s.traceId with
  | none => .nothing
  | some x =>
    match s.nodeId with
    | none => .execution x.execution
    | some node => if node = x.node then .execution x.execution else .elsewhere

end Running

end NodeRun
