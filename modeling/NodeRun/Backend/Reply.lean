import NodeRun.Error

namespace NodeRun

inductive Reply (α : Type) where
  | ok (value : α)
  | error (error : Error)
  | panic (message : String)
  deriving DecidableEq, Repr

namespace Reply

variable {α β : Type}

def map (f : α → β) : Reply α → Reply β
  | ok x => ok (f x)
  | error e => error e
  | panic m => panic m

def ofExcept : Except Error α → Reply α
  | .ok x => ok x
  | .error e => error e

variable {r : Reply α} {f : α → β} {y : β} {e : Error} {m : String}

theorem map_eq_ok_iff : r.map f = ok y ↔ ∃ x, r = ok x ∧ f x = y := by
  cases r <;> simp [map]

@[simp] theorem map_eq_error_iff : r.map f = error e ↔ r = error e := by
  cases r <;> simp [map]

@[simp] theorem map_eq_panic_iff : r.map f = panic m ↔ r = panic m := by
  cases r <;> simp [map]

end Reply

end NodeRun
