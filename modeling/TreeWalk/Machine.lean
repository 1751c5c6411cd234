import TreeWalk.Heap
import TreeWalk.Output
import TreeWalk.Resolution

/-!
# The machine

The state in which programs run: the heap, the global and the current scope, the
distances of references, the number of calls in progress, the clock and the
output.
-/

namespace TreeWalk

/-- A source of times, in seconds, that a program can read one after the other.
A reading may fail with an error text. -/
structure Clock where
  reading : Nat -> Float
  readings : Nat := 0
  failure? : Nat -> Option String := fun _ => none

/-- The state in which programs run. -/
structure Machine where
  heap : Heap
  globals : ScopeRef
  scope : ScopeRef
  distances : Distances
  callDepth : Nat
  clock : Clock
  output : Output

/-- How many calls may be in progress at the same time. -/
def maxCallDepth : Nat := 1000

/-- The native function that reads the clock. -/
def Native.clock : Native :=
  ⟨"clock", 0, .clock⟩

namespace Machine

/-- A machine that has run nothing yet.  Its only global is `clock`. -/
def fresh (clock : Clock) (output : Output) : Machine :=
  let (native, heap) := Heap.newNative {} Native.clock
  let (globals, heap) := heap.newScope none (Bindings.empty.set Native.clock.name (.native native))
  { heap := heap
    globals := globals
    scope := globals
    distances := ∅
    callDepth := 0
    clock := clock
    output := output }

/-- The names bound in the global scope. -/
def globalNames (machine : Machine) : List String :=
  (machine.heap.scope machine.globals).bindings.names

/-- Flush the output.  Should that fail, everything stays as it is. -/
def flushed (machine : Machine) : Machine :=
  match machine.output.flush with
  | .ok output => { machine with output := output }
  | .error _ => machine

/-- Flushing changes nothing that a program or its user can see. -/
@[simp] theorem flushed_eq (machine : Machine) : machine.flushed = machine := by
  unfold flushed Output.flush
  cases machine.output.flushFails <;> rfl

/-- Take up distances, in place of those filed under the same numbers. -/
def noteDistances (machine : Machine) (distances : Distances) : Machine :=
  { machine with
    distances := distances.foldl (fun table id d => table.insert id d) machine.distances }

/-- Drop the distances filed under some numbers. -/
def forgetDistances (machine : Machine) (ids : List Nat) : Machine :=
  { machine with distances := ids.foldl (fun table id => table.erase id) machine.distances }

end Machine

end TreeWalk
