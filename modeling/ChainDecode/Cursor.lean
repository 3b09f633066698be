import ChainDecode.Fault

/-! # Reading from a byte string

A cursor remembers how many bytes were taken and which are left. A reader that stops keeps the
cursor where it stopped, so the bytes it took before stay taken.
-/
namespace ChainDecode

/-- A place in a byte string. -/
structure Cursor where
  position : Nat
  rest : List UInt8
  deriving DecidableEq, Repr

namespace Cursor

def start (bytes : List UInt8) : Cursor := ⟨0, bytes⟩

def remaining (c : Cursor) : Nat := c.rest.length

def atEnd (c : Cursor) : Bool := c.rest.isEmpty

def advance (c : Cursor) (count : Nat) : Cursor := ⟨c.position + count, c.rest.drop count⟩

end Cursor

def times {σ α : Type} (step : EStateM Fault σ α) : (count : Nat) → EStateM Fault σ (List α)
  | 0 => pure []
  | count + 1 => do
    let a ← step
    let rest ← times step count
    pure (a :: rest)

/-- A step that takes bytes at a cursor and yields a value or stops with a cause. -/
abbrev Read (α : Type) := EStateM Fault Cursor α

namespace Read

def onBytes {α : Type} (r : Read α) (bytes : List UInt8) : Except Fault (α × Cursor) :=
  match r.run (Cursor.start bytes) with
  | .ok a c => .ok (a, c)
  | .error f _ => .error f

def position : Read Nat := return (← get).position

def remaining : Read Nat := return (← get).remaining

/-- Takes exactly `count` bytes, or stops where it stands when fewer are left. -/
def take (count : Nat) (short : Cursor → Fault) : Read (List UInt8) := fun c =>
  if count ≤ c.remaining then .ok (c.rest.take count) (c.advance count) else .error (short c) c

def rest : Read (List UInt8) := fun c => .ok c.rest (c.advance c.remaining)

end Read

end ChainDecode
