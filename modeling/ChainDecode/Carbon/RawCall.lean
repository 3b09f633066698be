import ChainDecode.Stream
import ChainDecode.Carbon.Value

/-! # Calls on the wire

A call names a module and a method and carries argument bytes, either in one piece or in sections.
A negative length announces sections; a section with a negative register offset has no bytes.
-/
namespace ChainDecode.Carbon

structure RawSection where
  registerOffset : Int
  args : List UInt8
  deriving DecidableEq, Repr

structure RawCall where
  module : Int
  method : Int
  args : List UInt8
  sections : Option (List RawSection)
  deriving DecidableEq, Repr

namespace RawCall

def readSection : Read RawSection := do
  let offset ← Stream.signed 4
  let args ← if 0 ≤ offset then Stream.byteArray else pure []
  pure ⟨offset, args⟩

def read : Read RawCall := do
  let module ← Stream.word 4
  let method ← Stream.word 4
  let length ← Stream.signed 4
  if 0 ≤ length then
    let args ← Stream.take length.toNat
    pure ⟨module, method, args, none⟩
  else
    let sections ← times readSection length.natAbs
    pure ⟨module, method, [], some sections⟩

def readMany : Read (List RawCall) := do
  let n ← Stream.count
  times read n

end RawCall

def RawSection.toValue (s : RawSection) : Value :=
  .record [("register_offset", .number s.registerOffset), ("args", .bytes s.args)]

def RawCall.toValue (c : RawCall) : Value :=
  let content := match c.sections with
    | some sections => ("sections", Value.list (sections.map RawSection.toValue))
    | none => ("args", .bytes c.args)
  .record [("module_id", .number c.module), ("method_id", .number c.method), content]

end ChainDecode.Carbon
