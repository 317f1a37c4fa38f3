import PacketFilter.AttachPoint
import PacketFilter.Instruction.Basic
import PacketFilter.Map.Kind
import PacketFilter.Verifier.Statistics

/-!
# Programs

A program as it is handed in: its name, its slots, the maps it expects to find
and where it is to be attached.  Only the verifier makes a `VerifiedProgram`
of it, which has its maps resolved.
-/

namespace PacketFilter

/-- A map that a program expects to find. -/
structure MapBinding where
  name : String
  kind : MapKind
  keySize : Nat
  valueSize : Nat
  deriving DecidableEq, Repr

namespace MapBinding

/-- The declared part of a schema; the capacity is left to the map. -/
def ofSchema (name : String) (schema : Schema) : MapBinding :=
  ⟨name, schema.kind, schema.keySize, schema.valueSize⟩

/-- What a binding demands of the map it is bound to; the capacity is left open. -/
def shape (binding : MapBinding) : MapKind × Nat × Nat :=
  (binding.kind, binding.keySize, binding.valueSize)

end MapBinding

/-- Kind and sizes of a schema. -/
def Schema.shape (schema : Schema) : MapKind × Nat × Nat :=
  (schema.kind, schema.keySize, schema.valueSize)

/-- A program that nobody has looked at yet. -/
structure Program where
  name : String
  code : Code
  attach : AttachPoint := .ingress
  bindings : List MapBinding := []
  deriving Repr

/-- The number of a map in a store of maps. -/
abbrev MapId := Nat

/-- A program that the verifier has let through. -/
structure VerifiedProgram where
  program : Program
  /-- The maps it works on, in the order of its bindings. -/
  maps : List MapId
  statistics : Statistics
  log : String
  deriving Repr

end PacketFilter
