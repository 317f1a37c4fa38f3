import PacketFilter.Abstract.State
import PacketFilter.Numeral

/-!
# Written states

How the log writes what is known about registers.
-/

namespace PacketFilter

namespace AbstractValue

/-- A scalar by its constant, its intervals, or nothing at all. -/
def scalarText (bounds : Bounds) : String :=
  match bounds.constant? with
  | some word => s!"={word.toInt}"
  | none =>
    if bounds.isUnbounded then
      "=scalar()"
    else
      s!"=scalar(umin={bounds.unsignedMin.toNat},umax={bounds.unsignedMax.toNat}," ++
        s!"smin={bounds.signedMin.toInt},smax={bounds.signedMax.toInt})"

/-- A pointer by its kind, map, offset, variable part and range, as far as it has them. -/
def pointerText (value : AbstractValue) : String :=
  let nullable := if value.mayBeNull then "_or_null" else ""
  let map :=
    if value.kind = .mapValue ∨ value.kind = .mapHandle then s!"[{value.mapIndex}]" else ""
  let offset := if value.offset = 0 then "" else Numeral.signed value.offset
  let variablePart :=
    if value.bounds.isConstant then ""
    else s!"(var {value.bounds.unsignedMin.toNat}..{value.bounds.unsignedMax.toNat})"
  let range := if value.kind = .packet then s!" r={value.range}" else ""
  s!"={value.kind.name}" ++ nullable ++ map ++ offset ++ variablePart ++ range

/-- A value as logs show it, after its register: what it is, and then the identity and the reference
if there are any. -/
def text (value : AbstractValue) (register : Nat) : String :=
  let content := match value.kind with
    | .uninitialized => "=<not_init>"
    | .scalar => scalarText value.bounds
    | _ => value.pointerText
  let identity := if value.identity = 0 then "" else s!" id={value.identity}"
  let reference := if value.reference = 0 then "" else s!" ref={value.reference}"
  s!"R{register}" ++ content ++ identity ++ reference

end AbstractValue

namespace AbstractState

/-- The initialized registers on one line. -/
def registersText (state : AbstractState) : String :=
  let numbered := state.registers.toList.zipIdx.filter fun entry => entry.1.isInitialized
  " ".intercalate (numbered.map fun entry => entry.1.text entry.2)

end AbstractState

end PacketFilter
