/-!
# Attach points

Where a program runs, and what it may do there.
-/

namespace PacketFilter

/-- Where a program is attached. -/
inductive AttachPoint where
  /-- The program may rewrite packets and redirect them. -/
  | ingress
  /-- The program may only read packets and choose between dropping and passing them. -/
  | observe
  deriving DecidableEq, Repr

namespace AttachPoint

/-- The attach point in logs and rejections. -/
def name : AttachPoint → String
  | ingress => "ingress"
  | observe => "observe"

/-- Programs that only observe leave the packet as it is. -/
def allowsPacketWrite : AttachPoint → Bool
  | ingress => true
  | observe => false

/-- Programs that only observe cannot send the packet elsewhere. -/
def allowsRedirect : AttachPoint → Bool
  | ingress => true
  | observe => false

/-- The least and the greatest verdict code a program may return. -/
def verdictRange : AttachPoint → Nat × Nat
  | ingress => (0, 4)
  | observe => (1, 2)

end AttachPoint

end PacketFilter
