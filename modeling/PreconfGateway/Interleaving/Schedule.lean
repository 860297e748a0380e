import PreconfGateway.Interleaving.System

/-! Tasks side by side whose requests are answered in a given order at one moment. -/
namespace PreconfGateway.Interleaving
variable {S : Signature} {W J R : Type}

namespace System
variable (sys : System S W J R) (test : Event S W → Bool) (t : Nat)

variable {sys} {test}

end System
end PreconfGateway.Interleaving
