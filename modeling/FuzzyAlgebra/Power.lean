/-!
# Powers

A power with a natural exponent is the one of the core library, also where a module imports a
library that defines powers of its own.
-/

namespace FuzzyAlgebra

instance (priority := 2000) natPow {α : Type} [NatPow α] : Pow α Nat := instPowNat

attribute [default_instance 20000] natPow

end FuzzyAlgebra
