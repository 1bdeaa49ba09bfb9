/-!
# Arithmetic

A power of a number and the zero of a sum are those that come with numbers, also where other ones are in sight.
-/

namespace Courier

attribute [scoped instance (high)] instPowNat Zero.ofOfNat0

attribute [default_instance (high + 1)] instPowNat

end Courier
