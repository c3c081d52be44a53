/-!
# Powers

Numbers are raised to powers in one way throughout the library, whatever else is imported.
-/

namespace TrafficLab

/-- Powers of numbers are those of the core library. -/
@[default_instance high] instance (priority := high) powNat : Pow Nat Nat := instPowNat

end TrafficLab
