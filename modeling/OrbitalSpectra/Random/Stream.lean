set_option autoImplicit false

namespace OrbitalSpectra

-- Standard normal draws. What a draw consumes depends on the state alone.
class NormalStream (σ R : Type) where
  ofSeed : UInt64 → σ
  next : σ → R × σ

end OrbitalSpectra
