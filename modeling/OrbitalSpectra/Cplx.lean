import OrbitalSpectra.Scalar

set_option autoImplicit false

namespace OrbitalSpectra

structure Cplx (R : Type) where
  re : R
  im : R
  deriving BEq, DecidableEq, Repr

namespace Cplx

theorem ext {R : Type} {z w : Cplx R} (re : z.re = w.re) (im : z.im = w.im) : z = w := by
  cases z
  cases w
  simp_all

variable {R : Type} [Scalar R]

@[inline] def ofReal (x : R) : Cplx R := ⟨x, 0⟩
@[inline] def add (z w : Cplx R) : Cplx R := ⟨z.re + w.re, z.im + w.im⟩
@[inline] def sub (z w : Cplx R) : Cplx R := ⟨z.re - w.re, z.im - w.im⟩
@[inline] def neg (z : Cplx R) : Cplx R := ⟨-z.re, -z.im⟩
@[inline] def mul (z w : Cplx R) : Cplx R := ⟨z.re * w.re - z.im * w.im, z.re * w.im + z.im * w.re⟩

instance : Zero (Cplx R) := ⟨⟨0, 0⟩⟩
instance : One (Cplx R) := ⟨⟨1, 0⟩⟩
instance : Add (Cplx R) := ⟨add⟩
instance : Sub (Cplx R) := ⟨sub⟩
instance : Neg (Cplx R) := ⟨neg⟩
instance : Mul (Cplx R) := ⟨mul⟩

@[inline] def conj (z : Cplx R) : Cplx R := ⟨z.re, -z.im⟩
@[inline] def scale (z : Cplx R) (x : R) : Cplx R := ⟨z.re * x, z.im * x⟩
@[inline] def unscale (z : Cplx R) (x : R) : Cplx R := ⟨z.re / x, z.im / x⟩
@[inline] def normSq (z : Cplx R) : R := z.re * z.re + z.im * z.im
@[inline] def abs (z : Cplx R) : R := Scalar.hypot z.re z.im

@[inline] def div (z w : Cplx R) : Cplx R :=
  let n := w.normSq
  ⟨(z.re * w.re + z.im * w.im) / n, (z.im * w.re - z.re * w.im) / n⟩

instance : Div (Cplx R) := ⟨div⟩

@[simp] theorem zero_re : (0 : Cplx R).re = 0 := rfl
@[simp] theorem zero_im : (0 : Cplx R).im = 0 := rfl
@[simp] theorem one_re : (1 : Cplx R).re = 1 := rfl
@[simp] theorem one_im : (1 : Cplx R).im = 0 := rfl
@[simp] theorem add_re (z w : Cplx R) : (z + w).re = z.re + w.re := rfl
@[simp] theorem add_im (z w : Cplx R) : (z + w).im = z.im + w.im := rfl
@[simp] theorem sub_re (z w : Cplx R) : (z - w).re = z.re - w.re := rfl
@[simp] theorem sub_im (z w : Cplx R) : (z - w).im = z.im - w.im := rfl
@[simp] theorem neg_re (z : Cplx R) : (-z).re = -z.re := rfl
@[simp] theorem neg_im (z : Cplx R) : (-z).im = -z.im := rfl
@[simp] theorem mul_re (z w : Cplx R) : (z * w).re = z.re * w.re - z.im * w.im := rfl
@[simp] theorem mul_im (z w : Cplx R) : (z * w).im = z.re * w.im + z.im * w.re := rfl
@[simp] theorem conj_re (z : Cplx R) : z.conj.re = z.re := rfl
@[simp] theorem conj_im (z : Cplx R) : z.conj.im = -z.im := rfl
@[simp] theorem scale_re (z : Cplx R) (x : R) : (z.scale x).re = z.re * x := rfl
@[simp] theorem scale_im (z : Cplx R) (x : R) : (z.scale x).im = z.im * x := rfl
@[simp] theorem unscale_re (z : Cplx R) (x : R) : (z.unscale x).re = z.re / x := rfl
@[simp] theorem unscale_im (z : Cplx R) (x : R) : (z.unscale x).im = z.im / x := rfl
@[simp] theorem ofReal_re (x : R) : (ofReal x).re = x := rfl
@[simp] theorem ofReal_im (x : R) : (ofReal x).im = 0 := rfl

end Cplx

end OrbitalSpectra
