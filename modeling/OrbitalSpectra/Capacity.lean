import OrbitalSpectra.Failure

set_option autoImplicit false

namespace OrbitalSpectra

-- What becomes of a size that a word of 64 bits cannot hold. An optimised build keeps its lower bits; a
-- build that checks its arithmetic ends the program.
inductive Overflow
  | wraps
  | ends
  deriving DecidableEq, Repr

class Build where
  overflow : Overflow

instance (priority := low) optimised : Build := ⟨.wraps⟩

def toSize [Build] (n : Nat) : Except Failure Nat :=
  if n < UInt64.size then .ok n
  else
    match Build.overflow with
    | .wraps => .ok (n % UInt64.size)
    | .ends => .error .overflow

def sizeMinus [Build] (a b : Nat) : Except Failure Nat :=
  if b ≤ a then .ok (a - b)
  else
    match Build.overflow with
    | .wraps => .ok (a + UInt64.size - b)
    | .ends => .error .overflow

def addressLimit : Nat := UInt64.size / 2

-- What a vector takes in a list of vectors, in bytes, whatever its entries are.
def vectorSize : Nat := 32

def complexSize : Nat := 16

def fitsMemory (count size : Nat) : Bool := count * size < addressLimit

-- Room for a list is looked for before its first element is made. It lies in one stretch of memory, which
-- spans less than half of the addresses.
def requireRoom (count size : Nat) : Except Failure Unit :=
  if fitsMemory count size then .ok () else .error .capacity

theorem fits_memory_size {count size : Nat} (positive : 0 < size) (fits : fitsMemory count size = true) :
    count < UInt64.size := by
  have bytes : count * size < addressLimit := of_decide_eq_true fits
  have limit : addressLimit < UInt64.size := by decide
  exact Nat.lt_of_le_of_lt (Nat.le_mul_of_pos_right count positive) (Nat.lt_trans bytes limit)

section Sizes

variable [Build]

theorem to_size_fits {n : Nat} (fits : n < UInt64.size) : toSize n = .ok n := if_pos fits

theorem to_size_mod {n m : Nat} (ok : toSize n = .ok m) : m = n % UInt64.size := by
  unfold toSize at ok
  split at ok
  · rename_i fits
    cases ok
    exact (Nat.mod_eq_of_lt fits).symm
  · split at ok
    · cases ok
      rfl
    · cases ok

theorem to_size_bound {n m : Nat} (ok : toSize n = .ok m) : m < UInt64.size :=
  to_size_mod ok ▸ Nat.mod_lt n (by decide)

theorem to_size_wraps (build : Build.overflow = .wraps) (n : Nat) : toSize n = .ok (n % UInt64.size) := by
  unfold toSize
  split
  · rename_i fits
    rw [Nat.mod_eq_of_lt fits]
  · rw [build]

theorem to_size_ends (build : Build.overflow = .ends) {n : Nat} (large : UInt64.size ≤ n) :
    toSize n = .error .overflow := by
  rw [toSize, if_neg (Nat.not_lt.mpr large), build]

theorem size_minus_wraps (build : Build.overflow = .wraps) (a b : Nat) :
    ∃ difference, sizeMinus a b = .ok difference := by
  unfold sizeMinus
  split
  · exact ⟨_, rfl⟩
  · rw [build]
    exact ⟨_, rfl⟩

theorem size_minus_fits {a b : Nat} (less : b ≤ a) : sizeMinus a b = .ok (a - b) := if_pos less

end Sizes

end OrbitalSpectra
