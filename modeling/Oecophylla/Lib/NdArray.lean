import Mathlib.Algebra.BigOperators.Group.List.Basic
import Mathlib.Logic.Equiv.Fin.Basic

namespace Oecophylla.Lib

/-!
# Arrays with a shape

* `NdArray` — entries in row-major order, with a shape;
* `ofTensor`, `tensor?`, `ofVector`, `vector?` — arrays of three dimensions and of one.
-/

structure NdArray (F : Type*) where
  shape : List ℕ
  entries : Fin shape.prod → F

namespace NdArray

variable {F : Type*}

/-- The index of an entry of an array of three dimensions. -/
def index (a b c : ℕ) : Fin a × Fin b × Fin c ≃ Fin [a, b, c].prod :=
  ((Equiv.prodCongr (Equiv.refl _) finProdFinEquiv).trans finProdFinEquiv).trans
    (finCongr (by simp))

/-- The array of a function of three indices. -/
def ofTensor {a b c : ℕ} (p : Fin a → Fin b → Fin c → F) : NdArray F where
  shape := [a, b, c]
  entries i := let j := (index a b c).symm i; p j.1 j.2.1 j.2.2

/-- The function of an array of the shape `(a, b, c)`. -/
def tensor? (a b c : ℕ) (x : NdArray F) : Option (Fin a → Fin b → Fin c → F) :=
  if h : x.shape = [a, b, c] then
    some fun i j k => x.entries ((index a b c (i, j, k)).cast (by rw [h]))
  else none

/-- The array of a vector. -/
def ofVector {a : ℕ} (p : Fin a → F) : NdArray F where
  shape := [a]
  entries i := p (i.cast (by simp))

/-- The vector of an array of the shape `(a,)`. -/
def vector? (a : ℕ) (x : NdArray F) : Option (Fin a → F) :=
  if h : x.shape = [a] then some fun i => x.entries (i.cast (by simp [h])) else none

@[simp] theorem tensor?_ofTensor {a b c : ℕ} (p : Fin a → Fin b → Fin c → F) :
    tensor? a b c (ofTensor p) = some p := by
  have hentry : ∀ i j k, (ofTensor p).entries (index a b c (i, j, k)) = p i j k := by
    intro i j k
    show p ((index a b c).symm (index a b c (i, j, k))).1 _ _ = p i j k
    rw [Equiv.symm_apply_apply]
  unfold tensor?
  rw [dif_pos (show (ofTensor p).shape = [a, b, c] from rfl), Option.some.injEq]
  ext i j k
  exact hentry i j k

@[simp] theorem vector?_ofVector {a : ℕ} (p : Fin a → F) : vector? a (ofVector p) = some p := by
  unfold vector?
  rw [dif_pos (show (ofVector p).shape = [a] from rfl)]
  rfl

end NdArray

end Oecophylla.Lib
