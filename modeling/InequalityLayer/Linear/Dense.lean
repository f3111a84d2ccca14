import InequalityLayer.Scalar

/-!
Vectors and square matrices as lists, a matrix row by row. The order of operations is part of each
definition, because rounded sums depend on it: products are summed from the left, and a sum of nothing
is the negative zero, the one number that changes no other when added.
-/
namespace InequalityLayer
set_option autoImplicit false

variable {α : Type}

/-! ## Rows and entries -/

/-- Row `i` of a matrix whose rows have `width` entries. -/
def row (entries : List α) (width i : Nat) : List α := (entries.drop (i * width)).take width

/-- The `rows × columns` matrix of a function. -/
def tabulate (rows columns : Nat) (f : Nat → Nat → α) : List α :=
  (List.range rows).flatMap fun i => (List.range columns).map (f i)

/-- The first entries of `target` replaced by those of `source`; neither length changes. -/
def overwrite (target source : List α) : List α :=
  source.take target.length ++ target.drop source.length

theorem length_tabulate (rows columns : Nat) (f : Nat → Nat → α) :
    (tabulate rows columns f).length = rows * columns := by
  simp only [tabulate, List.length_flatMap, List.length_map, List.length_range, List.map_const',
    List.sum_replicate_nat]

theorem length_overwrite (target source : List α) : (overwrite target source).length = target.length := by
  simp only [overwrite, List.length_append, List.length_take, List.length_drop]
  omega

theorem length_row (entries : List α) (rows width i : Nat) (size : entries.length = rows * width)
    (below : i < rows) : (row entries width i).length = width := by
  simp only [row, List.length_take, List.length_drop, size]
  have : i * width + width ≤ rows * width := by
    rw [← Nat.succ_mul]
    exact Nat.mul_le_mul_right width below
  omega

/-! ## Arithmetic -/

variable [Scalar α]

def sum (terms : List α) : α := terms.foldl (· + ·) (-0.0)

def dot (a b : List α) : α := sum (List.zipWith (· * ·) a b)

/-- The value `xᵀ A x`. A row whose coordinate is zero is left out, whatever its entries are. -/
def quadraticForm (a x : List α) : α :=
  x.zipIdx.foldl (fun s p =>
    if Scalar.agrees p.1 0.0 then s else s + p.1 * dot (row a x.length p.2) x) 0.0

def scale (a : List α) (factor : α) : List α := a.map (· * factor)

/-- Entry `(i, k)` of an `n × n` matrix. -/
def entryOf (a : List α) (n i k : Nat) : α := a.getD (i * n + k) 0.0

/-- Every pair of opposite entries replaced by its mean, the upper one taken first. -/
def symmetrize (a : List α) (n : Nat) : List α :=
  tabulate n n fun i k =>
    if i = k then entryOf a n i k
    else 0.5 * (entryOf a n (min i k) (max i k) + entryOf a n (max i k) (min i k))

end InequalityLayer
