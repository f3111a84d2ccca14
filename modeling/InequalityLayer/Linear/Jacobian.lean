import InequalityLayer.Assignment
import InequalityLayer.Failure
import InequalityLayer.Linear.Dense

/-!
Coefficient rows `A·δ - b`, with one block of `A` per term. A block holds as many entries per row as its
variable has coordinates, row by row. Several terms may name one variable: evaluation uses all of them,
a look-up by name answers the first.
-/
namespace InequalityLayer
set_option autoImplicit false

variable {α : Type}

structure JacobianFactor (α : Type) where
  terms : List (Key × List α)
  rhs : List α
  rhs_ne_nil : rhs ≠ []
  rows_dvd : ∀ term ∈ terms, rhs.length ∣ term.2.length

namespace JacobianFactor

/-- A factor from its terms and right-hand side, which also fixes the number of rows. -/
def ofTerms (terms : List (Key × List α)) (rhs : List α) : Except Fault (JacobianFactor α) :=
  if nonempty : rhs ≠ [] then
    match ragged : terms.find? fun term => decide ¬ rhs.length ∣ term.2.length with
    | some (key, block) => .error (.raggedBlock key block.length rhs.length)
    | none => .ok
        { terms, rhs, rhs_ne_nil := nonempty
          rows_dvd := fun term mem => by simpa using List.find?_eq_none.mp ragged term mem }
  else .error .noRows

def rows (J : JacobianFactor α) : Nat := J.rhs.length

def keys (J : JacobianFactor α) : List Key := J.terms.map Prod.fst

/-- The entries a block has in each row. -/
def width (J : JacobianFactor α) (block : List α) : Nat := block.length / J.rows

def block? (J : JacobianFactor α) (key : Key) : Option (List α) :=
  (J.terms.find? fun term => decide (term.1 = key)).map Prod.snd

/-- The number of coordinates that the first block of a variable multiplies. -/
def dim? (J : JacobianFactor α) (key : Key) : Option Nat := (J.block? key).map J.width

/-! ## Evaluation -/

/-- A term beside the vector it multiplies, or nothing if the step does not move the variable. -/
def meet (J : JacobianFactor α) (δ : Assignment α) (term : Key × List α) :
    Except (ConstraintError α) (Option (List α × List α)) :=
  match δ.get? term.1 with
  | none => .ok none
  | some d =>
    if d.length = J.width term.2 then .ok (some (term.2, d))
    else .error (.dimensionMismatch term.1 (J.width term.2) d.length)

/-- The blocks a step meets, each with its vector; the first term with another width is an error. -/
def overlap (J : JacobianFactor α) (δ : Assignment α) :
    Except (ConstraintError α) (List (List α × List α)) :=
  (List.filterMap id) <$> J.terms.mapM (J.meet δ)

variable [Scalar α]

/-- One row of the product, from the blocks and vectors that meet. -/
def rowProduct (pairs : List (List α × List α)) (i : Nat) : α :=
  pairs.foldl (fun s p => s + dot (row p.1 p.2.length i) p.2) 0.0

/-- The product `A·δ`. -/
def multiply (J : JacobianFactor α) (δ : Assignment α) : Except (ConstraintError α) (List α) :=
  (fun pairs => (List.range J.rows).map (rowProduct pairs)) <$> J.overlap δ

/-- The vector `A·δ - b`. -/
def errorVector (J : JacobianFactor α) (δ : Assignment α) : Except (ConstraintError α) (List α) :=
  (fun product => List.zipWith (· - ·) product J.rhs) <$> J.multiply δ

def agrees (J K : JacobianFactor α) : Bool :=
  (J.terms.isEqv K.terms fun s t => decide (s.1 = t.1) && s.2.isEqv t.2 Scalar.agrees) &&
    J.rhs.isEqv K.rhs Scalar.agrees

end JacobianFactor

end InequalityLayer
