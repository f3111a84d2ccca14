import InequalityLayer.Key
import InequalityLayer.Scalar
import Std.Data.TreeMap

/-!
Assignments of coordinate vectors to keys. One type serves the point a constraint is evaluated at, the
multipliers of the dual variables, and the step a linear model is evaluated against: in the latter two
a missing key means something, an inactive constraint or a variable that does not move. Main statements:
`get?_insert`, `contains_insert` and `scalar?_insert` tie the readers to the last write of a key.
-/
namespace InequalityLayer
set_option autoImplicit false

variable {α : Type}

structure Assignment (α : Type) where
  map : Std.TreeMap Key (List α)

namespace Assignment

def empty : Assignment α := ⟨∅⟩

instance : EmptyCollection (Assignment α) := ⟨empty⟩

/-- A later vector of a key replaces an earlier one. -/
def insert (a : Assignment α) (key : Key) (vector : List α) : Assignment α := ⟨a.map.insert key vector⟩

def ofList (entries : List (Key × List α)) : Assignment α :=
  entries.foldl (fun a entry => a.insert entry.1 entry.2) ∅

def get? (a : Assignment α) (key : Key) : Option (List α) := a.map[key]?

def contains (a : Assignment α) (key : Key) : Bool := a.map.contains key

/-- The first component of an entry: the multiplier, when the entry belongs to a dual variable. -/
def scalar? (a : Assignment α) (key : Key) : Option α := (a.get? key).bind List.head?

def size (a : Assignment α) : Nat := a.map.size

def isEmpty (a : Assignment α) : Bool := a.map.isEmpty

/-- The entries by increasing key. -/
def toList (a : Assignment α) : List (Key × List α) := a.map.toList

/-- The same keys with vectors that agree component by component. -/
def agrees [Scalar α] (a b : Assignment α) : Bool :=
  a.toList.isEqv b.toList fun p q => decide (p.1 = q.1) && p.2.isEqv q.2 Scalar.agrees

/-! ## Reading after writing -/

theorem get?_empty (k : Key) : (∅ : Assignment α).get? k = none :=
  Std.TreeMap.getElem?_emptyc

theorem get?_insert (a : Assignment α) (k l : Key) (v : List α) :
    (a.insert k v).get? l = if k = l then some v else a.get? l := by
  simp only [get?, insert, Std.TreeMap.getElem?_insert, Std.LawfulEqCmp.compare_eq_iff_eq]

theorem contains_eq_isSome (a : Assignment α) (k : Key) : a.contains k = (a.get? k).isSome :=
  Std.TreeMap.contains_eq_isSome_getElem?

theorem contains_insert (a : Assignment α) (k l : Key) (v : List α) :
    (a.insert k v).contains l = (decide (k = l) || a.contains l) := by
  rw [contains_eq_isSome, contains_eq_isSome, get?_insert]
  by_cases h : k = l <;> simp [h]

theorem scalar?_insert (a : Assignment α) (k l : Key) (v : List α) :
    (a.insert k v).scalar? l = if k = l then v.head? else a.scalar? l := by
  rw [scalar?, get?_insert]
  by_cases h : k = l <;> simp [h, scalar?]

end Assignment

end InequalityLayer
