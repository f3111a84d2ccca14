import InequalityLayer.Proofs.Binary64.Comparison
import InequalityLayer.Proofs.Kkt.Runs
import InequalityLayer.Proofs.Kkt.Tolerance
import Mathlib

/-!
Two tests at one point, the second with a larger tolerance and fewer active constraints. What stops it would have
stopped the first one too (`Stops.of_relaxed`), so its first stop is no earlier (`checked_le_of_stops`) and it
accepts whatever the first accepts: `isKkt_relaxed`.
-/
namespace InequalityLayer
set_option autoImplicit false

namespace Kkt

variable {α : Type} [Scalar α] {s : ConstraintSet α} {x duals fewer : Assignment α}

/-! ## What stops the relaxed test -/

theorem Stops.of_relaxed {tol larger : α} {c : Constraint α} (above : ∀ v, larger < v → tol < v)
    (sub : fewer.contains c.dualKey = true → duals.contains c.dualKey = true) (h : Stops x fewer larger c) :
    Stops x duals tol c := by
  obtain failed | ⟨v, value, infinite | less | ⟨active, less⟩⟩ := h
  · exact .inl failed
  · exact .inr ⟨v, value, .inl infinite⟩
  · exact .inr ⟨v, value, .inr (.inl (above v less))⟩
  · exact .inr ⟨v, value, .inr (.inr ⟨sub active, above _ less⟩)⟩

/-! ## How far a test goes -/

variable {options relaxed : Options α} {r r' : Report α}

/-- A test that stops only where another one would goes at least as far. -/
theorem checked_le_of_stops (ok : (s.kktReport x duals options).outcome = .ok r)
    (ok' : (s.kktReport x fewer relaxed).outcome = .ok r')
    (sub : ∀ c ∈ s.constraints, Stops x fewer relaxed.tol c → Stops x duals options.tol c) :
    r.checked ≤ r'.checked := by
  by_cases stopped : ∃ c ∈ s.constraints, Stops x fewer relaxed.tol c
  · obtain ⟨j, d, later⟩ := exists_firstStop stopped
    have mem : d ∈ s.constraints := List.mem_of_getElem? later.get
    have stops := sub d mem later.stops
    obtain ⟨i, c, first⟩ := exists_firstStop ⟨d, mem, stops⟩
    rw [first.checked_eq ok, later.checked_eq ok']
    exact Nat.succ_le_succ (first.le later.get stops)
  · push Not at stopped
    rw [checked_of_not_stops stopped ok']
    exact checked_le_size ok

end Kkt

/-! ## Acceptance -/

namespace ConstraintSet
open Kkt

/-- Under a larger tolerance and with fewer active constraints the test still accepts what it accepted, and where
it reports it has looked at no fewer constraints. -/
theorem isKkt_relaxed (s : ConstraintSet Float) (x duals fewer : Assignment Float) {tol larger : Float}
    (le : tol ≤ larger) (sub : ∀ k ∈ s.dualKeys, fewer.contains k = true → duals.contains k = true) :
    ((s.isKkt x duals tol).outcome = .ok true → (s.isKkt x fewer larger).outcome = .ok true) ∧
    ∀ (trace trace' : Bool) (r r' : Report Float),
      (s.kktReport x duals { tol, collectTrace := trace }).outcome = .ok r →
      (s.kktReport x fewer { tol := larger, collectTrace := trace' }).outcome = .ok r' →
      r.checked ≤ r'.checked := by
  have stops : ∀ c ∈ s.constraints, Stops x fewer larger c → Stops x duals tol c := fun c mem =>
    Stops.of_relaxed (fun _ => Binary64.lt_of_le_of_lt le) (sub _ (List.mem_map_of_mem mem))
  refine ⟨fun accepted => ?_, fun _ _ _ _ ok ok' => checked_le_of_stops ok ok' stops⟩
  rw [isKkt_eq_true_iff_not_stops] at accepted ⊢
  exact fun c mem stopped => accepted c mem (stops c mem stopped)

/-- Slack twice, then a little above zero. -/
def slackTwice : ConstraintSet Float :=
  ofList [.level ⟨7⟩ (.ok (-1.0)), .level ⟨8⟩ (.ok (-0.5)), .level ⟨9⟩ (.ok 0.25)]

/-- A tolerance that lets the second value count as binding, and one that does not. -/
theorem isKkt_relaxed_slackTwice :
    (slackTwice.isKkt ∅ (.ofList [(⟨8⟩, [])]) 0.5).outcome = .ok true ∧
    (slackTwice.isKkt ∅ ∅ Float.inf).outcome = .ok true ∧
    ∃ r r', (slackTwice.kktReport ∅ (.ofList [(⟨8⟩, [])]) { tol := -0.0 }).outcome = .ok r ∧
      (slackTwice.kktReport ∅ ∅ { tol := 0.0, collectTrace := true }).outcome = .ok r' ∧
      r.status = .failed .notBinding 1 ⟨8⟩ (-0.5) ∧ r'.status = .failed .infeasible 2 ⟨9⟩ 0.25 ∧
      r.checked ≤ r'.checked := by
  have sub : ∀ k ∈ slackTwice.dualKeys, (∅ : Assignment Float).contains k = true →
      (Assignment.ofList [(⟨8⟩, [])] : Assignment Float).contains k = true := by decide
  have accepted : (slackTwice.isKkt ∅ (.ofList [(⟨8⟩, [])]) 0.5).outcome = .ok true := rfl
  obtain ⟨accepts, _⟩ := isKkt_relaxed slackTwice ∅ (.ofList [(⟨8⟩, [])]) ∅
    (by decide : (0.5 : Float) ≤ Float.inf) sub
  obtain ⟨_, goes_on⟩ := isKkt_relaxed slackTwice ∅ (.ofList [(⟨8⟩, [])]) ∅
    (by decide : (-0.0 : Float) ≤ 0.0) sub
  exact ⟨accepted, accepts accepted, _, _, rfl, rfl, rfl, rfl, goes_on false true _ _ rfl rfl⟩

end ConstraintSet

end InequalityLayer
