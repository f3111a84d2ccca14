import InequalityLayer.Proofs.Constraint.Domain
import InequalityLayer.Proofs.Linear.Keys
import Mathlib

/-!
The curvature terms of a set. The active constraints are asked in order; the terms among their answers are the
correction, or the first failure is the answer. Among smooth constraints only those with a multiplier have a
term (`outcome_lagrangianCorrection_smooth`): an entry without components asks for nothing. Main statement:
`lagrangianCorrection_selects`.
-/
namespace InequalityLayer
set_option autoImplicit false

variable {α : Type}

namespace ConstraintSet

/-! ## Answers with and without a term -/

section Answers

variable {ε β γ : Type} {f : β → Except ε (Option γ)}

theorem reduceOption_mapM_cons (b : β) (l : List β) :
    List.reduceOption <$> (b :: l).mapM f =
      f b >>= fun answer => (answer.toList ++ ·) <$> List.reduceOption <$> l.mapM f := by
  rw [List.mapM_cons]
  cases f b with
  | error e => rfl
  | ok answer => cases l.mapM f <;> cases answer <;> rfl

/-- Elements that answer without a term need not be asked. -/
theorem reduceOption_mapM_filter {p : β → Bool} {l : List β} (silent : ∀ b ∈ l, p b = false → f b = .ok none) :
    List.reduceOption <$> l.mapM f = List.reduceOption <$> (l.filter p).mapM f := by
  induction l with
  | nil => rfl
  | cons b l ih =>
    obtain ⟨first, others⟩ := List.forall_mem_cons.mp silent
    cases asked : p b with
    | true => rw [List.filter_cons_of_pos asked, reduceOption_mapM_cons, reduceOption_mapM_cons, ih others]
    | false =>
      rw [List.filter_cons_of_neg (Bool.not_eq_true _ ▸ asked), reduceOption_mapM_cons, first asked, ih others]
      cases (l.filter p).mapM f <;> rfl

theorem reduceOption_mapM_eq_ok_iff {l : List β} {r : List γ}
    (terms : ∀ b ∈ l, ∀ answer, f b = .ok answer → ∃ c, answer = some c) :
    List.reduceOption <$> l.mapM f = .ok r ↔ List.Forall₂ (fun b c => f b = .ok (some c)) l r := by
  induction l generalizing r with
  | nil => simp [pure, Except.pure, List.reduceOption, eq_comm]
  | cons b l ih =>
    obtain ⟨first, others⟩ := List.forall_mem_cons.mp terms
    rw [reduceOption_mapM_cons, List.forall₂_cons_left_iff]
    simp only [← ih others]
    cases here : f b with
    | error e => simp [bind, Except.bind]
    | ok answer =>
      obtain ⟨c, rfl⟩ := first answer here
      cases List.reduceOption <$> l.mapM f <;> simp [bind, Except.bind, eq_comm]

end Answers

theorem outcome_lagrangianCorrection_eq (s : ConstraintSet α) (x duals : Assignment α) :
    (s.lagrangianCorrection x duals).outcome =
      LagrangianCorrection.mk <$> List.reduceOption <$>
        (active duals s.constraints).mapM fun c => c.contribution x duals := by
  rw [outcome_lagrangianCorrection, Functor.map_map]
  rfl

/-! ## Smooth constraints -/

variable [Scalar α]

/-- The constraints whose dual entry has a first component. -/
def weighted (duals : Assignment α) (smooth : List (SmoothConstraint α)) : List (SmoothConstraint α) :=
  smooth.filter fun f => (duals.scalar? f.dualKey).isSome

variable {s : ConstraintSet α} {smooth : List (SmoothConstraint α)} {x duals : Assignment α}

theorem exists_multiplier_of_weighted {f : SmoothConstraint α} (mem : f ∈ weighted duals smooth) :
    ∃ multiplier, duals.scalar? f.dualKey = some multiplier :=
  Option.isSome_iff_exists.mp (List.mem_filter.mp mem).2

theorem active_smooth (duals : Assignment α) (smooth : List (SmoothConstraint α)) :
    active duals (smooth.map SmoothConstraint.toConstraint) =
      (smooth.filter fun f => duals.contains f.dualKey).map SmoothConstraint.toConstraint :=
  List.filter_map

theorem weighted_active (duals : Assignment α) (smooth : List (SmoothConstraint α)) :
    weighted duals (smooth.filter fun f => duals.contains f.dualKey) = weighted duals smooth := by
  unfold weighted
  rw [List.filter_filter]
  congr 1
  funext f
  rw [Assignment.contains_eq_isSome, Assignment.scalar?]
  cases duals.get? f.dualKey <;> simp

theorem outcome_lagrangianCorrection_smooth (constraints : s.constraints = smooth.map SmoothConstraint.toConstraint) :
    (s.lagrangianCorrection x duals).outcome =
      LagrangianCorrection.mk <$> List.reduceOption <$>
        (weighted duals smooth).mapM fun f => f.contribution x duals := by
  have silent : ∀ f ∈ smooth.filter (fun f => duals.contains f.dualKey), (duals.scalar? f.dualKey).isSome = false →
      f.contribution x duals = .ok none := fun f _ unweighted =>
    f.contribution_of_none (Option.not_isSome_iff_eq_none.mp (Bool.not_eq_true _ ▸ unweighted))
  have asked := reduceOption_mapM_filter silent
  change _ = List.reduceOption <$> (weighted duals _).mapM _ at asked
  rw [weighted_active] at asked
  rw [outcome_lagrangianCorrection_eq, constraints, active_smooth, List.mapM_map, ← asked]
  rfl

/-- One term for each constraint with a multiplier, in order. -/
theorem lagrangianCorrection_smooth_eq_ok_iff
    (constraints : s.constraints = smooth.map SmoothConstraint.toConstraint) (L : LagrangianCorrection α) :
    (s.lagrangianCorrection x duals).outcome = .ok L ↔
      List.Forall₂ (fun f term => f.contribution x duals = .ok (some term)) (weighted duals smooth) L.terms := by
  have terms : ∀ f ∈ weighted duals smooth, ∀ answer, f.contribution x duals = .ok answer →
      ∃ term, answer = some term := by
    intro f mem answer ok
    obtain ⟨multiplier, entry⟩ := exists_multiplier_of_weighted mem
    obtain ⟨_, _, term, _, same, _⟩ := f.exists_term_of_contribution entry ok
    exact ⟨term, same⟩
  rw [← reduceOption_mapM_eq_ok_iff terms, outcome_lagrangianCorrection_smooth constraints]
  cases List.reduceOption <$> (weighted duals smooth).mapM fun f => f.contribution x duals with
  | error e => simp
  | ok r => cases L; simp

theorem layout_terms {terms : List (HessianFactor α)}
    (answers : List.Forall₂ (fun f term => f.contribution x duals = .ok (some term)) (weighted duals smooth) terms) :
    terms.map HessianFactor.layout = (weighted duals smooth).map SmoothConstraint.layout := by
  have layouts : List.Forall₂ (fun f term => f.layout = term.layout) (weighted duals smooth) terms := by
    refine (List.forall₂_and_left _ _).mpr ⟨fun f mem => mem, answers⟩ |>.imp fun f term h => ?_
    obtain ⟨multiplier, entry⟩ := exists_multiplier_of_weighted h.1
    obtain ⟨_, _, _, _, same, made⟩ := f.exists_term_of_contribution entry h.2
    rw [Option.some.inj same, made.layout]
  rw [← List.forall₂_eq_eq_eq, List.forall₂_map_left_iff, List.forall₂_map_right_iff]
  exact layouts.flip.imp fun _ _ same => same.symm

theorem mem_keys_smooth {L : LagrangianCorrection α}
    (answers : List.Forall₂ (fun f term => f.contribution x duals = .ok (some term)) (weighted duals smooth) L.terms)
    (k : Key) : k ∈ L.keys ↔ ∃ f ∈ weighted duals smooth, k ∈ f.layout.keys := by
  have over_layouts : (∃ term ∈ L.terms, k ∈ term.keys) ↔ ∃ l ∈ L.terms.map HessianFactor.layout, k ∈ l.keys := by
    simp [HessianFactor.keys]
  rw [L.mem_keys, over_layouts, layout_terms answers]
  simp

theorem exists_lagrangianCorrection_smooth_iff
    (constraints : s.constraints = smooth.map SmoothConstraint.toConstraint) :
    (∃ L, (s.lagrangianCorrection x duals).outcome = .ok L) ↔
      ∀ f ∈ weighted duals smooth, f.DefinedAt x ∧ f.HasRoom := by
  have asked : (∃ answers, ((weighted duals smooth).mapM fun f => f.contribution x duals) = .ok answers) ↔
      ∀ f ∈ weighted duals smooth, f.DefinedAt x ∧ f.HasRoom := by
    rw [exists_mapM_eq_ok_iff]
    refine forall₂_congr fun f mem => ?_
    obtain ⟨multiplier, entry⟩ := exists_multiplier_of_weighted mem
    exact f.exists_contribution_iff entry
  rw [← asked, outcome_lagrangianCorrection_smooth constraints]
  cases (weighted duals smooth).mapM fun f => f.contribution x duals <;> simp

theorem lagrangianCorrection_smooth_eq_error_iff
    (constraints : s.constraints = smooth.map SmoothConstraint.toConstraint) (e : ConstraintError α) :
    (s.lagrangianCorrection x duals).outcome = .error (.error e) ↔
      ∃ before f after, weighted duals smooth = before ++ f :: after ∧ (∀ g ∈ before, g.DefinedAt x ∧ g.HasRoom) ∧
        f.layout.dim < Size.vectorLimit ∧ f.layout.FirstLack x e := by
  have failed : ((weighted duals smooth).mapM fun f => f.contribution x duals) = .error (.error e) ↔
      ∃ before f after, weighted duals smooth = before ++ f :: after ∧ (∀ g ∈ before, g.DefinedAt x ∧ g.HasRoom) ∧
        f.layout.dim < Size.vectorLimit ∧ f.layout.FirstLack x e := by
    rw [mapM_eq_error_iff]
    refine exists_congr fun before => exists_congr fun f => exists_congr fun after => and_congr_right fun split => ?_
    have among : ∀ g ∈ before ++ f :: after, ∃ multiplier, duals.scalar? g.dualKey = some multiplier := by
      rw [← split]
      exact fun g mem => exists_multiplier_of_weighted mem
    refine and_congr (forall₂_congr fun g mem => ?_) ?_
    · obtain ⟨multiplier, entry⟩ := among g (List.mem_append_left _ mem)
      exact g.exists_contribution_iff entry
    · obtain ⟨multiplier, entry⟩ := among f (List.mem_append_right _ List.mem_cons_self)
      exact f.contribution_eq_error_iff entry
  rw [← failed, outcome_lagrangianCorrection_smooth constraints]
  cases (weighted duals smooth).mapM fun f => f.contribution x duals <;> simp

/-! ## A set -/

/-- The correction holds the terms of the active constraints in order, or the first failure among them; what
the other constraints would answer makes no difference. A set of smooth constraints has one term for each
constraint with a multiplier, over the variables of these constraints, if they are all defined at the point and
have room for their second derivatives; it reports the first of them that the point lacks a variable of. -/
theorem lagrangianCorrection_selects (s : ConstraintSet α) (x duals : Assignment α) :
    (∀ L, (s.lagrangianCorrection x duals).outcome = .ok L ↔
      ∃ answers, List.Forall₂ (fun c answer => c.contribution x duals = .ok answer)
        (active duals s.constraints) answers ∧ L.terms = answers.reduceOption) ∧
    (∀ e, (s.lagrangianCorrection x duals).outcome = .error e ↔
      ∃ before c after, active duals s.constraints = before ++ c :: after ∧
        (∀ d ∈ before, ∃ answer, d.contribution x duals = .ok answer) ∧ c.contribution x duals = .error e) ∧
    (∀ t : ConstraintSet α, active duals t.constraints = active duals s.constraints →
      (t.lagrangianCorrection x duals).outcome = (s.lagrangianCorrection x duals).outcome) ∧
    ∀ smooth, s.constraints = smooth.map SmoothConstraint.toConstraint →
      (∀ L, (s.lagrangianCorrection x duals).outcome = .ok L →
        List.Forall₂ (fun f term => f.contribution x duals = .ok (some term)) (weighted duals smooth) L.terms ∧
        (L.keys.Pairwise fun k l => k.raw < l.raw) ∧
        ∀ k, k ∈ L.keys ↔ ∃ f ∈ weighted duals smooth, k ∈ f.layout.keys) ∧
      ((∃ L, (s.lagrangianCorrection x duals).outcome = .ok L) ↔
        ∀ f ∈ weighted duals smooth, f.DefinedAt x ∧ f.HasRoom) ∧
      ∀ e, (s.lagrangianCorrection x duals).outcome = .error (.error e) ↔
        ∃ before f after, weighted duals smooth = before ++ f :: after ∧ (∀ g ∈ before, g.DefinedAt x ∧ g.HasRoom) ∧
          f.layout.dim < Size.vectorLimit ∧ f.layout.FirstLack x e := by
  refine ⟨fun L => ?_, fun e => ?_, fun t same => ?_, fun smooth constraints => ⟨fun L ok => ?_,
    exists_lagrangianCorrection_smooth_iff constraints, lagrangianCorrection_smooth_eq_error_iff constraints⟩⟩
  · rw [outcome_lagrangianCorrection_eq]
    simp only [← mapM_eq_ok_iff]
    obtain ⟨terms⟩ := L
    cases (active duals s.constraints).mapM fun c => c.contribution x duals <;> simp [eq_comm]
  · rw [outcome_lagrangianCorrection_eq, ← mapM_eq_error_iff]
    cases (active duals s.constraints).mapM fun c => c.contribution x duals <;> simp
  · rw [outcome_lagrangianCorrection_eq, outcome_lagrangianCorrection_eq, same]
  · have answers := (lagrangianCorrection_smooth_eq_ok_iff constraints L).mp ok
    exact ⟨answers, L.pairwise_keys, mem_keys_smooth answers⟩

/-- A constraint that is zero everywhere. -/
def flat (layout : Layout) (dualKey : Key) : SmoothConstraint ℚ where
  layout
  dualKey
  value _ := 0
  gradient y _ := y.map fun _ => 0

/-- The first two constraints are over a variable that `supplied` does not have. -/
def fourFlat : List (SmoothConstraint ℚ) :=
  [flat [(⟨1⟩, 1)] ⟨7⟩, flat [(⟨1⟩, 1)] ⟨8⟩, flat [(⟨3⟩, 1), (⟨2⟩, 2)] ⟨9⟩, flat [(⟨2⟩, 2)] ⟨10⟩]

def supplied : Assignment ℚ := .ofList [(⟨2⟩, [1, 1]), (⟨3⟩, [4])]

/-- No entry for the first constraint, and one without components for the second. -/
def lastWeighted : Assignment ℚ := .ofList [(⟨8⟩, []), (⟨9⟩, [2]), (⟨10⟩, [-1, 5])]

theorem lagrangianCorrection_selects_lastWeighted :
    (∃ L, ((ofList (fourFlat.map SmoothConstraint.toConstraint)).lagrangianCorrection supplied lastWeighted).outcome =
      .ok L ∧ L.terms.length = 2 ∧ ∀ k, k ∈ L.keys ↔ k = ⟨3⟩ ∨ k = ⟨2⟩) ∧
    ((ofList (fourFlat.map SmoothConstraint.toConstraint)).lagrangianCorrection supplied
      (lastWeighted.insert ⟨8⟩ [0])).outcome = .error (.error (.missingVariable ⟨1⟩)) := by
  have constraints : (ofList (fourFlat.map SmoothConstraint.toConstraint)).constraints =
    fourFlat.map SmoothConstraint.toConstraint := rfl
  constructor
  · obtain ⟨_, _, _, parts⟩ := lagrangianCorrection_selects (ofList _) supplied lastWeighted
    obtain ⟨terms, _, _⟩ := parts fourFlat constraints
    have kept : weighted lastWeighted fourFlat = [fourFlat[2], fourFlat[3]] := rfl
    obtain ⟨L, ok⟩ : ∃ L, ((ofList (fourFlat.map SmoothConstraint.toConstraint)).lagrangianCorrection supplied
      lastWeighted).outcome = .ok L := ⟨_, rfl⟩
    obtain ⟨answers, _, keys⟩ := terms L ok
    rw [kept] at answers keys
    refine ⟨L, ok, answers.length_eq.symm, fun k => ?_⟩
    have first : k ∈ fourFlat[2].layout.keys ↔ k = ⟨3⟩ ∨ k = ⟨2⟩ := by simp [fourFlat, flat, Layout.keys]
    have second : k ∈ fourFlat[3].layout.keys ↔ k = ⟨2⟩ := by simp [fourFlat, flat, Layout.keys]
    rw [keys, List.exists_mem_cons_iff, List.exists_mem_cons_iff, first, second]
    simp
  · obtain ⟨_, _, _, parts⟩ := lagrangianCorrection_selects (ofList _) supplied (lastWeighted.insert ⟨8⟩ [0])
    obtain ⟨_, _, failed⟩ := parts fourFlat constraints
    refine (failed _).mpr ⟨[], fourFlat[1], [fourFlat[2], fourFlat[3]], rfl, nofun, by decide, ?_⟩
    exact ⟨[], (⟨1⟩, 1), [], rfl, nofun, .missing rfl⟩

end ConstraintSet

end InequalityLayer
