import InequalityLayer.Failure
import InequalityLayer.Trace.Event

/-!
Passes: computations that log as they go. A pass is the list of its events beside its outcome; events
that precede a failure are kept, and nothing follows it. A tracer logs the records of a pass, and hands
them back if it keeps a history. Main statements: `bind_ok` and `bind_error` say what running one pass after
another does to both, and passes are a lawful monad.
-/
namespace InequalityLayer
set_option autoImplicit false

variable {α β γ : Type}

structure Pass (α β : Type) where
  events : List (Event α)
  outcome : Outcome α β

namespace Pass

def log (events : List (Event α)) : Pass α Unit := ⟨events, .ok ()⟩

def emit (event : Event α) : Pass α Unit := log [event]

instance : Monad (Pass α) where
  pure b := ⟨[], .ok b⟩
  bind p f :=
    match p.outcome with
    | .ok b =>
      let q := f b
      ⟨p.events ++ q.events, q.outcome⟩
    | .error e => ⟨p.events, .error e⟩

/-- An evaluation logs nothing. -/
instance : MonadLift (Except (Failure α)) (Pass α) where
  monadLift r := ⟨[], r⟩

theorem pure_eq (b : β) : (pure b : Pass α β) = ⟨[], .ok b⟩ := rfl

theorem bind_ok (p : Pass α β) (f : β → Pass α γ) (b : β) (h : p.outcome = .ok b) :
    p >>= f = ⟨p.events ++ (f b).events, (f b).outcome⟩ := by
  simp [bind, h]

theorem bind_error (p : Pass α β) (f : β → Pass α γ) (e : Failure α) (h : p.outcome = .error e) :
    p >>= f = ⟨p.events, .error e⟩ := by
  simp [bind, h]

theorem outcome_bind (p : Pass α β) (f : β → Pass α γ) :
    (p >>= f).outcome = p.outcome >>= fun b => (f b).outcome := by
  cases h : p.outcome with
  | error e => rw [bind_error p f e h]; rfl
  | ok b => rw [bind_ok p f b h]; rfl

theorem outcome_lift (r : Outcome α β) : (liftM r : Pass α β).outcome = r := rfl

theorem outcome_emit (event : Event α) : (emit event).outcome = .ok () := rfl

theorem outcome_map (p : Pass α β) (f : β → γ) : (f <$> p).outcome = p.outcome.map f := by
  cases h : p.outcome <;> simp [Functor.map, h, Except.map]

theorem lift_bind_ok (b : β) (f : β → Pass α γ) : (liftM (.ok b : Outcome α β) >>= f) = f b := rfl

theorem lift_bind_error (e : Failure α) (f : β → Pass α γ) :
    (liftM (.error e : Outcome α β) >>= f) = ⟨[], .error e⟩ := rfl

theorem emit_bind (event : Event α) (f : Unit → Pass α γ) :
    emit event >>= f = ⟨event :: (f ()).events, (f ()).outcome⟩ := rfl

theorem log_bind (events : List (Event α)) (f : Unit → Pass α γ) :
    log events >>= f = ⟨events ++ (f ()).events, (f ()).outcome⟩ := rfl

instance : LawfulMonad (Pass α) := LawfulMonad.mk' (Pass α)
  (by
    intro β p
    obtain ⟨events, outcome⟩ := p
    cases outcome <;> simp [Functor.map])
  (by
    intro β γ b f
    rfl)
  (by
    intro β γ δ p f g
    obtain ⟨events, outcome⟩ := p
    cases outcome with
    | error e => rfl
    | ok b =>
      cases h : (f b).outcome with
      | error e => simp [bind, h]
      | ok c => simp [bind, h])

end Pass

/-! ## Tracers -/

/-- Only the test can be asked for its records; the other passes log theirs without a tracer. -/
structure Tracer (α : Type) where
  pass : String
  history : Option (List (TraceRecord α)) := none

namespace Tracer

def withHistory (pass : String) : Tracer α := { pass, history := some [] }

/-- A row becomes a record of the pass, which is logged and then kept, if there is a history. -/
def emit (t : Tracer α) (row : TraceRow α) : Pass α (Tracer α) := do
  let record := row.record t.pass
  Pass.emit (.visited record)
  return { t with history := t.history.map (· ++ [record]) }

end Tracer

end InequalityLayer
