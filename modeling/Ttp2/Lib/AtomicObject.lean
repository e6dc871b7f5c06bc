import Ttp2.Lib.Simulation
import Mathlib.Logic.Function.Basic

/-! # An object whose operations take effect at one instant

Threads call operations and get answers. Between the call and the answer an
operation performs, in one step that nobody sees, what the sequential object
does; an operation may also do something and go on. What was performed is a
history of the sequential object. A system whose traces are traces of this one
is linearizable: the instants are the linearization points. -/
namespace Ttp2.Lib.Atomic
open Simulation

variable {τ ω α S : Type}

/-- Where a call of a thread is. -/
inductive Status (ω α : Type) where
  | idle
  | called (op : ω)
  | done (answer : α)

inductive Event (τ ω α : Type) where
  | call (t : τ) (op : ω)
  | answer (t : τ) (answer : α)
  deriving DecidableEq

/-- The sequential object beside the calls that run, and what was performed. -/
structure AtomicObject (τ ω α S : Type) where
  object : S
  status : τ → Status ω α := fun _ => .idle
  history : List (τ × ω × α) := []

/-- `performs op s value goesOn s'`: what the operation does to the object.
The value is its answer, unless it goes on. -/
inductive Step [DecidableEq τ] (performs : ω → S → α → Bool → S → Prop) :
    AtomicObject τ ω α S → Option (Event τ ω α) → AtomicObject τ ω α S → Prop where
  | call {a : AtomicObject τ ω α S} (t : τ) (op : ω) (ht : a.status t = .idle) :
      Step performs a (some (.call t op))
        { a with status := Function.update a.status t (.called op) }
  | perform {a : AtomicObject τ ω α S} (t : τ) (op : ω) (answer : α) (object : S)
      (ht : a.status t = .called op) (hperform : performs op a.object answer false object) :
      Step performs a none
        { object, status := Function.update a.status t (.done answer),
          history := a.history ++ [(t, op, answer)] }
  | goOn {a : AtomicObject τ ω α S} (t : τ) (op : ω) (value : α) (object : S)
      (ht : a.status t = .called op) (hperform : performs op a.object value true object) :
      Step performs a none { a with object, history := a.history ++ [(t, op, value)] }
  | answer {a : AtomicObject τ ω α S} (t : τ) (answer : α) (ht : a.status t = .done answer) :
      Step performs a (some (.answer t answer))
        { a with status := Function.update a.status t .idle }

/-- A history of the sequential object. -/
inductive Legal (performs : ω → S → α → Bool → S → Prop) (s : S) : List (τ × ω × α) → S → Prop where
  | nil : Legal performs s [] s
  | concat {history : List (τ × ω × α)} {m s' : S} (t : τ) (op : ω) (value : α) (goesOn : Bool)
      (hlegal : Legal performs s history m) (hperform : performs op m value goesOn s') :
      Legal performs s (history ++ [(t, op, value)]) s'

variable [DecidableEq τ] {performs : ω → S → α → Bool → S → Prop} {a b : AtomicObject τ ω α S}

/-- **What was performed is a history of the sequential object.** -/
theorem legal_of_traces {s : S} {es : List (Event τ ω α)}
    (h : Traces (Step performs) { object := s } es b) : Legal performs s b.history b.object := by
  refine h.invariant (I := fun a => Legal performs s a.history a.object) ?_ .nil
  intro a e b hlegal hstep
  cases hstep with
  | call t op ht => exact hlegal
  | perform t op answer object ht hperform => exact hlegal.concat t op answer false hperform
  | goOn t op value object ht hperform => exact hlegal.concat t op value true hperform
  | answer t answer ht => exact hlegal

/-- An operation that answers in the step in which it performs. -/
theorem traces_perform_answer {t : τ} {op : ω} {answer : α} (object : S)
    (ht : a.status t = .called op) (hperform : performs op a.object answer false object) :
    Traces (Step performs) a [.answer t answer]
      { object, status := Function.update a.status t .idle,
        history := a.history ++ [(t, op, answer)] } := by
  have hanswer : Traces (Step performs)
      { object, status := Function.update a.status t (.done answer),
        history := a.history ++ [(t, op, answer)] } [.answer t answer] _ :=
    .single (Step.answer t answer (Function.update_self ..))
  rw [Function.update_idem] at hanswer
  exact (Traces.single (.perform t op answer object ht hperform)).append hanswer

end Ttp2.Lib.Atomic
