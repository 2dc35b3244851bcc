import InputResolution.Report.Failure
import InputResolution.Request.Plan

namespace InputResolution

/-! What happens while a request is resolved, in order.  Diagnostics and the log
are two views of the same events. -/

/-- An input that is passed over because missing inputs are ignored. -/
inductive Skip where
  | notFound (path : Text)
  | notAValidFile (path : Text)
  deriving DecidableEq, Repr

def Skip.message : Skip → Text
  | .notFound path => quoted path ++ " is not found. Skipping.".toList
  | .notAValidFile path =>
      quoted path ++ " is not a valid file. Skipping.".toList

inductive Event where
  | planned (plan : Plan)
  | skipped (skip : Skip)
  | registered (name path : Text)
  | replaced (name path : Text)
  | allowed (directory : Text)
  | resolved (mode : Mode) (sources directories : Nat)
  | failed (failure : Failure)
  deriving DecidableEq, Repr

/-- A result together with the events on the way to it, which a failure does not
undo. -/
structure Traced (α : Type) where
  result : Except Failure α
  events : List Event

namespace Traced

def ok (value : α) (events : List Event) : Traced α :=
  ⟨.ok value, events⟩

def fail (failure : Failure) (events : List Event) : Traced α :=
  ⟨.error failure, events⟩

def andThen (first : Traced α) (next : α → Traced β) : Traced β :=
  match first.result with
  | .error failure => ⟨.error failure, first.events⟩
  | .ok value => ⟨(next value).result, first.events ++ (next value).events⟩

@[simp] theorem result_ok (value : α) (events : List Event) :
    (ok value events).result = .ok value := rfl

@[simp] theorem events_ok (value : α) (events : List Event) :
    (ok value events).events = events := rfl

@[simp] theorem result_fail (failure : Failure) (events : List Event) :
    (fail failure events : Traced α).result = .error failure := rfl

@[simp] theorem events_fail (failure : Failure) (events : List Event) :
    (fail failure events : Traced α).events = events := rfl

@[simp] theorem andThen_ok (value : α) (events : List Event)
    (next : α → Traced β) :
    (ok value events).andThen next =
      ⟨(next value).result, events ++ (next value).events⟩ := rfl

@[simp] theorem andThen_fail (failure : Failure) (events : List Event)
    (next : α → Traced β) :
    (fail failure events).andThen next = fail failure events := rfl

end Traced

end InputResolution
