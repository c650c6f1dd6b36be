import LintCore.Config.Basic
import LintCore.Diagnostic.Kind

/-!
A policy decides which kinds of diagnostics are reported, and at what severity: an allowed kind is
not reported, a denied one is an error, and any other keeps the severity of the catalogue. A kind
that a configuration both allows and denies is allowed; `allow` and `deny` override each other.
-/

set_option autoImplicit false
set_option relaxedAutoImplicit false

namespace LintCore

structure Policy where
  allowed : List Kind := []
  denied : List Kind := []

namespace Policy

/-- Nothing is changed. -/
def empty : Policy := {}

instance : Inhabited Policy := ⟨empty⟩

/-- The kinds that codes name, unless one names none. -/
def kinds? (codes : List String) : Except Code.Unknown (List Kind) :=
  codes.mapM fun text ↦ (Code.parse? text).map Code.kind

/-- The policy of a configuration. The first unknown code is an error; those to allow come first. -/
def ofConfig? (config : LintConfig) : Except Code.Unknown Policy := do
  let allowed ← kinds? config.allow
  let denied ← kinds? config.deny
  return { allowed, denied }

/-- Do not report this kind. -/
def allow (policy : Policy) (kind : Kind) : Policy where
  allowed := kind :: policy.allowed
  denied := policy.denied.filter (· ≠ kind)

/-- Report this kind as an error. -/
def deny (policy : Policy) (kind : Kind) : Policy where
  allowed := policy.allowed.filter (· ≠ kind)
  denied := kind :: policy.denied

/-- The severity that a kind is reported at, if it is reported. -/
def severityOf (policy : Policy) (kind : Kind) : Option Severity :=
  if kind ∈ policy.allowed then none
  else if kind ∈ policy.denied then some .error
  else some kind.severity

/-- The kinds that are not reported at the severity of the catalogue, with what they have instead.
-/
def changes (policy : Policy) : List (Kind × Option Severity) :=
  (Kind.all.map fun kind ↦ (kind, policy.severityOf kind)).filter fun (kind, severity) ↦
    severity ≠ some kind.severity

@[simp] theorem severityOf_empty (kind : Kind) : empty.severityOf kind = some kind.severity := rfl

@[simp] theorem severityOf_allow (policy : Policy) (kind other : Kind) :
    (policy.allow kind).severityOf other =
      if other = kind then none else policy.severityOf other := by
  by_cases h : other = kind
  · simp [severityOf, allow, h]
  · simp [severityOf, allow, h]

@[simp] theorem severityOf_deny (policy : Policy) (kind other : Kind) :
    (policy.deny kind).severityOf other =
      if other = kind then some .error else policy.severityOf other := by
  by_cases h : other = kind
  · simp [severityOf, deny, h]
  · simp [severityOf, deny, h]

end Policy

end LintCore
