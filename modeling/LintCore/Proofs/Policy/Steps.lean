import LintCore.Proofs.Policy.Reading
import Mathlib.Data.List.Induction

/-!
# Changing a policy step by step

A step allows or denies one kind. It takes the kind out of the other set, so whatever a policy said
of a kind before, the last step on the kind decides what it says afterwards, and kinds without a
step are as they were (`mem_applyAll_iff`). All else follows from that: `last_step_decides` gives
the severities, the steps that can be exchanged or left out, and that no kind with a step is allowed
and denied at once, even if the policy to begin with had it so.
-/

set_option autoImplicit false
set_option relaxedAutoImplicit false

namespace LintCore.Policy

/-! ### Steps -/

inductive Step where
  | allow (kind : Kind)
  | deny (kind : Kind)
deriving DecidableEq

def Step.kind : Step → Kind
  | .allow kind => kind
  | .deny kind => kind

def apply (policy : Policy) : Step → Policy
  | .allow kind => policy.allow kind
  | .deny kind => policy.deny kind

/-- The policy after steps made one after the other. -/
def applyAll (policy : Policy) (steps : List Step) : Policy := steps.foldl apply policy

/-- The last of the steps that is on the kind. -/
def lastOn (kind : Kind) (steps : List Step) : Option Step :=
  steps.reverse.find? fun step ↦ step.kind = kind

theorem lastOn_append (kind : Kind) (first later : List Step) :
    lastOn kind (first ++ later) = (lastOn kind later).or (lastOn kind first) := by
  rw [lastOn, List.reverse_append, List.find?_append]
  rfl

theorem lastOn_singleton (kind : Kind) (step : Step) :
    lastOn kind [step] = if step.kind = kind then some step else none := by
  by_cases hkind : step.kind = kind
  · simp [lastOn, hkind]
  · simp [lastOn, hkind]

theorem kind_of_lastOn {kind : Kind} {steps : List Step} {step : Step}
    (hlast : lastOn kind steps = some step) : step.kind = kind := by
  simpa using List.find?_some hlast

theorem exists_lastOn {steps : List Step} {step : Step} (hstep : step ∈ steps) :
    ∃ last, lastOn step.kind steps = some last := by
  refine Option.isSome_iff_exists.mp (List.find?_isSome.mpr ?_)
  exact ⟨step, List.mem_reverse.mpr hstep, decide_eq_true rfl⟩

/-! ### What steps do to the two sets -/

/-- A step leaves all kinds but its own as they are. -/
theorem mem_apply_of_ne {step : Step} {kind : Kind} (hkind : step.kind ≠ kind) (policy : Policy) :
    (kind ∈ (policy.apply step).allowed ↔ kind ∈ policy.allowed) ∧
      (kind ∈ (policy.apply step).denied ↔ kind ∈ policy.denied) := by
  have hother : kind ≠ step.kind := Ne.symm hkind
  cases step with
  | allow other => simp_all [apply, allow, Step.kind]
  | deny other => simp_all [apply, deny, Step.kind]

/-- The kind of a step is in the set that the step puts it into, and not in the other one. -/
theorem mem_apply_kind (step : Step) (policy : Policy) :
    (step.kind ∈ (policy.apply step).allowed ↔ step = .allow step.kind) ∧
      (step.kind ∈ (policy.apply step).denied ↔ step = .deny step.kind) := by
  cases step with
  | allow kind => simp [apply, allow, Step.kind]
  | deny kind => simp [apply, deny, Step.kind]

theorem lastOn_concat (kind : Kind) (steps : List Step) (step : Step) :
    lastOn kind (steps ++ [step]) = if step.kind = kind then some step else lastOn kind steps := by
  rw [lastOn_append, lastOn_singleton]
  split <;> simp

/-- After any number of steps a kind is allowed if the last step on it allows it, or if there is
none and it was allowed before, and likewise for denied kinds. -/
theorem mem_applyAll_iff (policy : Policy) (steps : List Step) (kind : Kind) :
    (kind ∈ (policy.applyAll steps).allowed ↔
      lastOn kind steps = some (.allow kind) ∨
        lastOn kind steps = none ∧ kind ∈ policy.allowed) ∧
    (kind ∈ (policy.applyAll steps).denied ↔
      lastOn kind steps = some (.deny kind) ∨
        lastOn kind steps = none ∧ kind ∈ policy.denied) := by
  induction steps using List.reverseRecOn with
  | nil => simp [applyAll, lastOn]
  | append_singleton steps step ih =>
    have hconcat : policy.applyAll (steps ++ [step]) = (policy.applyAll steps).apply step :=
      List.foldl_concat ..
    rw [hconcat, lastOn_concat]
    by_cases hkind : step.kind = kind
    · obtain ⟨hallowed, hdenied⟩ := mem_apply_kind step (policy.applyAll steps)
      rw [hkind] at hallowed hdenied
      rw [hallowed, hdenied, if_pos hkind]
      simp
    · obtain ⟨hallowed, hdenied⟩ := mem_apply_of_ne hkind (policy.applyAll steps)
      rw [hallowed, hdenied, if_neg hkind]
      exact ih

/-! ### Severities, and steps that can be changed -/

theorem severityOf_applyAll (policy : Policy) (steps : List Step) (kind : Kind) :
    (policy.applyAll steps).severityOf kind =
      if lastOn kind steps = some (.allow kind) then none
      else if lastOn kind steps = some (.deny kind) then some .error
      else policy.severityOf kind := by
  obtain ⟨hallowed, hdenied⟩ := mem_applyAll_iff policy steps kind
  rw [severityOf, severityOf]
  simp only [hallowed, hdenied]
  cases hlast : lastOn kind steps with
  | none => simp
  | some step =>
    have hkind := kind_of_lastOn hlast
    cases step with
    | allow other => simp_all [Step.kind]
    | deny other => simp_all [Step.kind]

/-- Steps of which the last on each kind are the same change a policy in the same way. -/
theorem alike_applyAll {steps others : List Step}
    (hlast : ∀ kind, lastOn kind steps = lastOn kind others) (policy : Policy) :
    (policy.applyAll steps).Alike (policy.applyAll others) where
  allowed_iff kind := by
    rw [(mem_applyAll_iff policy steps kind).1, (mem_applyAll_iff policy others kind).1, hlast]
  denied_iff kind := by
    rw [(mem_applyAll_iff policy steps kind).2, (mem_applyAll_iff policy others kind).2, hlast]

theorem lastOn_exchange {first second : Step} (hkind : first.kind ≠ second.kind) (kind : Kind)
    (before after : List Step) :
    lastOn kind (before ++ first :: second :: after) =
      lastOn kind (before ++ second :: first :: after) := by
  have hpair : lastOn kind [first, second] = lastOn kind [second, first] := by
    rw [← List.singleton_append, lastOn_concat, lastOn_singleton, ← List.singleton_append,
      lastOn_concat, lastOn_singleton]
    by_cases hfirst : first.kind = kind
    · have hsecond : second.kind ≠ kind := hfirst ▸ Ne.symm hkind
      rw [if_neg hsecond, if_neg hsecond]
    · rw [if_neg hfirst, if_neg hfirst]
  have hsplit (one other : Step) : before ++ one :: other :: after =
      before ++ ([one, other] ++ after) := rfl
  rw [hsplit, hsplit, lastOn_append, lastOn_append, hpair, ← lastOn_append, ← lastOn_append]

theorem lastOn_repeat (kind : Kind) (step : Step) (before after : List Step) :
    lastOn kind (before ++ step :: step :: after) = lastOn kind (before ++ step :: after) := by
  have hpair : lastOn kind [step, step] = lastOn kind [step] := by
    rw [← List.singleton_append, lastOn_concat, lastOn_singleton]
    split <;> rfl
  have hsplit : before ++ step :: step :: after = before ++ ([step, step] ++ after) := rfl
  have hsingle : before ++ step :: after = before ++ ([step] ++ after) := rfl
  rw [hsplit, hsingle, lastOn_append, lastOn_append, hpair, ← lastOn_append, ← lastOn_append]

/-- After any number of steps, from whatever policy, a kind is not reported if the last step on it
allows it, is an error if the last step on it denies it, and is reported as the first policy would
report it if no step is on it. Two neighbouring steps on different kinds can be exchanged, and a
step that is made again at once can be left out: the same kinds are allowed and denied at the end.
No kind with a step is both allowed and denied. -/
theorem last_step_decides (policy : Policy) (steps : List Step) :
    (∀ kind, (policy.applyAll steps).severityOf kind =
      if lastOn kind steps = some (.allow kind) then none
      else if lastOn kind steps = some (.deny kind) then some .error
      else policy.severityOf kind) ∧
    (∀ before first second after, first.kind ≠ second.kind →
      steps = before ++ first :: second :: after →
      (policy.applyAll steps).Alike (policy.applyAll (before ++ second :: first :: after))) ∧
    (∀ before step after, steps = before ++ step :: step :: after →
      (policy.applyAll steps).Alike (policy.applyAll (before ++ step :: after))) ∧
    ∀ step ∈ steps, ¬ (step.kind ∈ (policy.applyAll steps).allowed ∧
      step.kind ∈ (policy.applyAll steps).denied) := by
  refine ⟨severityOf_applyAll policy steps, ?_, ?_, ?_⟩
  · rintro before first second after hkind rfl
    exact alike_applyAll (fun kind ↦ lastOn_exchange hkind kind before after) policy
  · rintro before step after rfl
    exact alike_applyAll (fun kind ↦ lastOn_repeat kind step before after) policy
  · rintro step hstep ⟨hallowed, hdenied⟩
    obtain ⟨last, hlast⟩ := exists_lastOn hstep
    rw [(mem_applyAll_iff policy steps _).1, hlast] at hallowed
    rw [(mem_applyAll_iff policy steps _).2, hlast] at hdenied
    have hallow : last = .allow step.kind := by simpa using hallowed
    have hdeny : last = .deny step.kind := by simpa using hdenied
    exact absurd (hallow.symm.trans hdeny) (by simp)

/-- A configuration allows and denies one kind. A step on the kind settles it. The steps on another
kind around it do not matter, and might as well be one step behind it. -/
theorem conflict_settled_by_step :
    ∃ (policy : Policy) (kind other : Kind),
      ofConfig? { deny := [" E057"], allow := ["E057"] } = .ok policy ∧
      kind ∈ policy.allowed ∧ kind ∈ policy.denied ∧
      (policy.applyAll [.allow other, .deny kind, .allow other]).severityOf kind = some .error ∧
      kind ∉ (policy.applyAll [.allow other, .deny kind, .allow other]).allowed ∧
      (policy.applyAll [.allow other, .deny kind, .allow other]).Alike
        (policy.applyAll [.deny kind, .allow other, .allow other]) ∧
      (policy.applyAll [.deny kind, .allow other, .allow other]).Alike
        (policy.applyAll [.deny kind, .allow other]) := by
  let code : Code := ⟨"E057", by decide +kernel⟩
  let others : Code := ⟨"E059", by decide +kernel⟩
  have hallowed : code.kind.NamedBy "E057" := Code.namedBy_kind (by decide +kernel)
  have hdenied : code.kind.NamedBy " E057" := Code.namedBy_kind (by decide +kernel)
  have hother : others.kind ≠ code.kind := by decide +kernel
  have hlast : lastOn code.kind [.allow others.kind, .deny code.kind, .allow others.kind] =
      some (.deny code.kind) := by
    simp [lastOn, Step.kind, hother]
  let policy : Policy := { allowed := [code.kind], denied := [code.kind] }
  obtain ⟨hseverity, hexchange, -, hsettled⟩ := last_step_decides policy
    [.allow others.kind, .deny code.kind, .allow others.kind]
  obtain ⟨-, -, hrepeat, -⟩ := last_step_decides policy
    [.deny code.kind, .allow others.kind, .allow others.kind]
  have hkept := hsettled (.deny code.kind) (by simp)
  refine ⟨policy, code.kind, others.kind, ofConfig?_single hallowed hdenied, List.mem_cons_self,
    List.mem_cons_self, ?_, fun hmem ↦ hkept ⟨hmem, ?_⟩,
    hexchange [] (.allow others.kind) (.deny code.kind) [.allow others.kind] hother rfl,
    hrepeat [.deny code.kind] (.allow others.kind) [] rfl⟩
  · rw [hseverity, hlast, if_neg (by simp), if_pos rfl]
  · rw [(mem_applyAll_iff _ _ _).2, Step.kind, hlast]
    exact .inl rfl

end LintCore.Policy
