import LintCore.Config.Load
import LintCore.Policy.Basic
import LintCore.Proofs.Diagnostic.Naming

/-!
# Codes that are both allowed and denied

A policy built from a configuration allows and denies the kinds that the entries of its two lists
name (`Policy.kinds?_eq_ok_iff`), and entries name kinds whatever white space is around them.
Loading a configuration compares the entries as they are written (`Config.ofText_eq_ok`). So what
loading lets pass is free of conflicts exactly when no two entries, one of each list, are alike but
for the white space around them (`LintConfig.Apart`). `deny_reported_iff_apart` says this for the
two sets of the policy and for the severities that it reports: an allowed kind is always suppressed,
a denied one is reported as an error unless an entry that differs from its own in white space alone
allows it. `behindBlank` is a configuration that loads with such a pair.
-/

set_option autoImplicit false
set_option relaxedAutoImplicit false

namespace LintCore

/-- No entry to deny is an entry to allow with other white space around it. -/
def LintConfig.Apart (lint : LintConfig) : Prop :=
  ∀ denied ∈ lint.deny, ∀ allowed ∈ lint.allow,
    Text.trim denied.toList ≠ Text.trim allowed.toList

/-! ### What loading lets pass -/

namespace Config

theorem validate_eq_ok_iff {config result : Config} :
    config.validate = .ok result ↔
      config.eventLoop.readBufferSize ≠ 0 ∧ (∀ code ∈ config.lint.deny, code ∉ config.lint.allow) ∧
        config = result := by
  unfold validate
  by_cases hzero : config.eventLoop.readBufferSize = 0
  · rw [if_pos hzero]
    exact iff_of_false (fun hresult ↦ by cases hresult) fun hresult ↦ hresult.1 hzero
  · rw [if_neg hzero]
    cases hfound : config.lint.deny.find? (· ∈ config.lint.allow) with
    | some code =>
      have hdenied := List.mem_of_find?_eq_some hfound
      have hallowed := List.find?_some hfound
      rw [decide_eq_true_iff] at hallowed
      exact iff_of_false (fun hresult ↦ by cases hresult) fun hresult ↦
        hresult.2.1 code hdenied hallowed
    | none =>
      rw [List.find?_eq_none] at hfound
      constructor
      · intro hresult
        exact ⟨hzero, fun code hcode ↦ by simpa using hfound code hcode, Except.ok.inj hresult⟩
      · intro hresult
        exact congrArg Except.ok hresult.2.2

/-- No entry is written in both lists. -/
theorem ofText_eq_ok {text : String} {config : Config} (hconfig : ofText text = .ok config) :
    ∀ code ∈ config.lint.deny, code ∉ config.lint.allow := by
  unfold ofText ofDocument at hconfig
  split at hconfig
  · split at hconfig
    · obtain ⟨-, hlists, rfl⟩ := validate_eq_ok_iff.mp hconfig
      exact hlists
    · cases hconfig
  · cases hconfig

end Config

/-! ### The kinds that a list of entries names -/

namespace Policy

theorem kinds?_cons (code : String) (rest : List String) :
    kinds? (code :: rest) = (Code.parse? code).bind fun first ↦
      (kinds? rest).bind fun later ↦ .ok (first.kind :: later) := by
  rw [kinds?, List.mapM_cons]
  cases Code.parse? code <;> rfl

theorem kinds?_cons_eq_ok_iff {code : String} {rest : List String} {kinds : List Kind} :
    kinds? (code :: rest) = .ok kinds ↔
      ∃ kind later, kind.NamedBy code ∧ kinds? rest = .ok later ∧ kinds = kind :: later := by
  rw [kinds?_cons]
  cases hfirst : Code.parse? code with
  | error unknown =>
    refine iff_of_false (fun h ↦ by cases h) ?_
    rintro ⟨kind, later, hkind, -, -⟩
    rw [← Code.kind_code kind, ← Code.parse?_eq_ok_iff, hfirst] at hkind
    cases hkind
  | ok first =>
    have hnamed := Code.parse?_eq_ok_iff.mp hfirst
    cases hrest : kinds? rest with
    | error unknown =>
      refine iff_of_false (fun h ↦ by cases h) ?_
      rintro ⟨kind, later, -, hlater, -⟩
      cases hlater
    | ok later =>
      constructor
      · intro hkinds
        exact ⟨first.kind, later, hnamed, rfl, (Except.ok.inj hkinds).symm⟩
      · rintro ⟨kind, later', hkind, hlater, rfl⟩
        rw [hkind.unique hnamed, ← Except.ok.inj hlater]
        rfl

/-- Entry by entry, the kinds are those that the entries name. -/
theorem kinds?_eq_ok_iff {codes : List String} {kinds : List Kind} :
    kinds? codes = .ok kinds ↔ List.Forall₂ (fun text kind ↦ kind.NamedBy text) codes kinds := by
  induction codes generalizing kinds with
  | nil =>
    rw [List.forall₂_nil_left_iff]
    exact ⟨fun hkinds ↦ (Except.ok.inj hkinds).symm, fun hkinds ↦ congrArg Except.ok hkinds.symm⟩
  | cons code rest ih =>
    rw [kinds?_cons_eq_ok_iff, List.forall₂_cons_left_iff]
    simp only [ih]

/-- Each entry names a kind, and the kinds are those that an entry names. -/
theorem mem_of_kinds?_eq_ok {codes : List String} {kinds : List Kind}
    (hkinds : kinds? codes = .ok kinds) :
    (∀ text ∈ codes, ∃ kind : Kind, kind.NamedBy text) ∧
      ∀ kind : Kind, kind ∈ kinds ↔ ∃ text ∈ codes, kind.NamedBy text := by
  have hnamed := kinds?_eq_ok_iff.mp hkinds
  clear hkinds
  induction hnamed with
  | nil => exact ⟨by simp, by simp⟩
  | cons hfirst hrest ih =>
    constructor
    · intro text htext
      rcases List.mem_cons.mp htext with rfl | hlater
      · exact ⟨_, hfirst⟩
      · exact ih.1 text hlater
    · intro kind
      rw [List.mem_cons, ih.2 kind]
      constructor
      · rintro (rfl | ⟨text, htext, hkind⟩)
        · exact ⟨_, List.mem_cons_self, hfirst⟩
        · exact ⟨text, List.mem_cons_of_mem _ htext, hkind⟩
      · rintro ⟨text, htext, hkind⟩
        rcases List.mem_cons.mp htext with rfl | hlater
        · exact .inl (hkind.unique hfirst)
        · exact .inr ⟨text, hlater, hkind⟩

theorem ofConfig?_eq_bind (lint : LintConfig) :
    ofConfig? lint = (kinds? lint.allow).bind fun allowed ↦
      (kinds? lint.deny).bind fun denied ↦ .ok { allowed, denied } := rfl

theorem ofConfig?_eq_ok_iff {lint : LintConfig} {policy : Policy} :
    ofConfig? lint = .ok policy ↔
      kinds? lint.allow = .ok policy.allowed ∧ kinds? lint.deny = .ok policy.denied := by
  rw [ofConfig?_eq_bind]
  cases kinds? lint.allow with
  | error unknown => exact iff_of_false (fun h ↦ by cases h) fun h ↦ by cases h.1
  | ok allowed =>
    cases kinds? lint.deny with
    | error unknown => exact iff_of_false (fun h ↦ by cases h) fun h ↦ by cases h.2
    | ok denied =>
      obtain ⟨policyAllowed, policyDenied⟩ := policy
      constructor
      · intro hpolicy
        cases hpolicy
        exact ⟨rfl, rfl⟩
      · rintro ⟨hallowed, hdenied⟩
        cases hallowed
        cases hdenied
        rfl

/-- One entry in each list. -/
theorem ofConfig?_single {allowed denied : Code} {allow deny : String}
    (hallowed : allowed.kind.NamedBy allow) (hdenied : denied.kind.NamedBy deny) :
    ofConfig? { deny := [deny], allow := [allow] } =
      .ok { allowed := [allowed.kind], denied := [denied.kind] } :=
  ofConfig?_eq_ok_iff.mpr
    ⟨kinds?_eq_ok_iff.mpr (.cons hallowed .nil), kinds?_eq_ok_iff.mpr (.cons hdenied .nil)⟩

/-! ### Conflicts -/

/-- Entries name the same kind exactly if they are alike but for the white space around them. -/
theorem namedBy_iff_of_namedBy {kind : Kind} {first second : String} (hfirst : kind.NamedBy first) :
    kind.NamedBy second ↔ Text.trim first.toList = Text.trim second.toList := by
  rw [Kind.NamedBy] at hfirst ⊢
  rw [← hfirst]
  exact ⟨fun htrim ↦ String.ofList_injective htrim.symm, fun htrim ↦ congrArg _ htrim.symm⟩

section Loaded

variable {lint : LintConfig} {policy : Policy} (hpolicy : ofConfig? lint = .ok policy)

include hpolicy

theorem mem_allowed_iff (kind : Kind) :
    kind ∈ policy.allowed ↔ ∃ entry ∈ lint.allow, kind.NamedBy entry :=
  (mem_of_kinds?_eq_ok (ofConfig?_eq_ok_iff.mp hpolicy).1).2 kind

theorem mem_denied_iff (kind : Kind) :
    kind ∈ policy.denied ↔ ∃ entry ∈ lint.deny, kind.NamedBy entry :=
  (mem_of_kinds?_eq_ok (ofConfig?_eq_ok_iff.mp hpolicy).2).2 kind

theorem exists_namedBy {entry : String} (hentry : entry ∈ lint.allow ∨ entry ∈ lint.deny) :
    ∃ kind : Kind, kind.NamedBy entry := by
  rcases hentry with hallow | hdeny
  · exact (mem_of_kinds?_eq_ok (ofConfig?_eq_ok_iff.mp hpolicy).1).1 entry hallow
  · exact (mem_of_kinds?_eq_ok (ofConfig?_eq_ok_iff.mp hpolicy).2).1 entry hdeny

theorem severityOf_of_allow {entry : String} (hentry : entry ∈ lint.allow) {kind : Kind}
    (hkind : kind.NamedBy entry) : policy.severityOf kind = none :=
  if_pos ((mem_allowed_iff hpolicy kind).mpr ⟨entry, hentry, hkind⟩)

/-- A denied kind is an error unless an entry to allow is like its own but for white space. -/
theorem severityOf_of_deny {entry : String} (hentry : entry ∈ lint.deny) {kind : Kind}
    (hkind : kind.NamedBy entry) :
    policy.severityOf kind =
      if ∃ other ∈ lint.allow, Text.trim entry.toList = Text.trim other.toList then none
      else some .error := by
  have hdenied := (mem_denied_iff hpolicy kind).mpr ⟨entry, hentry, hkind⟩
  have hallowed : kind ∈ policy.allowed ↔
      ∃ other ∈ lint.allow, Text.trim entry.toList = Text.trim other.toList := by
    rw [mem_allowed_iff hpolicy]
    simp only [namedBy_iff_of_namedBy hkind]
  by_cases hsame : ∃ other ∈ lint.allow, Text.trim entry.toList = Text.trim other.toList
  · rw [if_pos hsame]
    exact if_pos (hallowed.mpr hsame)
  · rw [if_neg hsame]
    exact (if_neg (mt hallowed.mp hsame)).trans (if_pos hdenied)

theorem deny_reported_iff :
    (∀ entry ∈ lint.deny, ∀ kind : Kind, kind.NamedBy entry →
      policy.severityOf kind = some .error) ↔ lint.Apart := by
  constructor
  · intro hreported denied hdenied allowed hallowed htrim
    obtain ⟨kind, hkind⟩ := exists_namedBy hpolicy (.inr hdenied)
    have hsuppressed := severityOf_of_allow hpolicy hallowed
      ((namedBy_iff_of_namedBy hkind).mpr htrim)
    rw [hreported denied hdenied kind hkind] at hsuppressed
    cases hsuppressed
  · intro hapart entry hentry kind hkind
    rw [severityOf_of_deny hpolicy hentry hkind, if_neg]
    rintro ⟨other, hother, htrim⟩
    exact hapart entry hentry other hother htrim

theorem disjoint_iff : policy.allowed.Disjoint policy.denied ↔ lint.Apart := by
  constructor
  · intro hdisjoint denied hdenied allowed hallowed htrim
    obtain ⟨kind, hkind⟩ := exists_namedBy hpolicy (.inr hdenied)
    exact hdisjoint
      ((mem_allowed_iff hpolicy kind).mpr
        ⟨allowed, hallowed, (namedBy_iff_of_namedBy hkind).mpr htrim⟩)
      ((mem_denied_iff hpolicy kind).mpr ⟨denied, hdenied, hkind⟩)
  · intro hapart kind hallowed hdenied
    obtain ⟨allowed, hallow, hkind⟩ := (mem_allowed_iff hpolicy kind).mp hallowed
    obtain ⟨denied, hdeny, hkind'⟩ := (mem_denied_iff hpolicy kind).mp hdenied
    exact hapart denied hdeny allowed hallow ((namedBy_iff_of_namedBy hkind').mp hkind)

end Loaded

/-- Of a configuration that loads and whose entries are all known, every entry names a kind and none
is written in both lists. What it allows is suppressed. What it denies is reported as an error
unless an entry to allow is the same but for the white space around it; that all of it is, and that
no kind is both allowed and denied, are each the same as that the two lists are apart. -/
theorem deny_reported_iff_apart {text : String} {config : Config} {policy : Policy}
    (hconfig : Config.ofText text = .ok config) (hpolicy : ofConfig? config.lint = .ok policy) :
    (∀ entry ∈ config.lint.deny, entry ∉ config.lint.allow) ∧
      (∀ entry, entry ∈ config.lint.allow ∨ entry ∈ config.lint.deny →
        ∃ kind : Kind, kind.NamedBy entry) ∧
      (∀ entry ∈ config.lint.allow, ∀ kind : Kind, kind.NamedBy entry →
        policy.severityOf kind = none) ∧
      (∀ entry ∈ config.lint.deny, ∀ kind : Kind, kind.NamedBy entry →
        policy.severityOf kind =
          if ∃ other ∈ config.lint.allow, Text.trim entry.toList = Text.trim other.toList then none
          else some .error) ∧
      ((∀ entry ∈ config.lint.deny, ∀ kind : Kind, kind.NamedBy entry →
        policy.severityOf kind = some .error) ↔ config.lint.Apart) ∧
      (policy.allowed.Disjoint policy.denied ↔ config.lint.Apart) :=
  ⟨Config.ofText_eq_ok hconfig, fun _ hentry ↦ exists_namedBy hpolicy hentry,
    fun _ hentry _ hkind ↦ severityOf_of_allow hpolicy hentry hkind,
    fun _ hentry _ hkind ↦ severityOf_of_deny hpolicy hentry hkind,
    deny_reported_iff hpolicy, disjoint_iff hpolicy⟩

/-- Allows one code, and denies another one that is written with a blank before it. -/
def separate : String := "[lint]\nallow = [\"E057\"]\ndeny = [\" E059\"]\n"

theorem separate_deny_reported :
    ∃ (config : Config) (policy : Policy), Config.ofText separate = .ok config ∧
      ofConfig? config.lint = .ok policy ∧ config.lint.deny = [" E059"] ∧
      (∀ entry ∈ config.lint.deny, ∀ kind : Kind, kind.NamedBy entry →
        policy.severityOf kind = some .error) ∧
      policy.allowed.Disjoint policy.denied := by
  have hconfig : Config.ofText separate =
      .ok { lint := { deny := [" E059"], allow := ["E057"] } } := by decide +kernel
  let allowed : Code := ⟨"E057", by decide +kernel⟩
  let denied : Code := ⟨"E059", by decide +kernel⟩
  have hallowed : allowed.kind.NamedBy "E057" := Code.namedBy_kind (by decide +kernel)
  have hdenied : denied.kind.NamedBy " E059" := Code.namedBy_kind (by decide +kernel)
  have hpolicy := ofConfig?_single hallowed hdenied
  obtain ⟨-, -, -, -, hreported, hdisjoint⟩ := deny_reported_iff_apart hconfig hpolicy
  have hapart : LintConfig.Apart { deny := [" E059"], allow := ["E057"] } := by
    simp only [LintConfig.Apart, List.forall_mem_singleton]
    decide +kernel
  exact ⟨_, _, hconfig, hpolicy, rfl, hreported.mpr hapart, hdisjoint.mpr hapart⟩

/-- Allows a code, and denies the same one written with a blank before it. -/
def behindBlank : String := "[lint]\nallow = [\"E057\"]\ndeny = [\" E057\"]\n"

/-- It loads, and the code is suppressed though it is denied. -/
theorem behindBlank_deny_suppressed :
    ∃ (config : Config) (policy : Policy), Config.ofText behindBlank = .ok config ∧
      ofConfig? config.lint = .ok policy ∧
      (∃ entry ∈ config.lint.deny, ∃ kind : Kind, kind.NamedBy entry ∧
        policy.severityOf kind = none) ∧
      ¬ policy.allowed.Disjoint policy.denied := by
  have hconfig : Config.ofText behindBlank =
      .ok { lint := { deny := [" E057"], allow := ["E057"] } } := by decide +kernel
  let code : Code := ⟨"E057", by decide +kernel⟩
  have hallowed : code.kind.NamedBy "E057" := Code.namedBy_kind (by decide +kernel)
  have hdenied : code.kind.NamedBy " E057" := Code.namedBy_kind (by decide +kernel)
  have hpolicy := ofConfig?_single hallowed hdenied
  have hsuppressed := severityOf_of_allow hpolicy List.mem_cons_self hallowed
  exact ⟨_, _, hconfig, hpolicy, ⟨_, List.mem_cons_self, _, hdenied, hsuppressed⟩,
    fun hdisjoint ↦ hdisjoint List.mem_cons_self List.mem_cons_self⟩

end Policy

end LintCore
