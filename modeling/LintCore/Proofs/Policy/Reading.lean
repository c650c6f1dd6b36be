import LintCore.Proofs.Policy.Conflict

/-!
# Reading a policy from a configuration

The entries of a configuration are read one after the other, those to allow first. Reading goes on
as long as each of them names a kind and stops at the first one that names none, which is told as it
is written (`Policy.kinds?_eq_error_iff`, `Policy.ofConfig?_eq_error_iff`). What a kind is reported
at depends on whether some entry to allow and some entry to deny names it and on nothing else
(`Policy.severityOf_eq`), so neither the order of the entries in a list nor their number matters
(`Policy.Alike`). `ofConfig?_decided_by_entries` puts this together.
-/

set_option autoImplicit false
set_option relaxedAutoImplicit false

namespace LintCore

namespace LintConfig

variable (lint : LintConfig) (kind : Kind)

/-- Some entry to allow names the kind. -/
def Allows : Prop := ∃ entry ∈ lint.allow, kind.NamedBy entry

/-- Some entry to deny names the kind. -/
def Denies : Prop := ∃ entry ∈ lint.deny, kind.NamedBy entry

instance : Decidable (lint.Allows kind) :=
  inferInstanceAs (Decidable (∃ entry ∈ lint.allow, kind.NamedBy entry))

instance : Decidable (lint.Denies kind) :=
  inferInstanceAs (Decidable (∃ entry ∈ lint.deny, kind.NamedBy entry))

end LintConfig

namespace Policy

/-! ### The first entry that is not known -/

/-- Of two readings, the second is made only if the first succeeds. -/
theorem bind_eq_error_iff {ε α β : Type} {first : Except ε α} {later : α → Except ε β} {told : ε} :
    first.bind later = .error told ↔
      first = .error told ∨ ∃ value, first = .ok value ∧ later value = .error told := by
  cases first with
  | error other =>
    constructor
    · intro h
      cases h
      exact .inl rfl
    · rintro (h | ⟨value, h, -⟩)
      · cases h
        rfl
      · cases h
  | ok value =>
    constructor
    · exact fun h ↦ .inr ⟨value, rfl, h⟩
    · rintro (h | ⟨value, h, hlater⟩)
      · cases h
      · cases h
        exact hlater

theorem kinds?_cons_eq_error_iff {code : String} {rest : List String} {unknown : Code.Unknown} :
    kinds? (code :: rest) = .error unknown ↔
      ¬ Code.Known code ∧ unknown.text = code ∨
        Code.Known code ∧ kinds? rest = .error unknown := by
  have hrest (first : Code) :
      ((kinds? rest).bind fun later ↦ .ok (first.kind :: later)) = .error unknown ↔
        kinds? rest = .error unknown := by
    simp only [bind_eq_error_iff, reduceCtorEq, and_false, exists_false, or_false]
  rw [kinds?_cons, bind_eq_error_iff, Code.parse?_eq_error_iff]
  simp only [hrest, exists_and_right, ← Code.known_iff]

/-- What is told is the first entry that names no kind. -/
theorem kinds?_eq_error_iff {codes : List String} {unknown : Code.Unknown} :
    kinds? codes = .error unknown ↔
      ∃ before after, codes = before ++ unknown.text :: after ∧
        (∀ entry ∈ before, Code.Known entry) ∧ ¬ Code.Known unknown.text := by
  induction codes with
  | nil =>
    refine iff_of_false (fun h ↦ by cases h) ?_
    rintro ⟨before, after, hcodes, -⟩
    exact List.append_ne_nil_of_right_ne_nil _ (List.cons_ne_nil _ _) hcodes.symm
  | cons code rest ih =>
    rw [kinds?_cons_eq_error_iff, ih]
    constructor
    · rintro (⟨hunknown, rfl⟩ | ⟨hknown, before, after, rfl, hbefore, hunknown⟩)
      · exact ⟨[], rest, rfl, by simp, hunknown⟩
      · exact ⟨code :: before, after, rfl, List.forall_mem_cons.mpr ⟨hknown, hbefore⟩, hunknown⟩
    · rintro ⟨before, after, hcodes, hbefore, hunknown⟩
      cases before with
      | nil =>
        obtain ⟨rfl, rfl⟩ := List.cons.inj hcodes
        exact .inl ⟨hunknown, rfl⟩
      | cons first before =>
        obtain ⟨rfl, rfl⟩ := List.cons.inj hcodes
        obtain ⟨hknown, hbefore⟩ := List.forall_mem_cons.mp hbefore
        exact .inr ⟨hknown, before, after, rfl, hbefore, hunknown⟩

theorem kinds?_append (first later : List String) :
    kinds? (first ++ later) = (kinds? first).bind fun kinds ↦
      (kinds? later).bind fun others ↦ .ok (kinds ++ others) := by
  rw [kinds?, List.mapM_append]
  rfl

/-- The entries to allow and those to deny are read like one list. -/
theorem ofConfig?_eq_error_iff {lint : LintConfig} {unknown : Code.Unknown} :
    ofConfig? lint = .error unknown ↔ kinds? (lint.allow ++ lint.deny) = .error unknown := by
  rw [ofConfig?_eq_bind, kinds?_append]
  simp only [bind_eq_error_iff, reduceCtorEq, and_false, exists_false, or_false]

theorem exists_ofConfig?_iff {lint : LintConfig} :
    (∃ policy, ofConfig? lint = .ok policy) ↔
      ∀ entry ∈ lint.allow ++ lint.deny, Code.Known entry := by
  constructor
  · rintro ⟨policy, hpolicy⟩ entry hentry
    exact exists_namedBy hpolicy (List.mem_append.mp hentry)
  · intro hknown
    cases hread : ofConfig? lint with
    | ok policy => exact ⟨policy, rfl⟩
    | error unknown =>
      obtain ⟨before, after, hentries, -, hunknown⟩ :=
        kinds?_eq_error_iff.mp (ofConfig?_eq_error_iff.mp hread)
      exact absurd (hknown unknown.text (by rw [hentries]; simp)) hunknown

/-! ### What the policy makes of a kind -/

/-- The same kinds are allowed and the same ones denied, in whatever order and however often. -/
structure Alike (policy other : Policy) : Prop where
  allowed_iff : ∀ kind, kind ∈ policy.allowed ↔ kind ∈ other.allowed
  denied_iff : ∀ kind, kind ∈ policy.denied ↔ kind ∈ other.denied

theorem Alike.severityOf_eq {policy other : Policy} (h : policy.Alike other) (kind : Kind) :
    policy.severityOf kind = other.severityOf kind := by
  simp only [severityOf, h.allowed_iff, h.denied_iff]

theorem severityOf_eq {lint : LintConfig} {policy : Policy} (hpolicy : ofConfig? lint = .ok policy)
    (kind : Kind) :
    policy.severityOf kind =
      if lint.Allows kind then none
      else if lint.Denies kind then some .error else some kind.severity :=
  if_congr (mem_allowed_iff hpolicy kind) rfl (if_congr (mem_denied_iff hpolicy kind) rfl rfl)

/-- Entries that occur in both configurations name the same kinds in both. -/
theorem alike_of_mem_iff {lint other : LintConfig} {policy policy' : Policy}
    (hallow : ∀ entry, entry ∈ other.allow ↔ entry ∈ lint.allow)
    (hdeny : ∀ entry, entry ∈ other.deny ↔ entry ∈ lint.deny)
    (hpolicy : ofConfig? lint = .ok policy) (hpolicy' : ofConfig? other = .ok policy') :
    policy'.Alike policy where
  allowed_iff kind := by rw [mem_allowed_iff hpolicy, mem_allowed_iff hpolicy']; simp only [hallow]
  denied_iff kind := by rw [mem_denied_iff hpolicy, mem_denied_iff hpolicy']; simp only [hdeny]

/-- A configuration gives a policy if every entry of its two lists names a kind, with white space
around the code or without, and only then. Otherwise the first entry that names none is told, just
as it is written; those to allow come before those to deny. The policy does not report what an entry
to allow names, reports as errors what else an entry to deny names, and reports any other kind at
the severity of the catalogue. A configuration whose lists have the same entries, in another order
or some of them repeated, gives a policy that allows and denies the same kinds and reports each of
them alike. -/
theorem ofConfig?_decided_by_entries (lint : LintConfig) :
    ((∃ policy, ofConfig? lint = .ok policy) ↔
      ∀ entry ∈ lint.allow ++ lint.deny, ∃ kind : Kind, kind.NamedBy entry) ∧
    (∀ unknown : Code.Unknown, ofConfig? lint = .error unknown ↔
      ∃ before after, lint.allow ++ lint.deny = before ++ unknown.text :: after ∧
        (∀ entry ∈ before, ∃ kind : Kind, kind.NamedBy entry) ∧
        ¬ ∃ kind : Kind, kind.NamedBy unknown.text) ∧
    ∀ policy, ofConfig? lint = .ok policy →
      (∀ kind, policy.severityOf kind =
        if ∃ entry ∈ lint.allow, kind.NamedBy entry then none
        else if ∃ entry ∈ lint.deny, kind.NamedBy entry then some .error
        else some kind.severity) ∧
      ∀ other : LintConfig, (∀ entry, entry ∈ other.allow ↔ entry ∈ lint.allow) →
        (∀ entry, entry ∈ other.deny ↔ entry ∈ lint.deny) →
        ∃ policy', ofConfig? other = .ok policy' ∧ policy'.Alike policy ∧
          ∀ kind, policy'.severityOf kind = policy.severityOf kind := by
  refine ⟨exists_ofConfig?_iff, fun unknown ↦ ofConfig?_eq_error_iff.trans kinds?_eq_error_iff,
    fun policy hpolicy ↦ ⟨severityOf_eq hpolicy, fun other hallow hdeny ↦ ?_⟩⟩
  have hknown := exists_ofConfig?_iff.mp ⟨policy, hpolicy⟩
  obtain ⟨policy', hpolicy'⟩ : ∃ policy', ofConfig? other = .ok policy' := by
    refine exists_ofConfig?_iff.mpr fun entry hentry ↦ hknown entry ?_
    rw [List.mem_append, hallow, hdeny] at hentry
    exact List.mem_append.mpr hentry
  have halike := alike_of_mem_iff hallow hdeny hpolicy hpolicy'
  exact ⟨policy', hpolicy', halike, halike.severityOf_eq⟩

/-- Of two unknown entries the one to allow is told, with the blanks around it. An entry that is
repeated behind another one changes nothing. -/
theorem lowercase_told_and_repeated_alike :
    ofConfig? { deny := ["E999"], allow := ["E057", " e057 "] } = .error ⟨" e057 "⟩ ∧
      ∃ policy policy', ofConfig? { deny := [" E059"], allow := ["E057", "E034"] } = .ok policy ∧
        ofConfig? { deny := [" E059"], allow := ["E034", "E057", "E034"] } = .ok policy' ∧
        policy'.Alike policy ∧
        ∀ kind : Kind, kind.NamedBy "E059" → policy.severityOf kind = some .error := by
  have hknown (text : String) (htext : ∃ code, Code.parse? text = .ok code) :
      ∃ kind : Kind, kind.NamedBy text := Code.known_iff.mpr htext
  have hundeclared : Code.parse? "E057" = .ok ⟨"E057", by decide +kernel⟩ := by decide +kernel
  have hredeclared : Code.parse? "E034" = .ok ⟨"E034", by decide +kernel⟩ := by decide +kernel
  have hassigned : Code.parse? " E059" = .ok ⟨"E059", by decide +kernel⟩ := by decide +kernel
  have hlowercase : Code.parse? " e057 " = .error ⟨" e057 "⟩ := by decide +kernel
  obtain ⟨-, htold, -⟩ := ofConfig?_decided_by_entries
    { deny := ["E999"], allow := ["E057", " e057 "] }
  obtain ⟨haccepted, -, hpolicies⟩ := ofConfig?_decided_by_entries
    { deny := [" E059"], allow := ["E057", "E034"] }
  obtain ⟨policy, hpolicy⟩ := haccepted.mpr (by
    simp only [List.cons_append, List.nil_append, List.forall_mem_cons]
    exact ⟨hknown _ ⟨_, hundeclared⟩, hknown _ ⟨_, hredeclared⟩, hknown _ ⟨_, hassigned⟩, by simp⟩)
  obtain ⟨hseverity, hother⟩ := hpolicies policy hpolicy
  obtain ⟨policy', hpolicy', halike, -⟩ :=
    hother { deny := [" E059"], allow := ["E034", "E057", "E034"] }
      (fun entry ↦ by simp [or_comm]) (fun entry ↦ Iff.rfl)
  refine ⟨(htold ⟨" e057 "⟩).mpr ⟨["E057"], ["E999"], rfl, ?_, ?_⟩, policy, policy', hpolicy,
    hpolicy', halike, fun kind hkind ↦ ?_⟩
  · exact List.forall_mem_singleton.mpr (hknown _ ⟨_, hundeclared⟩)
  · exact (Code.parse?_eq_error_iff.mp hlowercase).1
  · have htrim : ¬ ∃ entry ∈ ["E057", "E034"], kind.NamedBy entry := by
      simp only [namedBy_iff_of_namedBy hkind, List.mem_cons, List.not_mem_nil, or_false,
        exists_eq_or_imp, exists_eq_left]
      decide +kernel
    have hdenied : ∃ entry ∈ [" E059"], kind.NamedBy entry := by
      refine ⟨" E059", List.mem_singleton.mpr rfl, (namedBy_iff_of_namedBy hkind).mpr ?_⟩
      decide +kernel
    rw [hseverity kind, if_neg htrim, if_pos hdenied]

end Policy

end LintCore
