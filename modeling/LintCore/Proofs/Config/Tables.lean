import LintCore.Config.Document
import LintCore.Proofs.Toml.Keys

/-!
# The tables of a configuration

Which documents are configurations, and which configurations they are, is said here without a
reader. A table of a configuration has entries under the keys that it knows and no others, each with
a value of the sort that belongs to the key (`LintConfig.Shaped`, `EventLoopConfig.Shaped`,
`Config.Shaped`). The configuration takes from it the values under its keys, and what the document
leaves out is as in the empty configuration (`Toml.Gives`, `Config.GivenBy`).

Reading goes through the entries one by one. Whether an entry is taken in does not depend on those
before it (`Toml.exists_foldlM_iff`), and as no key comes twice, no entry undoes what another one
did (`Toml.gives_of_foldlM`). So the readers find just the configurations described
(`Config.ofToml_eq_ok_iff`). Tables inside the document must not be given as arrays: those are read,
too, but are no tables.
-/

set_option autoImplicit false
set_option relaxedAutoImplicit false

namespace LintCore

open Shape

/-! ### The entries of a table -/

namespace Toml

/-- What the entries of a table say about a key: the value under it is of the sort that belongs to
`a`, or there is none and `a` is the default. -/
def Gives {α : Type} (entries : List (String × Toml)) (key : String) (sort : α → Toml → Prop)
    (default a : α) : Prop :=
  (∀ value, (key, value) ∈ entries → sort a value) ∧
    ((∀ value, (key, value) ∉ entries) → a = default)

section Gives

variable {α : Type} {entries : List (String × Toml)} {key : String} {sort : α → Toml → Prop}
  {default : α}

theorem Gives.unique (hsort : ∀ a b value, sort a value → sort b value → a = b) {a b : α}
    (ha : Gives entries key sort default a) (hb : Gives entries key sort default b) : a = b := by
  by_cases hkey : ∃ value, (key, value) ∈ entries
  · obtain ⟨value, hvalue⟩ := hkey
    exact hsort a b value (ha.1 value hvalue) (hb.1 value hvalue)
  · rw [ha.2 (not_exists.mp hkey), hb.2 (not_exists.mp hkey)]

theorem Gives.mono {sort' : α → Toml → Prop} {a : α}
    (hsort : ∀ value, (key, value) ∈ entries → sort a value → sort' a value)
    (ha : Gives entries key sort default a) : Gives entries key sort' default a :=
  ⟨fun value hvalue ↦ hsort value hvalue (ha.1 value hvalue), ha.2⟩

end Gives

section Fold

variable {σ : Type} {set : σ → String → Toml → Except Mismatch σ} {entries : List (String × Toml)}
  {start result : σ}

/-- If each entry can be taken in or not whatever was taken in before it, the entries are read if
each of them can. -/
theorem exists_foldlM_iff {fits : String × Toml → Prop}
    (hset : ∀ config, ∀ entry ∈ entries,
      (∃ later, set config entry.1 entry.2 = .ok later) ↔ fits entry) :
    (∃ result, entries.foldlM (fun config entry ↦ set config entry.1 entry.2) start = .ok result) ↔
      ∀ entry ∈ entries, fits entry := by
  induction entries generalizing start with
  | nil => exact iff_of_true ⟨start, rfl⟩ nofun
  | cons entry rest ih =>
    have hrest (later : σ) : (∃ result,
        rest.foldlM (fun config entry ↦ set config entry.1 entry.2) later = .ok result) ↔
          ∀ entry ∈ rest, fits entry :=
      ih fun config other hother ↦ hset config other (List.mem_cons_of_mem _ hother)
    simp only [List.foldlM_cons, bind_eq_ok_iff, List.forall_mem_cons]
    rw [← hset start entry List.mem_cons_self]
    constructor
    · rintro ⟨result, later, hlater, hresult⟩
      exact ⟨⟨later, hlater⟩, (hrest later).mp ⟨result, hresult⟩⟩
    · rintro ⟨⟨later, hlater⟩, hfits⟩
      obtain ⟨result, hresult⟩ := (hrest later).mpr hfits
      exact ⟨result, later, hlater, hresult⟩

/-- A field that is set by the entry of one key and kept by all others ends up as the entries give
it. -/
theorem gives_of_foldlM {α : Type} (field : σ → α) {key : String} {sort : α → Toml → Prop}
    (hsame : ∀ config later value, set config key value = .ok later → sort (field later) value)
    (hother : ∀ config later other value, other ≠ key → set config other value = .ok later →
      field later = field config)
    (hnodup : (entries.map Prod.fst).Nodup)
    (hresult :
      entries.foldlM (fun config entry ↦ set config entry.1 entry.2) start = .ok result) :
    Gives entries key sort (field start) (field result) := by
  induction entries generalizing start with
  | nil =>
    cases hresult
    exact ⟨nofun, fun _ ↦ rfl⟩
  | cons entry rest ih =>
    obtain ⟨name, first⟩ := entry
    rw [List.foldlM_cons, bind_eq_ok_iff] at hresult
    obtain ⟨later, hlater, hresult⟩ := hresult
    obtain ⟨hname, hnodup⟩ := List.nodup_cons.mp hnodup
    obtain ⟨hsort, hdefault⟩ := ih hnodup hresult
    by_cases hkey : name = key
    · subst hkey
      -- The key comes only once, so the entries behind it leave the field as it is.
      have hrest (value : Toml) : (name, value) ∉ rest :=
        fun hvalue ↦ hname (List.mem_map.mpr ⟨_, hvalue, rfl⟩)
      refine ⟨fun value hvalue ↦ ?_, fun hnone ↦ absurd List.mem_cons_self (hnone first)⟩
      cases (List.mem_cons.mp hvalue).resolve_right (hrest value)
      rw [hdefault hrest]
      exact hsame start later first hlater
    · have hmem (value : Toml) : (key, value) ∈ (name, first) :: rest ↔ (key, value) ∈ rest := by
        rw [List.mem_cons, Prod.mk.injEq]
        exact or_iff_right fun heq ↦ hkey heq.1.symm
      simp only [Gives, hmem]
      exact ⟨hsort, fun hnone ↦ (hdefault hnone).trans (hother start later name first hkey hlater)⟩

end Fold

/-! ### Values -/

theorem text_eq_ok_iff {value : Toml} {word : String} :
    value.text = .ok word ↔ value = .string word := by
  cases value with
  | string value => rw [text, Except.ok.injEq, string.injEq]
  | _ => exact iff_of_false nofun nofun

theorem mapM_text_eq_ok_iff {items : List Toml} {words : List String} :
    items.mapM text = .ok words ↔ items = words.map .string := by
  induction items generalizing words with
  | nil =>
    rw [eq_comm (a := []), List.map_eq_nil_iff, List.mapM_nil]
    exact ⟨fun h ↦ (Except.ok.inj h).symm, fun h ↦ h ▸ rfl⟩
  | cons item rest ih =>
    simp only [List.mapM_cons, bind_eq_ok_iff, text_eq_ok_iff, ih, eq_comm (a := item :: rest),
      List.map_eq_cons_iff]
    constructor
    · rintro ⟨word, rfl, others, rfl, h⟩
      cases h
      exact ⟨word, others, rfl, rfl, rfl⟩
    · rintro ⟨word, others, rfl, rfl, rfl⟩
      exact ⟨word, rfl, others, rfl, rfl⟩

theorem texts_eq_ok_iff {value : Toml} {words : List String} :
    value.texts = .ok words ↔ value = .array (words.map .string) := by
  cases value with
  | array items => rw [texts, mapM_text_eq_ok_iff, array.injEq]
  | _ => exact iff_of_false nofun nofun

theorem size_eq_ok_iff {value : Toml} {number : Nat} :
    value.size = .ok number ↔ value = .integer number := by
  cases value with
  | integer value =>
    rw [size, integer.injEq]
    split_ifs with hnonneg
    · rw [Except.ok.injEq]
      omega
    · refine iff_of_false nofun ?_
      omega
  | _ => exact iff_of_false nofun nofun

end Toml

/-! ### The lists of codes -/

namespace LintConfig

/-- A table with no keys but `deny` and `allow`, each with an array of strings. -/
def Shaped : Toml → Prop
  | .table entries => ∀ entry ∈ entries, (entry.1 = "deny" ∨ entry.1 = "allow") ∧
      ∃ codes : List String, entry.2 = .array (codes.map .string)
  | _ => False

/-- The lists have the strings of the arrays, in order. A list that is left out is empty. -/
def GivenBy (lint : LintConfig) : Toml → Prop
  | .table entries =>
    Toml.Gives entries "deny" (fun codes value ↦ value = .array (codes.map .string)) [] lint.deny ∧
      Toml.Gives entries "allow" (fun codes value ↦ value = .array (codes.map .string)) []
        lint.allow
  | _ => False

theorem set_eq_ok_iff {config later : LintConfig} {key : String} {value : Toml} :
    config.set key value = .ok later ↔
      (key = "deny" ∧
        ∃ deny, value = .array (deny.map .string) ∧ { config with deny } = later) ∨
      (key = "allow" ∧
        ∃ allow, value = .array (allow.map .string) ∧ { config with allow } = later) := by
  have hkeys : "allow" ≠ "deny" := by decide
  unfold set
  split_ifs with hdeny hallow
  · rw [map_eq_ok_iff]
    simp only [Toml.texts_eq_ok_iff, hdeny, true_and, hkeys.symm, false_and, or_false]
  · rw [map_eq_ok_iff]
    simp only [Toml.texts_eq_ok_iff, hallow, true_and, hkeys, false_and, false_or]
  · simp only [hdeny, hallow, false_and, or_false]

theorem exists_set_iff {config : LintConfig} {key : String} {value : Toml} :
    (∃ later, config.set key value = .ok later) ↔
      (key = "deny" ∨ key = "allow") ∧
        ∃ codes : List String, value = .array (codes.map .string) := by
  simp only [set_eq_ok_iff]
  constructor
  · rintro ⟨later, ⟨hkey, codes, hvalue, -⟩ | ⟨hkey, codes, hvalue, -⟩⟩
    · exact ⟨.inl hkey, codes, hvalue⟩
    · exact ⟨.inr hkey, codes, hvalue⟩
  · rintro ⟨hkey | hkey, codes, hvalue⟩
    · exact ⟨_, .inl ⟨hkey, codes, hvalue, rfl⟩⟩
    · exact ⟨_, .inr ⟨hkey, codes, hvalue, rfl⟩⟩

theorem GivenBy.unique {lint other : LintConfig} {value : Toml} (hlint : lint.GivenBy value)
    (hother : other.GivenBy value) : lint = other := by
  have hcodes (codes others : List String) (value : Toml)
      (h : value = .array (codes.map .string)) (h' : value = .array (others.map .string)) :
      codes = others := by
    have hmap := Toml.array.inj (h.symm.trans h')
    exact List.map_injective_iff.mpr (fun _ _ ↦ Toml.string.inj) hmap
  cases value with
  | table entries =>
    obtain ⟨deny, allow⟩ := lint
    obtain ⟨deny', allow'⟩ := other
    rw [LintConfig.mk.injEq]
    exact ⟨hlint.1.unique hcodes hother.1, hlint.2.unique hcodes hother.2⟩
  | _ => exact hlint.elim

theorem ofToml_table (entries : List (String × Toml)) :
    ofToml (.table entries) =
      entries.foldlM (fun config entry ↦ config.set entry.1 entry.2) {} :=
  rfl

variable {value : Toml} (harray : ∀ items, value ≠ .array items)

include harray

theorem exists_ofToml_iff : (∃ lint, ofToml value = .ok lint) ↔ Shaped value := by
  cases value with
  | array items => exact absurd rfl (harray items)
  | table entries => exact Toml.exists_foldlM_iff fun _ _ _ ↦ exists_set_iff
  | _ => exact iff_of_false (fun ⟨_, hread⟩ ↦ nomatch hread) id

theorem givenBy_of_ofToml {lint : LintConfig} (hdistinct : value.Distinct)
    (hread : ofToml value = .ok lint) : lint.GivenBy value := by
  cases hdistinct with
  | array _ => exact absurd rfl (harray _)
  | table hnodup _ =>
    rw [ofToml_table] at hread
    constructor
    · refine Toml.gives_of_foldlM deny ?_ ?_ hnodup hread
      · intro config later value hset
        obtain ⟨-, codes, hvalue, rfl⟩ | ⟨hkey, -⟩ := set_eq_ok_iff.mp hset
        · exact hvalue
        · exact absurd hkey (by decide)
      · intro config later other value hne hset
        obtain ⟨hkey, -⟩ | ⟨-, codes, -, rfl⟩ := set_eq_ok_iff.mp hset
        · exact absurd hkey hne
        · rfl
    · refine Toml.gives_of_foldlM allow ?_ ?_ hnodup hread
      · intro config later value hset
        obtain ⟨hkey, -⟩ | ⟨-, codes, hvalue, rfl⟩ := set_eq_ok_iff.mp hset
        · exact absurd hkey (by decide)
        · exact hvalue
      · intro config later other value hne hset
        obtain ⟨-, codes, -, rfl⟩ | ⟨hkey, -⟩ := set_eq_ok_iff.mp hset
        · rfl
        · exact absurd hkey hne
  | _ => cases hread

end LintConfig

/-! ### The size of the buffer -/

namespace EventLoopConfig

/-- A table with no key but `read_buffer_size`, which has an integer that is not negative. -/
def Shaped : Toml → Prop
  | .table entries => ∀ entry ∈ entries, entry.1 = "read_buffer_size" ∧
      ∃ size : Nat, entry.2 = .integer size
  | _ => False

/-- The size is the integer. It is 1024 if it is left out. -/
def GivenBy (config : EventLoopConfig) : Toml → Prop
  | .table entries =>
    Toml.Gives entries "read_buffer_size" (fun size value ↦ value = .integer (Nat.cast size)) 1024
      config.readBufferSize
  | _ => False

theorem set_eq_ok_iff {config later : EventLoopConfig} {key : String} {value : Toml} :
    config.set key value = .ok later ↔
      key = "read_buffer_size" ∧ ∃ size : Nat, value = .integer size ∧ ⟨size⟩ = later := by
  unfold set
  split_ifs with hkey
  · rw [map_eq_ok_iff]
    simp only [Toml.size_eq_ok_iff, hkey, true_and]
  · simp only [hkey, false_and]

theorem exists_set_iff {config : EventLoopConfig} {key : String} {value : Toml} :
    (∃ later, config.set key value = .ok later) ↔
      key = "read_buffer_size" ∧ ∃ size : Nat, value = .integer size := by
  simp only [set_eq_ok_iff]
  constructor
  · rintro ⟨later, hkey, size, hvalue, -⟩
    exact ⟨hkey, size, hvalue⟩
  · rintro ⟨hkey, size, hvalue⟩
    exact ⟨_, hkey, size, hvalue, rfl⟩

theorem GivenBy.unique {config other : EventLoopConfig} {value : Toml}
    (hconfig : config.GivenBy value) (hother : other.GivenBy value) : config = other := by
  cases value with
  | table entries =>
    obtain ⟨size⟩ := config
    obtain ⟨size'⟩ := other
    rw [EventLoopConfig.mk.injEq]
    unfold GivenBy at hconfig hother
    exact hconfig.unique (fun _ _ _ h h' ↦ Int.ofNat.inj (Toml.integer.inj (h.symm.trans h')))
      hother
  | _ => exact hconfig.elim

theorem ofToml_table (entries : List (String × Toml)) :
    ofToml (.table entries) =
      entries.foldlM (fun config entry ↦ config.set entry.1 entry.2) {} :=
  rfl

variable {value : Toml} (harray : ∀ items, value ≠ .array items)

include harray

theorem exists_ofToml_iff : (∃ config, ofToml value = .ok config) ↔ Shaped value := by
  cases value with
  | array items => exact absurd rfl (harray items)
  | table entries => exact Toml.exists_foldlM_iff fun _ _ _ ↦ exists_set_iff
  | _ => exact iff_of_false (fun ⟨_, hread⟩ ↦ nomatch hread) id

theorem givenBy_of_ofToml {config : EventLoopConfig} (hdistinct : value.Distinct)
    (hread : ofToml value = .ok config) : config.GivenBy value := by
  cases hdistinct with
  | array _ => exact absurd rfl (harray _)
  | table hnodup _ =>
    rw [ofToml_table] at hread
    unfold GivenBy
    refine Toml.gives_of_foldlM readBufferSize ?_ ?_ hnodup hread
    · intro config later value hset
      obtain ⟨-, size, hvalue, rfl⟩ := set_eq_ok_iff.mp hset
      exact hvalue
    · intro config later other value hne hset
      exact absurd (set_eq_ok_iff.mp hset).1 hne
  | _ => cases hread

end EventLoopConfig

/-! ### The document -/

namespace Config

/-- A table with no keys but `lint` and `event_loop`, each with a table of its own shape. -/
def Shaped : Toml → Prop
  | .table entries => ∀ entry ∈ entries, entry.1 = "lint" ∧ LintConfig.Shaped entry.2 ∨
      entry.1 = "event_loop" ∧ EventLoopConfig.Shaped entry.2
  | _ => False

/-- The two parts are as their tables give them. A table that is left out gives no codes or a size
of 1024. -/
def GivenBy (config : Config) : Toml → Prop
  | .table entries =>
    Toml.Gives entries "lint" LintConfig.GivenBy { deny := [], allow := [] } config.lint ∧
      Toml.Gives entries "event_loop" EventLoopConfig.GivenBy { readBufferSize := 1024 }
        config.eventLoop
  | _ => False

/-- Neither table inside the document is given as an array. -/
def WithoutArrays : Toml → Prop
  | .table entries =>
    ∀ items, ("lint", .array items) ∉ entries ∧ ("event_loop", .array items) ∉ entries
  | _ => True

theorem set_eq_ok_iff {config later : Config} {key : String} {value : Toml} :
    config.set key value = .ok later ↔
      (key = "lint" ∧
        ∃ lint, LintConfig.ofToml value = .ok lint ∧ { config with lint } = later) ∨
      (key = "event_loop" ∧
        ∃ eventLoop, EventLoopConfig.ofToml value = .ok eventLoop ∧
          { config with eventLoop } = later) := by
  have hkeys : "event_loop" ≠ "lint" := by decide
  unfold set
  split_ifs with hlint hloop
  · simp only [map_eq_ok_iff, hlint, true_and, hkeys.symm, false_and, or_false]
  · simp only [map_eq_ok_iff, hloop, true_and, hkeys, false_and, false_or]
  · simp only [hlint, hloop, false_and, or_false]

theorem exists_set_iff {config : Config} {key : String} {value : Toml} :
    (∃ later, config.set key value = .ok later) ↔
      key = "lint" ∧ (∃ lint, LintConfig.ofToml value = .ok lint) ∨
        key = "event_loop" ∧ ∃ eventLoop, EventLoopConfig.ofToml value = .ok eventLoop := by
  simp only [set_eq_ok_iff]
  constructor
  · rintro ⟨later, ⟨hkey, lint, hlint, -⟩ | ⟨hkey, eventLoop, hloop, -⟩⟩
    · exact .inl ⟨hkey, lint, hlint⟩
    · exact .inr ⟨hkey, eventLoop, hloop⟩
  · rintro (⟨hkey, lint, hlint⟩ | ⟨hkey, eventLoop, hloop⟩)
    · exact ⟨_, .inl ⟨hkey, lint, hlint, rfl⟩⟩
    · exact ⟨_, .inr ⟨hkey, eventLoop, hloop, rfl⟩⟩

theorem GivenBy.unique {config other : Config} {document : Toml} (hconfig : config.GivenBy document)
    (hother : other.GivenBy document) : config = other := by
  cases document with
  | table entries =>
    obtain ⟨lint, eventLoop⟩ := config
    obtain ⟨lint', eventLoop'⟩ := other
    rw [Config.mk.injEq]
    exact ⟨hconfig.1.unique (fun _ _ _ h h' ↦ h.unique h') hother.1,
      hconfig.2.unique (fun _ _ _ h h' ↦ h.unique h') hother.2⟩
  | _ => exact hconfig.elim

theorem ofToml_table (entries : List (String × Toml)) :
    ofToml (.table entries) =
      entries.foldlM (fun config entry ↦ config.set entry.1 entry.2) {} :=
  rfl

variable {document : Toml} (harrays : WithoutArrays document)

include harrays

theorem exists_ofToml_iff : (∃ config, ofToml document = .ok config) ↔ Shaped document := by
  cases document with
  | table entries =>
    simp only [ofToml_table, Shaped]
    refine Toml.exists_foldlM_iff fun config entry hentry ↦ ?_
    obtain ⟨key, value⟩ := entry
    have hlint (hkey : key = "lint") :
        (∃ lint, LintConfig.ofToml value = .ok lint) ↔ LintConfig.Shaped value := by
      subst hkey
      exact LintConfig.exists_ofToml_iff fun items heq ↦ (harrays items).1 (heq ▸ hentry)
    have hloop (hkey : key = "event_loop") :
        (∃ part, EventLoopConfig.ofToml value = .ok part) ↔ EventLoopConfig.Shaped value := by
      subst hkey
      exact EventLoopConfig.exists_ofToml_iff fun items heq ↦ (harrays items).2 (heq ▸ hentry)
    exact exists_set_iff.trans (or_congr (and_congr_right hlint) (and_congr_right hloop))
  | _ => exact iff_of_false (fun ⟨_, hread⟩ ↦ nomatch hread) id

theorem givenBy_of_ofToml {config : Config} (hdistinct : document.Distinct)
    (hread : ofToml document = .ok config) : config.GivenBy document := by
  cases hdistinct with
  | @table entries hnodup hvalues =>
    rw [ofToml_table] at hread
    constructor
    · have hlint : Toml.Gives entries "lint" (fun part value ↦ LintConfig.ofToml value = .ok part)
          {} config.lint := by
        refine Toml.gives_of_foldlM lint ?_ ?_ hnodup hread
        · intro config later value hset
          obtain ⟨-, part, hpart, rfl⟩ | ⟨hkey, -⟩ := set_eq_ok_iff.mp hset
          · exact hpart
          · exact absurd hkey (by decide)
        · intro config later other value hne hset
          obtain ⟨hkey, -⟩ | ⟨-, part, -, rfl⟩ := set_eq_ok_iff.mp hset
          · exact absurd hkey hne
          · rfl
      exact hlint.mono fun value hvalue ↦ LintConfig.givenBy_of_ofToml
        (fun items heq ↦ (harrays items).1 (heq ▸ hvalue)) (hvalues _ hvalue)
    · have hloop : Toml.Gives entries "event_loop"
          (fun part value ↦ EventLoopConfig.ofToml value = .ok part) {} config.eventLoop := by
        refine Toml.gives_of_foldlM eventLoop ?_ ?_ hnodup hread
        · intro config later value hset
          obtain ⟨hkey, -⟩ | ⟨-, part, hpart, rfl⟩ := set_eq_ok_iff.mp hset
          · exact absurd hkey (by decide)
          · exact hpart
        · intro config later other value hne hset
          obtain ⟨-, part, -, rfl⟩ | ⟨hkey, -⟩ := set_eq_ok_iff.mp hset
          · rfl
          · exact absurd hkey hne
      exact hloop.mono fun value hvalue ↦ EventLoopConfig.givenBy_of_ofToml
        (fun items heq ↦ (harrays items).2 (heq ▸ hvalue)) (hvalues _ hvalue)
  | _ => cases hread

/-- A document is read if it has the shape of a configuration, and as the configuration that it
gives. -/
theorem ofToml_eq_ok_iff {config : Config} (hdistinct : document.Distinct) :
    ofToml document = .ok config ↔ Shaped document ∧ config.GivenBy document := by
  constructor
  · exact fun hread ↦
      ⟨(exists_ofToml_iff harrays).mp ⟨config, hread⟩, givenBy_of_ofToml harrays hdistinct hread⟩
  · rintro ⟨hshaped, hconfig⟩
    obtain ⟨other, hread⟩ := (exists_ofToml_iff harrays).mpr hshaped
    rw [hread, hconfig.unique (givenBy_of_ofToml harrays hdistinct hread)]

end Config

end LintCore
