import LintCore.Toml.Reader
import Mathlib.Data.List.Nodup

/-!
# The keys of a document

No table of a document that has been read has two entries with one key (`Toml.Distinct`), however
deep it lies: `distinct_of_parse?`. While a document is read, tables lose entries, get entries with
new keys and have entries replaced under the keys that they have. `Node.Distinct.modifyAt` carries
such a change up from the end of a path. Inline tables are read by functions that call each other,
so `ReadsDistinct` takes them together, by induction on their fuel; each line then leaves the draft
distinct (`Draft.Distinct.line?`).
-/

set_option autoImplicit false
set_option relaxedAutoImplicit false

namespace LintCore.Toml

/-- No table in the value has two entries with one key. -/
inductive Distinct : Toml → Prop
  | string (value : String) : Distinct (.string value)
  | integer (value : Int) : Distinct (.integer value)
  | float (value : Binary64) : Distinct (.float value)
  | boolean (value : Bool) : Distinct (.boolean value)
  | dateTime : Distinct .dateTime
  | array {items : List Toml} : (∀ item ∈ items, Distinct item) → Distinct (.array items)
  | table {entries : List (String × Toml)} : (entries.map Prod.fst).Nodup →
    (∀ entry ∈ entries, Distinct entry.2) → Distinct (.table entries)

namespace Node

/-- The entries of a table, once the document has been read, are distinct. -/
def Distinct (entries : Entries) : Prop := (Toml.table (toValues entries)).Distinct

theorem toValues_eq_map (entries : Entries) :
    toValues entries = entries.map fun entry ↦ (entry.1, toValue entry.2) := by
  induction entries with
  | nil => rfl
  | cons entry rest ih => rw [toValues, ih, List.map_cons]

theorem toTables_eq_map (items : List Entries) :
    toTables items = items.map fun entries ↦ .table (toValues entries) := by
  induction items with
  | nil => rfl
  | cons entries rest ih => rw [toTables, ih, List.map_cons]

theorem distinct_iff {entries : Entries} :
    Distinct entries ↔
      (entries.map Prod.fst).Nodup ∧ ∀ entry ∈ entries, (toValue entry.2).Distinct := by
  have hkeys : (toValues entries).map Prod.fst = entries.map Prod.fst := by
    rw [toValues_eq_map, List.map_map]
    rfl
  constructor
  · rintro (_ | _ | _ | _ | _ | _ | ⟨hnodup, hvalues⟩)
    rw [toValues_eq_map, List.forall_mem_map] at hvalues
    exact ⟨hkeys ▸ hnodup, hvalues⟩
  · rintro ⟨hnodup, hvalues⟩
    refine .table (hkeys ▸ hnodup) ?_
    rw [toValues_eq_map, List.forall_mem_map]
    exact hvalues

theorem distinct_nil : Distinct [] := .table List.nodup_nil nofun

theorem distinct_tables_iff {items : List Entries} :
    (toValue (.tables items)).Distinct ↔ ∀ entries ∈ items, Distinct entries := by
  rw [toValue, toTables_eq_map]
  constructor
  · rintro (_ | _ | _ | _ | _ | hitems | _)
    rw [List.forall_mem_map] at hitems
    exact hitems
  · exact fun hitems ↦ .array (List.forall_mem_map.mpr hitems)

theorem mem_of_get? {key : String} {node : Node} {entries : Entries}
    (hnode : get? key entries = some node) : (key, node) ∈ entries := by
  induction entries with
  | nil => cases hnode
  | cons entry rest ih =>
    obtain ⟨name, first⟩ := entry
    rw [get?] at hnode
    split_ifs at hnode with hname
    · cases hnode
      exact hname ▸ List.mem_cons_self
    · exact List.mem_cons_of_mem _ (ih hnode)

theorem not_mem_of_get? {key : String} {entries : Entries} (hnone : get? key entries = none) :
    key ∉ entries.map Prod.fst := by
  induction entries with
  | nil => exact List.not_mem_nil
  | cons entry rest ih =>
    obtain ⟨name, first⟩ := entry
    rw [get?] at hnone
    split_ifs at hnone with hname
    exact List.not_mem_cons_of_ne_of_not_mem (Ne.symm hname) (ih hnone)

theorem map_fst_replace (key : String) (node : Node) (entries : Entries) :
    (Node.replace key node entries).map Prod.fst = entries.map Prod.fst := by
  induction entries with
  | nil => rfl
  | cons entry rest ih =>
    obtain ⟨name, first⟩ := entry
    rw [Node.replace]
    split_ifs
    · rfl
    · exact congrArg (name :: ·) ih

theorem snd_eq_or_mem_of_mem_replace {key : String} {node : Node} {entries : Entries}
    {entry : String × Node} (hentry : entry ∈ Node.replace key node entries) :
    entry.2 = node ∨ entry ∈ entries := by
  induction entries with
  | nil => cases hentry
  | cons old rest ih =>
    obtain ⟨name, first⟩ := old
    rw [Node.replace] at hentry
    split_ifs at hentry with hname
    · rcases List.mem_cons.mp hentry with rfl | hrest
      · exact .inl rfl
      · exact .inr (List.mem_cons_of_mem _ hrest)
    · rcases List.mem_cons.mp hentry with rfl | hrest
      · exact .inr List.mem_cons_self
      · exact (ih hrest).imp_right (List.mem_cons_of_mem _)

/-! ### Changes to a table -/

section Change

variable {key : String} {node : Node} {entries : Entries} (hentries : Distinct entries)

include hentries

theorem Distinct.get (hnode : get? key entries = some node) : (toValue node).Distinct :=
  (distinct_iff.mp hentries).2 _ (mem_of_get? hnode)

/-- An entry with a new key. -/
theorem Distinct.concat (hnone : get? key entries = none) (hnode : (toValue node).Distinct) :
    Distinct (entries ++ [(key, node)]) := by
  obtain ⟨hnodup, hvalues⟩ := distinct_iff.mp hentries
  refine distinct_iff.mpr ⟨?_, List.forall_mem_append.mpr ⟨hvalues, ?_⟩⟩
  · rw [List.map_append, List.map_singleton, ← List.concat_eq_append]
    exact hnodup.concat (not_mem_of_get? hnone)
  · exact List.forall_mem_singleton.mpr hnode

theorem Distinct.replace (hnode : (toValue node).Distinct) :
    Distinct (Node.replace key node entries) := by
  obtain ⟨hnodup, hvalues⟩ := distinct_iff.mp hentries
  refine distinct_iff.mpr ⟨?_, fun entry hentry ↦ ?_⟩
  · rw [map_fst_replace]
    exact hnodup
  · rcases snd_eq_or_mem_of_mem_replace hentry with heq | hmem
    · exact heq ▸ hnode
    · exact hvalues entry hmem

theorem Distinct.erase : Distinct (Node.erase key entries) := by
  obtain ⟨hnodup, hvalues⟩ := distinct_iff.mp hentries
  refine distinct_iff.mpr ⟨?_, fun entry hentry ↦ hvalues entry (List.mem_of_mem_filter hentry)⟩
  exact hnodup.sublist ((List.filter_sublist).map Prod.fst)

end Change

/-- A change at the end of a path keeps keys apart if the change itself does. -/
theorem Distinct.modifyAt {α : Type} (Good : α → Prop) {dottedPath : Bool}
    {change : Origin → Entries → Option (α × Entries)}
    (hchange : ∀ origin entries result later, change origin entries = some (result, later) →
      Distinct entries → Good result ∧ Distinct later)
    {path : List String} {origin : Origin} {entries : Entries} {result : α} {later : Entries}
    (hmodify : Node.modifyAt dottedPath change path origin entries = some (result, later))
    (hentries : Distinct entries) : Good result ∧ Distinct later := by
  induction path generalizing origin entries later with
  | nil => exact hchange origin entries result later hmodify hentries
  | cons key path ih =>
    rw [Node.modifyAt] at hmodify
    split at hmodify
    · next hnone =>
      obtain ⟨⟨_, inner⟩, hinner, heq⟩ := Option.bind_eq_some_iff.mp hmodify
      cases heq
      obtain ⟨hresult, hlater⟩ := ih hinner distinct_nil
      exact ⟨hresult, hentries.concat hnone hlater⟩
    · cases hmodify
    · next origin' inner hget =>
      split_ifs at hmodify
      obtain ⟨⟨_, inner'⟩, hinner, heq⟩ := Option.bind_eq_some_iff.mp hmodify
      cases heq
      obtain ⟨hresult, hlater⟩ := ih hinner (hentries.get hget)
      exact ⟨hresult, hentries.replace hlater⟩
    · next items hget =>
      obtain ⟨last, hlast, hmodify⟩ := Option.bind_eq_some_iff.mp hmodify
      obtain ⟨⟨_, last'⟩, hinner, heq⟩ := Option.bind_eq_some_iff.mp hmodify
      cases heq
      have hitems := distinct_tables_iff.mp (hentries.get hget)
      obtain ⟨hresult, hlater⟩ := ih hinner (hitems last (List.mem_of_getLast? hlast))
      refine ⟨hresult, hentries.replace (distinct_tables_iff.mpr ?_)⟩
      refine List.forall_mem_append.mpr
        ⟨fun entries hmem ↦ ?_, List.forall_mem_singleton.mpr hlater⟩
      exact hitems entries ((List.dropLast_sublist items).subset hmem)

/-- The same for a change of which only the changed document is kept. -/
theorem Distinct.map_modifyAt {dottedPath : Bool}
    {change : Origin → Entries → Option (Unit × Entries)}
    (hchange : ∀ origin entries later, change origin entries = some ((), later) →
      Distinct entries → Distinct later)
    {path : List String} {origin : Origin} {entries later : Entries}
    (hmodify : (Node.modifyAt dottedPath change path origin entries).map Prod.snd = some later)
    (hentries : Distinct entries) : Distinct later := by
  obtain ⟨⟨_, _⟩, hwhole, rfl⟩ := Option.map_eq_some_iff.mp hmodify
  exact (hentries.modifyAt (fun _ ↦ True)
    (fun origin entries _ later h hdistinct ↦ ⟨trivial, hchange origin entries later h hdistinct⟩)
    hwhole).2

theorem Distinct.assign {path : List String} {key : String} {value : Toml} {entries later : Entries}
    (hassign : Node.assign path key value entries = some later) (hvalue : value.Distinct)
    (hentries : Distinct entries) : Distinct later := by
  refine hentries.map_modifyAt (fun origin entries later hinsert hdistinct ↦ ?_) hassign
  rw [insertNew] at hinsert
  split_ifs at hinsert with hplain hfound
  cases hinsert
  exact hdistinct.concat (Option.not_isSome_iff_eq_none.mp hfound) hvalue

end Node

/-! ### Values -/

theorem distinct_unsignedIn? {base : Nat} {isDigit : Char → Bool} {text : List Char} {value : Toml}
    (h : unsignedIn? base isDigit text = some value) : value.Distinct := by
  obtain ⟨digits, -, h⟩ := Option.bind_eq_some_iff.mp h
  obtain ⟨number, -, h⟩ := Option.bind_eq_some_iff.mp h
  split_ifs at h
  cases h
  exact .integer _

theorem distinct_decimalInteger? {negative : Bool} {text : List Char} {value : Toml}
    (h : decimalInteger? negative text = some value) : value.Distinct := by
  obtain ⟨digits, -, h⟩ := Option.bind_eq_some_iff.mp h
  dsimp only at h
  split_ifs at h
  all_goals
    cases h
    exact .integer _

theorem distinct_decimalFloat? {negative : Bool} {text : List Char} {value : Toml}
    (h : decimalFloat? negative text = some value) : value.Distinct := by
  unfold decimalFloat? at h
  -- Reading goes on in one way behind an exponent and behind none, and so behind the places.
  extract_lets mantissa withPower at h
  have hpower (power : Int) (h : withPower power = some value) : value.Distinct := by
    obtain ⟨whole, -, h⟩ := Option.bind_eq_some_iff.mp h
    extract_lets withPlaces at h
    have hplaces (places : List Char) (h : withPlaces places = some value) : value.Distinct := by
      dsimp only [withPlaces] at h
      split_ifs at h
      cases h
      exact .float _
    split at h
    all_goals
      obtain ⟨places, -, h⟩ := Option.bind_eq_some_iff.mp h
      exact hplaces places h
  split at h
  all_goals
    obtain ⟨power, -, h⟩ := Option.bind_eq_some_iff.mp h
    exact hpower power h

theorem distinct_number? {negative : Bool} {word : List Char} {value : Toml}
    (h : number? negative word = some value) : value.Distinct := by
  rw [number?] at h
  split_ifs at h
  · cases h
    exact .float _
  · cases h
    exact .float _
  · exact distinct_decimalFloat? h
  · exact distinct_decimalInteger? h

theorem distinct_word? {word : List Char} {value : Toml} (h : word? word = some value) :
    value.Distinct := by
  unfold word? at h
  split at h
  · cases h
    exact .boolean true
  · cases h
    exact .boolean false
  · exact distinct_unsignedIn? h
  · exact distinct_unsignedIn? h
  · exact distinct_unsignedIn? h
  · exact distinct_number? h
  · exact distinct_number? h
  · exact distinct_number? h

theorem distinct_scalar? {text rest : List Char} {value : Toml}
    (h : scalar? text = some (value, rest)) : value.Distinct := by
  rw [scalar?] at h
  split_ifs at h
  all_goals
    obtain ⟨found, hfound, heq⟩ := Option.map_eq_some_iff.mp h
    cases heq
  · exact .dateTime
  · exact .dateTime
  · exact distinct_word? hfound

/-- What the readers of values make with so much fuel is distinct. -/
structure ReadsDistinct (fuel : Nat) : Prop where
  value {depth : Nat} {text rest : List Char} {value : Toml}
    (h : value? fuel depth text = some (value, rest)) : value.Distinct
  items {depth : Nat} {text rest : List Char} {items : List Toml}
    (h : items? fuel depth text = some (items, rest)) : ∀ item ∈ items, item.Distinct
  inlineTable {depth : Nat} {text rest : List Char} {entries : Entries}
    (h : inlineTable? fuel depth text = some (entries, rest)) : Node.Distinct entries
  inlineEntries {depth : Nat} {text rest : List Char} {entries later : Entries}
    (h : inlineEntries? fuel depth entries text = some (later, rest))
    (hentries : Node.Distinct entries) : Node.Distinct later

theorem readsDistinct_zero : ReadsDistinct 0 where
  value h := by
    rw [value?] at h
    cases h
  items h := by
    rw [items?] at h
    cases h
  inlineTable h := by
    rw [inlineTable?] at h
    cases h
  inlineEntries h _ := by
    rw [inlineEntries?] at h
    cases h

theorem ReadsDistinct.succ {fuel : Nat} (ih : ReadsDistinct fuel) : ReadsDistinct (fuel + 1) where
  value {depth text rest value} h := by
    unfold value? at h
    split at h
    · cases h
    · split_ifs at h
      · obtain ⟨⟨content, _⟩, -, heq⟩ := Option.map_eq_some_iff.mp h
        cases heq
        exact .string content
      · obtain ⟨⟨items, _⟩, hitems, heq⟩ := Option.map_eq_some_iff.mp h
        cases heq
        exact .array (ih.items hitems)
      · obtain ⟨⟨entries, _⟩, hentries, heq⟩ := Option.map_eq_some_iff.mp h
        cases heq
        exact ih.inlineTable hentries
      · exact distinct_scalar? h
  items {depth text rest items} h := by
    rw [items?] at h
    obtain ⟨text', -, h⟩ := Option.bind_eq_some_iff.mp h
    split at h
    · cases h
      exact List.forall_mem_nil _
    · obtain ⟨⟨item, _⟩, hitem, h⟩ := Option.bind_eq_some_iff.mp h
      obtain ⟨_, -, h⟩ := Option.bind_eq_some_iff.mp h
      have hfirst := ih.value hitem
      split at h
      · obtain ⟨⟨others, _⟩, hothers, h⟩ := Option.bind_eq_some_iff.mp h
        cases h
        exact List.forall_mem_cons.mpr ⟨hfirst, ih.items hothers⟩
      · cases h
        exact List.forall_mem_singleton.mpr hfirst
      · cases h
  inlineTable {depth text rest entries} h := by
    rw [inlineTable?] at h
    split at h
    · cases h
      exact Node.distinct_nil
    · exact ih.inlineEntries h Node.distinct_nil
  inlineEntries {depth text rest entries later} h hentries := by
    rw [inlineEntries?] at h
    obtain ⟨⟨⟨path, key⟩, _⟩, -, h⟩ := Option.bind_eq_some_iff.mp h
    obtain ⟨_, -, h⟩ := Option.bind_eq_some_iff.mp h
    obtain ⟨⟨value, _⟩, hvalue, h⟩ := Option.bind_eq_some_iff.mp h
    obtain ⟨assigned, hassigned, h⟩ := Option.bind_eq_some_iff.mp h
    have hdistinct := hentries.assign hassigned (ih.value hvalue)
    split at h
    · exact ih.inlineEntries h hdistinct
    · cases h
      exact hdistinct
    · cases h

theorem readsDistinct (fuel : Nat) : ReadsDistinct fuel := by
  induction fuel with
  | zero => exact readsDistinct_zero
  | succ fuel ih => exact ih.succ

/-! ### Documents -/

namespace Draft

/-- The table under the last header and all before it are distinct. -/
structure Distinct (draft : Draft) : Prop where
  root : Node.Distinct draft.root
  current : Node.Distinct draft.current

theorem distinct_empty : Distinct {} := ⟨Node.distinct_nil, Node.distinct_nil⟩

variable {draft later : Draft} (hdraft : draft.Distinct)

include hdraft

theorem Distinct.close {entries : Entries} (hclose : draft.close = some entries) :
    Node.Distinct entries := by
  rw [Draft.close] at hclose
  split at hclose
  · cases hclose
    exact hdraft.current
  · refine hdraft.root.map_modifyAt (fun origin entries later hput hdistinct ↦ ?_) hclose
    split at hput
    · next hnone =>
      split_ifs at hput
      · cases hput
        exact hdistinct.concat hnone
          (Node.distinct_tables_iff.mpr (List.forall_mem_singleton.mpr hdraft.current))
      · cases hput
        exact hdistinct.concat hnone hdraft.current
    · next items hget =>
      split_ifs at hput
      cases hput
      have hitems := Node.distinct_tables_iff.mp (hdistinct.get hget)
      exact hdistinct.replace (Node.distinct_tables_iff.mpr
        (List.forall_mem_append.mpr ⟨hitems, List.forall_mem_singleton.mpr hdraft.current⟩))
    · cases hput

theorem Distinct.openTable {path : List String} {key : String}
    (hopen : draft.openTable path key = some later) : later.Distinct := by
  obtain ⟨root, hroot, hopen⟩ := Option.bind_eq_some_iff.mp hopen
  obtain ⟨⟨current, root'⟩, htake, hopen⟩ := Option.bind_eq_some_iff.mp hopen
  cases hopen
  have htaken : Node.Distinct current ∧ Node.Distinct root' := by
    refine (hdraft.close hroot).modifyAt Node.Distinct
      (fun origin entries result later htake hdistinct ↦ ?_) htake
    split at htake
    · cases htake
      exact ⟨Node.distinct_nil, hdistinct⟩
    · next inner hget =>
      cases htake
      exact ⟨hdistinct.get hget, hdistinct.erase⟩
    · cases htake
  exact ⟨htaken.2, htaken.1⟩

theorem Distinct.openItem {path : List String} {key : String}
    (hopen : draft.openItem path key = some later) : later.Distinct := by
  obtain ⟨root, hroot, hopen⟩ := Option.bind_eq_some_iff.mp hopen
  obtain ⟨⟨_, root'⟩, hreserve, hopen⟩ := Option.bind_eq_some_iff.mp hopen
  cases hopen
  have hreserved : True ∧ Node.Distinct root' := by
    refine (hdraft.close hroot).modifyAt (fun _ ↦ True)
      (fun origin entries _ later hreserve hdistinct ↦ ⟨trivial, ?_⟩) hreserve
    split at hreserve
    · next hnone =>
      cases hreserve
      exact hdistinct.concat hnone (Node.distinct_tables_iff.mpr nofun)
    · cases hreserve
      exact hdistinct
    · cases hreserve
  exact ⟨hreserved.2, Node.distinct_nil⟩

theorem Distinct.assign {path : List String} {key : String} {value : Toml}
    (hassign : draft.assign path key value = some later) (hvalue : value.Distinct) :
    later.Distinct := by
  obtain ⟨current, hcurrent, hassign⟩ := Option.bind_eq_some_iff.mp hassign
  cases hassign
  exact ⟨hdraft.root, hdraft.current.assign hcurrent hvalue⟩

theorem Distinct.header? {text rest : List Char} (h : header? draft text = some (later, rest)) :
    later.Distinct := by
  unfold Toml.header? at h
  split at h
  · obtain ⟨⟨⟨path, key⟩, _⟩, -, h⟩ := Option.bind_eq_some_iff.mp h
    obtain ⟨opened, hopened, h⟩ := Option.bind_eq_some_iff.mp h
    obtain ⟨_, -, h⟩ := Option.bind_eq_some_iff.mp h
    obtain ⟨_, -, h⟩ := Option.bind_eq_some_iff.mp h
    cases h
    exact hdraft.openItem hopened
  · obtain ⟨⟨⟨path, key⟩, _⟩, -, h⟩ := Option.bind_eq_some_iff.mp h
    obtain ⟨opened, hopened, h⟩ := Option.bind_eq_some_iff.mp h
    obtain ⟨_, -, h⟩ := Option.bind_eq_some_iff.mp h
    cases h
    exact hdraft.openTable hopened

theorem Distinct.line? {text rest : List Char} (h : line? draft text = some (later, rest)) :
    later.Distinct := by
  rw [Toml.line?] at h
  split at h
  · cases h
    exact hdraft
  · obtain ⟨⟨opened, _⟩, hopened, h⟩ := Option.bind_eq_some_iff.mp h
    obtain ⟨_, -, h⟩ := Option.bind_eq_some_iff.mp h
    cases h
    exact hdraft.header? hopened
  · split_ifs at h
    · obtain ⟨_, -, h⟩ := Option.bind_eq_some_iff.mp h
      cases h
      exact hdraft
    · obtain ⟨⟨⟨path, key⟩, _⟩, -, h⟩ := Option.bind_eq_some_iff.mp h
      obtain ⟨_, -, h⟩ := Option.bind_eq_some_iff.mp h
      obtain ⟨⟨value, _⟩, hvalue, h⟩ := Option.bind_eq_some_iff.mp h
      obtain ⟨assigned, hassigned, h⟩ := Option.bind_eq_some_iff.mp h
      obtain ⟨_, -, h⟩ := Option.bind_eq_some_iff.mp h
      cases h
      exact hdraft.assign hassigned ((readsDistinct _).value hvalue)

end Draft

/-- Each line of a document leaves its draft distinct, and so does the end of the document. -/
theorem distinct_of_lines? {fuel : Nat} {draft : Draft} {text : List Char} {document : Toml}
    (h : lines? fuel draft text = some document) (hdraft : draft.Distinct) :
    ∃ entries, document = .table entries ∧ document.Distinct := by
  induction fuel, draft, text using lines?.induct with
  | case1 fuel draft =>
    rw [lines?] at h
    obtain ⟨entries, hclose, rfl⟩ := Option.map_eq_some_iff.mp h
    exact ⟨_, rfl, hdraft.close hclose⟩
  | case2 draft text hlines =>
    rw [lines?] at h
    · cases h
    · exact hlines
  | case3 fuel draft text hlines ih =>
    rw [lines?] at h
    · obtain ⟨⟨later, rest⟩, hline, h⟩ := Option.bind_eq_some_iff.mp h
      exact ih _ _ h (hdraft.line? hline)
    · exact hlines

/-- A document that is read is a table, and no table in it has two entries with one key. -/
theorem distinct_of_parse? {text : String} {document : Toml} (h : parse? text = some document) :
    ∃ entries, document = .table entries ∧ document.Distinct :=
  distinct_of_lines? h Draft.distinct_empty

end LintCore.Toml
