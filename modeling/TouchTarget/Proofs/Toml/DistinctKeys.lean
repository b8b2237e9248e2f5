import Mathlib.Data.List.Nodup
import TouchTarget.Toml.Table

/-!
# Tables without repeated keys

However the headers and the keys with dots of a document follow one another, no table ever gets a
key twice. For most changes that is so because they look before they add. The table of a header is
different: it is taken out of its place while its lines are read, and put back without another look.
Two changes at one place are therefore read as one change, after which the look that was taken
before still counts.
-/

namespace TouchTarget.Toml

/-! ## Values and nodes -/

def Value.isScalar : Value → Bool
  | .array _ | .table _ => false
  | _ => true

/-- No table in the value has a key twice. -/
inductive Value.HasDistinctKeys : Value → Prop
  | scalar {value : Value} (h : value.isScalar) : HasDistinctKeys value
  | array {elements : List Value} (h : ∀ element ∈ elements, HasDistinctKeys element) :
    HasDistinctKeys (.array elements)
  | table {entries : List (String × Value)} (hkeys : (entries.map (·.1)).Nodup)
    (h : ∀ entry ∈ entries, HasDistinctKeys entry.2) : HasDistinctKeys (.table entries)

namespace Value.HasDistinctKeys

theorem of_mem_array {elements : List Value} (h : (Value.array elements).HasDistinctKeys)
    {element : Value} (hmem : element ∈ elements) : element.HasDistinctKeys := by
  cases h with
  | scalar h => cases h
  | array h => exact h element hmem

theorem nodup {entries : List (String × Value)} (h : (Value.table entries).HasDistinctKeys) :
    (entries.map (·.1)).Nodup := by
  cases h with
  | scalar h => cases h
  | table hkeys => exact hkeys

theorem of_mem_table {entries : List (String × Value)} (h : (Value.table entries).HasDistinctKeys)
    {entry : String × Value} (hmem : entry ∈ entries) : entry.2.HasDistinctKeys := by
  cases h with
  | scalar h => cases h
  | table _ h => exact h entry hmem

end Value.HasDistinctKeys

/-- No table in the node has a key twice. -/
inductive Node.HasDistinctKeys : Node → Prop
  | value {value : Value} (h : value.HasDistinctKeys) : HasDistinctKeys (.value value)
  | table {origin : Origin} {entries : List (String × Node)} (hkeys : (entries.map (·.1)).Nodup)
    (h : ∀ entry ∈ entries, HasDistinctKeys entry.2) : HasDistinctKeys (.table origin entries)
  | tables {elements : List (List (String × Node))}
    (hkeys : ∀ entries ∈ elements, (entries.map (·.1)).Nodup)
    (h : ∀ entries ∈ elements, ∀ entry ∈ entries, HasDistinctKeys entry.2) :
    HasDistinctKeys (.tables elements)

structure Entries.HasDistinctKeys (entries : Entries) : Prop where
  nodup : (entries.map (·.1)).Nodup
  nodes : ∀ entry ∈ entries, entry.2.HasDistinctKeys

theorem Node.HasDistinctKeys.of_table {origin : Origin} {entries : Entries}
    (h : (Node.table origin entries).HasDistinctKeys) : entries.HasDistinctKeys := by
  cases h with
  | table hkeys h => exact ⟨hkeys, h⟩

theorem Node.HasDistinctKeys.of_mem_tables {elements : List Entries}
    (h : (Node.tables elements).HasDistinctKeys) {entries : Entries} (hmem : entries ∈ elements) :
    entries.HasDistinctKeys := by
  cases h with
  | tables hkeys h => exact ⟨hkeys entries hmem, h entries hmem⟩

theorem Node.hasDistinctKeys_tables {elements : List Entries}
    (h : ∀ entries ∈ elements, entries.HasDistinctKeys) :
    (Node.tables elements).HasDistinctKeys :=
  .tables (fun entries hmem ↦ (h entries hmem).nodup) fun entries hmem ↦ (h entries hmem).nodes

theorem Node.hasDistinctKeys_tables_concat {elements : List Entries} {last : Entries}
    (h : ∀ entries ∈ elements, entries.HasDistinctKeys) (hlast : last.HasDistinctKeys) :
    (Node.tables (elements ++ [last])).HasDistinctKeys := by
  apply Node.hasDistinctKeys_tables
  intro entries hmem
  rcases List.mem_append.1 hmem with hmem | hmem
  · exact h entries hmem
  · obtain rfl := List.mem_singleton.1 hmem
    exact hlast

/-! ## Finished values -/

namespace Node

theorem finishedEntries_eq_map (entries : Entries) :
    finishedEntries entries = entries.map fun entry ↦ (entry.1, entry.2.finished) := by
  induction entries with
  | nil => rfl
  | cons entry entries ih => rw [finishedEntries, ih, List.map_cons]

theorem finishedElements_eq_map (elements : List Entries) :
    finishedElements elements = elements.map fun entries ↦ .table (finishedEntries entries) := by
  induction elements with
  | nil => rfl
  | cons entries elements ih => rw [finishedElements, ih, List.map_cons]

theorem hasDistinctKeys_finishedEntries {entries : Entries} (hkeys : (entries.map (·.1)).Nodup)
    (h : ∀ entry ∈ entries, entry.2.finished.HasDistinctKeys) :
    (Value.table (finishedEntries entries)).HasDistinctKeys := by
  rw [finishedEntries_eq_map]
  apply Value.HasDistinctKeys.table
  · rw [List.map_map]
    exact hkeys
  · intro entry hmem
    obtain ⟨node, hnode, rfl⟩ := List.mem_map.1 hmem
    exact h node hnode

theorem HasDistinctKeys.finished {node : Node} (h : node.HasDistinctKeys) :
    node.finished.HasDistinctKeys := by
  induction h with
  | value h => exact h
  | table hkeys _ ih => exact hasDistinctKeys_finishedEntries hkeys ih
  | tables hkeys _ ih =>
    rw [Node.finished, finishedElements_eq_map]
    apply Value.HasDistinctKeys.array
    intro element hmem
    obtain ⟨entries, hentries, rfl⟩ := List.mem_map.1 hmem
    exact hasDistinctKeys_finishedEntries (hkeys entries hentries) (ih entries hentries)

end Node

theorem Entries.HasDistinctKeys.finished {entries : Entries} (h : entries.HasDistinctKeys) :
    (Value.table (Node.finishedEntries entries)).HasDistinctKeys :=
  Node.hasDistinctKeys_finishedEntries h.nodup fun entry hmem ↦ (h.nodes entry hmem).finished

/-! ## Looking keys up -/

namespace Entries

theorem mem_of_lookup_eq_some {α : Type} {entries : List (String × α)} {key : String} {value : α}
    (h : entries.lookup key = some value) : (key, value) ∈ entries := by
  obtain ⟨front, back, rfl, -⟩ := List.lookup_eq_some_iff.1 h
  exact List.mem_append_right _ List.mem_cons_self

theorem lookup_eq_none_iff {α : Type} {entries : List (String × α)} {key : String} :
    entries.lookup key = none ↔ key ∉ entries.map (·.1) := by
  rw [List.lookup_eq_none_iff]
  simp only [bne_iff_ne, List.mem_map, not_exists, not_and]
  exact ⟨fun h entry hmem hkey ↦ h entry hmem hkey.symm, fun h entry hmem hkey ↦
    h entry hmem hkey.symm⟩

/-- Where no key is repeated, a key has the value of any entry under it. -/
theorem lookup_eq_some_iff {α : Type} {entries : List (String × α)}
    (h : (entries.map (·.1)).Nodup) {key : String} {value : α} :
    entries.lookup key = some value ↔ (key, value) ∈ entries := by
  refine ⟨mem_of_lookup_eq_some, ?_⟩
  intro hmem
  obtain ⟨front, back, rfl⟩ := List.append_of_mem hmem
  apply List.lookup_eq_some_iff.2
  refine ⟨front, back, rfl, ?_⟩
  intro entry hentry
  rw [List.map_append, List.map_cons, List.nodup_append] at h
  have hne : entry.1 ≠ key :=
    h.2.2 entry.1 (List.mem_map_of_mem hentry) key List.mem_cons_self
  exact bne_iff_ne.2 hne.symm

variable {entries : Entries} {key : String} {node : Node}

theorem map_fst_replace (entries : Entries) (key : String) (node : Node) :
    (replace entries key node).map (·.1) = entries.map (·.1) := by
  rw [replace, List.map_map]
  apply List.map_congr_left
  rintro ⟨present, old⟩ _
  by_cases hkey : present = key <;> simp [hkey]

theorem replace_of_lookup_eq_none (h : entries.lookup key = none) (node : Node) :
    replace entries key node = entries := by
  have hmap : replace entries key node = entries.map id := by
    apply List.map_congr_left
    intro entry hmem
    have hne : entry.1 ≠ key := by
      rintro rfl
      exact lookup_eq_none_iff.1 h (List.mem_map_of_mem hmem)
    exact if_neg hne
  rw [hmap, List.map_id]

theorem lookup_replace (h : (entries.lookup key).isSome) :
    (replace entries key node).lookup key = some node := by
  induction entries with
  | nil => cases h
  | cons entry entries ih =>
    obtain ⟨present, old⟩ := entry
    by_cases hkey : present = key
    · simp [replace, hkey]
    · have hne : (key == present) = false := beq_eq_false_iff_ne.2 (Ne.symm hkey)
      rw [List.lookup_cons, hne] at h
      simpa [replace, hkey, List.lookup_cons, hne] using ih h

theorem replace_replace (entries : Entries) (key : String) (node other : Node) :
    replace (replace entries key node) key other = replace entries key other := by
  rw [replace, replace, replace, List.map_map]
  apply List.map_congr_left
  rintro ⟨present, old⟩ _
  by_cases hkey : present = key <;> simp [hkey]

theorem lookup_concat (h : entries.lookup key = none) (node : Node) :
    (entries ++ [(key, node)]).lookup key = some node := by
  rw [List.lookup_append, h, Option.none_or, List.lookup_cons_self]

theorem replace_concat (h : entries.lookup key = none) (node other : Node) :
    replace (entries ++ [(key, node)]) key other = entries ++ [(key, other)] := by
  have hlast : replace [(key, node)] key other = [(key, other)] := by simp [replace]
  rw [replace, List.map_append, ← replace, ← replace, replace_of_lookup_eq_none h, hlast]

namespace HasDistinctKeys

theorem nil : HasDistinctKeys [] := ⟨List.nodup_nil, nofun⟩

theorem of_lookup (h : entries.HasDistinctKeys) (hlookup : entries.lookup key = some node) :
    node.HasDistinctKeys :=
  h.nodes _ (mem_of_lookup_eq_some hlookup)

theorem concat (h : entries.HasDistinctKeys) (hlookup : entries.lookup key = none)
    (hnode : node.HasDistinctKeys) : HasDistinctKeys (entries ++ [(key, node)]) where
  nodup := by
    rw [List.map_append, List.map_singleton, List.nodup_append]
    refine ⟨h.nodup, List.nodup_singleton key, ?_⟩
    rintro present hpresent _ hlast rfl
    obtain rfl : present = key := List.mem_singleton.1 hlast
    exact lookup_eq_none_iff.1 hlookup hpresent
  nodes := by
    intro entry hmem
    rcases List.mem_append.1 hmem with hmem | hmem
    · exact h.nodes entry hmem
    · obtain rfl := List.mem_singleton.1 hmem
      exact hnode

theorem replace (h : entries.HasDistinctKeys) (key : String) (hnode : node.HasDistinctKeys) :
    (entries.replace key node).HasDistinctKeys where
  nodup := by
    rw [map_fst_replace]
    exact h.nodup
  nodes := by
    intro entry hmem
    obtain ⟨⟨present, old⟩, hold, rfl⟩ := List.mem_map.1 hmem
    by_cases hkey : present = key
    · simpa [hkey] using hnode
    · simpa [hkey] using h.nodes _ hold

theorem erase (h : entries.HasDistinctKeys) (key : String) :
    (entries.erase key).HasDistinctKeys where
  nodup := (List.filter_sublist.map _).nodup h.nodup
  nodes entry hmem := h.nodes entry (List.mem_filter.1 hmem).1

end HasDistinctKeys

theorem lookup_erase (entries : Entries) (key : String) : (entries.erase key).lookup key = none := by
  rw [lookup_eq_none_iff]
  intro hmem
  obtain ⟨entry, hentry, rfl⟩ := List.mem_map.1 hmem
  exact of_decide_eq_true (List.mem_filter.1 hentry).2 rfl

/-! ## Changes at a path -/

section Changes

variable {α β : Type} {missing origin tableOrigin : Origin} {path : List String}

theorem changeAt_of_none (h : entries.lookup key = none) (change : Change α) :
    changeAt missing change (key :: path) origin entries =
      (changeAt missing change path missing []).map fun (inner, result) ↦
        (entries ++ [(key, .table missing inner)], result) := by
  rw [changeAt, Option.map_eq_bind]
  simp only [h]
  rfl

theorem changeAt_of_value {value : Value} (h : entries.lookup key = some (.value value))
    (change : Change α) : changeAt missing change (key :: path) origin entries = none := by
  rw [changeAt]
  simp only [h]

theorem changeAt_of_table {inner : Entries} (h : entries.lookup key = some (.table tableOrigin inner))
    (change : Change α) : changeAt missing change (key :: path) origin entries =
      if missing = .dotted ∧ tableOrigin = .header then none
      else (changeAt missing change path tableOrigin inner).map fun (inner, result) ↦
        (entries.replace key (.table tableOrigin inner), result) := by
  rw [changeAt, Option.map_eq_bind]
  simp only [h]
  rfl

theorem changeAt_of_tables {elements : List Entries} (h : entries.lookup key = some (.tables elements))
    (change : Change α) : changeAt missing change (key :: path) origin entries =
      elements.getLast?.bind fun last ↦
        (changeAt missing change path .header last).map fun (inner, result) ↦
          (entries.replace key (.tables (elements.dropLast ++ [inner])), result) := by
  rw [changeAt]
  simp only [h, Option.map_eq_bind]
  rfl

/-- A change that leaves no table with a repeated key, and whose result is as it should be. -/
def Change.Keeps (change : Change α) (holds : α → Prop) : Prop :=
  ∀ origin (entries : Entries) (outcome : Entries × α), entries.HasDistinctKeys →
    change origin entries = some outcome → outcome.1.HasDistinctKeys ∧ holds outcome.2

theorem changeAt_keeps {change : Change α} (holds : α → Prop) (hchange : change.Keeps holds)
    (path : List String) : Change.Keeps (changeAt missing change path) holds := by
  induction path with
  | nil => exact hchange
  | cons key path ih =>
    intro origin entries outcome h houtcome
    cases hlookup : entries.lookup key with
    | none =>
      rw [changeAt_of_none hlookup] at houtcome
      obtain ⟨inner, hinner, rfl⟩ := Option.map_eq_some_iff.1 houtcome
      obtain ⟨hdistinct, hholds⟩ := ih _ _ _ .nil hinner
      exact ⟨h.concat hlookup (.table hdistinct.nodup hdistinct.nodes), hholds⟩
    | some node =>
      have hnode := h.of_lookup hlookup
      cases node with
      | value value =>
        rw [changeAt_of_value hlookup] at houtcome
        cases houtcome
      | table tableOrigin table =>
        rw [changeAt_of_table hlookup] at houtcome
        obtain ⟨-, houtcome⟩ := Option.ite_none_left_eq_some.1 houtcome
        obtain ⟨inner, hinner, rfl⟩ := Option.map_eq_some_iff.1 houtcome
        obtain ⟨hdistinct, hholds⟩ := ih _ _ _ hnode.of_table hinner
        exact ⟨h.replace key (.table hdistinct.nodup hdistinct.nodes), hholds⟩
      | tables elements =>
        rw [changeAt_of_tables hlookup] at houtcome
        obtain ⟨last, hlast, houtcome⟩ := Option.bind_eq_some_iff.1 houtcome
        obtain ⟨inner, hinner, rfl⟩ := Option.map_eq_some_iff.1 houtcome
        have hlastDistinct := hnode.of_mem_tables (List.mem_of_getLast? hlast)
        obtain ⟨hdistinct, hholds⟩ := ih _ _ _ hlastDistinct hinner
        have hothers : ∀ element ∈ elements.dropLast, Entries.HasDistinctKeys element :=
          fun _ hmem ↦ hnode.of_mem_tables ((List.dropLast_sublist elements).subset hmem)
        exact ⟨h.replace key (Node.hasDistinctKeys_tables_concat hothers hdistinct), hholds⟩

/-- One change and then another at the same place are one change there. -/
theorem changeAt_changeAt {first : Change α} {outcome : Entries × α}
    (h : changeAt missing first path origin entries = some outcome) (second : Change β) :
    changeAt missing second path origin outcome.1 =
      changeAt missing (fun origin entries ↦ (first origin entries).bind (second origin ·.1)) path
        origin entries := by
  induction path generalizing origin entries outcome with
  | nil =>
    rw [changeAt] at h
    rw [changeAt, changeAt, h]
    rfl
  | cons key path ih =>
    cases hlookup : entries.lookup key with
    | none =>
      rw [changeAt_of_none hlookup] at h
      obtain ⟨inner, hinner, rfl⟩ := Option.map_eq_some_iff.1 h
      have hheader : ¬(missing = .dotted ∧ missing = .header) := by
        rintro ⟨rfl, hmissing⟩
        cases hmissing
      rw [changeAt_of_table (lookup_concat hlookup _), if_neg hheader, changeAt_of_none hlookup,
        ih hinner]
      simp only [replace_concat hlookup]
    | some node =>
      have hsome : (entries.lookup key).isSome := by rw [hlookup]; rfl
      cases node with
      | value value =>
        rw [changeAt_of_value hlookup] at h
        cases h
      | table tableOrigin table =>
        rw [changeAt_of_table hlookup] at h
        obtain ⟨hheader, h⟩ := Option.ite_none_left_eq_some.1 h
        obtain ⟨inner, hinner, rfl⟩ := Option.map_eq_some_iff.1 h
        rw [changeAt_of_table (lookup_replace hsome), if_neg hheader, changeAt_of_table hlookup,
          if_neg hheader, ih hinner]
        simp only [replace_replace]
      | tables elements =>
        rw [changeAt_of_tables hlookup] at h
        obtain ⟨last, hlast, h⟩ := Option.bind_eq_some_iff.1 h
        obtain ⟨inner, hinner, rfl⟩ := Option.map_eq_some_iff.1 h
        rw [changeAt_of_tables (lookup_replace hsome), changeAt_of_tables hlookup,
          List.getLast?_concat, List.dropLast_concat, hlast, Option.bind_some, Option.bind_some,
          ih hinner]
        simp only [replace_replace]

end Changes

/-! ## The changes of a document -/

/-- What a header takes out of the table in which it finds its own. -/
def takeOut (key : String) : Change Entries := fun _ entries ↦
  match entries.lookup key with
  | none => some (entries, [])
  | some (.table .implied inner) => some (entries.erase key, inner)
  | some _ => none

theorem openTable_eq (entries : Entries) (path : List String) (key : String) :
    entries.openTable path key = changeAt .implied (takeOut key) path .header entries := rfl

namespace HasDistinctKeys

variable {path : List String}

/-- A table that is taken out leaves its key free. -/
theorem takeOut (h : entries.HasDistinctKeys) {origin : Origin} {outcome : Entries × Entries}
    (htake : takeOut key origin entries = some outcome) :
    outcome.1.HasDistinctKeys ∧ outcome.1.lookup key = none ∧ outcome.2.HasDistinctKeys := by
  unfold Entries.takeOut at htake
  split at htake
  next hlookup =>
    cases htake
    exact ⟨h, hlookup, nil⟩
  next inner hlookup =>
    cases htake
    exact ⟨h.erase key, lookup_erase entries key, (h.of_lookup hlookup).of_table⟩
  next => cases htake

theorem set {changed : Entries} {value : Value} (h : entries.HasDistinctKeys)
    (hvalue : value.HasDistinctKeys) (hset : entries.set path key value = some changed) :
    changed.HasDistinctKeys := by
  obtain ⟨outcome, houtcome, heq⟩ := Option.bind_eq_some_iff.1 hset
  cases heq
  refine (changeAt_keeps (fun _ ↦ True) ?_ path _ _ _ h houtcome).1
  intro origin inner outcome hinner hput
  obtain ⟨hnew, heq⟩ := Option.ite_none_left_eq_some.1 hput
  cases heq
  rw [not_or, Option.not_isSome_iff_eq_none] at hnew
  exact ⟨hinner.concat hnew.2 (.value hvalue), trivial⟩

/-- The place of a table is kept free until the table is put back. -/
theorem openTable {outcome : Entries × Entries} (h : entries.HasDistinctKeys)
    (hopen : entries.openTable path key = some outcome) :
    outcome.2.HasDistinctKeys ∧ ∀ table closed : Entries, table.HasDistinctKeys →
      outcome.1.closeTable path key table = some closed → closed.HasDistinctKeys := by
  rw [openTable_eq] at hopen
  constructor
  · refine (changeAt_keeps (·.HasDistinctKeys) ?_ path _ _ _ h hopen).2
    intro origin inner outcome hinner htake
    obtain ⟨hrest, -, htable⟩ := hinner.takeOut htake
    exact ⟨hrest, htable⟩
  · intro table closed htable hclose
    obtain ⟨closedOutcome, hclosedOutcome, heq⟩ := Option.bind_eq_some_iff.1 hclose
    cases heq
    rw [changeAt_changeAt hopen] at hclosedOutcome
    refine (changeAt_keeps (fun _ ↦ True) ?_ path _ _ _ h hclosedOutcome).1
    intro origin inner outcome hinner hboth
    obtain ⟨taken, htake, hput⟩ := Option.bind_eq_some_iff.1 hboth
    cases hput
    obtain ⟨hrest, hfree, -⟩ := hinner.takeOut htake
    exact ⟨hrest.concat hfree (.table htable.nodup htable.nodes), trivial⟩

theorem openList {changed : Entries} (h : entries.HasDistinctKeys)
    (hopen : entries.openList path key = some changed) : changed.HasDistinctKeys := by
  obtain ⟨outcome, houtcome, heq⟩ := Option.bind_eq_some_iff.1 hopen
  cases heq
  refine (changeAt_keeps (fun _ ↦ True) ?_ path _ _ _ h houtcome).1
  intro origin inner outcome hinner hput
  dsimp only at hput
  split at hput
  next hlookup =>
    cases hput
    exact ⟨hinner.concat hlookup (Node.hasDistinctKeys_tables nofun), trivial⟩
  next =>
    cases hput
    exact ⟨hinner, trivial⟩
  next => cases hput

theorem closeElement {table closed : Entries} (h : entries.HasDistinctKeys)
    (htable : table.HasDistinctKeys) (hclose : entries.closeElement path key table = some closed) :
    closed.HasDistinctKeys := by
  obtain ⟨outcome, houtcome, heq⟩ := Option.bind_eq_some_iff.1 hclose
  cases heq
  refine (changeAt_keeps (fun _ ↦ True) ?_ path _ _ _ h houtcome).1
  intro origin inner outcome hinner hput
  dsimp only at hput
  split at hput
  next elements hlookup =>
    cases hput
    have helements : ∀ element ∈ elements, Entries.HasDistinctKeys element :=
      fun _ hmem ↦ (hinner.of_lookup hlookup).of_mem_tables hmem
    exact ⟨hinner.replace key (Node.hasDistinctKeys_tables_concat helements htable), trivial⟩
  next => cases hput

end HasDistinctKeys

end Entries

end TouchTarget.Toml
