import TouchTarget.Proofs.Config.Entries
import TouchTarget.Proofs.Toml.RootTable

/-!
# Which configurations are accepted

What a configuration may be is said without an order in which keys are read: a table has an entry, or
it has none with a key. The tables of a document have no key twice, and so nothing is left open by
that. Keys that are not named here may hold anything.
-/

namespace TouchTarget.Config

open Toml

/-! ## What a configuration may be -/

/-- Of two keys, the entries have only the first one, with the value. -/
def HaveOnly (entries : List (String × Value)) (key other : String) (value : Value) : Prop :=
  (key, value) ∈ entries ∧ ∀ value, (other, value) ∉ entries

/-- The value is the viewport: a table with its fields, the minimum size under one of its two names,
or a list that begins with them. Counts of pixels are the integers of 32 bits without a sign. -/
inductive IsViewport : Value → Viewport → Prop
  | table {entries : List (String × Value)} {viewport : Viewport}
    (hname : ("name", .text viewport.name) ∈ entries)
    (hwidth : ("width", .integer viewport.width.toNat) ∈ entries)
    (hminSize : HaveOnly entries "min_size" "minSize" (.integer viewport.minSize.toNat) ∨
      HaveOnly entries "minSize" "min_size" (.integer viewport.minSize.toNat)) :
    IsViewport (.table entries) viewport
  | array (viewport : Viewport) (more : List Value) :
    IsViewport (.array (.text viewport.name :: .integer viewport.width.toNat ::
      .integer viewport.minSize.toNat :: more)) viewport

/-- The value is the target: a table with its fields, or a list that begins with them. -/
inductive IsTarget : Value → Target → Prop
  | table {entries : List (String × Value)} {target : Target}
    (hselector : ("selector", .text target.selector) ∈ entries)
    (hname : ("name", .text target.name) ∈ entries) : IsTarget (.table entries) target
  | array (target : Target) (more : List Value) :
    IsTarget (.array (.text target.selector :: .text target.name :: more)) target

/-- The list that a root table gives under a key: the built-in one where the key is absent, and
otherwise what each element of an array is, in their order. -/
inductive IsListUnder {α : Type} (IsItem : Value → α → Prop) (builtin : List α) (key : String)
    (entries : List (String × Value)) : List α → Prop
  | absent (h : ∀ value, (key, value) ∉ entries) : IsListUnder IsItem builtin key entries builtin
  | present {elements : List Value} {items : List α} (hmem : (key, .array elements) ∈ entries)
    (hitems : List.Forall₂ IsItem elements items) : IsListUnder IsItem builtin key entries items

/-- Under the key there is nothing, or an array of which each element is an item. -/
def AllowsListUnder {α : Type} (IsItem : Value → α → Prop) (key : String)
    (entries : List (String × Value)) : Prop :=
  ∀ value, (key, value) ∈ entries →
    ∃ elements, value = .array elements ∧ ∀ element ∈ elements, ∃ item, IsItem element item

/-! ## Elements -/

section Elements

variable {entries : List (String × Value)}

theorem lookup_eq_none_iff_forall_notMem {key : String} :
    entries.lookup key = none ↔ ∀ value, (key, value) ∉ entries := by
  rw [Entries.lookup_eq_none_iff]
  constructor
  · intro hkey value hmem
    exact hkey (List.mem_map_of_mem hmem)
  · intro h hkey
    obtain ⟨entry, hmem, rfl⟩ := List.mem_map.1 hkey
    exact h entry.2 hmem

theorem haveOnly_iff (h : (entries.map (·.1)).Nodup) {key other : String} {value : Value} :
    HaveOnly entries key other value ↔
      entries.lookup key = some value ∧ entries.lookup other = none := by
  rw [HaveOnly, Entries.lookup_eq_some_iff h, lookup_eq_none_iff_forall_notMem]

theorem isViewport_table_iff (h : (entries.map (·.1)).Nodup) {viewport : Viewport} :
    IsViewport (.table entries) viewport ↔
      ViewportFields.Leads (entries.lookup ·) {}
        ⟨some viewport.name, some viewport.width, some viewport.minSize⟩ := by
  rw [ViewportFields.leads_iff, sets_none_some_iff, sets_none_some_iff, setsOnce_none_some_iff]
  simp only [decodeText_eq_ok_iff, decodePixels_eq_ok_iff, exists_eq_right, ← haveOnly_iff h]
  rw [Entries.lookup_eq_some_iff h, Entries.lookup_eq_some_iff h]
  constructor
  · rintro (⟨hname, hwidth, hminSize⟩)
    exact ⟨hname, hwidth, hminSize⟩
  · rintro ⟨hname, hwidth, hminSize⟩
    exact .table hname hwidth hminSize

theorem viewportOfEntries_eq_ok_iff (h : (entries.map (·.1)).Nodup) {viewport : Viewport} :
    viewportOfEntries entries = .ok viewport ↔ IsViewport (.table entries) viewport := by
  simp only [viewportOfEntries, isViewport_table_iff h, bind_eq_ok_iff, pure_eq_ok_iff,
    required_eq_ok_iff, ViewportFields.foldlM_take_eq_ok_iff h]
  constructor
  · rintro ⟨⟨_, _, _⟩, hleads, name, hname, width, hwidth, minSize, hminSize, rfl⟩
    dsimp only at hname hwidth hminSize
    rwa [hname, hwidth, hminSize] at hleads
  · intro hleads
    exact ⟨_, hleads, _, rfl, _, rfl, _, rfl, rfl⟩

theorem decodeViewport_eq_ok_iff {value : Value} (h : value.HasDistinctKeys) {viewport : Viewport} :
    decodeViewport value = .ok viewport ↔ IsViewport value viewport := by
  cases value with
  | table entries => exact viewportOfEntries_eq_ok_iff h.nodup
  | array elements =>
    simp only [decodeViewport, bind_eq_ok_iff, pure_eq_ok_iff, element_eq_ok_iff,
      decodeText_eq_ok_iff, decodePixels_eq_ok_iff]
    constructor
    · rintro ⟨_, hfirst, name, rfl, _, hsecond, width, rfl, _, hthird, minSize, rfl, rfl⟩
      obtain _ | ⟨first, _ | ⟨second, _ | ⟨third, more⟩⟩⟩ := elements
      · cases hfirst
      · cases hsecond
      · cases hthird
      · cases hfirst
        cases hsecond
        cases hthird
        exact .array ⟨name, width, minSize⟩ more
    · rintro (_ | _)
      exact ⟨_, rfl, _, rfl, _, rfl, _, rfl, _, rfl, _, rfl, rfl⟩
  | _ =>
    constructor
    · intro hdecode
      cases hdecode
    · intro hviewport
      cases hviewport

example : decodeViewport (.table [("width", .integer 320), ("colour", .boolean true),
    ("minSize", .integer 44), ("name", .text "Phone")]) = .ok ⟨"Phone", 320, 44⟩ := by
  rfl

example : decodeViewport (.table [("name", .text "Phone"), ("width", .integer 320),
    ("min_size", .integer 44), ("minSize", .integer 44)]) =
      .error (.duplicateField "min_size") := by
  rfl

theorem isTarget_table_iff (h : (entries.map (·.1)).Nodup) {target : Target} :
    IsTarget (.table entries) target ↔
      TargetFields.Leads (entries.lookup ·) {} ⟨some target.selector, some target.name⟩ := by
  rw [TargetFields.leads_iff, sets_none_some_iff, sets_none_some_iff]
  simp only [decodeText_eq_ok_iff, exists_eq_right, Entries.lookup_eq_some_iff h]
  constructor
  · rintro (⟨hselector, hname⟩)
    exact ⟨hselector, hname⟩
  · rintro ⟨hselector, hname⟩
    exact .table hselector hname

theorem targetOfEntries_eq_ok_iff (h : (entries.map (·.1)).Nodup) {target : Target} :
    targetOfEntries entries = .ok target ↔ IsTarget (.table entries) target := by
  simp only [targetOfEntries, isTarget_table_iff h, bind_eq_ok_iff, pure_eq_ok_iff,
    required_eq_ok_iff, TargetFields.foldlM_take_eq_ok_iff h]
  constructor
  · rintro ⟨⟨_, _⟩, hleads, selector, hselector, name, hname, rfl⟩
    dsimp only at hselector hname
    rwa [hselector, hname] at hleads
  · intro hleads
    exact ⟨_, hleads, _, rfl, _, rfl, rfl⟩

theorem decodeTarget_eq_ok_iff {value : Value} (h : value.HasDistinctKeys) {target : Target} :
    decodeTarget value = .ok target ↔ IsTarget value target := by
  cases value with
  | table entries => exact targetOfEntries_eq_ok_iff h.nodup
  | array elements =>
    simp only [decodeTarget, bind_eq_ok_iff, pure_eq_ok_iff, element_eq_ok_iff,
      decodeText_eq_ok_iff]
    constructor
    · rintro ⟨_, hfirst, selector, rfl, _, hsecond, name, rfl, rfl⟩
      obtain _ | ⟨first, _ | ⟨second, more⟩⟩ := elements
      · cases hfirst
      · cases hsecond
      · cases hfirst
        cases hsecond
        exact .array ⟨selector, name⟩ more
    · rintro (_ | _)
      exact ⟨_, rfl, _, rfl, _, rfl, _, rfl, rfl⟩
  | _ =>
    constructor
    · intro hdecode
      cases hdecode
    · intro htarget
      cases htarget

end Elements

/-! ## Lists -/

section Lists

variable {α : Type} {decode : Value → Decoded α} {IsItem : Value → α → Prop}

theorem decodeList_eq_ok_iff {value : Value} {items : List α} :
    decodeList decode value = .ok items ↔ ∃ elements, value = .array elements ∧
      List.Forall₂ (fun element item ↦ decode element = .ok item) elements items := by
  cases value with
  | array elements => simp [decodeList, mapM_eq_ok_iff]
  | _ => simp [decodeList]

theorem exists_forall₂_iff {elements : List Value} :
    (∃ items, List.Forall₂ IsItem elements items) ↔
      ∀ element ∈ elements, ∃ item, IsItem element item := by
  induction elements with
  | nil => simp
  | cons element elements ih =>
    rw [List.forall_mem_cons, ← ih]
    simp [List.forall₂_cons_left_iff]

theorem exists_isListUnder_iff {builtin : List α} {key : String} {entries : List (String × Value)}
    (h : (entries.map (·.1)).Nodup) :
    (∃ items, IsListUnder IsItem builtin key entries items) ↔
      AllowsListUnder IsItem key entries := by
  constructor
  · rintro ⟨items, habsent | ⟨hmem, hitems⟩⟩ value hvalue
    · exact absurd hvalue (habsent value)
    · rw [← Entries.lookup_eq_some_iff h] at hmem hvalue
      obtain rfl := Option.some.inj (hmem.symm.trans hvalue)
      exact ⟨_, rfl, exists_forall₂_iff.1 ⟨items, hitems⟩⟩
  · intro hallows
    cases hlookup : entries.lookup key with
    | none => exact ⟨builtin, .absent (lookup_eq_none_iff_forall_notMem.1 hlookup)⟩
    | some value =>
      have hmem := Entries.mem_of_lookup_eq_some hlookup
      obtain ⟨elements, rfl, hitems⟩ := hallows value hmem
      obtain ⟨items, hitems⟩ := exists_forall₂_iff.2 hitems
      exact ⟨items, .present hmem hitems⟩

variable (hdecode : ∀ {value item}, value.HasDistinctKeys →
  (decode value = .ok item ↔ IsItem value item))

include hdecode

theorem decodeList_eq_ok_iff_isItem {value : Value} (h : value.HasDistinctKeys) {items : List α} :
    decodeList decode value = .ok items ↔
      ∃ elements, value = .array elements ∧ List.Forall₂ IsItem elements items := by
  rw [decodeList_eq_ok_iff]
  apply exists_congr
  intro elements
  apply and_congr_right
  rintro rfl
  have hdistinct : ∀ element ∈ elements, element.HasDistinctKeys := fun _ ↦ h.of_mem_array
  calc List.Forall₂ (fun element item ↦ decode element = .ok item) elements items
    _ ↔ List.Forall₂ (fun element item ↦ element.HasDistinctKeys ∧ decode element = .ok item)
        elements items := by rw [List.forall₂_and_left, and_iff_right hdistinct]
    _ ↔ List.Forall₂ (fun element item ↦ element.HasDistinctKeys ∧ IsItem element item)
        elements items := by simp only [and_congr_right_iff.2 hdecode]
    _ ↔ List.Forall₂ IsItem elements items := by
      rw [List.forall₂_and_left, and_iff_right hdistinct]

theorem sets_decodeList_iff {builtin items : List α} {key : String}
    {entries : List (String × Value)} (h : (Value.table entries).HasDistinctKeys) :
    Sets (decodeList decode · = .ok ·) (entries.lookup key) builtin items ↔
      IsListUnder IsItem builtin key entries items := by
  constructor
  · intro hsets
    cases hlookup : entries.lookup key with
    | none =>
      rw [hlookup] at hsets
      obtain rfl : builtin = items := hsets
      exact .absent (lookup_eq_none_iff_forall_notMem.1 hlookup)
    | some value =>
      rw [hlookup] at hsets
      have hmem := Entries.mem_of_lookup_eq_some hlookup
      obtain ⟨elements, rfl, hitems⟩ :=
        (decodeList_eq_ok_iff_isItem hdecode (h.of_mem_table hmem)).1 hsets
      exact .present hmem hitems
  · intro hlist
    cases hlist with
    | absent habsent =>
      rw [lookup_eq_none_iff_forall_notMem.2 habsent]
      exact rfl
    | present hmem hitems =>
      rw [(Entries.lookup_eq_some_iff h.nodup).2 hmem]
      exact (decodeList_eq_ok_iff_isItem hdecode (h.of_mem_table hmem)).2 ⟨_, rfl, hitems⟩

end Lists

/-! ## Configurations -/

theorem parse_eq_ok_iff_ofEntries {text : String} {config : Config} :
    parse text = .ok config ↔
      ∃ entries, document? text = some entries ∧ ofEntries entries = .ok config := by
  unfold parse
  split <;> simp [*]

theorem ofEntries_eq_ok_iff_isListUnder {entries : List (String × Value)} {config : Config}
    (h : (Value.table entries).HasDistinctKeys) :
    ofEntries entries = .ok config ↔
      IsListUnder IsViewport builtinViewports "viewports" entries config.viewports ∧
        IsListUnder IsTarget builtinTargets "targets" entries config.targets := by
  rw [ofEntries_eq_ok_iff h.nodup, leads_iff,
    sets_decodeList_iff (fun hdistinct ↦ decodeViewport_eq_ok_iff hdistinct) h,
    sets_decodeList_iff (fun hdistinct ↦ decodeTarget_eq_ok_iff hdistinct) h]
  rfl

/-- A text is accepted exactly if it is a document whose root table allows both lists, and what it is
accepted as are these lists, each by itself. -/
theorem parse_eq_ok_iff (text : String) :
    ((∃ config, parse text = .ok config) ↔ ∃ entries, document? text = some entries ∧
      AllowsListUnder IsViewport "viewports" entries ∧
      AllowsListUnder IsTarget "targets" entries) ∧
    ∀ config, parse text = .ok config ↔ ∃ entries, document? text = some entries ∧
      IsListUnder IsViewport builtinViewports "viewports" entries config.viewports ∧
      IsListUnder IsTarget builtinTargets "targets" entries config.targets := by
  have hconfig : ∀ config, parse text = .ok config ↔ ∃ entries, document? text = some entries ∧
      IsListUnder IsViewport builtinViewports "viewports" entries config.viewports ∧
      IsListUnder IsTarget builtinTargets "targets" entries config.targets := by
    intro config
    rw [parse_eq_ok_iff_ofEntries]
    apply exists_congr
    intro entries
    apply and_congr_right
    intro hdocument
    exact ofEntries_eq_ok_iff_isListUnder (hasDistinctKeys_of_document? hdocument)
  refine ⟨?_, hconfig⟩
  simp only [hconfig]
  constructor
  · rintro ⟨config, entries, hdocument, hviewports, htargets⟩
    have hnodup := (hasDistinctKeys_of_document? hdocument).nodup
    exact ⟨entries, hdocument, (exists_isListUnder_iff hnodup).1 ⟨_, hviewports⟩,
      (exists_isListUnder_iff hnodup).1 ⟨_, htargets⟩⟩
  · rintro ⟨entries, hdocument, hviewports, htargets⟩
    have hnodup := (hasDistinctKeys_of_document? hdocument).nodup
    obtain ⟨viewports, hviewports⟩ := (exists_isListUnder_iff hnodup).2 hviewports
    obtain ⟨targets, htargets⟩ := (exists_isListUnder_iff hnodup).2 htargets
    exact ⟨⟨viewports, targets⟩, entries, hdocument, hviewports, htargets⟩

end TouchTarget.Config
