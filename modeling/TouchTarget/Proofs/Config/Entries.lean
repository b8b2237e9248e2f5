import Mathlib.Data.List.Forall2
import TouchTarget.Config.Decoding
import TouchTarget.Proofs.Toml.DistinctKeys

/-!
# Entries taken in one by one

A record is filled by going through the entries of a table, which may stop at any of them. Where no
key is repeated, each field is set at most once, and what comes out depends only on what the keys
hold. So each step is read as one more key that holds something.
-/

namespace TouchTarget.Config

open Toml

/-! ## Steps that may fail -/

@[simp] theorem bind_eq_ok_iff {α β : Type} {first : Decoded α} {next : α → Decoded β} {result : β} :
    (first >>= next) = .ok result ↔ ∃ value, first = .ok value ∧ next value = .ok result := by
  cases first <;> simp [bind, Except.bind]

@[simp] theorem pure_eq_ok_iff {α : Type} {value result : α} :
    (pure value : Decoded α) = .ok result ↔ value = result := by
  simp [pure, Except.pure]

@[simp] theorem throw_ne_ok {α : Type} (error : ConfigError) (result : α) :
    ¬(throw error : Decoded α) = .ok result :=
  nofun

@[simp] theorem required_eq_ok_iff {α : Type} {field : String} {value? : Option α} {value : α} :
    required field value? = .ok value ↔ value? = some value := by
  cases value? <;> simp [required]

@[simp] theorem element_eq_ok_iff {shape : Shape} {elements : List Value} {index : Nat}
    {value : Value} : element shape elements index = .ok value ↔ elements[index]? = some value := by
  unfold element
  split <;> simp [*]

@[simp] theorem decodeText_eq_ok_iff {value : Value} {text : String} :
    decodeText value = .ok text ↔ value = .text text := by
  cases value <;> simp [decodeText]

@[simp] theorem decodePixels_eq_ok_iff {value : Value} {pixels : Pixels} :
    decodePixels value = .ok pixels ↔ value = .integer pixels.toNat := by
  cases value with
  | integer value =>
    have hlt : pixels.toNat < UInt32.size := pixels.toNat_lt_size
    rw [decodePixels, Value.integer.injEq]
    split
    next hrange =>
      rw [pure_eq_ok_iff, ← UInt32.toNat_inj, Pixels.toNat_clamp]
      omega
    next hrange =>
      simp only [throw_ne_ok, false_iff]
      omega
  | _ => simp [decodePixels]

theorem mapM_eq_ok_iff {α : Type} {decode : Value → Decoded α} {elements : List Value}
    {items : List α} :
    elements.mapM decode = .ok items ↔
      List.Forall₂ (fun element item ↦ decode element = .ok item) elements items := by
  induction elements generalizing items with
  | nil => rw [List.mapM_nil, pure_eq_ok_iff, List.forall₂_nil_left_iff, eq_comm]
  | cons element elements ih =>
    rw [List.mapM_cons, List.forall₂_cons_left_iff]
    simp only [bind_eq_ok_iff, pure_eq_ok_iff, ih, exists_and_left, @eq_comm _ items]

/-! ## Going through the entries -/

/-- What holds without any key, and for one key more as the step for its entry says, holds of any
entries that have no key twice. -/
theorem foldlM_eq_ok_iff {State : Type} {take : State → String × Value → Decoded State}
    (Leads : (String → Option Value) → State → State → Prop)
    (hnil : ∀ before after, Leads (fun _ ↦ none) before after ↔ before = after)
    (hcons : ∀ held before key value after, held key = none →
      (Leads (Function.update held key (some value)) before after ↔
        ∃ next, take before (key, value) = .ok next ∧ Leads held next after))
    {entries : List (String × Value)} (h : (entries.map (·.1)).Nodup) {before after : State} :
    entries.foldlM take before = .ok after ↔ Leads (entries.lookup ·) before after := by
  induction entries generalizing before with
  | nil =>
    rw [List.foldlM_nil, pure_eq_ok_iff]
    exact (hnil before after).symm
  | cons entry entries ih =>
    obtain ⟨key, value⟩ := entry
    rw [List.map_cons, List.nodup_cons] at h
    -- The key of the first entry is not among the others, so it counts as the one key more.
    have hlookup : (((key, value) :: entries).lookup ·) =
        Function.update (entries.lookup ·) key (some value) := by
      funext other
      by_cases hkey : other = key
      · simp [hkey]
      · have hne : (other == key) = false := beq_eq_false_iff_ne.2 hkey
        simp [hkey, List.lookup_cons, hne]
    rw [List.foldlM_cons, bind_eq_ok_iff, hlookup,
      hcons _ _ _ _ _ (Entries.lookup_eq_none_iff.2 h.1)]
    simp only [ih h.2]

/-- What a key holds sets a field, which stays as it is if the key holds nothing. -/
def Sets {α : Type} (IsField : Value → α → Prop) : Option Value → α → α → Prop
  | none, before, after => before = after
  | some value, _, after => IsField value after

/-- At most one of two keys holds something, and it sets a field that has not been met. -/
def SetsOnce {α : Type} (IsField : Value → Option α → Prop) :
    Option Value → Option Value → Option α → Option α → Prop
  | none, none, before, after => before = after
  | some value, none, before, after | none, some value, before, after =>
    before = none ∧ IsField value after
  | some _, some _, _, _ => False

/-- The value decodes, to what the field is. -/
def Gives {α : Type} (decode : Value → Decoded α) (value : Value) (field : Option α) : Prop :=
  ∃ item, decode value = .ok item ∧ some item = field

theorem sets_none_some_iff {α : Type} {decode : Value → Decoded α} {held? : Option Value}
    {item : α} : Sets (Gives decode) held? none (some item) ↔
      ∃ value, held? = some value ∧ decode value = .ok item := by
  cases held? <;> simp [Sets, Gives]

theorem setsOnce_none_some_iff {α : Type} {decode : Value → Decoded α} {held? other? : Option Value}
    {item : α} : SetsOnce (Gives decode) held? other? none (some item) ↔
      ∃ value, (held? = some value ∧ other? = none ∨ other? = some value ∧ held? = none) ∧
        decode value = .ok item := by
  cases held? <;> cases other? <;> simp [SetsOnce, Gives]

/-! ## Viewports -/

namespace ViewportFields

@[mk_iff]
structure Leads (held : String → Option Value) (before after : ViewportFields) : Prop where
  name : Sets (Gives decodeText) (held "name") before.name? after.name?
  width : Sets (Gives decodePixels) (held "width") before.width? after.width?
  minSize : SetsOnce (Gives decodePixels) (held "min_size") (held "minSize")
    before.minSize? after.minSize?

variable {held : String → Option Value} {key : String} {value : Value}
  {before after : ViewportFields}

-- Without `-bind_pure_comp` a step becomes a map, which the lemmas above do not open.
theorem take_name_eq_ok_iff : before.take ("name", value) = .ok after ↔
    ∃ field, Gives decodeText value field ∧ { before with name? := field } = after := by
  simp [take, Gives, -bind_pure_comp]

theorem take_width_eq_ok_iff : before.take ("width", value) = .ok after ↔
    ∃ field, Gives decodePixels value field ∧ { before with width? := field } = after := by
  simp [take, Gives, -bind_pure_comp]

theorem take_minSize_eq_ok_iff (h : key = "min_size" ∨ key = "minSize") :
    before.take (key, value) = .ok after ↔
      before.minSize? = none ∧
        ∃ field, Gives decodePixels value field ∧ { before with minSize? := field } = after := by
  have htake : before.take (key, value) = if before.minSize?.isSome then
      throw (.duplicateField "min_size")
    else return { before with minSize? := ← decodePixels value } := by
    rcases h with rfl | rfl <;> rfl
  rw [htake]
  split
  next hmet => simp [Option.isSome_iff_ne_none.1 hmet]
  next hmet =>
    rw [Option.not_isSome_iff_eq_none] at hmet
    simp [hmet, Gives, -bind_pure_comp]

theorem take_of_other (hname : key ≠ "name") (hwidth : key ≠ "width")
    (hminSize : key ≠ "min_size") (halias : key ≠ "minSize") :
    before.take (key, value) = pure before := by
  unfold take
  split <;> simp_all

theorem leads_update_iff (h : held key = none) :
    Leads (Function.update held key (some value)) before after ↔
      ∃ next, before.take (key, value) = .ok next ∧ Leads held next after := by
  by_cases hname : key = "name"
  · subst hname
    simp [take_name_eq_ok_iff, leads_iff, h, Sets]
  by_cases hwidth : key = "width"
  · subst hwidth
    simp [take_width_eq_ok_iff, leads_iff, h, Sets, and_left_comm]
  -- Once one spelling has been met, whether the entries end well depends on the other one.
  by_cases hminSize : key = "min_size"
  · subst hminSize
    cases halias : held "minSize" <;>
      simp [take_minSize_eq_ok_iff, leads_iff, h, halias, SetsOnce, Gives, and_left_comm, and_assoc]
  by_cases halias : key = "minSize"
  · subst halias
    cases hminSize : held "min_size" <;>
      simp [take_minSize_eq_ok_iff, leads_iff, h, hminSize, SetsOnce, Gives, and_left_comm,
        and_assoc]
  · simp [take_of_other hname hwidth hminSize halias, leads_iff, Ne.symm hname, Ne.symm hwidth,
      Ne.symm hminSize, Ne.symm halias]

theorem foldlM_take_eq_ok_iff {entries : List (String × Value)} (h : (entries.map (·.1)).Nodup) :
    entries.foldlM take before = .ok after ↔ Leads (entries.lookup ·) before after := by
  apply foldlM_eq_ok_iff Leads _ (fun _ _ _ _ _ ↦ leads_update_iff) h
  rintro ⟨_, _, _⟩ ⟨_, _, _⟩
  rw [leads_iff, ViewportFields.mk.injEq]
  rfl

end ViewportFields

/-! ## Targets -/

namespace TargetFields

@[mk_iff]
structure Leads (held : String → Option Value) (before after : TargetFields) : Prop where
  selector : Sets (Gives decodeText) (held "selector") before.selector? after.selector?
  name : Sets (Gives decodeText) (held "name") before.name? after.name?

variable {held : String → Option Value} {key : String} {value : Value} {before after : TargetFields}

theorem take_selector_eq_ok_iff : before.take ("selector", value) = .ok after ↔
    ∃ field, Gives decodeText value field ∧ { before with selector? := field } = after := by
  simp [take, Gives, -bind_pure_comp]

theorem take_name_eq_ok_iff : before.take ("name", value) = .ok after ↔
    ∃ field, Gives decodeText value field ∧ { before with name? := field } = after := by
  simp [take, Gives, -bind_pure_comp]

theorem take_of_other (hselector : key ≠ "selector") (hname : key ≠ "name") :
    before.take (key, value) = pure before := by
  unfold take
  split <;> simp_all

theorem leads_update_iff (h : held key = none) :
    Leads (Function.update held key (some value)) before after ↔
      ∃ next, before.take (key, value) = .ok next ∧ Leads held next after := by
  by_cases hselector : key = "selector"
  · subst hselector
    simp [take_selector_eq_ok_iff, leads_iff, h, Sets]
  by_cases hname : key = "name"
  · subst hname
    simp [take_name_eq_ok_iff, leads_iff, h, Sets, and_comm]
  · simp [take_of_other hselector hname, leads_iff, Ne.symm hselector, Ne.symm hname]

theorem foldlM_take_eq_ok_iff {entries : List (String × Value)} (h : (entries.map (·.1)).Nodup) :
    entries.foldlM take before = .ok after ↔ Leads (entries.lookup ·) before after := by
  apply foldlM_eq_ok_iff Leads _ (fun _ _ _ _ _ ↦ leads_update_iff) h
  rintro ⟨_, _⟩ ⟨_, _⟩
  rw [leads_iff, TargetFields.mk.injEq]
  rfl

end TargetFields

/-! ## The root table -/

@[mk_iff]
structure Leads (held : String → Option Value) (before after : Config) : Prop where
  viewports : Sets (decodeList decodeViewport · = .ok ·) (held "viewports")
    before.viewports after.viewports
  targets : Sets (decodeList decodeTarget · = .ok ·) (held "targets") before.targets after.targets

section Root

variable {held : String → Option Value} {key : String} {value : Value} {before after : Config}

theorem take_viewports_eq_ok_iff : take before ("viewports", value) = .ok after ↔
    ∃ viewports, decodeList decodeViewport value = .ok viewports ∧
      { before with viewports := viewports } = after := by
  simp [take, -bind_pure_comp]

theorem take_targets_eq_ok_iff : take before ("targets", value) = .ok after ↔
    ∃ targets, decodeList decodeTarget value = .ok targets ∧
      { before with targets := targets } = after := by
  simp [take, -bind_pure_comp]

theorem take_of_other (hviewports : key ≠ "viewports") (htargets : key ≠ "targets") :
    take before (key, value) = pure before := by
  unfold take
  split <;> simp_all

theorem leads_update_iff (h : held key = none) :
    Leads (Function.update held key (some value)) before after ↔
      ∃ next, take before (key, value) = .ok next ∧ Leads held next after := by
  by_cases hviewports : key = "viewports"
  · subst hviewports
    simp [take_viewports_eq_ok_iff, leads_iff, h, Sets]
  by_cases htargets : key = "targets"
  · subst htargets
    simp [take_targets_eq_ok_iff, leads_iff, h, Sets, and_comm]
  · simp [take_of_other hviewports htargets, leads_iff, Ne.symm hviewports, Ne.symm htargets]

theorem ofEntries_eq_ok_iff {entries : List (String × Value)} (h : (entries.map (·.1)).Nodup)
    {config : Config} :
    ofEntries entries = .ok config ↔ Leads (entries.lookup ·) builtin config := by
  apply foldlM_eq_ok_iff Leads _ (fun _ _ _ _ _ ↦ leads_update_iff) h
  rintro ⟨_, _⟩ ⟨_, _⟩
  rw [leads_iff, Config.mk.injEq]
  rfl

end Root

end TouchTarget.Config
