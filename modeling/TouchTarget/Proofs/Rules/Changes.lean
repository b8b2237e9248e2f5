import Mathlib.Data.List.Dedup
import TouchTarget.Proofs.Rules.History

/-!
# The last one to write

A rule-set is changed by inserting declarations, by merging another rule-set and by merging the
rules of a text. Each change brings rules, and all that a rule-set holds is what the rules brought
so far make of it: a selector is there as soon as a rule for it was brought, even one that declares
nothing, and a property has the value of the last change that brought one. The main statement says
this of any run of changes, with the laws of merging that it rests on; in particular the order in
which the entries of a merged rule-set are visited does not show.
-/

namespace TouchTarget

open Css

/-- If each step overwrites what is read with what the step gives, what is read behind all steps is
what the last one to give something gave. -/
theorem read_foldl {State Item Value : Type} {step : State → Item → State}
    (read : State → Option Value) (given : Item → Option Value)
    (hstep : ∀ state item, read (step state item) = (given item).or (read state)) (state : State)
    (items : List Item) :
    read (items.foldl step state) = (items.reverse.findSome? given).or (read state) := by
  induction items generalizing state with
  | nil => rfl
  | cons item items ih =>
    rw [List.foldl_cons, ih, hstep, List.reverse_cons, List.findSome?_append,
      List.findSome?_singleton, Option.or_assoc]

namespace Declarations

theorem union_self (declarations : Declarations) : declarations ∪ declarations = declarations := by
  apply Std.ExtTreeMap.ext_getElem?
  intro property
  rw [Std.ExtTreeMap.getElem?_union, Option.or_self]

/-- Declarations may be joined one by one in any order. -/
theorem insertMany_eq_union_of_perm (present declarations : Declarations)
    {entries : List (String × String)} (h : entries.Perm declarations.toList) :
    present.insertMany entries = present ∪ declarations := by
  have hdistinct : entries.Pairwise fun first second ↦ ¬compare first.1 second.1 = .eq :=
    (h.pairwise_iff fun hne heq ↦ hne (Std.OrientedCmp.eq_symm heq)).2
      Std.ExtTreeMap.distinct_keys_toList
  apply Std.ExtTreeMap.ext_getElem?
  intro property
  rw [Std.ExtTreeMap.getElem?_union]
  cases hvalue : declarations[property]? with
  | some value =>
    have hmem : (property, value) ∈ entries :=
      h.mem_iff.2 (Std.ExtTreeMap.mem_toList_iff_getElem?_eq_some.2 hvalue)
    rw [Std.ExtTreeMap.getElem?_insertMany_list_of_mem Std.ReflCmp.compare_self hdistinct hmem]
    rfl
  | none =>
    have hmem : property ∉ entries.map Prod.fst := by
      intro hmem
      obtain ⟨⟨name, value⟩, hentry, rfl⟩ := List.mem_map.1 hmem
      have hsome := Std.ExtTreeMap.mem_toList_iff_getElem?_eq_some.1 (h.mem_iff.1 hentry)
      rw [hvalue] at hsome
      cases hsome
    rw [Std.ExtTreeMap.getElem?_insertMany_list_of_contains_eq_false, Option.none_or]
    rw [← Bool.not_eq_true, List.contains_iff_mem]
    exact hmem

end Declarations

/-- The value that a rule gives a property of a selector. -/
def Rule.value? (rule : Rule) (selector property : String) : Option String :=
  if rule.1 = selector then rule.2[property]? else none

namespace RuleSet

/-! ## What inserted rules give -/

theorem value?_insert (rules : RuleSet) (rule : Rule) (selector property : String) :
    (rules.insert rule.1 rule.2).value? selector property =
      (Rule.value? rule selector property).or (rules.value? selector property) := by
  rw [value?, value?, get?_insert, Rule.value?]
  split
  next h =>
    rw [h, Option.bind_some, Std.ExtTreeMap.getElem?_union]
    cases rules.get? selector with
    | none => rw [Option.getD_none, Std.ExtTreeMap.getElem?_empty, Option.bind_none]
    | some present => rfl
  next => rw [Option.none_or]

theorem value?_insertAll (rules : RuleSet) (entries : List Rule) (selector property : String) :
    (rules.insertAll entries).value? selector property =
      (entries.reverse.findSome? (Rule.value? · selector property)).or
        (rules.value? selector property) :=
  read_foldl (·.value? selector property) (Rule.value? · selector property)
    (fun rules rule ↦ rules.value?_insert rule selector property) rules entries

theorem isSome_get?_insertAll (rules : RuleSet) (entries : List Rule) (selector : String) :
    ((rules.insertAll entries).get? selector).isSome ↔
      (∃ rule ∈ entries, rule.1 = selector) ∨ (rules.get? selector).isSome := by
  induction entries generalizing rules with
  | nil => simp only [insertAll_nil, List.not_mem_nil, false_and, exists_false, false_or]
  | cons rule entries ih =>
    rw [insertAll_cons, ih, get?_insert, List.exists_mem_cons_iff]
    split
    next h => simp only [h, Option.isSome_some, or_true, true_or]
    next h => simp only [h, false_or]

theorem isSome_get?_ofList (entries : List Rule) (selector : String) :
    ((ofList entries).get? selector).isSome ↔ ∃ rule ∈ entries, rule.1 = selector := by
  rw [ofList, isSome_get?_insertAll, get?_empty]
  exact or_iff_left Bool.false_ne_true

/-- Each selector is counted once. -/
theorem size_ofList (entries : List Rule) :
    (ofList entries).size = (entries.map (·.1)).dedup.length := by
  have hkeys : (ofList entries).rules.keys.Nodup :=
    Std.ExtTreeMap.distinct_keys.imp fun hne heq ↦ hne (Std.LawfulEqOrd.compare_eq_iff_eq.2 heq)
  rw [size, ← Std.ExtTreeMap.length_keys]
  apply List.Perm.length_eq
  apply (List.perm_ext_iff_of_nodup hkeys (List.nodup_dedup _)).2
  intro selector
  rw [Std.ExtTreeMap.mem_keys, Std.ExtTreeMap.mem_iff_isSome_getElem?, List.mem_dedup,
    List.mem_map]
  exact isSome_get?_ofList entries selector

/-! ## The order of the entries -/

/-- Rules for two selectors may be inserted in either order. -/
theorem insert_insert_comm (rules : RuleSet) {selector other : String} (h : selector ≠ other)
    (declarations otherDeclarations : Declarations) :
    (rules.insert selector declarations).insert other otherDeclarations =
      (rules.insert other otherDeclarations).insert selector declarations := by
  ext1 key
  by_cases hkey : selector = key
  · obtain rfl := hkey
    rw [get?_insert_of_ne _ h.symm, get?_insert_self, get?_insert_self,
      get?_insert_of_ne _ h.symm]
  · rw [get?_insert_of_ne _ hkey]
    by_cases hother : other = key
    · obtain rfl := hother
      rw [get?_insert_self, get?_insert_self, get?_insert_of_ne _ h]
    · rw [get?_insert_of_ne _ hother, get?_insert_of_ne _ hother, get?_insert_of_ne _ hkey]

/-- Merging may visit the rules of the other set in any order. -/
theorem insertAll_eq_merge_of_perm (rules others : RuleSet) {entries : List Rule}
    (h : entries.Perm others.toList) : rules.insertAll entries = rules.merge others := by
  have hentries : (entries.map (·.1)).Nodup :=
    (h.map _).nodup_iff.2 (List.pairwise_map.2 others.toList_pairwise)
  apply h.foldl_eq'
  intro first hfirst second hsecond rules
  by_cases heq : first = second
  · rw [heq]
  · apply insert_insert_comm
    intro hselector
    exact heq (List.inj_on_of_nodup_map hentries hfirst hsecond hselector)

theorem merge_self (rules : RuleSet) : rules.merge rules = rules := by
  ext1 selector
  rw [get?_merge]
  cases rules.get? selector with
  | none => rfl
  | some declarations => exact congrArg some (Declarations.union_self declarations)

/-! ## Changes -/

inductive Change
  | insert (selector : String) (declarations : Declarations)
  | merge (others : RuleSet)
  | mergeText (text : String)

def change (rules : RuleSet) : Change → RuleSet
  | .insert selector declarations => rules.insert selector declarations
  | .merge others => rules.merge others
  | .mergeText text => rules.merge (parse text)

/-- What a run of changes makes of no rules. -/
def ofChanges (changes : List Change) : RuleSet :=
  changes.foldl change ∅

namespace Change

/-- The rules that a change brings, those of a text in the order of its blocks. -/
def rules : Change → List Rule
  | insert selector declarations => [(selector, declarations)]
  | merge others => others.toList
  | mergeText text => (Statement.rulesIn (components text.toList)).filterMap Statement.rule?

/-- The change brings a rule for the selector, even if the rule declares nothing. -/
def Mentions (change : Change) (selector : String) : Prop :=
  ∃ rule ∈ change.rules, rule.1 = selector

/-- The value that the last rule of a change to declare the property for the selector gives it. -/
def value? (change : Change) (selector property : String) : Option String :=
  change.rules.reverse.findSome? (Rule.value? · selector property)

end Change

/-- A change inserts its rules one by one. -/
theorem change_eq_insertAll (rules : RuleSet) (change : Change) :
    rules.change change = rules.insertAll change.rules := by
  cases change with
  | insert selector declarations => rfl
  | merge others => rfl
  | mergeText text => exact rules.merge_ofList _

theorem value?_change (rules : RuleSet) (change : Change) (selector property : String) :
    (rules.change change).value? selector property =
      (change.value? selector property).or (rules.value? selector property) := by
  rw [change_eq_insertAll, value?_insertAll, Change.value?]

/-- A run of changes leaves the rules that all of them brought. -/
theorem ofChanges_eq_ofList (changes : List Change) :
    ofChanges changes = ofList (changes.flatMap Change.rules) := by
  have hrun (rules : RuleSet) :
      changes.foldl change rules = rules.insertAll (changes.flatMap Change.rules) := by
    induction changes generalizing rules with
    | nil => rfl
    | cons change changes ih =>
      rw [List.foldl_cons, ih, change_eq_insertAll, List.flatMap_cons, insertAll_append]
  exact hrun ∅

theorem value?_ofChanges (changes : List Change) (selector property : String) :
    (ofChanges changes).value? selector property =
      changes.reverse.findSome? (Change.value? · selector property) := by
  have hread := read_foldl (·.value? selector property) (Change.value? · selector property)
    (fun rules change ↦ value?_change rules change selector property) ∅ changes
  have hempty : (∅ : RuleSet).value? selector property = none := by
    rw [value?, get?_empty, Option.bind_none]
  rw [hempty, Option.or_none] at hread
  exact hread

theorem isSome_get?_ofChanges (changes : List Change) (selector : String) :
    ((ofChanges changes).get? selector).isSome ↔
      ∃ change ∈ changes, change.Mentions selector := by
  rw [ofChanges_eq_ofList, isSome_get?_ofList]
  simp only [List.mem_flatMap, Change.Mentions]
  constructor
  · rintro ⟨rule, ⟨change, hchange, hrule⟩, hselector⟩
    exact ⟨change, hchange, rule, hrule, hselector⟩
  · rintro ⟨change, hchange, rule, hrule, hselector⟩
    exact ⟨rule, ⟨change, hchange, hrule⟩, hselector⟩

/-- Behind any run of changes, and so after each of its steps, a selector has an entry if a change
brought a rule for it, and each property has the value that the last change to bring one gave it,
or none if no change did. The selectors are counted once each. The rules of a merged set may be
visited in any order, and so may the declarations that are joined with others; merging is
associative, the empty set makes no difference to it, and neither does the set itself. -/
theorem ofChanges_last_wins :
    (∀ changes : List Change, ∀ selector : String,
      (((ofChanges changes).get? selector).isSome ↔
        ∃ change ∈ changes, change.Mentions selector) ∧
      ∀ property : String,
        (∀ value, (ofChanges changes).value? selector property = some value ↔
          ∃ before change after, changes = before ++ change :: after ∧
            change.value? selector property = some value ∧
            ∀ later ∈ after, later.value? selector property = none) ∧
        ((ofChanges changes).value? selector property = none ↔
          ∀ change ∈ changes, change.value? selector property = none)) ∧
      (∀ changes : List Change, (ofChanges changes).size =
        ((changes.flatMap Change.rules).map (·.1)).dedup.length) ∧
      (∀ (rules others : RuleSet) (entries : List Rule), entries.Perm others.toList →
        rules.insertAll entries = rules.merge others) ∧
      (∀ (present declarations : Declarations) (entries : List (String × String)),
        entries.Perm declarations.toList →
          present.insertMany entries = present ∪ declarations) ∧
      (∀ first second third : RuleSet,
        (first.merge second).merge third = first.merge (second.merge third)) ∧
      ∀ rules : RuleSet, rules.merge ∅ = rules ∧ (∅ : RuleSet).merge rules = rules ∧
        rules.merge rules = rules := by
  refine ⟨?_, ?_, insertAll_eq_merge_of_perm,
    fun present declarations _ ↦ Declarations.insertMany_eq_union_of_perm present declarations,
    merge_assoc, fun rules ↦ ⟨rules.merge_empty, rules.empty_merge, rules.merge_self⟩⟩
  · intro changes selector
    refine ⟨isSome_get?_ofChanges changes selector, ?_⟩
    intro property
    rw [value?_ofChanges]
    constructor
    · intro value
      exact findSome?_reverse_eq_some_iff
    · rw [List.findSome?_eq_none_iff]
      simp only [List.mem_reverse]
  · intro changes
    rw [ofChanges_eq_ofList, size_ofList]

end RuleSet

end TouchTarget
