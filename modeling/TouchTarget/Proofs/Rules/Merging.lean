import TouchTarget.Proofs.Cascade.Overlay
import TouchTarget.Rules.StyleSheet

/-!
# Merging rules

A merged rule-set is known by its look-ups: at each selector the declarations of both are joined,
the later ones winning. Merging is therefore associative, and what is added to one of two parts may
as well be added to the whole. Sheets are merged part by part in the same way.
-/

namespace TouchTarget

/-- From the end of a list on, the first result is that of the last element that has one. -/
theorem findSome?_reverse_eq_some_iff {α β : Type} {f : α → Option β} {elements : List α}
    {result : β} :
    elements.reverse.findSome? f = some result ↔
      ∃ before element after, elements = before ++ element :: after ∧
        f element = some result ∧ ∀ later ∈ after, f later = none := by
  rw [List.findSome?_eq_some_iff]
  constructor
  · rintro ⟨after, element, before, hsplit, hresult, hafter⟩
    refine ⟨before.reverse, element, after.reverse, ?_, hresult, ?_⟩
    · rw [← List.reverse_reverse elements, hsplit, List.reverse_append, List.reverse_cons,
        List.append_assoc, List.singleton_append]
    · intro later hlater
      exact hafter later (List.mem_reverse.1 hlater)
  · rintro ⟨before, element, after, rfl, hresult, hafter⟩
    refine ⟨after.reverse, element, before.reverse, ?_, hresult, ?_⟩
    · rw [List.reverse_append, List.reverse_cons, List.append_assoc, List.singleton_append]
    · intro later hlater
      exact hafter later (List.mem_reverse.1 hlater)

namespace Declarations

theorem union_assoc (first second third : Declarations) :
    first ∪ second ∪ third = first ∪ (second ∪ third) := by
  apply Std.ExtTreeMap.ext_getElem?
  intro property
  simp only [Std.ExtTreeMap.getElem?_union]
  exact Option.or_assoc.symm

theorem empty_union (declarations : Declarations) : ∅ ∪ declarations = declarations := by
  apply Std.ExtTreeMap.ext_getElem?
  intro property
  rw [Std.ExtTreeMap.getElem?_union, Std.ExtTreeMap.getElem?_empty, Option.or_none]

instance : @Std.Associative Declarations (· ∪ ·) := ⟨union_assoc⟩

end Declarations

namespace RuleSet

/-! ## Look-ups in merged rules -/

theorem get?_insert_eq_merge (rules : RuleSet) (selector : String) (declarations : Declarations) :
    (rules.insert selector declarations).get? selector =
      Option.merge (· ∪ ·) (rules.get? selector) (some declarations) := by
  rw [get?_insert_self]
  cases rules.get? selector with
  | none => rw [Option.getD_none, Declarations.empty_union, Option.merge_none_left]
  | some present => rfl

theorem get?_insert_of_ne (rules : RuleSet) {selector key : String} (h : selector ≠ key)
    (declarations : Declarations) :
    (rules.insert selector declarations).get? key = rules.get? key := by
  rw [get?_insert, if_neg h]

theorem get?_insertAll_of_forall_ne (rules : RuleSet) {entries : List (String × Declarations)}
    {selector : String} (h : ∀ entry ∈ entries, entry.1 ≠ selector) :
    (rules.insertAll entries).get? selector = rules.get? selector := by
  induction entries generalizing rules with
  | nil => rfl
  | cons entry entries ih =>
    obtain ⟨hentry, hentries⟩ := List.forall_mem_cons.1 h
    rw [insertAll_cons, ih _ hentries, get?_insert_of_ne rules hentry]

/-- An entry is joined once if it is the only one for its selector. -/
theorem get?_insertAll_of_mem (rules : RuleSet) {entries : List (String × Declarations)}
    (hdistinct : entries.Pairwise (·.1 ≠ ·.1)) {selector : String} {declarations : Declarations}
    (hmem : (selector, declarations) ∈ entries) :
    (rules.insertAll entries).get? selector =
      Option.merge (· ∪ ·) (rules.get? selector) (some declarations) := by
  induction entries generalizing rules with
  | nil => cases hmem
  | cons entry entries ih =>
    obtain ⟨hentry, hentries⟩ := List.pairwise_cons.1 hdistinct
    rw [insertAll_cons]
    rcases List.mem_cons.1 hmem with rfl | hmem
    · have hothers : ∀ other ∈ entries, other.1 ≠ selector :=
        fun other hother ↦ (hentry other hother).symm
      rw [get?_insertAll_of_forall_ne _ hothers, get?_insert_eq_merge]
    · rw [ih _ hentries hmem, get?_insert_of_ne rules (hentry _ hmem)]

/-- There is one entry at most for a selector. -/
theorem toList_pairwise (rules : RuleSet) : rules.toList.Pairwise (·.1 ≠ ·.1) := by
  apply Std.ExtTreeMap.distinct_keys_toList.imp
  intro left right hne heq
  exact hne (Std.LawfulEqOrd.compare_eq_iff_eq.2 heq)

/-- The declarations for a selector are those of both rule-sets, the second one winning. -/
theorem get?_merge (rules others : RuleSet) (selector : String) :
    (rules.merge others).get? selector =
      Option.merge (· ∪ ·) (rules.get? selector) (others.get? selector) := by
  cases hget : others.get? selector with
  | none =>
    rw [merge, Option.merge_none_right]
    apply get?_insertAll_of_forall_ne
    rintro ⟨other, declarations⟩ hmem rfl
    have hsome : others.get? other = some declarations :=
      Std.ExtTreeMap.mem_toList_iff_getElem?_eq_some.1 hmem
    rw [hget] at hsome
    cases hsome
  | some declarations =>
    have hmem : (selector, declarations) ∈ others.toList :=
      Std.ExtTreeMap.mem_toList_iff_getElem?_eq_some.2 hget
    exact get?_insertAll_of_mem rules others.toList_pairwise hmem

/-- What both declare for a property has the second one's value. -/
theorem value?_merge (rules others : RuleSet) (selector property : String) :
    (rules.merge others).value? selector property =
      (others.value? selector property).or (rules.value? selector property) := by
  unfold value?
  rw [get?_merge]
  cases rules.get? selector with
  | none => rw [Option.merge_none_left, Option.bind_none, Option.or_none]
  | some declarations =>
    cases others.get? selector with
    | none => rfl
    | some otherDeclarations => exact Std.ExtTreeMap.getElem?_union

/-! ## The laws of merging -/

@[simp] theorem merge_empty (rules : RuleSet) : rules.merge ∅ = rules := by
  ext1 selector
  rw [get?_merge, get?_empty, Option.merge_none_right]

@[simp] theorem empty_merge (rules : RuleSet) : (∅ : RuleSet).merge rules = rules := by
  ext1 selector
  rw [get?_merge, get?_empty, Option.merge_none_left]

theorem merge_assoc (first second third : RuleSet) :
    (first.merge second).merge third = first.merge (second.merge third) := by
  ext1 selector
  simp only [get?_merge]
  exact Std.Associative.assoc _ _ _

/-- What is inserted into the second of two rule-sets is inserted into both together. -/
theorem merge_insert (rules others : RuleSet) (selector : String) (declarations : Declarations) :
    rules.merge (others.insert selector declarations) =
      (rules.merge others).insert selector declarations := by
  ext1 key
  by_cases hkey : selector = key
  · subst hkey
    rw [get?_merge, get?_insert_eq_merge, get?_insert_eq_merge, get?_merge]
    exact (Std.Associative.assoc _ _ _).symm
  · rw [get?_merge, get?_insert_of_ne _ hkey, get?_insert_of_ne _ hkey, get?_merge]

end RuleSet

namespace ConditionalRuleSet

theorem merge_assoc (first second third : ConditionalRuleSet) :
    (first.merge second).merge third = first.merge (second.merge third) :=
  congrArg (mk first.maxWidth) (RuleSet.merge_assoc first.rules second.rules third.rules)

instance : Std.Associative merge := ⟨merge_assoc⟩

end ConditionalRuleSet

end TouchTarget
