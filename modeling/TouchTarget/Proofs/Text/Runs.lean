import TouchTarget.Text.Characters

/-!
# Runs between parting elements

A list is cut at the elements that part it, of which any number may stand together. The words of a
text are its runs between blanks. If each element of a list stands for a list of its own, the runs
of what they all stand for are what the runs stand for, as long as parting elements stand for
parting ones only, and the other elements for none.
-/

namespace TouchTarget.Text

variable {α β : Type} {parts : α → Bool} {list : List α}

/-- The stretches of a list without a parting element, each as long as possible and not empty. -/
def runs (parts : α → Bool) (list : List α) : List (List α) :=
  (list.splitOnP parts).filter (!·.isEmpty)

@[simp] theorem runs_nil (parts : α → Bool) : runs parts [] = [] := by
  rw [runs, List.splitOnP_nil]
  rfl

/-- A parting element ends the run in front of it. -/
theorem runs_append_cons {a : α} (ha : parts a) (left right : List α) :
    runs parts (left ++ a :: right) = runs parts left ++ runs parts right := by
  rw [runs, List.splitOnP_append_cons left right ha, List.filter_append]
  rfl

theorem runs_cons_of_parts {a : α} (ha : parts a) (rest : List α) :
    runs parts (a :: rest) = runs parts rest := by
  have happend := runs_append_cons ha [] rest
  rwa [runs_nil, List.nil_append, List.nil_append] at happend

/-- Parting elements in front of a list make no difference. -/
theorem runs_append_of_forall {left : List α} (hleft : ∀ a ∈ left, parts a) (right : List α) :
    runs parts (left ++ right) = runs parts right := by
  induction left with
  | nil => rfl
  | cons a left ih =>
    rw [List.forall_mem_cons] at hleft
    rw [List.cons_append, runs_cons_of_parts hleft.1, ih hleft.2]

/-- A list without parting elements is one run. -/
theorem runs_eq_singleton (hne : list ≠ []) (h : ∀ a ∈ list, parts a = false) :
    runs parts list = [list] := by
  have hempty : list.isEmpty = false := List.isEmpty_eq_false_iff.2 hne
  rw [runs, List.splitOnP_eq_singleton h, List.filter_cons_of_pos (by rw [hempty]; rfl),
    List.filter_nil]

/-- An element joins the run that begins behind it. -/
theorem exists_runs_cons_cons {a b : α} (ha : parts a = false) (hb : parts b = false)
    (rest : List α) : ∃ run others, runs parts (b :: rest) = run :: others ∧
      runs parts (a :: b :: rest) = (a :: run) :: others := by
  obtain ⟨first, others, hfirst⟩ := List.exists_cons_of_ne_nil (List.splitOnP_ne_nil parts rest)
  refine ⟨b :: first, others.filter (!·.isEmpty), ?_, ?_⟩
  · rw [runs, List.splitOnP_cons_eq_if_modifyHead, hb, hfirst]
    rfl
  · rw [runs, List.splitOnP_cons_eq_if_modifyHead, List.splitOnP_cons_eq_if_modifyHead, ha, hb,
      hfirst]
    rfl

/-- The words of a text are its runs between blanks. -/
theorem words_eq_runs (text : List Char) : words text = runs isBlank text := by
  induction text with
  | nil => rfl
  | cons c text ih =>
    rw [words]
    split
    next hc => rw [ih, runs_cons_of_parts hc]
    next hc =>
      rw [Bool.not_eq_true] at hc
      cases text with
      | nil =>
        rw [runs_eq_singleton (List.cons_ne_nil c []) (by simpa using hc)]
        rfl
      | cons d text =>
        rw [List.head?_cons, Option.all_some]
        split
        next hd =>
          have hfirst : runs isBlank [c] = [[c]] :=
            runs_eq_singleton (List.cons_ne_nil c []) (by simpa using hc)
          have happend := runs_append_cons hd [c] text
          rw [List.singleton_append, hfirst] at happend
          rw [ih, runs_cons_of_parts hd, happend, List.singleton_append]
        next hd =>
          rw [Bool.not_eq_true] at hd
          obtain ⟨run, others, hrest, hall⟩ := exists_runs_cons_cons hc hd text
          rw [ih, hrest, hall]

/-- What holds of a list without parting elements, and of one that goes on behind a parting element
if it holds of what is there, holds of all lists. -/
theorem induction_on_runs {motive : List α → Prop} (parts : α → Bool)
    (alone : ∀ front, (∀ a ∈ front, parts a = false) → motive front)
    (append : ∀ front a rest, (∀ b ∈ front, parts b = false) → parts a → motive rest →
      motive (front ++ a :: rest))
    (list : List α) : motive list := by
  have hgeneral : ∀ front : List α, (∀ a ∈ front, parts a = false) → motive (front ++ list) := by
    induction list with
    | nil =>
      intro front hfront
      rw [List.append_nil]
      exact alone front hfront
    | cons a rest ih =>
      intro front hfront
      cases ha : parts a with
      | true => exact append front a rest hfront ha (ih [] fun _ hmem ↦ nomatch hmem)
      | false =>
        rw [List.append_cons]
        apply ih
        rw [List.forall_mem_append, List.forall_mem_singleton]
        exact ⟨hfront, ha⟩
  exact hgeneral [] fun _ hmem ↦ nomatch hmem

theorem ne_nil_of_mem_runs {run : List α} (h : run ∈ runs parts list) : run ≠ [] := by
  have hempty := (List.mem_filter.1 h).2
  rwa [Bool.not_eq_true', List.isEmpty_eq_false_iff] at hempty

/-- There are no runs but the list itself if it has no parting element. -/
theorem eq_of_mem_runs {run : List α} (hlist : ∀ a ∈ list, parts a = false)
    (h : run ∈ runs parts list) : run = list := by
  rw [runs, List.splitOnP_eq_singleton hlist] at h
  exact List.mem_singleton.1 (List.mem_filter.1 h).1

/-- A run has its place in the list. -/
theorem infix_of_mem_runs {run : List α} (h : run ∈ runs parts list) : run <:+: list := by
  induction list using induction_on_runs parts with
  | alone front hfront =>
    obtain rfl := eq_of_mem_runs hfront h
    exact List.infix_rfl
  | append front a rest hfront ha ih =>
    rw [runs_append_cons ha, List.mem_append] at h
    rcases h with hleft | hright
    · rw [eq_of_mem_runs hfront hleft]
      exact ⟨[], a :: rest, rfl⟩
    · exact (ih hright).trans ⟨front ++ [a], [], by simp⟩

/-! ## Lists that stand for others -/

variable {parted : β → Bool} {f : α → List β}

theorem runs_flatMap_of_forall (hlist : ∀ a ∈ list, parts a = false)
    (hparted : ∀ a ∈ list, ∀ b ∈ f a, parted b = parts a)
    (hrun : ∀ run ∈ runs parts list, run.flatMap f ≠ []) :
    runs parted (list.flatMap f) = (runs parts list).map (·.flatMap f) := by
  by_cases hne : list = []
  · rw [hne, List.flatMap_nil, runs_nil, runs_nil, List.map_nil]
  · have hruns := runs_eq_singleton hne hlist
    rw [hruns, List.map_singleton]
    apply runs_eq_singleton
    · exact hrun list (by rw [hruns]; exact List.mem_singleton_self list)
    · intro b hb
      obtain ⟨a, ha, hab⟩ := List.mem_flatMap.1 hb
      rw [hparted a ha b hab, hlist a ha]

/-- The runs of what the elements stand for are what the runs stand for. -/
theorem runs_flatMap (hparted : ∀ a ∈ list, ∀ b ∈ f a, parted b = parts a)
    (hparts : ∀ a ∈ list, parts a → f a ≠ [])
    (hrun : ∀ run ∈ runs parts list, run.flatMap f ≠ []) :
    runs parted (list.flatMap f) = (runs parts list).map (·.flatMap f) := by
  induction list using induction_on_runs parts with
  | alone front hfront => exact runs_flatMap_of_forall hfront hparted hrun
  | append front a rest hfront ha ih =>
    rw [List.forall_mem_append, List.forall_mem_cons] at hparted hparts
    rw [runs_append_cons ha, List.forall_mem_append] at hrun
    obtain ⟨b, others, hcons⟩ := List.exists_cons_of_ne_nil (hparts.2.1 ha)
    have hall : ∀ c ∈ b :: others, parted c := by
      intro c hc
      rw [hparted.2.1 c (hcons ▸ hc), ha]
    rw [List.forall_mem_cons] at hall
    have hleft := runs_flatMap_of_forall hfront hparted.1 hrun.1
    have hright := ih hparted.2.2 hparts.2.2 hrun.2
    rw [List.flatMap_append, List.flatMap_cons, hcons, List.cons_append, runs_append_cons hall.1,
      runs_append_of_forall hall.2, runs_append_cons ha, List.map_append, hleft, hright]

/-- Elements between the parting ones can be left out before or after the list is cut. -/
theorem runs_filter {keeps : α → Bool} (hparts : ∀ a ∈ list, parts a → keeps a)
    (hrun : ∀ run ∈ runs parts list, ∃ a ∈ run, keeps a) :
    runs parts (list.filter keeps) = (runs parts list).map (·.filter keeps) := by
  have hfilter (elements : List α) :
      elements.flatMap (fun a ↦ [a].filter keeps) = elements.filter keeps := by
    rw [← List.filter_flatMap, List.flatMap_singleton']
  have hparted : ∀ a ∈ list, ∀ b ∈ [a].filter keeps, parts b = parts a := by
    intro a _ b hb
    rw [List.mem_singleton.1 (List.mem_filter.1 hb).1]
  have hkept : ∀ a ∈ list, parts a → [a].filter keeps ≠ [] := by
    intro a ha hpart
    rw [List.filter_cons_of_pos (hparts a ha hpart)]
    exact List.cons_ne_nil a _
  have hne : ∀ run ∈ runs parts list, run.flatMap (fun a ↦ [a].filter keeps) ≠ [] := by
    intro run hmem
    obtain ⟨a, ha, hkeeps⟩ := hrun run hmem
    rw [hfilter]
    exact List.ne_nil_of_mem (List.mem_filter.2 ⟨ha, hkeeps⟩)
  calc
    runs parts (list.filter keeps) = runs parts (list.flatMap fun a ↦ [a].filter keeps) := by
      rw [hfilter]
    _ = (runs parts list).map (·.flatMap fun a ↦ [a].filter keeps) :=
      runs_flatMap hparted hkept hne
    _ = (runs parts list).map (·.filter keeps) :=
      List.map_congr_left fun run _ ↦ hfilter run

end TouchTarget.Text
