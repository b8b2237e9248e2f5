import Mathlib
import TouchTarget.Config.Decoding
import TouchTarget.Proofs.Results.Totals
import TouchTarget.Results.Document

/-!
# Results looked up by the names of the viewports

The document of the results has its reports under the names of their viewports, and the results
themselves are asked for a report by a name. Nothing keeps two viewports of a configuration from
sharing a name, and then only the first of them is ever found. The main statement says what a reader
finds who goes by names, and that he misses nothing exactly if the names differ.
-/

namespace TouchTarget

namespace Json

def members : Json → List (String × Json)
  | object members => members
  | _ => []

/-- The first member of that name. -/
def member? (json : Json) (name : String) : Option Json :=
  json.members.lookup name

end Json

namespace Results

/-- The names under which the document has its reports. -/
def keys (results : Results) : List String :=
  (((results.toJson.member? "viewports").map Json.members).getD []).map (·.1)

/-- The verdicts that are found if each of these names is looked up once. -/
def verdictsByName (results : Results) : List Verdict :=
  (results.keys.dedup.filterMap results.viewport?).flatMap (·.tests)

theorem keys_eq (results : Results) : results.keys = results.viewports.map (·.name) := by
  have hmember : results.toJson.member? "viewports" =
      some (.object (results.viewports.map fun report ↦ (report.name, report.toJson))) := rfl
  rw [keys, hmember]
  exact List.map_map

/-- Results by names: the document has one key for each viewport of the configuration, no two of
them the same, each viewport is found under its name with its own width, minimum and verdicts, and
no verdict is missed. -/
structure IsIndexed (results : Results) (config : Config) (sheet : StyleSheet) : Prop where
  keys_nodup : results.keys.Nodup
  length_keys : results.keys.length = config.viewports.length
  viewport?_eq : ∀ viewport ∈ config.viewports, results.viewport? viewport.name =
    some ⟨viewport.name, viewport.width, viewport.minSize,
      config.targets.map (sheet.verdict viewport)⟩
  length_verdictsByName : results.verdictsByName.length =
    config.viewports.length * config.targets.length

end Results

namespace Config

variable (config : Config) (timestamp : String) (sheet : StyleSheet)

theorem keys_analyze :
    (config.analyze timestamp sheet).keys = config.viewports.map (·.name) := by
  rw [Results.keys_eq, analyze, List.map_map]
  rfl

/-- Of the viewports of a name, the first one is found. -/
theorem viewport?_analyze (name : String) :
    (config.analyze timestamp sheet).viewport? name =
      (config.viewports.find? (·.name = name)).map (sheet.report config.targets) := by
  rw [Results.viewport?, analyze, List.find?_map]
  rfl

theorem exists_viewport?_analyze {name : String} (h : name ∈ config.viewports.map (·.name)) :
    ∃ viewport ∈ config.viewports, viewport.name = name ∧
      (config.analyze timestamp sheet).viewport? name =
        some (sheet.report config.targets viewport) := by
  obtain ⟨viewport, hmem, hname⟩ := List.mem_map.1 h
  have hsome : (config.viewports.find? (·.name = name)).isSome :=
    List.find?_isSome.2 ⟨viewport, hmem, decide_eq_true hname⟩
  obtain ⟨first, hfirst⟩ := Option.isSome_iff_exists.1 hsome
  have hfirstName := List.find?_some hfirst
  refine ⟨first, List.mem_of_find?_eq_some hfirst, of_decide_eq_true hfirstName, ?_⟩
  rw [viewport?_analyze, hfirst, Option.map_some]

/-- Each name that is looked up gives the verdicts on all targets. -/
theorem length_tests_of_names {names : List String}
    (h : ∀ name ∈ names, name ∈ config.viewports.map (·.name)) :
    ((names.filterMap (config.analyze timestamp sheet).viewport?).flatMap (·.tests)).length =
      names.length * config.targets.length := by
  induction names with
  | nil => rw [List.length_nil, Nat.zero_mul]; rfl
  | cons name names ih =>
    obtain ⟨hname, hnames⟩ := List.forall_mem_cons.1 h
    obtain ⟨viewport, -, -, hfound⟩ := config.exists_viewport?_analyze timestamp sheet hname
    have htests : (sheet.report config.targets viewport).tests.length = config.targets.length :=
      List.length_map _
    rw [List.filterMap_cons_some hfound, List.flatMap_cons, List.length_append, ih hnames, htests,
      List.length_cons, Nat.succ_mul, Nat.add_comm]

theorem length_verdictsByName_analyze : (config.analyze timestamp sheet).verdictsByName.length =
    (config.viewports.map (·.name)).dedup.length * config.targets.length := by
  rw [Results.verdictsByName, keys_analyze]
  exact config.length_tests_of_names timestamp sheet fun _ h ↦ List.mem_dedup.1 h

/-- Where no name is repeated, every viewport is the first of its name. -/
theorem viewport?_analyze_of_nodup (h : (config.viewports.map (·.name)).Nodup)
    {viewport : Viewport} (hmem : viewport ∈ config.viewports) :
    (config.analyze timestamp sheet).viewport? viewport.name =
      some (sheet.report config.targets viewport) := by
  obtain ⟨first, hfirst, hname, hfound⟩ :=
    config.exists_viewport?_analyze timestamp sheet (List.mem_map_of_mem hmem)
  obtain rfl : first = viewport := List.inj_on_of_nodup_map h hfirst hmem hname
  exact hfound

/-- A name finds the report of the first viewport that has it, so that a reader who looks each name
up once sees the verdicts of as many viewports as there are names. The results of a run can be read
by names, without missing any viewport or verdict, exactly if no two viewports of the configuration
share a name. -/
theorem isIndexed_analyze_iff (config : Config) (timestamp : String) (sheet : StyleSheet) :
    let results := config.analyze timestamp sheet
    let names := config.viewports.map (·.name)
    (∀ name, results.viewport? name =
        (config.viewports.find? (·.name = name)).map (sheet.report config.targets)) ∧
      results.verdictsByName.length = names.dedup.length * config.targets.length ∧
      (results.IsIndexed config sheet ↔ names.Nodup) := by
  intro results names
  have hkeys : results.keys = names := config.keys_analyze timestamp sheet
  have hlength : results.verdictsByName.length = names.dedup.length * config.targets.length :=
    config.length_verdictsByName_analyze timestamp sheet
  refine ⟨config.viewport?_analyze timestamp sheet, hlength, ?_⟩
  constructor
  · intro hindexed
    rw [← hkeys]
    exact hindexed.keys_nodup
  · intro hnames
    exact {
      keys_nodup := by rwa [hkeys]
      length_keys := by rw [hkeys, List.length_map]
      viewport?_eq := fun _ hmem ↦ config.viewport?_analyze_of_nodup timestamp sheet hnames hmem
      length_verdictsByName := by rw [hlength, hnames.dedup, List.length_map] }

set_option maxRecDepth 2000 in
/-- Two viewports of one name are accepted, and the second one is not found any more. -/
theorem not_isIndexed_analyze_of_repeated_name :
    let config : Config := ⟨[⟨"A", 320, 48⟩, ⟨"A", 768, 44⟩], [⟨"#a", "B"⟩]⟩
    let sheet := StyleSheet.parse "#a{width:46px;height:46px}"
    let results := config.analyze "now" sheet
    Config.parse ("viewports=[[\x22A\x22,320,48],[\x22A\x22,768,44]]\n" ++
      "targets=[[\x22#a\x22,\x22B\x22]]") = .ok config ∧
      results.keys = ["A", "A"] ∧
      results.viewport? "A" = some (sheet.report config.targets ⟨"A", 320, 48⟩) ∧
      ¬results.IsIndexed config sheet := by
  intro config sheet results
  have hparse : Config.parse ("viewports=[[\x22A\x22,320,48],[\x22A\x22,768,44]]\n" ++
      "targets=[[\x22#a\x22,\x22B\x22]]") = .ok config := by cbv
  have hkeys : results.keys = ["A", "A"] := config.keys_analyze _ _
  refine ⟨hparse, hkeys, config.viewport?_analyze _ _ "A", ?_⟩
  intro hindexed
  have hnodup := hindexed.keys_nodup
  rw [hkeys] at hnodup
  exact absurd hnodup (by decide)

end Config

end TouchTarget
