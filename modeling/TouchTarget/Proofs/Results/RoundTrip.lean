import TouchTarget.Proofs.Json.Exactness
import TouchTarget.Results.Document

/-!
# Saved results lose nothing

Each part of the results is taken back out of its document: a count of pixels must fit 32 bits, a
status must be one of the two words, and an object must have exactly the members that the results
give it, in their order. The report of a viewport takes its name from the object around it, so
viewports of one name are told apart by their places.

The saved text has one document, and that document has one reading as results.
-/

namespace TouchTarget

/-! ## Reading results back -/

def Json.string? : Json → Option String
  | .string value => some value
  | _ => none

def Json.number? : Json → Option Nat
  | .number value => some value
  | _ => none

/-- A list whose elements are read one after the other. -/
def Json.list? {α : Type} (read : Json → Option α) : Json → Option (List α)
  | .array elements => elements.mapM read
  | _ => none

def Pixels.ofJson? : Json → Option Pixels
  | .number value => if h : value < UInt32.size then some (.ofNatLT value h) else none
  | _ => none

def Status.ofJson? : Json → Option Status
  | .string "pass" => some .pass
  | .string "fail" => some .fail
  | _ => none

def Box.ofJson? : Json → Option Box
  | .object [("width", width), ("height", height)] => do
    return ⟨← Pixels.ofJson? width, ← Pixels.ofJson? height⟩
  | _ => none

def Verdict.ofJson? : Json → Option Verdict
  | .object
      [("selector", selector), ("name", name), ("viewport", viewport), ("expected", expected),
        ("actual", actual), ("status", status), ("issues", issues)] => do
    return ⟨← selector.string?, ← name.string?, ← viewport.string?, ← Pixels.ofJson? expected,
      ← Box.ofJson? actual, ← Status.ofJson? status, ← issues.list? Json.string?⟩
  | _ => none

/-- A report and the name that it stands under. -/
def ViewportReport.ofMember? : String × Json → Option ViewportReport
  | (name, .object [("width", width), ("minSize", minSize), ("tests", tests)]) => do
    return ⟨name, ← Pixels.ofJson? width, ← Pixels.ofJson? minSize, ← tests.list? Verdict.ofJson?⟩
  | _ => none

def Summary.ofJson? : Json → Option Summary
  | .object [("totalTests", total), ("passed", passed), ("failed", failed),
      ("warnings", warnings)] => do
    return ⟨← total.number?, ← passed.number?, ← failed.number?, ← warnings.number?⟩
  | _ => none

def Results.ofJson? : Json → Option Results
  | .object [("timestamp", timestamp), ("viewports", .object viewports), ("summary", summary)] => do
    return ⟨← timestamp.string?, ← viewports.mapM ViewportReport.ofMember?,
      ← Summary.ofJson? summary⟩
  | _ => none

/-! ## Nothing is lost on the way -/

@[simp] theorem Json.string?_string (value : String) : (Json.string value).string? = some value :=
  rfl

@[simp] theorem Json.number?_number (value : Nat) : (Json.number value).number? = some value :=
  rfl

/-- Elements that are each read back are read back together. -/
theorem mapM_map_of_forall_eq_some {α β : Type} {write : α → β} {read : β → Option α}
    (h : ∀ value, read (write value) = some value) (values : List α) :
    (values.map write).mapM read = some values := by
  have hread : read ∘ write = fun value ↦ pure value := by
    funext value
    exact h value
  rw [List.mapM_map, hread, List.mapM_pure, List.map_id']
  rfl

@[simp] theorem Pixels.ofJson?_toJson (pixels : Pixels) : ofJson? pixels.toJson = some pixels := by
  simp [toJson, ofJson?, UInt32.toNat_lt_size]

@[simp] theorem Status.ofJson?_word (status : Status) :
    ofJson? (.string status.word) = some status := by
  cases status <;> rfl

@[simp] theorem Box.ofJson?_toJson (box : Box) : ofJson? box.toJson = some box := by
  simp [toJson, ofJson?]

@[simp] theorem Verdict.ofJson?_toJson (verdict : Verdict) :
    ofJson? verdict.toJson = some verdict := by
  have hissues := mapM_map_of_forall_eq_some Json.string?_string verdict.issues
  simp [toJson, ofJson?, Json.list?, hissues]

@[simp] theorem ViewportReport.ofMember?_toJson (report : ViewportReport) :
    ofMember? (report.name, report.toJson) = some report := by
  have htests := mapM_map_of_forall_eq_some Verdict.ofJson?_toJson report.tests
  simp [toJson, ofMember?, Json.list?, htests]

@[simp] theorem Summary.ofJson?_toJson (summary : Summary) :
    ofJson? summary.toJson = some summary := by
  simp [toJson, ofJson?]

namespace Results

@[simp] theorem ofJson?_toJson (results : Results) : ofJson? results.toJson = some results := by
  have hviewports :=
    mapM_map_of_forall_eq_some ViewportReport.ofMember?_toJson results.viewports
  simp [toJson, ofJson?, hviewports]

theorem toJson_injective : Function.Injective toJson := by
  intro results other h
  apply Option.some.inj
  rw [← ofJson?_toJson results, h, ofJson?_toJson other]

/-- A reader of documents that keeps the order of members and repeated names reads exactly the texts
of documents. The saved text is one of them, and of one document only. The reader takes the results
out of it again, so two results have one text only if they are equal. -/
theorem document_faithful (results other : Results) :
    (∀ text json, Json.read? text = some json ↔ Json.IsTextOf text json) ∧
      (∀ json, Json.IsTextOf results.document json ↔ json = results.toJson) ∧
      (Json.read? results.document).bind ofJson? = some results ∧
      (results.document = other.document ↔ results = other) := by
  have htext (results : Results) : Json.IsTextOf results.document results.toJson :=
    Json.isTextOf_render results.toJson
  refine ⟨Json.read?_eq_some_iff, ?_, ?_, ?_⟩
  · intro json
    constructor
    · intro hjson
      exact (htext results).eq hjson
    · rintro rfl
      exact htext results
  · rw [Json.read?_of_isTextOf (htext results), Option.bind_some, ofJson?_toJson]
  · constructor
    · intro h
      have hother : Json.IsTextOf results.document other.toJson := h ▸ htext other
      exact toJson_injective (hother.eq (htext results))
    · intro h
      rw [h]

end Results

end TouchTarget
