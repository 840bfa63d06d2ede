import OnshapeExport.ParameterNormalization

/-!
# VisibilityConditions

Trees of visibility conditions as Onshape answers them, what is made of them, and how the page
evaluates what was made.

* `VisibilityTree` — a tree and its meaning; `Reads` says which answer it stands for.
* `evaluateVisibilityCondition` — the page's evaluation of a normalized condition.
* `visibility_preserved` — both agree, and a node that is not understood hides nothing.
-/

namespace OnshapeExport
namespace Parameters

open Json

/-- The values of the controls of a form; a missing control has none. -/
abbrev FormValues := String → Option String

def normalizeParameterValue (value : String) : String :=
  if value = "on" ∨ value = "1" then "true" else if value = "0" then "false" else value

/-! ## The page's evaluation -/

section Evaluate

variable (form : FormValues)

mutual

def evaluateVisibilityCondition : ParameterVisibilityCondition → Bool
  | .all conditions => everyCondition conditions
  | .any conditions => conditions.isEmpty || someCondition conditions
  | .equal parameterId values =>
    match form parameterId with
    | none => true
    | some value =>
      values.isEmpty || (values.map normalizeParameterValue).contains (normalizeParameterValue value)

def everyCondition : List ParameterVisibilityCondition → Bool
  | [] => true
  | condition :: conditions =>
    evaluateVisibilityCondition condition && everyCondition conditions

def someCondition : List ParameterVisibilityCondition → Bool
  | [] => false
  | condition :: conditions =>
    evaluateVisibilityCondition condition || someCondition conditions

end

/-- A parameter without a condition is always shown. -/
def shown : Option ParameterVisibilityCondition → Bool
  | none => true
  | some condition => evaluateVisibilityCondition form condition

end Evaluate

/-! ## Trees -/

inductive VisibilityTree where
  | always
  | all (children : List VisibilityTree)
  | any (children : List VisibilityTree)
  | equal (parameterId : String) (scalars : List Value)

def IsScalar : Value → Prop
  | .string _ | .number _ | .bool _ => True
  | _ => False

/-- A node of a logical operation, with its children. -/
structure IsLogical (v : Value) (operation : String) (children : List Value) : Prop where
  node : ∃ object, v = .object object ∧ messageOf object ≠ [] ∧
    isLogicalCondition object (messageOf object) = true ∧
    (firstText (messageOf object) ["operation"]).map toAsciiUppercase = some operation ∧
    childrenOf (messageOf object) = some children

section Trees

variable (numberText : Number → String)

/-- A node that compares a parameter with one scalar, or with the scalars of an array. -/
structure IsEqual (v : Value) (parameterId : String) (scalars : List Value) : Prop where
  node : ∃ object value, v = .object object ∧ messageOf object ≠ [] ∧
    isLogicalCondition object (messageOf object) = false ∧
    isEqualCondition object (messageOf object) = true ∧
    firstString numberText (messageOf object) ["parameterId"] = some parameterId ∧
    get? (messageOf object) "value" = some value ∧
    (scalars = [value] ∨
      (value = .array scalars ∧ get? (messageOf object) "inArray" = some (.bool true)))
  scalar : ∀ s ∈ scalars, IsScalar s
  nonempty : scalars ≠ []

/-- A node that is neither empty nor of one of the two types. -/
def IsUnsupported (v : Value) : Prop :=
  ∀ object, v = .object object → messageOf object ≠ [] ∧
    isLogicalCondition object (messageOf object) = false ∧
    isEqualCondition object (messageOf object) = false

mutual

/-- An answer of Onshape stands for a tree. -/
def Reads : VisibilityTree → Value → Prop
  | .always, v => ∃ object, v = .object object ∧ messageOf object = []
  | .all trees, v => ∃ children, IsLogical v "AND" children ∧ trees ≠ [] ∧ ReadsAll trees children
  | .any trees, v => ∃ children, IsLogical v "OR" children ∧ trees ≠ [] ∧ ReadsAll trees children
  | .equal parameterId scalars, v => IsEqual numberText v parameterId scalars

def ReadsAll : List VisibilityTree → List Value → Prop
  | [], values => values = []
  | tree :: trees, values =>
    ∃ v rest, values = v :: rest ∧ Reads tree v ∧ ReadsAll trees rest

end

/-- A control has the value of a scalar, booleans being spelt in several ways. -/
def equalsScalar (value : String) : Value → Bool
  | .string s => normalizeParameterValue value = normalizeParameterValue s
  | .bool b => normalizeParameterValue value = toString b
  | .number n => normalizeParameterValue value = normalizeParameterValue (numberText n)
  | _ => false

mutual

/-- The meaning of a tree. -/
def VisibilityTree.eval (form : FormValues) : VisibilityTree → Bool
  | .always => true
  | .all trees => evalEvery form trees
  | .any trees => evalSome form trees
  | .equal parameterId scalars =>
    match form parameterId with
    | none => true
    | some value => scalars.any (equalsScalar numberText value)

def evalEvery (form : FormValues) : List VisibilityTree → Bool
  | [] => true
  | tree :: trees => tree.eval form && evalEvery form trees

def evalSome (form : FormValues) : List VisibilityTree → Bool
  | [] => false
  | tree :: trees => tree.eval form || evalSome form trees

end

/-- The loops over the children come to a node that is not understood. -/
inductive ReachesUnsupported : Value → Prop
  | here {v : Value} (h : IsUnsupported v) : ReachesUnsupported v
  | child {v c : Value} {operation : String} {before after : List Value}
      (hv : IsLogical v operation (before ++ c :: after))
      (hbefore : operation = "OR" →
        ∀ b ∈ before, normalizeVisibilityConditionResult numberText b ≠ .ok none)
      (hc : ReachesUnsupported c) : ReachesUnsupported v

/-! ## Nodes -/

variable {numberText : Number → String}

theorem normalizeResult_logical {v : Value} {operation : String} {children : List Value}
    (h : IsLogical v operation children) :
    normalizeVisibilityConditionResult numberText v =
      normalizeChildren numberText operation children [] := by
  obtain ⟨object, rfl, hne, hlogical, hoperation, hchildren⟩ := h.node
  rw [normalizeVisibilityConditionResult]
  simp only [hne, if_false, hlogical, if_true, hoperation]
  split
  · rename_i operation' children' ho hc
    rw [hchildren] at hc
    rw [Option.some.inj ho, Option.some.inj hc]
  · rename_i hnot
    exact absurd hchildren (hnot operation children rfl)

theorem valueToString_scalar {s : Value} (h : IsScalar s) :
    ∃ text, valueToString numberText s = some text := by
  cases s <;> first | exact h.elim | exact ⟨_, rfl⟩

theorem mapM_valueToString {l : List Value} (h : ∀ s ∈ l, IsScalar s) :
    ∃ values, l.mapM (valueToString numberText) = some values ∧ values.length = l.length := by
  induction l with
  | nil => exact ⟨[], rfl, rfl⟩
  | cons s l ih =>
    obtain ⟨text, hs⟩ := @valueToString_scalar numberText _ (h s List.mem_cons_self)
    obtain ⟨values, hvalues, hlength⟩ := ih fun x hx => h x (List.mem_cons_of_mem _ hx)
    exact ⟨text :: values, by simp [List.mapM_cons, hs, hvalues], by simp [hlength]⟩

theorem visibilityConditionValues_scalar {value : Value} (h : IsScalar value) (inArray : Bool) :
    visibilityConditionValues numberText value inArray =
      (valueToString numberText value).map fun text => [text] := by
  obtain ⟨text, htext⟩ := @valueToString_scalar numberText _ h
  cases value <;> first | exact h.elim | (cases inArray <;> simp [visibilityConditionValues, htext])

theorem visibilityConditionValues_array {items : List Value} {values : List String}
    (h : items.mapM (valueToString numberText) = some values) (hne : values ≠ []) :
    visibilityConditionValues numberText (.array items) true = some values := by
  simp [visibilityConditionValues, h, hne]

theorem normalizeResult_equal {v : Value} {parameterId : String} {scalars : List Value}
    (h : IsEqual numberText v parameterId scalars) :
    ∃ values, scalars.mapM (valueToString numberText) = some values ∧ values ≠ [] ∧
      normalizeVisibilityConditionResult numberText v =
        .ok (some (.equal parameterId values)) := by
  obtain ⟨object, value, rfl, hne, hlogical, hequal, hid, hvalue, hscalars⟩ := h.node
  obtain ⟨values, hvalues, hlength⟩ := @mapM_valueToString numberText _ h.scalar
  have hnonempty : values ≠ [] := by
    rintro rfl
    exact h.nonempty (List.eq_nil_of_length_eq_zero hlength.symm)
  have hread : visibilityConditionValues numberText value
      (((get? (messageOf object) "inArray").bind asBool).getD false) = some values := by
    rcases hscalars with rfl | ⟨rfl, hin⟩
    · rw [visibilityConditionValues_scalar (h.scalar value List.mem_cons_self)]
      obtain ⟨text, htext⟩ :=
        @valueToString_scalar numberText _ (h.scalar value List.mem_cons_self)
      have hone : some [text] = some values := by simpa [List.mapM_cons, htext] using hvalues
      rw [htext, Option.map_some, hone]
    · rw [hin]
      exact visibilityConditionValues_array hvalues hnonempty
  refine ⟨values, hvalues, hnonempty, ?_⟩
  rw [normalizeVisibilityConditionResult]
  simp [hne, hlogical, hequal, normalizeEqualVisibilityCondition, hid, hvalue, hread]

theorem normalizeResult_unsupported {v : Value} (h : IsUnsupported v) :
    normalizeVisibilityConditionResult numberText v = .error () := by
  cases v with
  | object object =>
    obtain ⟨hne, hlogical, hequal⟩ := h object rfl
    rw [normalizeVisibilityConditionResult]
    simp [hne, hlogical, hequal]
  | _ => rw [normalizeVisibilityConditionResult]; simp

/-! ## Meaning -/

theorem everyCondition_append (form : FormValues) (first second) :
    everyCondition form (first ++ second) =
      (everyCondition form first && everyCondition form second) := by
  induction first with
  | nil => simp [everyCondition]
  | cons condition first ih => simp [everyCondition, ih, Bool.and_assoc]

theorem someCondition_append (form : FormValues) (first second) :
    someCondition form (first ++ second) =
      (someCondition form first || someCondition form second) := by
  induction first with
  | nil => simp [someCondition]
  | cons condition first ih => simp [someCondition, ih, Bool.or_assoc]

/-- What is made of an answer means what the tree means. -/
def Preserved (numberText : Number → String) (tree : VisibilityTree) (v : Value) : Prop :=
  ∃ condition, normalizeVisibilityConditionResult numberText v = .ok condition ∧
    ∀ form, shown form condition = tree.eval numberText form

theorem normalizeChildren_and {trees : List VisibilityTree} {values : List Value}
    (each : ∀ tree ∈ trees, ∀ v, Reads numberText tree v →
      Preserved numberText tree v)
    (h : ReadsAll numberText trees values) (conditions : List ParameterVisibilityCondition) :
    ∃ condition, normalizeChildren numberText "AND" values conditions = .ok condition ∧
      ∀ form, shown form condition =
        (everyCondition form conditions && evalEvery numberText form trees) := by
  induction trees generalizing values conditions with
  | nil =>
    rw [ReadsAll] at h
    subst h
    rw [normalizeChildren, joinConditions]
    by_cases hempty : conditions = []
    · refine ⟨none, by simp [hempty], fun form => ?_⟩
      simp [hempty, shown, everyCondition, evalEvery]
    · refine ⟨some (.all conditions), by simp [hempty], fun form => ?_⟩
      simp [shown, evaluateVisibilityCondition, evalEvery]
  | cons tree trees ih =>
    rw [ReadsAll] at h
    obtain ⟨v, rest, rfl, hv, hrest⟩ := h
    obtain ⟨made, hmade, hmeaning⟩ := each tree List.mem_cons_self v hv
    have hothers := fun other hother => each other (List.mem_cons_of_mem _ hother)
    rw [normalizeChildren, hmade]
    cases made with
    | none =>
      obtain ⟨condition, hcondition, hall⟩ := ih hothers hrest conditions
      refine ⟨condition, by simpa using hcondition, fun form => ?_⟩
      rw [hall form, evalEvery, ← hmeaning form]
      simp [shown]
    | some made =>
      obtain ⟨condition, hcondition, hall⟩ := ih hothers hrest (conditions ++ [made])
      refine ⟨condition, hcondition, fun form => ?_⟩
      rw [hall form, evalEvery, ← hmeaning form, everyCondition_append]
      simp [shown, everyCondition, Bool.and_assoc]

/-- An alternative that is always met ends the loop; what is left out of it does not matter. -/
theorem normalizeChildren_or {trees : List VisibilityTree} {values : List Value}
    (each : ∀ tree ∈ trees, ∀ v, Reads numberText tree v →
      Preserved numberText tree v)
    (h : ReadsAll numberText trees values) (conditions : List ParameterVisibilityCondition)
    (hne : trees ≠ [] ∨ conditions ≠ []) :
    ∃ condition, normalizeChildren numberText "OR" values conditions = .ok condition ∧
      ∀ form, shown form condition =
        (someCondition form conditions || evalSome numberText form trees) := by
  induction trees generalizing values conditions with
  | nil =>
    rw [ReadsAll] at h
    subst h
    have hsome : conditions ≠ [] := hne.resolve_left fun hno => hno rfl
    rw [normalizeChildren, joinConditions]
    refine ⟨some (.any conditions), by simp [hsome], fun form => ?_⟩
    simp [shown, evaluateVisibilityCondition, evalSome, hsome]
  | cons tree trees ih =>
    rw [ReadsAll] at h
    obtain ⟨v, rest, rfl, hv, hrest⟩ := h
    obtain ⟨made, hmade, hmeaning⟩ := each tree List.mem_cons_self v hv
    rw [normalizeChildren, hmade]
    cases made with
    | none =>
      refine ⟨none, by simp, fun form => ?_⟩
      rw [evalSome, ← hmeaning form]
      simp [shown]
    | some made =>
      obtain ⟨condition, hcondition, hall⟩ :=
        ih (fun other hother => each other (List.mem_cons_of_mem _ hother)) hrest
          (conditions ++ [made]) (Or.inr (by simp))
      refine ⟨condition, hcondition, fun form => ?_⟩
      rw [hall form, evalSome, ← hmeaning form, someCondition_append]
      simp [shown, someCondition, Bool.or_assoc]

theorem contains_scalars {scalars : List Value} {values : List String} (value : String)
    (h : scalars.mapM (valueToString numberText) = some values)
    (hscalar : ∀ s ∈ scalars, IsScalar s) :
    (values.map normalizeParameterValue).contains (normalizeParameterValue value) =
      scalars.any (equalsScalar numberText value) := by
  induction scalars generalizing values with
  | nil =>
    obtain rfl : [] = values := by simpa using h
    rfl
  | cons s scalars ih =>
    obtain ⟨text, htext, rest, hrest, rfl⟩ : ∃ text, valueToString numberText s = some text ∧
        ∃ rest, scalars.mapM (valueToString numberText) = some rest ∧ text :: rest = values := by
      simpa [List.mapM_cons, Option.bind_eq_some_iff] using h
    rw [List.map_cons, List.contains_cons, List.any_cons,
      ih hrest fun x hx => hscalar x (List.mem_cons_of_mem _ hx)]
    congr 1
    have hs := hscalar s List.mem_cons_self
    cases s with
    | string s =>
      obtain rfl := Option.some.inj htext
      simp only [equalsScalar]
      exact Bool.eq_iff_iff.mpr (by simp)
    | number n =>
      obtain rfl := Option.some.inj htext
      simp only [equalsScalar]
      exact Bool.eq_iff_iff.mpr (by simp)
    | bool b =>
      obtain rfl := Option.some.inj htext
      have hbool : normalizeParameterValue (toString b) = toString b := by
        cases b <;> decide
      simp only [equalsScalar, hbool]
      exact Bool.eq_iff_iff.mpr (by simp)
    | _ => exact hs.elim

theorem preserved (tree : VisibilityTree) (v : Value) (h : Reads numberText tree v) :
    Preserved numberText tree v := by
  match tree with
  | .always =>
    rw [Reads] at h
    obtain ⟨object, rfl, hempty⟩ := h
    refine ⟨none, ?_, fun form => ?_⟩
    · rw [normalizeVisibilityConditionResult]
      simp [hempty]
    · rw [VisibilityTree.eval, shown]
  | .all trees =>
    rw [Reads] at h
    obtain ⟨children, hv, -, hchildren⟩ := h
    obtain ⟨condition, hcondition, hmeaning⟩ :=
      normalizeChildren_and (fun tree htree v hv => preserved tree v hv) hchildren []
    refine ⟨condition, by rw [normalizeResult_logical hv, hcondition], fun form => ?_⟩
    rw [hmeaning form, VisibilityTree.eval, everyCondition, Bool.true_and]
  | .any trees =>
    rw [Reads] at h
    obtain ⟨children, hv, hne, hchildren⟩ := h
    obtain ⟨condition, hcondition, hmeaning⟩ :=
      normalizeChildren_or (fun tree htree v hv => preserved tree v hv) hchildren [] (Or.inl hne)
    refine ⟨condition, by rw [normalizeResult_logical hv, hcondition], fun form => ?_⟩
    rw [hmeaning form, VisibilityTree.eval, someCondition, Bool.false_or]
  | .equal parameterId scalars =>
    rw [Reads] at h
    obtain ⟨values, hvalues, hne, hresult⟩ := normalizeResult_equal h
    refine ⟨some (.equal parameterId values), hresult, fun form => ?_⟩
    rw [shown, evaluateVisibilityCondition, VisibilityTree.eval]
    cases form parameterId with
    | none => rfl
    | some value =>
      simp only [List.isEmpty_eq_false_iff.mpr hne, Bool.false_or]
      exact contains_scalars value hvalues h.scalar
termination_by tree
decreasing_by
  all_goals
    have hlt := List.sizeOf_lt_of_mem htree
    simp only [VisibilityTree.all.sizeOf_spec, VisibilityTree.any.sizeOf_spec]
    omega

/-! ## Nodes that are not understood -/

theorem normalizeChildren_error {operation : String} {before after : List Value} {c : Value}
    (hc : normalizeVisibilityConditionResult numberText c = .error ())
    (hbefore : operation = "OR" →
      ∀ b ∈ before, normalizeVisibilityConditionResult numberText b ≠ .ok none)
    (conditions : List ParameterVisibilityCondition) :
    normalizeChildren numberText operation (before ++ c :: after) conditions = .error () := by
  induction before generalizing conditions with
  | nil => rw [List.nil_append, normalizeChildren, hc]
  | cons b before ih =>
    have hrest := ih fun hor x hx => hbefore hor x (List.mem_cons_of_mem _ hx)
    rw [List.cons_append, normalizeChildren]
    cases hb : normalizeVisibilityConditionResult numberText b with
    | error => rfl
    | ok made =>
      cases made with
      | some made => exact hrest _
      | none =>
        have hnot : operation ≠ "OR" := fun hor => hbefore hor b List.mem_cons_self hb
        simp only [hnot, if_false]
        exact hrest conditions

theorem normalizeResult_reaches {v : Value} (h : ReachesUnsupported numberText v) :
    normalizeVisibilityConditionResult numberText v = .error () := by
  induction h with
  | here h => exact normalizeResult_unsupported h
  | child hv hbefore _ ih =>
    rw [normalizeResult_logical hv]
    exact normalizeChildren_error ih hbefore []

end Trees

theorem visibility_preserved (numberText : Number → String) :
    (∀ tree v, Reads numberText tree v → ∀ form,
      shown form (normalizeVisibilityCondition numberText v) = tree.eval numberText form) ∧
    (∀ v, ReachesUnsupported numberText v →
      normalizeVisibilityCondition numberText v = none ∧
      ∀ form, shown form (normalizeVisibilityCondition numberText v) = true) := by
  refine ⟨fun tree v h form => ?_, fun v h => ?_⟩
  · obtain ⟨condition, hcondition, hmeaning⟩ := preserved tree v h
    rw [normalizeVisibilityCondition, hcondition, hmeaning form]
  · have hnone : normalizeVisibilityCondition numberText v = none := by
      rw [normalizeVisibilityCondition, normalizeResult_reaches h]
    exact ⟨hnone, fun form => by rw [hnone, shown]⟩

/-- Shown where the lid is round or oval, beside an alternative that says nothing. -/
def roundOrOval : Value :=
  .object [("message", .object [("children", .array [
    .object [("message", .object [("inArray", .bool true), ("parameterId", .string "lid"),
      ("value", .array [.string "round", .string "oval"])])],
    .object [("message", .object [])]]), ("operation", .string "and")])]

/-- A node of a type that is not known, below an operation. -/
def unknownNode : Value :=
  .object [("message", .object [("children", .array [
    .object [("message", .object [("limit", .number (.int 3))])]]),
    ("operation", .string "AND")])]

theorem reads_roundOrOval (numberText : Number → String) :
    Reads numberText (.all [.equal "lid" [.string "round", .string "oval"], .always])
      roundOrOval := by
  rw [Reads]
  refine ⟨_, ⟨_, rfl, by decide, by decide, by decide, rfl⟩, by simp, ?_⟩
  rw [ReadsAll]
  refine ⟨_, _, rfl, ?_, ?_⟩
  · rw [Reads]
    refine ⟨⟨_, _, rfl, by decide, by decide, by decide, rfl, rfl, Or.inr ⟨rfl, rfl⟩⟩, ?_, by simp⟩
    intro s hs
    rcases List.mem_pair.mp hs with rfl | rfl <;> trivial
  · rw [ReadsAll]
    refine ⟨_, _, rfl, ?_, by rw [ReadsAll]⟩
    rw [Reads]
    exact ⟨_, rfl, by decide⟩

theorem reaches_unknownNode (numberText : Number → String) :
    ReachesUnsupported numberText unknownNode := by
  have hv : IsLogical unknownNode "AND"
      ([] ++ .object [("message", .object [("limit", .number (.int 3))])] :: []) :=
    ⟨_, rfl, by decide, by decide, by decide, rfl⟩
  refine .child hv (fun h => absurd h (by decide)) (.here ?_)
  rintro object ho
  obtain rfl := Value.object.inj ho
  exact ⟨by decide, by decide, by decide⟩

theorem visibility_preserved_lid :
    shown (fun _ => some "square") (normalizeVisibilityCondition (fun _ => "3") roundOrOval) =
      false ∧
    shown (fun _ => none) (normalizeVisibilityCondition (fun _ => "3") unknownNode) = true := by
  obtain ⟨hmeaning, hunknown⟩ := visibility_preserved fun _ => "3"
  refine ⟨?_, (hunknown _ (reaches_unknownNode _)).2 _⟩
  rw [hmeaning _ _ (reads_roundOrOval _)]
  simp [VisibilityTree.eval, evalEvery, equalsScalar, normalizeParameterValue]

end Parameters
end OnshapeExport
