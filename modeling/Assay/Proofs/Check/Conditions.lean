import Assay.Check.Evaluate
import Assay.Proofs.Script.Trials

namespace Assay

/-- The bounds a number can be held to. -/
inductive Bound
  | above
  | atLeast
  | below
  | atMost
deriving DecidableEq

namespace Bound

def name : Bound → String
  | above => "gt"
  | atLeast => "gte"
  | below => "lt"
  | atMost => "lte"

def all : List Bound := [above, atLeast, below, atMost]

def ofName? (name : String) : Option Bound := all.find? fun b => b.name == name

def relation : Bound → Relation
  | above => .greater
  | atLeast => .atLeast
  | below => .less
  | atMost => .atMost

/-- Whether a number keeps a bound. What is no number keeps none. -/
def holds (actual : Option Value) (limit : Value) (b : Bound) : Bool :=
  match actual.bind Value.toDouble?, limit.toDouble? with
  | some x, some y => b.relation.holds x y
  | _, _ => false

theorem compareNumbers_name (b : Bound) (actual : Option Value) (limit : Value) :
    Check.compareNumbers b.name actual limit = b.holds actual limit := by
  cases b <;> rfl

end Bound

/-- The operators by what they do. -/
inductive Operator
  | kind
  | present
  | oneOf
  | bound (b : Bound)
  | contains
  | lacks
  | pattern
  | startsWith
  | endsWith
  | length
  | every
  | any
  | negation
deriving DecidableEq

namespace Operator

def name : Operator → String
  | kind => "type"
  | present => "exists"
  | oneOf => "in"
  | bound b => b.name
  | contains => "contains"
  | lacks => "notContains"
  | pattern => "matches"
  | startsWith => "startsWith"
  | endsWith => "endsWith"
  | length => "length"
  | every => "every"
  | any => "some"
  | negation => "not"

def all : List Operator :=
  [kind, present, oneOf, bound .above, bound .atLeast, bound .below, bound .atMost, contains,
    lacks, pattern, startsWith, endsWith, length, every, any, negation]

def ofName? (name : String) : Option Operator := all.find? fun op => op.name == name

/-- Operators that look at a value as a whole. They come to one check of it and never fail. -/
def isWhole : Operator → Bool
  | pattern | length | every | any | negation => false
  | _ => true

theorem name_of_ofName? {name : String} {op : Operator} (h : ofName? name = some op) :
    op.name = name := by
  have hname := List.find?_some h
  exact beq_iff_eq.mp hname

/-- The names of operators are those that are looked for, and each of them names one operator. -/
theorem ofName?_eq_some {name : String} {op : Operator} :
    ofName? name = some op ↔ name = op.name := by
  refine ⟨fun h => (name_of_ofName? h).symm, ?_⟩
  rintro rfl
  cases op with
  | bound b => cases b <;> rfl
  | _ => rfl

theorem names : all.map name = operatorNames := rfl

theorem isSome_ofName? (name : String) : (ofName? name).isSome = isOperator name := by
  rw [Bool.eq_iff_iff, ofName?, List.find?_isSome, isOperator, List.contains_iff_mem, ← names,
    List.mem_map]
  simp only [beq_iff_eq]

theorem isOperator_of_ofName? {name : String} {op : Operator} (h : ofName? name = some op) :
    isOperator name := by
  rw [← isSome_ofName?, h]
  rfl

theorem not_isOperator_of_ofName? {name : String} (h : ofName? name = none) :
    isOperator name = false := by
  rw [← isSome_ofName?, h]
  rfl

/-- The truth of a condition that looks at a value as a whole. Those that look inside have none of
their own. -/
def truth [Libraries] (op : Operator) (actual : Option Value) (condition : Value) : Bool :=
  match op with
  | kind => condition.asString? == some (Value.kindName actual)
  | present =>
    (match actual with
      | none | some .null => false
      | some _ => true) ==
    (match condition with
      | .bool wanted => wanted
      | _ => true)
  | oneOf => Check.isOneOf actual condition
  | bound b => b.holds actual condition
  | contains => Check.contains? actual condition == some true
  | lacks => Check.contains? actual condition == some false
  | pattern =>
    (Libraries.readPattern condition.text).toOption.any fun occurs => Check.textHolds occurs actual
  | startsWith => Check.textHolds (fun s => Text.startsWith s condition.text) actual
  | endsWith => Check.textHolds (fun s => Text.endsWith s condition.text) actual
  | length | every | any | negation => false

end Operator

namespace Value

/-- Whether the value has parts that go by a name or a place. -/
def isContainer : Value → Bool
  | object _ | array _ => true
  | _ => false

theorem isContainer_of_child? {v child : Value} {key : String} (h : v.child? key = some child) :
    v.isContainer := by
  cases v with
  | object fields | array items => rfl
  | null | bool | number | string => cases h

end Value

namespace Check

variable {fs : Fields} {operators : Bool} {actual : Option Value} {path : String}

theorem compile_eq_ok [Libraries] {pattern : String} {occurs : String → Bool} :
    compile pattern = .ok occurs ↔ Libraries.readPattern pattern = .ok occurs := by
  unfold compile
  cases Libraries.readPattern pattern <;> simp [Except.mapError]

theorem compile_eq_error [Libraries] {pattern : String} {e : Error} :
    compile pattern = .error e ↔
      ∃ reason, Libraries.readPattern pattern = .error reason ∧
        e = .invalidPattern pattern reason := by
  unfold compile
  cases Libraries.readPattern pattern <;> simp [Except.mapError, eq_comm]

theorem evaluateFields_nil [Libraries] : evaluateFields [] operators actual path = .ok [] :=
  evaluateFields.eq_def ..

theorem evaluateFields_cons [Libraries] (f : String × Value) (fs : Fields) :
    evaluateFields (f :: fs) operators actual path = (do
      let first ← evaluateFields [f] operators actual path
      let rest ← evaluateFields fs operators actual path
      pure (first ++ rest)) := by
  obtain ⟨key, condition⟩ := f
  -- Whatever the condition is, its checks are followed by those of the others, or by none.
  have join (own : Except Error (List Check)) :
      (own >>= fun cs => evaluateFields fs operators actual path >>= fun rest =>
        pure (cs ++ rest)) =
      (own >>= fun cs => Except.ok [] >>= fun rest => pure (cs ++ rest)) >>= fun first =>
        evaluateFields fs operators actual path >>= fun rest => pure (first ++ rest) := by
    cases own with
    | error e => rfl
    | ok cs =>
      change _ = evaluateFields fs operators actual path >>= fun rest => pure (cs ++ [] ++ rest)
      rw [List.append_nil]
      rfl
  rw [evaluateFields.eq_def, evaluateFields.eq_def [_]]
  dsimp only
  rw [evaluateFields_nil]
  split
  · exact join _
  · exact join _

theorem parts_of_evaluateFields [Libraries] {f : String × Value} {cs : List Check}
    (h : evaluateFields (f :: fs) operators actual path = .ok cs) :
    ∃ first rest, evaluateFields [f] operators actual path = .ok first ∧
      evaluateFields fs operators actual path = .ok rest ∧ cs = first ++ rest := by
  rw [evaluateFields_cons] at h
  obtain ⟨first, hfirst, h⟩ := bind_eq_ok.mp h
  obtain ⟨rest, hrest, h⟩ := bind_eq_ok.mp h
  cases h
  exact ⟨first, rest, hfirst, hrest, rfl⟩

theorem evaluateFields_plain [Libraries] (h : hasOperator fs = false) :
    evaluateFields fs false actual path = evaluateFields fs true actual path := by
  induction fs with
  | nil => rw [evaluateFields_nil, evaluateFields_nil]
  | cons f fs ih =>
    obtain ⟨key, condition⟩ := f
    obtain ⟨hkey, hrest⟩ := Bool.or_eq_false_iff.mp h
    have hname : isOperator key = false := hkey
    rw [evaluateFields.eq_def, evaluateFields.eq_def _ true]
    simp only [hname, ih hrest, Bool.and_false]

theorem evaluate_object [Libraries] (h : fs ≠ []) :
    evaluate (.object fs) actual path =
      if hasOperator fs || actual.any Value.isContainer then evaluateFields fs true actual path
      else .ok [notAnObject actual (.object fs) path] := by
  obtain ⟨f, rest, rfl⟩ := List.exists_cons_of_ne_nil h
  rw [evaluate.eq_def]
  dsimp only
  cases hop : hasOperator (f :: rest) with
  | true => rfl
  | false =>
    cases actual with
    | none => rfl
    | some v =>
      cases v with
      | object | array => exact evaluateFields_plain hop
      | _ => rfl

section Single

variable {inner : Option Value → String → Except Error (List Check)} {key : String}
  {condition : Value} {items : List Value} {op : Operator} {cs : List Check}

theorem bind_alone {own : Except Error (List Check)} :
    (own >>= fun cs => Except.ok [] >>= fun rest => pure (cs ++ rest)) = own := by
  cases own with
  | error e => rfl
  | ok cs => exact congrArg Except.ok (List.append_nil cs)

theorem evaluateFields_field [Libraries] (h : Operator.ofName? key = none) :
    evaluateFields [(key, condition)] true actual path =
      evaluate condition (actual.bind fun a => a.child? key) (joinPath path key) := by
  rw [evaluateFields.eq_def]
  dsimp only
  rw [evaluateFields_nil, Operator.not_isOperator_of_ofName? h]
  exact bind_alone

theorem evaluateFields_operator [Libraries] (h : Operator.ofName? key = some op) :
    evaluateFields [(key, condition)] true actual path =
      applyOperator (evaluate condition) op.name actual condition path := by
  rw [evaluateFields.eq_def]
  dsimp only
  rw [evaluateFields_nil, Operator.isOperator_of_ofName? h, Operator.name_of_ofName? h]
  exact bind_alone

theorem evaluateFields_length [Libraries] (h : Operator.ofName? key = some .length) :
    evaluateFields [(key, condition)] true actual path =
      .ok (checkLength actual condition path) := evaluateFields_operator h

theorem evaluateFields_negation [Libraries] (h : Operator.ofName? key = some .negation) :
    evaluateFields [(key, condition)] true actual path =
      (evaluate condition actual path).map fun cs => cs.map negate := evaluateFields_operator h

theorem evaluateFields_pattern [Libraries] (h : Operator.ofName? key = some .pattern) :
    evaluateFields [(key, condition)] true actual path =
      (compile condition.text).map fun occurs =>
        [plain path key condition actual (textHolds occurs actual)] := by
  rw [evaluateFields_operator h, ← Operator.name_of_ofName? h]
  rfl

theorem evaluateFields_every [Libraries] (h : Operator.ofName? key = some .every) :
    evaluateFields [(key, condition)] true (some (.array items)) path =
      (failuresOfItems (fun v p => evaluate condition (some v) p) path 0 items).map fun failed =>
        [everyItem items condition path failed] := evaluateFields_operator h

theorem evaluateFields_any [Libraries] (h : Operator.ofName? key = some .any) :
    evaluateFields [(key, condition)] true (some (.array items)) path =
      (firstPassing (fun v p => evaluate condition (some v) p) path 0 items).map fun found =>
        [someItem items condition path found] := evaluateFields_operator h

theorem evaluateFields_notAList [Libraries]
    (h : Operator.ofName? key = some .every ∨ Operator.ofName? key = some .any)
    (hactual : ∀ items, actual ≠ some (.array items)) :
    evaluateFields [(key, condition)] true actual path =
      .ok [notAList actual key condition path] := by
  obtain ⟨op, hop, hname⟩ : ∃ op, (op = .every ∨ op = .any) ∧ Operator.ofName? key = some op := by
    rcases h with h | h
    · exact ⟨_, .inl rfl, h⟩
    · exact ⟨_, .inr rfl, h⟩
  rw [evaluateFields_operator hname, ← Operator.name_of_ofName? hname]
  cases actual with
  | none => rcases hop with rfl | rfl <;> rfl
  | some v =>
    cases v with
    | array items => exact absurd rfl (hactual items)
    | _ => rcases hop with rfl | rfl <;> rfl

/-- A check but for its message. -/
structure Outcome where
  path : String
  operator : String
  expected : Value
  actual : Option Value
  passed : Bool

def outcome (c : Check) : Outcome := ⟨c.path, c.operator, c.expected, c.actual, c.passed⟩

theorem getD_false (x : Option Bool) : x.getD false = (x == some true) := by
  rcases x with _ | _ | _ <;> rfl

theorem getD_map_not (x : Option Bool) : (x.map (!·)).getD false = (x == some false) := by
  rcases x with _ | _ | _ <;> rfl

theorem evaluateFields_whole [Libraries] (h : Operator.ofName? key = some op) (hop : op.isWhole) :
    ∃ c, evaluateFields [(key, condition)] true actual path = .ok [c] ∧
      c.outcome = ⟨path, key, condition, actual, op.truth actual condition⟩ := by
  rw [evaluateFields_operator h, ← Operator.name_of_ofName? h]
  cases op with
  | pattern | length | every | any | negation => cases hop
  | kind | present | oneOf | startsWith | endsWith => exact ⟨_, rfl, rfl⟩
  | bound b =>
    have hsingle : applyOperator (evaluate condition) b.name actual condition path =
        .ok [plain path b.name condition actual (compareNumbers b.name actual condition)] := by
      cases b <;> rfl
    refine ⟨_, hsingle, ?_⟩
    simp only [outcome, plain, Operator.truth, Operator.name, Bound.compareNumbers_name]
  | contains =>
    refine ⟨_, rfl, ?_⟩
    simp only [outcome, plain, Operator.truth, Operator.name, getD_false]
  | lacks =>
    refine ⟨_, rfl, ?_⟩
    simp only [outcome, plain, Operator.truth, Operator.name, getD_map_not]

theorem length_of_evaluateFields [Libraries] (h : Operator.ofName? key = some op)
    (hlength : op ≠ .length) (hnegation : op ≠ .negation)
    (hcs : evaluateFields [(key, condition)] true actual path = .ok cs) : cs.length = 1 := by
  have hlist (hop : op = .every ∨ op = .any) (hnone : ¬ ∃ items, actual = some (.array items)) :
      cs.length = 1 := by
    rw [evaluateFields_notAList (by rcases hop with rfl | rfl <;> simp [h]) (not_exists.mp hnone)]
      at hcs
    cases hcs
    rfl
  by_cases hwhole : op.isWhole
  · obtain ⟨c, hc, -⟩ := evaluateFields_whole h hwhole
    rw [hc] at hcs
    cases hcs
    rfl
  cases op with
  | length => exact absurd rfl hlength
  | negation => exact absurd rfl hnegation
  | pattern =>
    rw [evaluateFields_pattern h] at hcs
    obtain ⟨r, -, rfl⟩ := map_eq_ok.mp hcs
    rfl
  | every =>
    by_cases hsome : ∃ items, actual = some (.array items)
    · obtain ⟨items, rfl⟩ := hsome
      rw [evaluateFields_every h] at hcs
      obtain ⟨failed, -, rfl⟩ := map_eq_ok.mp hcs
      rfl
    · exact hlist (.inl rfl) hsome
  | any =>
    by_cases hsome : ∃ items, actual = some (.array items)
    · obtain ⟨items, rfl⟩ := hsome
      rw [evaluateFields_any h] at hcs
      obtain ⟨found, -, rfl⟩ := map_eq_ok.mp hcs
      rfl
    · exact hlist (.inr rfl) hsome
  | _ => exact absurd rfl hwhole

end Single

end Check

end Assay
