import Assay.Proofs.Check.Labels
import Assay.Proofs.Value.Order

namespace Assay

/-- Operators that read the text of their operand. -/
def Operator.readsText : Operator → Bool
  | contains | lacks | pattern | startsWith | endsWith => true
  | _ => false

namespace Check

/-- What a check has found, where and by which operator. -/
def finding (c : Check) : String × String × Bool := (c.path, c.operator, c.passed)

variable {E : Error → Error → Prop} {x y x' y' z : Except Error (List Check)} {key path : String}
  {fs gs : Fields} {condition condition' expected expected' : Value}
  {actual actual' : Option Value} {items items' : List Value} {op : Operator}

theorem finding_eq {c : Check} {operator : String} {expected : Value} {b : Bool}
    (h : c.outcome = ⟨path, operator, expected, actual, b⟩) : c.finding = (path, operator, b) :=
  congrArg (fun o : Outcome => (o.path, o.operator, o.passed)) h

theorem single_perm {c d : Check} (h : c.finding = d.finding) :
    ([c].map finding).Perm ([d].map finding) := by
  rw [List.map_singleton, List.map_singleton, h]

/-- Two evaluations fail both, or they come to the same findings in some order. -/
def SameFindings (x y : Except Error (List Check)) : Prop :=
  Concur (fun _ _ => True) (fun cs ds => (cs.map finding).Perm (ds.map finding)) x y

namespace SameFindings

theorem refl (x : Except Error (List Check)) : SameFindings x x := by
  cases x with
  | error e => exact .error trivial
  | ok cs => exact .ok (.refl _)

theorem trans (h : SameFindings x y) (g : SameFindings y z) : SameFindings x z := by
  cases h with
  | error =>
    cases g with
    | error => exact .error trivial
  | ok hcs =>
    cases g with
    | ok hds => exact .ok (hcs.trans hds)

theorem single {c d : Check} (h : c.finding = d.finding) : SameFindings (.ok [c]) (.ok [d]) :=
  .ok (single_perm h)

theorem append (h : SameFindings x x') (g : SameFindings y y') :
    SameFindings (x >>= fun cs => y >>= fun ds => pure (cs ++ ds))
      (x' >>= fun cs => y' >>= fun ds => pure (cs ++ ds)) := by
  refine Concur.bind h fun cs cs' hcs => Concur.bind g fun ds ds' hds => .ok ?_
  rw [List.map_append, List.map_append]
  exact hcs.append hds

/-- Which of two parts comes first matters only to which error is found. -/
theorem exchange (x y z : Except Error (List Check)) :
    SameFindings
      (x >>= fun cs => (y >>= fun ds => z >>= fun es => pure (ds ++ es)) >>= fun rest =>
        pure (cs ++ rest))
      (y >>= fun ds => (x >>= fun cs => z >>= fun es => pure (cs ++ es)) >>= fun rest =>
        pure (ds ++ rest)) := by
  cases x with
  | error e =>
    cases y with
    | error e' => exact .error trivial
    | ok ds => exact .error trivial
  | ok cs =>
    cases y with
    | error e' => exact .error trivial
    | ok ds =>
      cases z with
      | error e' => exact .error trivial
      | ok es => exact .ok ((List.perm_append_comm_assoc cs ds es).map finding)

end SameFindings

theorem evaluateFields_perm [Libraries] (h : fs.Perm gs) :
    SameFindings (evaluateFields fs true actual path) (evaluateFields gs true actual path) := by
  induction h with
  | nil => exact .refl _
  | @cons f fs gs _ ih =>
    rw [evaluateFields_cons f fs, evaluateFields_cons f gs]
    exact (SameFindings.refl _).append ih
  | swap f g fs =>
    rw [evaluateFields_cons g (f :: fs), evaluateFields_cons f fs, evaluateFields_cons f (g :: fs),
      evaluateFields_cons g fs]
    exact .exchange _ _ _
  | trans _ _ ih ih' => exact ih.trans ih'

theorem any_forall₂ {α : Type} {f g : α → Bool} {as bs : List α}
    (h : List.Forall₂ (fun a b => f a = g b) as bs) : as.any f = bs.any g := by
  induction h with
  | nil => rfl
  | cons hab _ ih => rw [List.any_cons, List.any_cons, hab, ih]

section Items

variable {f g : Value → Except Error Bool}

theorem mapM_concur
    (h : List.Forall₂ (fun v v' => Concur E Eq (f v) (g v')) items items') :
    Concur E Eq (items.mapM f) (items'.mapM g) := by
  induction h with
  | nil => exact .ok rfl
  | cons hv _ ih =>
    rw [List.mapM_cons, List.mapM_cons]
    refine hv.bind fun b b' hb => ih.bind fun bs bs' hbs => .ok ?_
    rw [hb, hbs]

theorem anyM_concur
    (h : List.Forall₂ (fun v v' => Concur E Eq (f v) (g v')) items items') :
    Concur E Eq (items.anyM f) (items'.anyM g) := by
  induction h with
  | nil => exact .ok rfl
  | cons hv _ ih =>
    rw [List.anyM_cons, List.anyM_cons]
    refine hv.bind fun b b' hb => ?_
    subst hb
    split
    · exact .ok rfl
    · exact ih

end Items

theorem allPassed_findings {cs ds : List Check} (h : (cs.map finding).Perm (ds.map finding)) :
    allPassed cs = allPassed ds := by
  have hall (cs : List Check) : allPassed cs = (cs.map finding).all fun f => f.2.2 := by
    simp [allPassed, finding, Function.comp_def]
  rw [hall, hall, h.all_eq]

section Reordered

variable (hactual : Option.Rel Value.Reordered actual actual')
include hactual

theorem bind_reordered {α : Type} {f : Value → Option α}
    (hf : ∀ v w, v.Reordered w → f v = f w) : actual.bind f = actual'.bind f := by
  cases hactual with
  | none => rfl
  | some h => exact hf _ _ h

theorem child_reordered (hkeys : ∀ v ∈ actual, v.DistinctKeys) (key : String) :
    Option.Rel Value.Reordered (actual.bind fun a => a.child? key)
      (actual'.bind fun a => a.child? key) ∧
    ∀ child ∈ actual.bind fun a => a.child? key, child.DistinctKeys := by
  cases hactual with
  | none => exact ⟨.none, nofun⟩
  | some h =>
    exact ⟨Value.child?_reordered h (hkeys _ rfl) key,
      fun _ hchild => Value.distinctKeys_child? hchild (hkeys _ rfl)⟩

theorem any_isContainer_reordered :
    actual.any Value.isContainer = actual'.any Value.isContainer := by
  cases hactual with
  | none => rfl
  | some h => cases h <;> rfl

theorem any_equals_reordered (hexpected : expected.Reordered expected')
    (hkeys : expected.DistinctKeys) :
    (actual.any fun a => a.equals expected) = actual'.any fun a => a.equals expected' := by
  cases hactual with
  | none => rfl
  | some h => exact Value.equals_reordered h hexpected hkeys

theorem textHolds_reordered (test : String → Bool) :
    textHolds test actual = textHolds test actual' := by
  cases hactual with
  | none => rfl
  | some h => cases h <;> rfl

/-- Both are lists, with items in the same places, or neither is one. -/
theorem lists_or_neither :
    (∃ items items', actual = some (.array items) ∧ actual' = some (.array items') ∧
      List.Forall₂ Value.Reordered items items') ∨
    (∀ items, actual ≠ some (.array items)) ∧ ∀ items, actual' ≠ some (.array items) := by
  cases hactual with
  | none => exact .inr ⟨nofun, nofun⟩
  | some h =>
    cases h with
    | array each => exact .inl ⟨_, _, rfl, rfl, each⟩
    | _ => exact .inr ⟨nofun, nofun⟩

theorem isOneOf_reordered (hcondition : condition.Reordered condition')
    (hkeys : condition.DistinctKeys) : isOneOf actual condition = isOneOf actual' condition' := by
  cases hcondition with
  | array options =>
    rw [Value.distinctKeys_array] at hkeys
    cases hactual with
    | none => rfl
    | some h =>
      exact any_forall₂ (forall₂_of_mem options fun v hv v' hvv' =>
        Value.equals_reordered h hvv' (hkeys v hv))
  | _ => rfl

theorem contains?_reordered (hkeys : condition.DistinctKeys) :
    contains? actual condition = contains? actual' condition := by
  cases hactual with
  | none => rfl
  | some h =>
    cases h with
    | array each =>
      exact congrArg some (any_forall₂ (each.imp fun v v' hvv' =>
        Value.equals_reordered hvv' (.refl condition) hkeys))
    | _ => rfl

/-- A condition that looks at the value as a whole is as true in whatever order fields stand. -/
theorem truth_reordered [Libraries] (hcondition : condition.Reordered condition')
    (hkeys : condition.DistinctKeys) (htext : op.readsText → condition = condition') :
    op.truth actual condition = op.truth actual' condition' := by
  cases op with
  | kind =>
    unfold Operator.truth
    rw [Value.asString?_reordered hcondition]
    cases hactual with
    | none => rfl
    | some h => rw [Value.kindName_reordered h]
  | present =>
    cases hactual with
    | none => cases hcondition <;> rfl
    | some h => cases h <;> cases hcondition <;> rfl
  | oneOf => exact isOneOf_reordered hactual hcondition hkeys
  | bound b =>
    unfold Operator.truth Bound.holds
    rw [Value.toDouble?_reordered hcondition,
      bind_reordered hactual fun _ _ => Value.toDouble?_reordered]
  | contains | lacks =>
    obtain rfl := htext rfl
    unfold Operator.truth
    rw [contains?_reordered hactual hkeys]
  | pattern | startsWith | endsWith =>
    obtain rfl := htext rfl
    unfold Operator.truth
    simp only [textHolds_reordered hactual]
  | length | every | any | negation => rfl

theorem checkLength_reordered (hcondition : condition.Reordered condition') (path : String) :
    ((checkLength actual condition path).map finding).Perm
      ((checkLength actual' condition' path).map finding) := by
  unfold checkLength
  rw [bind_reordered hactual fun _ _ => Value.length?_reordered]
  cases actual'.bind Value.length? with
  | none => exact single_perm rfl
  | some n =>
    cases hcondition with
    | @object fields shuffled fields' order each =>
      have hbounds : List.Forall₂
          (fun f g => (checkLengthBound (.nat n) (path ++ ".length") f).finding =
            (checkLengthBound (.nat n) (path ++ ".length") g).finding) shuffled fields' := by
        refine each.imp ?_
        rintro _ _ @⟨key, v, v', hvv'⟩
        have htruth : lengthTruth n (key, v) = lengthTruth n (key, v') := by
          unfold lengthTruth Bound.holds
          simp only [Value.toDouble?_reordered hvv']
        rw [finding_eq checkLengthBound_outcome, finding_eq checkLengthBound_outcome, htruth]
      dsimp only
      rw [List.map_map, List.map_map]
      refine (order.map _).trans (.of_eq ?_)
      rw [← List.forall₂_eq_eq_eq, List.forall₂_map_left_iff, List.forall₂_map_right_iff]
      exact hbounds
    | _ => exact single_perm rfl

end Reordered

/-- Two expectations come to the same findings of a value, in whatever order its fields stand. -/
def OrderFree [Libraries] (expected expected' : Value) : Prop :=
  ∀ actual actual' path, Option.Rel Value.Reordered actual actual' →
    (∀ v ∈ actual, v.DistinctKeys) →
    SameFindings (evaluate expected actual path) (evaluate expected' actual' path)

namespace OrderFree

variable [Libraries] (h : OrderFree condition condition')
  (each : List.Forall₂ Value.Reordered items items') (hkeys : ∀ v ∈ items, v.DistinctKeys)
include h each hkeys

theorem judge :
    List.Forall₂ (fun v v' => Concur (fun _ _ => True) Eq (judge condition v) (judge condition' v'))
      items items' := by
  refine forall₂_of_mem each fun v hv v' hvv' => ?_
  have hv : ∀ w ∈ some v, w.DistinctKeys := by
    rintro _ ⟨⟩
    exact hkeys v hv
  exact (h (some v) (some v') "item" (.some hvv') hv).map fun _ _ => allPassed_findings

theorem failuresOfItems (path : String) :
    Concur (fun _ _ => True) (fun failed failed' => failed.isEmpty = failed'.isEmpty)
      (failuresOfItems (fun v p => evaluate condition (some v) p) path 0 items)
      (failuresOfItems (fun v p => evaluate condition' (some v) p) path 0 items') := by
  refine Concur.of_map (T := Eq) ?_
  rw [failuresOfItems_judged (fun v => labelOnly_evaluate condition (some v)) path 0,
    failuresOfItems_judged (fun v => labelOnly_evaluate condition' (some v)) path 0]
  exact (mapM_concur (h.judge each hkeys)).map fun _ _ hverdicts => by rw [hverdicts]

theorem firstPassing (path : String) :
    Concur (fun _ _ => True) (fun found found' => found.isSome = found'.isSome)
      (firstPassing (fun v p => evaluate condition (some v) p) path 0 items)
      (firstPassing (fun v p => evaluate condition' (some v) p) path 0 items') := by
  refine Concur.of_map (T := Eq) ?_
  rw [firstPassing_judged (fun v => labelOnly_evaluate condition (some v)) path 0,
    firstPassing_judged (fun v => labelOnly_evaluate condition' (some v)) path 0]
  exact anyM_concur (h.judge each hkeys)

end OrderFree

/-- The findings of one condition do not depend on the order of fields if those of the expectation
that it may be made of do not. -/
theorem condition_reordered [Libraries] (hactual : Option.Rel Value.Reordered actual actual')
    (hactualKeys : ∀ v ∈ actual, v.DistinctKeys) (hcondition : condition.Reordered condition')
    (hkeys : condition.DistinctKeys)
    (htext : ∀ op, Operator.ofName? key = some op → op.readsText → condition.ObjectFree)
    (ih : (Operator.ofName? key).all Operator.isNested → OrderFree condition condition') :
    SameFindings (evaluateFields [(key, condition)] true actual path)
      (evaluateFields [(key, condition')] true actual' path) := by
  cases hop : Operator.ofName? key with
  | none =>
    rw [evaluateFields_field hop, evaluateFields_field hop]
    obtain ⟨hchild, hchildKeys⟩ := child_reordered hactual hactualKeys key
    exact ih (by rw [hop]; rfl) _ _ _ hchild hchildKeys
  | some op =>
    have hsame : op.readsText → condition = condition' := fun hreads =>
      (htext op hop hreads).eq_of_reordered hcondition
    by_cases hwhole : op.isWhole
    · obtain ⟨c, hc, houtcome⟩ := evaluateFields_whole hop hwhole
      obtain ⟨d, hd, houtcome'⟩ := evaluateFields_whole hop hwhole
      rw [hc, hd]
      refine .single ?_
      rw [finding_eq houtcome, finding_eq houtcome', truth_reordered hactual hcondition hkeys hsame]
    cases op with
    | pattern =>
      obtain rfl := hsame rfl
      rw [evaluateFields_pattern hop, evaluateFields_pattern hop]
      simp only [textHolds_reordered hactual]
      cases compile condition.text with
      | error e => exact .error trivial
      | ok r => exact .single rfl
    | length =>
      rw [evaluateFields_length hop, evaluateFields_length hop]
      exact .ok (checkLength_reordered hactual hcondition path)
    | negation =>
      rw [evaluateFields_negation hop, evaluateFields_negation hop]
      have hinner := ih (by rw [hop]; rfl) actual actual' path hactual hactualKeys
      refine Concur.map hinner fun cs ds hcs => ?_
      rw [List.map_map, List.map_map]
      have hperm := hcs.map fun f => (f.1, "not(" ++ f.2.1 ++ ")", !f.2.2)
      rwa [List.map_map, List.map_map] at hperm
    | every =>
      obtain ⟨items, items', rfl, rfl, each⟩ | ⟨hleft, hright⟩ := lists_or_neither hactual
      · have hitems := Value.distinctKeys_array.mp (hactualKeys _ rfl)
        rw [evaluateFields_every hop, evaluateFields_every hop]
        refine ((ih (by rw [hop]; rfl)).failuresOfItems each hitems path).map
          fun failed failed' hfailed => single_perm ?_
        exact congrArg (fun b => (path, "every", b)) hfailed
      · rw [evaluateFields_notAList (.inl hop) hleft, evaluateFields_notAList (.inl hop) hright]
        exact .single rfl
    | any =>
      obtain ⟨items, items', rfl, rfl, each⟩ | ⟨hleft, hright⟩ := lists_or_neither hactual
      · have hitems := Value.distinctKeys_array.mp (hactualKeys _ rfl)
        rw [evaluateFields_any hop, evaluateFields_any hop]
        refine ((ih (by rw [hop]; rfl)).firstPassing each hitems path).map
          fun found found' hfound => single_perm ?_
        exact congrArg (fun b => (path, "some", b)) hfound
      · rw [evaluateFields_notAList (.inr hop) hleft, evaluateFields_notAList (.inr hop) hright]
        exact .single rfl
    | _ => exact absurd rfl hwhole

theorem evaluateFields_forall₂ [Libraries]
    (h : List.Forall₂ (fun f g => SameFindings (evaluateFields [f] true actual path)
      (evaluateFields [g] true actual' path)) fs gs) :
    SameFindings (evaluateFields fs true actual path) (evaluateFields gs true actual' path) := by
  induction h with
  | nil =>
    rw [evaluateFields_nil, evaluateFields_nil]
    exact .refl _
  | @cons f g fs gs hfirst _ ih =>
    rw [evaluateFields_cons f fs, evaluateFields_cons g gs]
    exact hfirst.append ih

theorem hasOperator_reordered (h : fs.keys.Perm gs.keys) : hasOperator fs = hasOperator gs := by
  have hnames (fs : Fields) : hasOperator fs = fs.keys.any isOperator := by
    simp [hasOperator, Entries.keys, Function.comp_def]
  rw [hnames, hnames, h.any_eq]

theorem orderFree_evaluate [Libraries] (h : expected.Reordered expected')
    (hkeys : expected.DistinctKeys)
    (htext : ∀ op operand, op.readsText → Applies op operand expected → operand.ObjectFree) :
    OrderFree expected expected' := by
  induction expected using Value.induction generalizing expected' with
  | null | bool | number | string | array =>
    intro actual actual' path hactual _
    have hequal := any_equals_reordered hactual h hkeys
    cases h
    refine .single ?_
    exact congrArg (fun b => (path, "equals", b)) hequal
  | object fields ih =>
    intro actual actual' path hactual hactualKeys
    have hequal := any_equals_reordered hactual h hkeys
    cases h with
    | @object _ shuffled fields' order each =>
      by_cases hfields : fields = []
      · subst hfields
        obtain rfl := order.nil_eq
        cases each
        exact .single (congrArg (fun b => (path, "equals", b)) hequal)
      have hfields' : fields' ≠ [] := by
        rintro rfl
        cases each
        exact hfields order.eq_nil
      obtain ⟨-, hparts⟩ := Value.distinctKeys_object.mp hkeys
      have hoperator : hasOperator fields = hasOperator fields' := by
        refine hasOperator_reordered ?_
        rw [← SameName.keys_eq each]
        exact order.map Prod.fst
      rw [evaluate_object hfields, evaluate_object hfields', hoperator,
        any_isContainer_reordered hactual]
      split
      · -- The conditions are first put in their new order, and then each is put for its own other.
        refine (evaluateFields_perm order).trans (evaluateFields_forall₂ ?_)
        refine forall₂_of_mem each ?_
        rintro ⟨key, condition⟩ hf _ ⟨_, hcondition⟩
        have hmem : (key, condition) ∈ fields := order.mem_iff.mpr hf
        refine condition_reordered hactual hactualKeys hcondition (hparts _ hmem) ?_ ?_
        · intro op hop hreads
          exact htext op condition hreads (.here hmem hop)
        · intro hnested
          exact ih _ hmem hcondition (hparts _ hmem) fun op operand hreads hpart =>
            htext op operand hreads (.inside hmem hnested hpart)
      · exact .single rfl

/-- The order in which the fields of objects stand decides nothing, neither those of a value nor
those of what is expected of it: the evaluation fails or it does not, and what it finds where by
which operator is the same. Operands whose text is read have no fields, for their text would show
the order. -/
theorem evaluate_reordered [Libraries] (expected expected' : Value) (actual actual' : Option Value)
    (path : String) (hexpected : expected.Reordered expected')
    (hactual : Option.Rel Value.Reordered actual actual') (hkeys : expected.DistinctKeys)
    (hactualKeys : ∀ v ∈ actual, v.DistinctKeys)
    (htext : ∀ op operand, op.readsText → Applies op operand expected → operand.ObjectFree) :
    ((∃ e, evaluate expected actual path = .error e) ∧
      ∃ e, evaluate expected' actual' path = .error e) ∨
    ∃ cs ds, evaluate expected actual path = .ok cs ∧ evaluate expected' actual' path = .ok ds ∧
      (cs.map finding).Perm (ds.map finding) := by
  generalize hleft : evaluate expected actual path = left
  generalize hright : evaluate expected' actual' path = right
  have hfindings := orderFree_evaluate hexpected hkeys htext actual actual' path hactual hactualKeys
  rw [hleft, hright] at hfindings
  cases hfindings with
  | ok hchecks => exact .inr ⟨_, _, rfl, rfl, hchecks⟩
  | error => exact .inl ⟨⟨_, rfl⟩, ⟨_, rfl⟩⟩

/-- A name and a list of lights, with the fields of both sides turned round. -/
theorem evaluate_reordered_lights :
    let light : Value := .object [("on", .bool true), ("at", .null)]
    let light' : Value := .object [("at", .null), ("on", .bool true)]
    let actual : Value := .object [("name", .string "hall"), ("lights", .array [.null, light])]
    let actual' : Value := .object [("lights", .array [.null, light']), ("name", .string "hall")]
    let expected : Value := .object
      [("name", .object [("startsWith", .string "h"), ("type", .string "string")]),
        ("lights", .object [("some", .object [("in", .array [light'])])])]
    let expected' : Value := .object
      [("lights", .object [("some", .object [("in", .array [light])])]),
        ("name", .object [("type", .string "string"), ("startsWith", .string "h")])]
    expected.Reordered expected' ∧ actual.Reordered actual' ∧ expected.DistinctKeys ∧
      actual.DistinctKeys ∧
      ∃ cs ds, evaluate expected (some actual) "body" = .ok cs ∧
        evaluate expected' (some actual') "body" = .ok ds ∧
        cs.map finding = [("body.name", "startsWith", true), ("body.name", "type", true),
          ("body.lights", "some", true)] ∧
        (cs.map finding).Perm (ds.map finding) := by
  intro light light' actual actual' expected expected'
  have hlight : light.Reordered light' :=
    .object (.swap _ _ _) (.cons (.intro "at" .null) (.cons (.intro "on" (.bool true)) .nil))
  have hlight' : light'.Reordered light :=
    .object (.swap _ _ _) (.cons (.intro "on" (.bool true)) (.cons (.intro "at" .null) .nil))
  have hactual : actual.Reordered actual' := by
    have hlights : (Value.array [.null, light]).Reordered (.array [.null, light']) :=
      .array (.cons .null (.cons hlight .nil))
    exact .object (.swap _ _ _)
      (.cons (.intro "lights" hlights) (.cons (.intro "name" (.string _)) .nil))
  have hexpected : expected.Reordered expected' := by
    have hname : (Value.object [("startsWith", .string "h"), ("type", .string "string")]).Reordered
        (.object [("type", .string "string"), ("startsWith", .string "h")]) :=
      .object (.swap _ _ _)
        (.cons (.intro "type" (.string _)) (.cons (.intro "startsWith" (.string _)) .nil))
    have hlights : (Value.object [("some", .object [("in", .array [light'])])]).Reordered
        (.object [("some", .object [("in", .array [light])])]) :=
      .object (.refl _) (.cons (.intro "some" (.object (.refl _)
        (.cons (.intro "in" (.array (.cons hlight' .nil))) .nil))) .nil)
    exact .object (.swap _ _ _) (.cons (.intro "lights" hlights) (.cons (.intro "name" hname) .nil))
  have hkeys : expected.DistinctKeys := by
    simp [expected, light', Value.DistinctKeys, Value.DistinctKeysFields, Value.DistinctKeysAll,
      Entries.keys]
  have hactualKeys : actual.DistinctKeys := by
    simp [actual, light, Value.DistinctKeys, Value.DistinctKeysFields, Value.DistinctKeysAll,
      Entries.keys]
  have htext : ∀ op operand, op.readsText → Applies op operand expected → operand.ObjectFree := by
    intro op operand hreads happlies
    simp only [expected, applies_object, List.mem_cons, List.not_mem_nil, or_false,
      exists_eq_or_imp, exists_eq_left] at happlies
    obtain (⟨hname, -⟩ | ⟨-, (⟨-, rfl⟩ | ⟨hnested, -⟩) | ⟨-, rfl⟩ | ⟨hnested, -⟩⟩) |
      ⟨hname, -⟩ | ⟨-, ⟨hname, -⟩ | ⟨-, ⟨hname, -⟩ | ⟨hnested, -⟩⟩⟩ := happlies
    · cases hname
    · exact .string "h"
    · cases hnested
    · exact .string "string"
    · cases hnested
    · cases hname
    · cases hname
      cases hreads
    · cases hname
      cases hreads
    · cases hnested
  refine ⟨hexpected, hactual, hkeys, hactualKeys, ?_⟩
  obtain ⟨⟨e, he⟩, -⟩ | ⟨cs, ds, hcs, hds, hperm⟩ := evaluate_reordered expected expected'
    (some actual) (some actual') "body" hexpected (.some hactual) hkeys (by simpa using hactualKeys)
    htext
  · cases he
  · refine ⟨cs, ds, hcs, hds, ?_, hperm⟩
    cases hcs
    rfl

end Check

end Assay
