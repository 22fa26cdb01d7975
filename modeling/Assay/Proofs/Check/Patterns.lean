import Assay.Check.Response
import Assay.Probe.Request
import Assay.Proofs.Check.Operators
import Assay.Proofs.Value.Equality

namespace Assay

namespace Check

/-- The patterns of an expectation. -/
def PatternOf (expected v : Value) : Prop := Applies .pattern v expected

/-- The patterns of several expectations. -/
def PatternAmong (trees : List Value) (v : Value) : Prop := ∃ tree ∈ trees, PatternOf tree v

/-- A computation ends in errors of one kind only, if it ends in an error. -/
def ErrorsAre {α : Type} (kind : Error → Prop) (x : Except Error α) : Prop :=
  ∀ e, x = .error e → kind e

namespace ErrorsAre

variable {α β : Type} {kind other : Error → Prop} {x : Except Error α}

theorem ok (a : α) : ErrorsAre kind (.ok a) := nofun

theorem error {e : Error} (h : ErrorsAre kind (.error e : Except Error α)) :
    ErrorsAre kind (.error e : Except Error β) := by
  intro e' he
  cases he
  exact h e rfl

theorem bind {f : α → Except Error β} (hx : ErrorsAre kind x)
    (hf : ∀ a, ErrorsAre kind (f a)) : ErrorsAre kind (x >>= f) := by
  cases x with
  | error e => exact hx.error
  | ok a => exact hf a

theorem map (hx : ErrorsAre kind x) (f : α → β) : ErrorsAre kind (x.map f) := by
  cases x with
  | error e => exact hx.error
  | ok a => exact ok (f a)

theorem mono (hx : ErrorsAre kind x) (h : ∀ e, kind e → other e) : ErrorsAre other x :=
  fun e he => h e (hx e he)

end ErrorsAre

section Operators

variable {kind : Error → Prop} {inner : Option Value → String → Except Error (List Check)}
  {op : Operator} {operator : String} {actual : Option Value} {operand : Value} {path : String}

section Items

variable (hinner : ∀ actual path, ErrorsAre kind (inner actual path)) (path : String) (i : Nat)
  (items : List Value)
include hinner

theorem failuresOfItems_errors :
    ErrorsAre kind (failuresOfItems (fun v p => inner (some v) p) path i items) := by
  induction items generalizing i with
  | nil => exact .ok []
  | cons v vs ih => exact (hinner _ _).bind fun _ => (ih (i + 1)).bind fun _ => .ok _

theorem firstPassing_errors :
    ErrorsAre kind (firstPassing (fun v p => inner (some v) p) path i items) := by
  induction items generalizing i with
  | nil => exact .ok none
  | cons v vs ih =>
    refine (hinner _ _).bind fun cs => ?_
    split
    · exact .ok (some i)
    · exact ih (i + 1)

end Items

/-- An operator ends in an error by its pattern, or by an expectation that is its operand, and in
no other way. -/
theorem applyOperator_errors [Libraries]
    (hpattern : op = .pattern → ErrorsAre kind (compile operand.text))
    (hinner : op.isNested → ∀ actual path, ErrorsAre kind (inner actual path)) :
    ErrorsAre kind (applyOperator inner op.name actual operand path) := by
  cases op with
  | pattern => exact (hpattern rfl).bind fun _ => .ok _
  | every =>
    cases actual with
    | none => exact .ok _
    | some v =>
      cases v with
      | array items =>
        exact (failuresOfItems_errors (hinner rfl) path 0 items).bind fun _ => .ok _
      | _ => exact .ok _
  | any =>
    cases actual with
    | none => exact .ok _
    | some v =>
      cases v with
      | array items =>
        exact (firstPassing_errors (hinner rfl) path 0 items).bind fun _ => .ok _
      | _ => exact .ok _
  | negation => exact (hinner rfl actual path).map _
  | bound b => cases b <;> exact .ok _
  | _ => exact .ok _

theorem applyOperator_unhandled [Libraries] (h : isOperator operator = false) :
    applyOperator inner operator actual operand path =
      .error (.internal ("unhandled operator '" ++ operator ++ "'")) := by
  unfold applyOperator
  -- A name that has an arm of its own is one of the table.
  split <;> first | rfl | cases h

end Operators

/-- A computation fails only with the error of a pattern, one of those given, that is no regular
expression. -/
def FailsBy [Libraries] {α : Type} (patterns : Value → Prop) (x : Except Error α) : Prop :=
  ErrorsAre (fun e => ∃ v reason, patterns v ∧ Libraries.readPattern v.text = .error reason ∧
    e = .invalidPattern v.text reason) x

namespace FailsBy

variable {α : Type} {patterns others : Value → Prop} {x : Except Error α}

theorem mono [Libraries] (hx : FailsBy patterns x)
    (h : ∀ v, patterns v → others v) : FailsBy others x :=
  ErrorsAre.mono hx fun _ he => he.imp fun v hreason => hreason.imp fun _ hv => ⟨h v hv.1, hv.2⟩

theorem compile [Libraries] {v : Value} (hv : patterns v) : FailsBy patterns (compile v.text) := by
  intro e he
  obtain ⟨reason, hread, rfl⟩ := compile_eq_error.mp he
  exact ⟨v, reason, hv, hread, rfl⟩

end FailsBy

variable {patterns : Value → Prop} {key path : String} {condition : Value} {fields : Fields}
  {actual : Option Value}

/-- One of the conditions of an expectation fails for the patterns of the expectation only, if what
it expects itself does. -/
theorem condition_failsBy [Libraries] (hmem : (key, condition) ∈ fields)
    (ih : ∀ actual path, FailsBy (PatternOf condition) (evaluate condition actual path)) :
    FailsBy (PatternOf (.object fields))
      (evaluateFields [(key, condition)] true actual path) := by
  have inner (nested : (Operator.ofName? key).all Operator.isNested) (actual : Option Value)
      (path : String) : FailsBy (PatternOf (.object fields))
        (evaluate condition actual path) :=
    (ih actual path).mono fun v hv => .inside hmem nested hv
  cases hop : Operator.ofName? key with
  | none =>
    rw [evaluateFields_field hop]
    exact inner (by rw [hop]; rfl) _ _
  | some op =>
    rw [evaluateFields_operator hop]
    refine applyOperator_errors (fun hpattern => ?_) fun hnested =>
      inner (by rw [hop]; exact hnested)
    subst hpattern
    have hhere : PatternOf (.object fields) condition := .here hmem hop
    exact FailsBy.compile hhere

theorem evaluate_failsBy [Libraries] (expected : Value) (actual : Option Value) (path : String) :
    FailsBy (PatternOf expected) (evaluate expected actual path) := by
  induction expected using Value.induction generalizing actual path with
  | null | bool | number | string | array => exact .ok _
  | object fields ih =>
    by_cases hfields : fields = []
    · subst hfields
      exact .ok _
    rw [evaluate_object hfields]
    split
    · -- The conditions are gone through one by one, each of them being one of all.
      have hall : ∀ rest : Fields, (∀ f ∈ rest, f ∈ fields) →
          FailsBy (PatternOf (.object fields))
            (evaluateFields rest true actual path) := by
        intro rest hrest
        induction rest with
        | nil =>
          rw [evaluateFields_nil]
          exact .ok []
        | cons f rest ihrest =>
          obtain ⟨hf, hrest⟩ := List.forall_mem_cons.mp hrest
          rw [evaluateFields_cons]
          refine (condition_failsBy hf (ih f hf)).bind fun _ => ?_
          exact (ihrest hrest).bind fun _ => .ok _
      exact hall fields fun _ hf => hf
    · exact .ok _

theorem PatternAmong.mono {trees others : List Value} {v : Value} (hv : PatternAmong trees v)
    (h : trees ⊆ others) : PatternAmong others v :=
  hv.imp fun _ hpart => ⟨h hpart.1, hpart.2⟩

theorem headers_failsBy [Libraries] (actual : List (String × String)) (expected : Fields) :
    FailsBy (PatternAmong (expected.map Prod.snd)) (headers actual expected) := by
  induction expected with
  | nil => exact .ok []
  | cons f rest ih =>
    have hfirst := evaluate_failsBy f.2 ((header? actual f.1).map .string)
      ("headers." ++ Text.lower f.1)
    refine (hfirst.mono fun v hv => ?_).bind fun _ => (ih.mono fun v hv => ?_).bind fun _ => .ok _
    · exact ⟨f.2, List.mem_cons_self, hv⟩
    · exact hv.mono (List.subset_cons_self _ _)

end Check

namespace Expectation

open Check

variable [Libraries] {e : Expectation} {r : Response} {tree : Value} {alternatives : List Value}

/-- The trees by which the headers and the body of a response are checked. -/
def trees (e : Expectation) : List Value :=
  (e.headers.getD []).map Prod.snd ++ e.body.toList ++ e.all.getD [] ++ e.any.getD []

theorem bodyFailures_failsBy : FailsBy (PatternOf tree) (bodyFailures r tree) :=
  (evaluate_failsBy tree (some r.body) "body").map _

theorem allFailures_failsBy : FailsBy (PatternAmong alternatives) (allFailures r alternatives) := by
  induction alternatives with
  | nil => exact .ok []
  | cons tree rest ih =>
    refine (bodyFailures_failsBy.mono fun v hv => ?_).bind fun _ =>
      (ih.mono fun v hv => ?_).bind fun _ => .ok _
    · exact ⟨tree, List.mem_cons_self, hv⟩
    · exact hv.mono (List.subset_cons_self _ _)

theorem reasonsAgainst_failsBy :
    FailsBy (PatternAmong alternatives) (reasonsAgainst r alternatives) := by
  induction alternatives with
  | nil => exact .ok _
  | cons tree rest ih =>
    have hfirst := evaluate_failsBy tree (some r.body) "body"
    refine (hfirst.mono fun v hv => ?_).bind fun cs => ?_
    · exact ⟨tree, List.mem_cons_self, hv⟩
    split
    · exact .ok none
    · refine (ih.mono fun v hv => ?_).bind fun _ => .ok _
      exact hv.mono (List.subset_cons_self _ _)

theorem anyFailures_failsBy : FailsBy (PatternAmong alternatives) (anyFailures r alternatives) := by
  refine reasonsAgainst_failsBy.bind fun reasons => ?_
  cases reasons with
  | none => exact .ok []
  | some reasons => exact .ok _

theorem optionalFailures_failsBy {α : Type} {patterns : Value → Prop}
    {f : α → Except Error (List String)} {part : Option α}
    (h : ∀ a, part = some a → FailsBy patterns (f a)) :
    FailsBy patterns (optionalFailures f part) := by
  cases part with
  | none => exact .ok []
  | some a => exact h a rfl

theorem failures_failsBy (e : Expectation) (r : Response) :
    FailsBy (PatternAmong e.trees) (failures e r) := by
  have hheaders : FailsBy (PatternAmong e.trees) (headerFailures r e.headers) := by
    cases hpart : e.headers with
    | none => exact .ok []
    | some fields =>
      have htrees : fields.map Prod.snd ⊆ e.trees := by simp [trees, hpart]
      exact ((headers_failsBy r.headers fields).mono fun v hv => hv.mono htrees).map _
  have hbody : FailsBy (PatternAmong e.trees) (optionalFailures (bodyFailures r) e.body) := by
    refine optionalFailures_failsBy fun tree hpart => bodyFailures_failsBy.mono fun v hv => ?_
    exact ⟨tree, by simp [trees, hpart], hv⟩
  have hall : FailsBy (PatternAmong e.trees) (optionalFailures (allFailures r) e.all) := by
    refine optionalFailures_failsBy fun all hpart => allFailures_failsBy.mono fun v hv => ?_
    have htrees : all ⊆ e.trees := fun tree htree => by simp [trees, hpart, htree]
    exact hv.mono htrees
  have hany : FailsBy (PatternAmong e.trees) (optionalFailures (anyFailures r) e.any) := by
    refine optionalFailures_failsBy fun any hpart => anyFailures_failsBy.mono fun v hv => ?_
    have htrees : any ⊆ e.trees := fun tree htree => by simp [trees, hpart, htree]
    exact hv.mono htrees
  exact hheaders.bind fun _ => hbody.bind fun _ => hall.bind fun _ => hany.bind fun _ => .ok _

end Expectation

/-- A computation has a result if all its patterns are regular expressions, and it fails only with
the error of a pattern that is none. In particular it fails with no internal error. -/
structure OnlyPatternsFail [Libraries] {α : Type} (patterns : Value → Prop)
    (x : Except Error α) : Prop where
  succeeds : (∀ v, patterns v → (Libraries.readPattern v.text).isOk) → ∃ a, x = .ok a
  fails : ∀ e, x = .error e → ∃ v reason, patterns v ∧
    Libraries.readPattern v.text = .error reason ∧ e = .invalidPattern v.text reason
  handled : ∀ reason, x ≠ .error (.internal reason)

theorem Check.FailsBy.onlyPatternsFail [Libraries] {α : Type} {patterns : Value → Prop}
    {x : Except Error α} (h : Check.FailsBy patterns x) : OnlyPatternsFail patterns x := by
  refine ⟨fun hvalid => ?_, h, fun reason hx => ?_⟩
  · cases x with
    | ok a => exact ⟨a, rfl⟩
    | error e =>
      obtain ⟨v, reason, hv, hread, -⟩ := h e rfl
      have hok := hvalid v hv
      rw [hread] at hok
      cases hok
  · obtain ⟨v, _, -, -, he⟩ := h _ hx
    cases he

namespace Check

/-- The operators that are handled are those of the table: any other name is an internal error, and
on the names of the table there is none but those of the expectations below. -/
theorem applyOperator_internal [Libraries]
    {inner : Option Value → String → Except Error (List Check)}
    (hinner : ∀ actual path reason, inner actual path ≠ .error (.internal reason))
    (operator : String) (actual : Option Value) (operand : Value) (path reason : String) :
    applyOperator inner operator actual operand path = .error (.internal reason) ↔
      operator ∉ operatorNames ∧ reason = "unhandled operator '" ++ operator ++ "'" := by
  rw [← List.contains_iff_mem, Bool.not_eq_true]
  change _ ↔ isOperator operator = false ∧ _
  cases hop : Operator.ofName? operator with
  | none =>
    have hname := Operator.not_isOperator_of_ofName? hop
    rw [applyOperator_unhandled hname]
    simp [hname, eq_comm]
  | some op =>
    have hname := Operator.isOperator_of_ofName? hop
    obtain rfl := Operator.ofName?_eq_some.mp hop
    have herrors : ErrorsAre (fun e => ∀ reason, e ≠ .internal reason)
        (applyOperator inner op.name actual operand path) := by
      refine applyOperator_errors (fun _ e he => ?_) fun _ actual path e he reason => ?_
      · obtain ⟨_, -, rfl⟩ := compile_eq_error.mp he
        exact fun _ => Error.noConfusion
      · rintro rfl
        exact hinner actual path reason he
    simp only [hname, Bool.true_eq_false, false_and, iff_false]
    exact fun h => herrors _ h reason rfl

end Check

/-- Checks fail by a pattern that is no regular expression and by nothing else: those of a value, of
a body, of headers and of a whole response. Where what its operand expects ends in no internal
error, an operator ends in one just when its name is missing from the table of operators. -/
theorem checks_fail_by_patterns [Libraries] :
    (∀ expected actual path, OnlyPatternsFail (Check.PatternOf expected)
      (Check.evaluate expected actual path)) ∧
    (∀ actual expected path, OnlyPatternsFail (Check.PatternOf expected)
      (Check.body actual expected path)) ∧
    (∀ actual expected, OnlyPatternsFail (Check.PatternAmong (expected.map Prod.snd))
      (Check.headers actual expected)) ∧
    (∀ e r, OnlyPatternsFail (Check.PatternAmong e.trees) (Expectation.failures e r)) ∧
    (∀ inner, (∀ actual path reason, inner actual path ≠ .error (.internal reason)) →
      ∀ operator actual operand path reason,
        Check.applyOperator inner operator actual operand path = .error (.internal reason) ↔
          operator ∉ operatorNames ∧ reason = "unhandled operator '" ++ operator ++ "'") :=
  ⟨fun expected actual path => (Check.evaluate_failsBy expected actual path).onlyPatternsFail,
    fun actual expected path =>
      (Check.evaluate_failsBy expected (some actual) path).onlyPatternsFail,
    fun actual expected => (Check.headers_failsBy actual expected).onlyPatternsFail,
    fun e r => (Expectation.failures_failsBy e r).onlyPatternsFail,
    fun _ hinner => Check.applyOperator_internal hinner⟩

/-- A pattern that nothing is held against is not read, and one that is read has to be one. No
operator is called `near`. -/
theorem checks_fail_by_patterns_every :
    let every (pattern : String) : Value :=
      .object [("every", .object [("matches", .string pattern)])]
    (∃ cs, Check.body (.array []) (every "(") "body" = .ok cs) ∧
    Check.body (.array [.null]) (every "(") "body" =
      .error (.invalidPattern "(" "not well formed") ∧
    (∃ cs, Check.body (.array [.null]) (every "a+") "body" = .ok cs) ∧
    Check.applyOperator (Check.evaluate .null) "near" none .null "body" =
      .error (.internal "unhandled operator 'near'") := by
  intro every
  have hpattern (pattern : String) (v : Value) (h : Check.PatternOf (every pattern) v) :
      v = .string pattern := by
    simp only [every, Check.PatternOf, Check.applies_object, List.mem_singleton,
      exists_eq_left] at h
    obtain ⟨hname, -⟩ | ⟨-, ⟨-, rfl⟩ | ⟨-, hpart⟩⟩ := h
    · cases hname
    · rfl
    · cases hpart
  obtain ⟨hevaluate, hbody, -, -, hinternal⟩ := checks_fail_by_patterns
  refine ⟨⟨_, rfl⟩, ?_, ?_, ?_⟩
  · cases h : Check.body (.array [.null]) (every "(") "body" with
    | ok cs =>
      have hfails : (Check.body (.array [.null]) (every "(") "body").toOption.isSome = false := by
        decide +kernel
      rw [h] at hfails
      cases hfails
    | error e =>
      obtain ⟨v, reason, hv, hread, rfl⟩ := (hbody (.array [.null]) (every "(") "body").fails e h
      rw [hpattern "(" v hv] at hread ⊢
      cases hread
      rfl
  · refine (hbody (.array [.null]) (every "a+") "body").succeeds fun v hv => ?_
    rw [hpattern "a+" v hv]
    decide +kernel
  · have hinner := fun actual path => (hevaluate .null actual path).handled
    exact (hinternal _ hinner "near" none .null "body" _).mpr ⟨by decide, by decide⟩

end Assay
