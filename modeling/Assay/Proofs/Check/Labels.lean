import Assay.Proofs.Check.Operators
import Assay.Proofs.Value.Equality

namespace Assay.Check

/-- Two computations come to related results, or both fail with related errors. -/
inductive Concur {α β : Type} (E : Error → Error → Prop) (R : α → β → Prop) :
    Except Error α → Except Error β → Prop
  | ok {a : α} {b : β} (h : R a b) : Concur E R (.ok a) (.ok b)
  | error {e f : Error} (h : E e f) : Concur E R (.error e) (.error f)

namespace Concur

variable {α α' β β' : Type} {E : Error → Error → Prop} {R : α → β → Prop} {S : α' → β' → Prop}
  {x : Except Error α} {y : Except Error β}

theorem bind {f : α → Except Error α'} {g : β → Except Error β'} (h : Concur E R x y)
    (hfg : ∀ a b, R a b → Concur E S (f a) (g b)) : Concur E S (x >>= f) (y >>= g) := by
  cases h with
  | ok hab => exact hfg _ _ hab
  | error he => exact .error he

theorem map {f : α → α'} {g : β → β'} (h : Concur E R x y) (hfg : ∀ a b, R a b → S (f a) (g b)) :
    Concur E S (x.map f) (y.map g) := by
  cases h with
  | ok hab => exact .ok (hfg _ _ hab)
  | error he => exact .error he

theorem mono {R' : α → β → Prop} (h : Concur E R x y) (hR : ∀ a b, R a b → R' a b) :
    Concur E R' x y := by
  cases h with
  | ok hab => exact .ok (hR _ _ hab)
  | error he => exact .error he

theorem of_eq {x y : Except Error α} (h : x = y) : Concur Eq Eq x y := by
  subst h
  cases x with
  | error e => exact .error rfl
  | ok a => exact .ok rfl

theorem of_map {T : α' → β' → Prop} {f : α → α'} {g : β → β'}
    (h : Concur E T (x.map f) (y.map g)) : Concur E (fun a b => T (f a) (g b)) x y := by
  cases x with
  | error e =>
    cases y with
    | error e' =>
      cases h with
      | error he => exact .error he
    | ok b => cases h
  | ok a =>
    cases y with
    | error e' => cases h
    | ok b =>
      cases h with
      | ok hab => exact .ok hab

theorem map_eq {γ : Type} {f : α → γ} {g : β → γ} (h : Concur Eq R x y)
    (hR : ∀ a b, R a b → f a = g b) : x.map f = y.map g := by
  cases h with
  | ok hab => exact congrArg Except.ok (hR _ _ hab)
  | error he => exact congrArg Except.error he

end Concur

variable {p q s : String} {c d : Check} {cs ds : List Check} {fs : Fields} {key path : String}
  {condition : Value} {actual : Option Value}

/-- The same check of the same thing, shown at a place below `p` and at the same place below `q`. -/
structure Relabelled (p q : String) (c d : Check) : Prop where
  operator : c.operator = d.operator
  expected : c.expected = d.expected
  actual : c.actual = d.actual
  passed : c.passed = d.passed
  path : ∃ s, c.path = p ++ s ∧ d.path = q ++ s

theorem relabelled_self {operator : String} {expected : Value} {b : Bool}
    (hc : c.outcome = ⟨p, operator, expected, actual, b⟩)
    (hd : d.outcome = ⟨q, operator, expected, actual, b⟩) : Relabelled p q c d where
  operator := (congrArg Outcome.operator hc).trans (congrArg Outcome.operator hd).symm
  expected := (congrArg Outcome.expected hc).trans (congrArg Outcome.expected hd).symm
  actual := (congrArg Outcome.actual hc).trans (congrArg Outcome.actual hd).symm
  passed := (congrArg Outcome.passed hc).trans (congrArg Outcome.passed hd).symm
  path := by
    refine ⟨"", ?_, ?_⟩
    · rw [String.append_empty]
      exact congrArg Outcome.path hc
    · rw [String.append_empty]
      exact congrArg Outcome.path hd

theorem Relabelled.outer (h : Relabelled (p ++ s) (q ++ s) c d) : Relabelled p q c d := by
  obtain ⟨t, hc, hd⟩ := h.path
  rw [String.append_assoc] at hc hd
  exact ⟨h.operator, h.expected, h.actual, h.passed, s ++ t, hc, hd⟩

theorem Relabelled.negate (h : Relabelled p q c d) : Relabelled p q c.negate d.negate where
  operator := congrArg (fun operator => "not(" ++ operator ++ ")") h.operator
  expected := h.expected
  actual := h.actual
  passed := congrArg (!·) h.passed
  path := h.path

theorem allPassed_relabelled (h : List.Forall₂ (Relabelled p q) cs ds) :
    allPassed cs = allPassed ds := by
  unfold allPassed
  induction h with
  | nil => rfl
  | cons hcd _ ih => rw [List.all_cons, List.all_cons, hcd.passed, ih]

/-- The checks differ in nothing but their paths and messages, whatever place they are shown at. -/
def LabelOnly (checks : String → Except Error (List Check)) : Prop :=
  ∀ p q, p ≠ "" → q ≠ "" →
    Concur Eq (List.Forall₂ (Relabelled p q)) (checks p) (checks q)

theorem labelOnly_single {checks : String → Except Error (List Check)} {operator : String}
    {expected : Value} {b : Bool}
    (h : ∀ path, ∃ c, checks path = .ok [c] ∧ c.outcome = ⟨path, operator, expected, actual, b⟩) :
    LabelOnly checks := by
  intro p q _ _
  obtain ⟨c, hc, houtcome⟩ := h p
  obtain ⟨d, hd, houtcome'⟩ := h q
  rw [hc, hd]
  exact .ok (.cons (relabelled_self houtcome houtcome') .nil)

theorem labelOnly_length (actual : Option Value) (condition : Value) :
    LabelOnly fun path => .ok (checkLength actual condition path) := by
  intro p q _ _
  refine .ok ?_
  unfold checkLength
  cases actual.bind Value.length? with
  | none => exact .cons (relabelled_self rfl rfl) .nil
  | some n =>
    cases condition with
    | object bounds =>
      dsimp only
      rw [List.forall₂_map_left_iff, List.forall₂_map_right_iff, List.forall₂_same]
      intro entry _
      exact (relabelled_self checkLengthBound_outcome checkLengthBound_outcome).outer
    | _ => exact .cons (Relabelled.outer (s := ".length") (relabelled_self rfl rfl)) .nil

theorem append_ne_empty (hp : p ≠ "") : p ++ s ≠ "" := by
  intro h
  exact hp (String.append_eq_empty_iff.mp h).1

theorem joinPath_eq (hp : p ≠ "") : joinPath p key = p ++ ("." ++ key) := by
  rw [joinPath, if_neg hp, String.append_assoc]

theorem itemPath_ne_empty (path : String) (i : Nat) : itemPath path i ≠ "" := by
  intro h
  exact absurd (String.append_eq_empty_iff.mp h).2 (by decide)

/-- Whether a value passes all checks of an expectation, apart from any place in a list. -/
def judge [Libraries] (expected v : Value) : Except Error Bool :=
  (evaluate expected (some v) "item").map allPassed

theorem judge_eq [Libraries] {expected v : Value} (h : LabelOnly (evaluate expected (some v)))
    (hp : p ≠ "") : (evaluate expected (some v) p).map allPassed = judge expected v :=
  (h p "item" hp (by decide)).map_eq fun _ _ => allPassed_relabelled

theorem failures_isEmpty (cs : List Check) : (failures cs).isEmpty = allPassed cs := by
  rw [Bool.eq_iff_iff, List.isEmpty_iff, failures_eq_nil, allPassed_iff]

section Items

variable [Libraries] {expected : Value} (h : ∀ v, LabelOnly (evaluate expected (some v)))
  (path : String)
include h

theorem failuresOfItems_judged (i : Nat) (items : List Value) :
    (failuresOfItems (fun v p => evaluate expected (some v) p) path i items).map List.isEmpty =
      (items.mapM (judge expected)).map fun verdicts => verdicts.all id := by
  induction items generalizing i with
  | nil => rfl
  | cons v vs ih =>
    rw [List.mapM_cons, ← judge_eq (h v) (itemPath_ne_empty path i), failuresOfItems]
    cases evaluate expected (some v) (itemPath path i) with
    | error e => rfl
    | ok cs =>
      have hrest := ih (i + 1)
      revert hrest
      cases failuresOfItems (fun v p => evaluate expected (some v) p) path (i + 1) vs with
      | error e =>
        cases vs.mapM (judge expected) with
        | error f => exact id
        | ok verdicts => nofun
      | ok rest =>
        cases vs.mapM (judge expected) with
        | error f => nofun
        | ok verdicts =>
          intro hrest
          have hrest : rest.isEmpty = verdicts.all id := Except.ok.inj hrest
          change Except.ok (failures cs ++ rest).isEmpty =
            Except.ok (allPassed cs && verdicts.all id)
          rw [← failures_isEmpty, ← hrest]
          cases failures cs <;> rfl

/-- An item is found when one is judged to pass before any that cannot be judged. -/
theorem firstPassing_judged (i : Nat) (items : List Value) :
    (firstPassing (fun v p => evaluate expected (some v) p) path i items).map Option.isSome =
      items.anyM (judge expected) := by
  induction items generalizing i with
  | nil => rfl
  | cons v vs ih =>
    rw [List.anyM_cons, ← judge_eq (h v) (itemPath_ne_empty path i), firstPassing]
    cases evaluate expected (some v) (itemPath path i) with
    | error e => rfl
    | ok cs =>
      change Except.map Option.isSome (if allPassed cs then _ else _) =
        if allPassed cs then _ else _
      cases allPassed cs with
      | true => rfl
      | false => exact ih (i + 1)

end Items

theorem labelOnly_alone [Libraries] (ih : ∀ actual, LabelOnly (evaluate condition actual)) :
    LabelOnly (evaluateFields [(key, condition)] true actual) := by
  intro p q hp hq
  cases hop : Operator.ofName? key with
  | none =>
    rw [evaluateFields_field hop, evaluateFields_field hop, joinPath_eq hp, joinPath_eq hq]
    have hfield := ih (actual.bind fun a => a.child? key) (p ++ ("." ++ key)) (q ++ ("." ++ key))
      (append_ne_empty hp) (append_ne_empty hq)
    exact hfield.mono fun cs ds hchecks => hchecks.imp fun _ _ => Relabelled.outer
  | some op =>
    by_cases hwhole : op.isWhole
    · exact labelOnly_single (fun path => evaluateFields_whole hop hwhole) p q hp hq
    cases op with
    | pattern =>
      rw [evaluateFields_pattern hop, evaluateFields_pattern hop]
      cases compile condition.text with
      | error e => exact .error rfl
      | ok r => exact .ok (.cons (relabelled_self rfl rfl) .nil)
    | length =>
      rw [evaluateFields_length hop, evaluateFields_length hop]
      exact labelOnly_length actual condition p q hp hq
    | negation =>
      rw [evaluateFields_negation hop, evaluateFields_negation hop]
      refine (ih actual p q hp hq).map fun cs ds hchecks => ?_
      rw [List.forall₂_map_left_iff, List.forall₂_map_right_iff]
      exact hchecks.imp fun _ _ => Relabelled.negate
    | every =>
      by_cases hlist : ∃ items, actual = some (.array items)
      · obtain ⟨items, rfl⟩ := hlist
        rw [evaluateFields_every hop, evaluateFields_every hop]
        have hitems := (failuresOfItems_judged (fun v => ih (some v)) p 0 items).trans
          (failuresOfItems_judged (fun v => ih (some v)) q 0 items).symm
        refine (Concur.of_eq hitems).of_map.map fun failed failed' hfailed => ?_
        exact .cons (relabelled_self (b := failed.isEmpty) rfl (by rw [hfailed]; rfl)) .nil
      · rw [evaluateFields_notAList (.inl hop) (not_exists.mp hlist),
          evaluateFields_notAList (.inl hop) (not_exists.mp hlist)]
        exact .ok (.cons (relabelled_self rfl rfl) .nil)
    | any =>
      by_cases hlist : ∃ items, actual = some (.array items)
      · obtain ⟨items, rfl⟩ := hlist
        rw [evaluateFields_any hop, evaluateFields_any hop]
        have hitems := (firstPassing_judged (fun v => ih (some v)) p 0 items).trans
          (firstPassing_judged (fun v => ih (some v)) q 0 items).symm
        refine (Concur.of_eq hitems).of_map.map fun found found' hfound => ?_
        exact .cons (relabelled_self (b := found.isSome) rfl (by rw [hfound]; rfl)) .nil
      · rw [evaluateFields_notAList (.inr hop) (not_exists.mp hlist),
          evaluateFields_notAList (.inr hop) (not_exists.mp hlist)]
        exact .ok (.cons (relabelled_self rfl rfl) .nil)
    | _ => exact absurd rfl hwhole

theorem labelOnly_fields [Libraries] (ih : ∀ f ∈ fs, ∀ actual, LabelOnly (evaluate f.2 actual)) :
    LabelOnly (evaluateFields fs true actual) := by
  induction fs with
  | nil =>
    intro p q _ _
    rw [evaluateFields_nil, evaluateFields_nil]
    exact .ok .nil
  | cons f fs ihfs =>
    intro p q hp hq
    obtain ⟨hfirst, hrest⟩ := List.forall_mem_cons.mp ih
    rw [evaluateFields_cons f fs, evaluateFields_cons f fs]
    refine (labelOnly_alone hfirst p q hp hq).bind fun first first' hchecks => ?_
    refine (ihfs hrest p q hp hq).bind fun rest rest' hchecks' => ?_
    exact .ok (List.rel_append hchecks hchecks')

theorem labelOnly_evaluate [Libraries] (expected : Value) (actual : Option Value) :
    LabelOnly (evaluate expected actual) := by
  induction expected using Value.induction generalizing actual with
  | null | bool | number | string | array => exact labelOnly_single fun path => ⟨_, rfl, rfl⟩
  | object fields ih =>
    by_cases hfields : fields = []
    · subst hfields
      exact labelOnly_single fun path => ⟨_, rfl, rfl⟩
    · intro p q hp hq
      rw [evaluate_object hfields, evaluate_object hfields]
      split
      · exact labelOnly_fields ih p q hp hq
      · exact .ok (.cons (relabelled_self rfl rfl) .nil)

/-- The path that a value is checked at only labels the checks. Items are judged one by one, each
apart from its place: for all of them every one is, for some of them those up to the first that
passes. -/
theorem evaluate_labels [Libraries] (expected : Value) :
    (∀ actual p q, p ≠ "" → q ≠ "" →
      (∃ e, evaluate expected actual p = .error e ∧ evaluate expected actual q = .error e) ∨
      ∃ cs ds, evaluate expected actual p = .ok cs ∧ evaluate expected actual q = .ok ds ∧
        List.Forall₂ (Relabelled p q) cs ds) ∧
    (∀ items path, (evaluate (.object [("every", expected)]) (some (.array items)) path).map
      allPassed = (items.mapM (judge expected)).map fun verdicts => verdicts.all id) ∧
    (∀ items path, (evaluate (.object [("some", expected)]) (some (.array items)) path).map
      allPassed = items.anyM (judge expected)) := by
  refine ⟨fun actual p q hp hq => ?_, fun items path => ?_, fun items path => ?_⟩
  · generalize hleft : evaluate expected actual p = left
    generalize hright : evaluate expected actual q = right
    have hlabels := labelOnly_evaluate expected actual p q hp hq
    rw [hleft, hright] at hlabels
    cases hlabels with
    | ok hchecks => exact .inr ⟨_, _, rfl, rfl, hchecks⟩
    | error he =>
      subst he
      exact .inl ⟨_, rfl, rfl⟩
  · rw [← failuresOfItems_judged (fun v => labelOnly_evaluate expected (some v)) path 0 items,
      evaluate_alone (show Operator.ofName? "every" = some .every from rfl),
      evaluateFields_every rfl]
    cases failuresOfItems (fun v p => evaluate expected (some v) p) path 0 items with
    | error e => rfl
    | ok failed => exact congrArg Except.ok (Bool.and_true failed.isEmpty)
  · rw [← firstPassing_judged (fun v => labelOnly_evaluate expected (some v)) path 0 items,
      evaluate_alone (show Operator.ofName? "some" = some .any from rfl), evaluateFields_any rfl]
    cases firstPassing (fun v p => evaluate expected (some v) p) path 0 items with
    | error e => rfl
    | ok found => exact congrArg Except.ok (Bool.and_true found.isSome)

/-- A list of flags as a body and as a reply, and its items judged one by one. -/
theorem evaluate_labels_flags :
    let boolean : Value := .object [("type", .string "boolean")]
    (∃ cs ds, evaluate flagsExpectation (some flags) "body" = .ok cs ∧
      evaluate flagsExpectation (some flags) "reply" = .ok ds ∧
      cs.map (·.path) = ["body", "body", "body.0"] ∧
      ds.map (·.path) = ["reply", "reply", "reply.0"] ∧
      List.Forall₂ (Relabelled "body" "reply") cs ds) ∧
    (evaluate (.object [("every", boolean)]) (some flags) "reply").map allPassed = .ok true ∧
    (evaluate (.object [("some", .object [("not", boolean)])]) (some flags) "reply").map allPassed =
      .ok false := by
  intro boolean
  refine ⟨?_, (evaluate_labels boolean).2.1 _ "reply",
    (evaluate_labels (.object [("not", boolean)])).2.2 _ "reply"⟩
  obtain ⟨e, he, -⟩ | ⟨cs, ds, hcs, hds, hchecks⟩ :=
    (evaluate_labels flagsExpectation).1 (some flags) "body" "reply" (by decide) (by decide)
  · cases he
  · refine ⟨cs, ds, hcs, hds, ?_, ?_, hchecks⟩
    · cases hcs
      rfl
    · cases hds
      rfl

end Assay.Check
