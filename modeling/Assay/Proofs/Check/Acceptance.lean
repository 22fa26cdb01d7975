import Assay.Proofs.Check.Patterns

namespace Assay

namespace Check

variable {α : Type} {check : α → Except Error (List Check)} {parts : List α}
  {found : List (List Check)} {cs ds : List Check}

/-- The checks that each of some parts comes to. -/
def Finds (check : α → Except Error (List Check)) (parts : List α) (found : List (List Check)) :
    Prop :=
  List.Forall₂ (fun a cs => check a = .ok cs) parts found

theorem exists_finds (h : ∀ a ∈ parts, ∃ cs, check a = .ok cs) :
    ∃ found, Finds check parts found := by
  induction parts with
  | nil => exact ⟨[], .nil⟩
  | cons a rest ih =>
    obtain ⟨hfirst, hrest⟩ := List.forall_mem_cons.mp h
    obtain ⟨cs, hcs⟩ := hfirst
    obtain ⟨found, hfound⟩ := ih hrest
    exact ⟨cs :: found, .cons hcs hfound⟩

theorem failures_append : failures (cs ++ ds) = failures cs ++ failures ds := by
  rw [failures, List.filter_append, List.map_append]
  rfl

theorem Finds.failures_eq_nil {P : α → Prop} (h : Finds check parts found)
    (hcheck : ∀ a cs, check a = .ok cs → (AllAre true cs ↔ P a)) :
    failures found.flatten = [] ↔ ∀ a ∈ parts, P a := by
  rw [Check.failures_eq_nil]
  induction h with
  | nil => simp [AllAre]
  | cons hcs _ ih =>
    rw [List.flatten_cons, allAre_append, List.forall_mem_cons, hcheck _ _ hcs, ih]

theorem Finds.any_allPassed {P : α → Prop} (h : Finds check parts found)
    (hcheck : ∀ a cs, check a = .ok cs → (AllAre true cs ↔ P a)) :
    found.any allPassed ↔ ∃ a ∈ parts, P a := by
  induction h with
  | nil => simp
  | cons hcs _ ih =>
    rw [List.any_cons, Bool.or_eq_true, allPassed_iff, hcheck _ _ hcs, ih, List.exists_mem_cons_iff]

/-- The checks of one header. -/
def headerChecks [Libraries] (actual : List (String × String)) (expected : String × Value) :
    Except Error (List Check) :=
  evaluate expected.2 ((header? actual expected.1).map .string)
    ("headers." ++ Text.lower expected.1)

theorem headers_eq [Libraries] {actual : List (String × String)} {expected : Fields}
    (h : Finds (headerChecks actual) expected found) :
    headers actual expected = .ok found.flatten := by
  induction h with
  | nil => rfl
  | @cons f cs rest found hcs _ ih =>
    change (headerChecks actual f >>= fun cs => headers actual rest >>= fun more =>
      pure (cs ++ more)) = _
    rw [hcs, ih]
    rfl

end Check

namespace Expectation

open Check

variable {e : Expectation} {r : Response} {read unread : List Value} {found : List (List Check)}

/-- The checks of one tree against the body of a response. -/
def treeChecks [Libraries] (r : Response) (tree : Value) : Except Error (List Check) :=
  Check.body r.body tree "body"

theorem allFailures_eq [Libraries] {trees : List Value} (h : Finds (treeChecks r) trees found) :
    allFailures r trees = .ok (Check.failures found.flatten) := by
  induction h with
  | nil => rfl
  | @cons tree cs rest found hcs _ ih =>
    change ((treeChecks r tree).map Check.failures >>= fun here => allFailures r rest >>=
      fun more => pure (here ++ more)) = _
    rw [hcs, ih, List.flatten_cons, failures_append]
    rfl

theorem reasonsAgainst_eq [Libraries] (h : Finds (treeChecks r) read found)
    (hread : unread = [] ∨ found.any allPassed) :
    reasonsAgainst r (read ++ unread) =
      .ok (if found.any allPassed then none
        else some (found.map fun cs => String.intercalate ", " (Check.failures cs))) := by
  induction h with
  | nil =>
    have hunread : unread = [] := by simpa using hread
    subst hunread
    rfl
  | @cons tree cs rest found hcs _ ih =>
    change (treeChecks r tree >>= fun checks => if allPassed checks then pure none else
      reasonsAgainst r (rest ++ unread) >>= fun more =>
        pure (more.map (String.intercalate ", " (Check.failures checks) :: ·))) = _
    rw [hcs]
    change (if allPassed cs then _ else _) = _
    rw [List.any_cons]
    cases hpassed : allPassed cs with
    | true => rfl
    | false =>
      rw [List.any_cons, hpassed, Bool.false_or] at hread
      rw [Bool.false_or, ih hread]
      cases found.any allPassed <;> rfl

/-- The status is the code that is wanted, or one of them. -/
def StatusAccepted (status : Nat) : Value → Prop
  | .array codes => ∃ code ∈ codes, (Value.nat status).equals code
  | code => (Value.nat status).equals code

/-- A response is in every part what is wanted of it. -/
structure Accepts [Libraries] (e : Expectation) (r : Response) : Prop where
  status : ∀ wanted, e.status = some wanted → StatusAccepted r.status wanted
  headers : ∀ f ∈ e.headers.getD [], Sat true f.2 ((header? r.headers f.1).map .string)
  body : ∀ tree, e.body = some tree → Sat true tree (some r.body)
  expressions : ∀ es, e.expressions = some es → ∀ x ∈ es.toList, Expression.failure r x = none
  all : ∀ tree ∈ e.all.getD [], Sat true tree (some r.body)
  any : ∀ trees, e.any = some trees → ∃ tree ∈ trees, Sat true tree (some r.body)

/-- The checks of a response, for each of its headers and for each tree against its body. -/
structure Findings where
  headers : List (List Check)
  body : List (List Check)
  all : List (List Check)
  any : List (List Check)

/-- The findings are those of the expectation; of its alternatives the first ones are looked at. -/
structure Findings.Of [Libraries] (found : Findings) (e : Expectation) (r : Response)
    (read : List Value) : Prop where
  headers : Finds (headerChecks r.headers) (e.headers.getD []) found.headers
  body : Finds (treeChecks r) e.body.toList found.body
  all : Finds (treeChecks r) (e.all.getD []) found.all
  any : Finds (treeChecks r) read found.any

/-- One message when alternatives are given and none of them matches. -/
def anyMessages (alternatives : Option (List Value)) (found : List (List Check)) : List String :=
  if alternatives.isNone || found.any allPassed then []
  else
    let reasons := found.map fun cs => String.intercalate ", " (Check.failures cs)
    ["None of the 'any' alternatives matched: [" ++ String.intercalate " | " reasons ++ "]"]

/-- What is reported of a response, part after part. -/
def Findings.messages (found : Findings) (e : Expectation) (r : Response) : List String :=
  statusFailures r e.status ++ Check.failures found.headers.flatten ++
    Check.failures found.body.flatten ++ expressionFailures r e.expressions ++
    Check.failures found.all.flatten ++ anyMessages e.any found.any

theorem anyFailures_eq [Libraries] (h : Finds (treeChecks r) read found)
    (hany : e.any.getD [] = read ++ unread) (hread : unread = [] ∨ found.any allPassed) :
    optionalFailures (anyFailures r) e.any = .ok (anyMessages e.any found) := by
  cases halternatives : e.any with
  | none => rfl
  | some trees =>
    rw [halternatives, Option.getD_some] at hany
    subst hany
    change (reasonsAgainst r (read ++ unread) >>= _) = _
    rw [reasonsAgainst_eq h hread]
    unfold anyMessages
    cases found.any allPassed <;> rfl

theorem failures_eq [Libraries] {found : Findings} (h : found.Of e r read)
    (hany : e.any.getD [] = read ++ unread) (hread : unread = [] ∨ found.any.any allPassed) :
    failures e r = .ok (found.messages e r) := by
  have hheaders : headerFailures r e.headers = .ok (Check.failures found.headers.flatten) := by
    have hfound := headers_eq h.headers
    cases hpart : e.headers with
    | none =>
      rw [hpart] at hfound
      exact congrArg (Except.map Check.failures) hfound
    | some fields =>
      rw [hpart] at hfound
      exact congrArg (Except.map Check.failures) hfound
  have hbody : optionalFailures (bodyFailures r) e.body =
      .ok (Check.failures found.body.flatten) := by
    have hfound := h.body
    cases hpart : e.body with
    | none =>
      rw [hpart, Option.toList_none] at hfound
      rw [List.forall₂_nil_left_iff.mp hfound]
      rfl
    | some tree =>
      rw [hpart, Option.toList_some] at hfound
      have hsingle := allFailures_eq hfound
      obtain ⟨here, hhere, hrest⟩ := bind_eq_ok.mp hsingle
      rw [← Except.ok.inj hrest, List.append_nil]
      exact hhere
  have hall : optionalFailures (allFailures r) e.all = .ok (Check.failures found.all.flatten) := by
    have hfound := allFailures_eq h.all
    cases hpart : e.all with
    | none =>
      rw [hpart] at hfound
      exact hfound
    | some trees =>
      rw [hpart] at hfound
      exact hfound
  unfold failures
  rw [hheaders, hbody, hall, anyFailures_eq h.any hany hread]
  simp only [Findings.messages, List.append_assoc]
  rfl

theorem status_passed {status : Nat} {wanted : Value} :
    (Check.status status wanted).passed ↔ StatusAccepted status wanted := by
  cases wanted with
  | array codes => exact List.any_eq_true
  | null | bool | number | string | object => exact Iff.rfl

theorem statusFailures_eq_nil :
    statusFailures r e.status = [] ↔
      ∀ wanted, e.status = some wanted → StatusAccepted r.status wanted := by
  cases hpart : e.status with
  | none => simp [statusFailures]
  | some wanted =>
    rw [statusFailures, Check.failures_eq_nil, allAre_singleton, status_passed]
    simp

theorem expressionFailures_eq_nil :
    expressionFailures r e.expressions = [] ↔ ∀ es, e.expressions = some es →
      ∀ x ∈ es.toList, Expression.failure r x = none := by
  cases hpart : e.expressions with
  | none => simp [expressionFailures]
  | some es =>
    rw [expressionFailures, List.filterMap_eq_nil_iff]
    simp

theorem treeChecks_sat [Libraries] (tree : Value) (cs : List Check)
    (h : treeChecks r tree = .ok cs) :
    AllAre true cs ↔ Sat true tree (some r.body) := evaluate_sat tree h

theorem anyMessages_eq_nil [Libraries] (h : Finds (treeChecks r) read found)
    (hany : e.any.getD [] = read ++ unread) (hread : unread = [] ∨ found.any allPassed) :
    anyMessages e.any found = [] ↔
      ∀ trees, e.any = some trees → ∃ tree ∈ trees, Sat true tree (some r.body) := by
  have hpassed := h.any_allPassed treeChecks_sat
  cases halternatives : e.any with
  | none => simp [anyMessages]
  | some trees =>
    rw [halternatives, Option.getD_some] at hany
    subst hany
    have hwhole : found.any allPassed ↔ ∃ tree ∈ read ++ unread, Sat true tree (some r.body) := by
      rcases hread with hunread | hfound
      · rw [hunread, List.append_nil]
        exact hpassed
      · obtain ⟨tree, htree, hsat⟩ := hpassed.mp hfound
        exact iff_of_true hfound ⟨tree, List.mem_append_left unread htree, hsat⟩
    have hmessages : anyMessages (some (read ++ unread)) found = [] ↔ found.any allPassed := by
      unfold anyMessages
      cases found.any allPassed <;> simp
    rw [hmessages, hwhole]
    simp

theorem messages_eq_nil [Libraries] {found : Findings} (h : found.Of e r read)
    (hany : e.any.getD [] = read ++ unread) (hread : unread = [] ∨ found.any.any allPassed) :
    found.messages e r = [] ↔ e.Accepts r := by
  have hheaders := h.headers.failures_eq_nil fun f cs hcs => evaluate_sat f.2 hcs
  have hbody := h.body.failures_eq_nil treeChecks_sat
  have hall := h.all.failures_eq_nil treeChecks_sat
  simp only [Findings.messages, List.append_eq_nil_iff, hheaders, hbody, hall,
    statusFailures_eq_nil, expressionFailures_eq_nil, anyMessages_eq_nil h.any hany hread,
    Option.mem_toList]
  constructor
  · rintro ⟨⟨⟨⟨⟨hstatus, hheaders⟩, hbody⟩, hexpressions⟩, hall⟩, hany⟩
    exact ⟨hstatus, hheaders, hbody, hexpressions, hall, hany⟩
  · rintro ⟨hstatus, hheaders, hbody, hexpressions, hall, hany⟩
    exact ⟨⟨⟨⟨⟨hstatus, hheaders⟩, hbody⟩, hexpressions⟩, hall⟩, hany⟩

theorem exists_findings [Libraries]
    (hvalid : ∀ v, PatternAmong { e with any := some read }.trees v →
      (Libraries.readPattern v.text).isOk) :
    ∃ found : Findings, found.Of e r read := by
  have hchecks {tree : Value} (htree : tree ∈ { e with any := some read }.trees)
      (actual : Option Value) (path : String) : ∃ cs, evaluate tree actual path = .ok cs :=
    (evaluate_failsBy tree actual path).onlyPatternsFail.succeeds fun v hv =>
      hvalid v ⟨tree, htree, hv⟩
  obtain ⟨headers, hheaders⟩ : ∃ found, Finds (headerChecks r.headers) (e.headers.getD []) found :=
    exists_finds fun f hf => hchecks (List.mem_append_left _ (List.mem_append_left _
      (List.mem_append_left _ (List.mem_map_of_mem hf)))) _ _
  obtain ⟨body, hbody⟩ : ∃ found, Finds (treeChecks r) e.body.toList found :=
    exists_finds fun tree htree => hchecks (by simp [trees, htree]) _ _
  obtain ⟨all, hall⟩ : ∃ found, Finds (treeChecks r) (e.all.getD []) found :=
    exists_finds fun tree htree => hchecks (by simp [trees, htree]) _ _
  obtain ⟨any, hany⟩ : ∃ found, Finds (treeChecks r) read found :=
    exists_finds fun tree htree => hchecks (by simp [trees, htree]) _ _
  exact ⟨⟨headers, body, all, any⟩, hheaders, hbody, hall, hany⟩

/-- What is reported of a response, if the patterns of what is looked at are regular expressions:
of the status, the headers, the body, the expressions, the trees that must all match, and of the
alternatives, of which those behind one that matches are not looked at. Nothing is reported just
when the response is accepted. -/
theorem failures_accept [Libraries] (e : Expectation) (r : Response) (read unread : List Value)
    (hany : e.any.getD [] = read ++ unread)
    (hread : unread = [] ∨ ∃ tree ∈ read, Sat true tree (some r.body))
    (hvalid : ∀ v, PatternAmong { e with any := some read }.trees v →
      (Libraries.readPattern v.text).isOk) :
    (∃ found : Findings, found.Of e r read ∧ failures e r = .ok (found.messages e r)) ∧
    (failures e r = .ok [] ↔ e.Accepts r) := by
  obtain ⟨found, hfound⟩ := exists_findings hvalid
  have hpassed : unread = [] ∨ found.any.any allPassed :=
    hread.imp_right (hfound.any.any_allPassed treeChecks_sat).mpr
  have hfailures := failures_eq hfound hany hpassed
  refine ⟨⟨found, hfound, hfailures⟩, ?_⟩
  rw [hfailures, Except.ok.injEq]
  exact messages_eq_nil hfound hany hpassed

/-- Of five parts four are reported. The third alternative, behind the one that matches, may be no
regular expression. -/
theorem failures_accept_cat :
    let kind (wanted : Value) : Value := .object [("kind", wanted)]
    let e : Expectation :=
      { status := some (.int 201)
        headers := some [("X-Mode", .string "slow")]
        body := some (kind (.object [("matches", .string "c.t")]))
        output := none
        exitCode := none
        expressions := some (.many ["status == 200", "status > 200"])
        all := some [kind (.string "dog")]
        any := some [kind (.string "dog"), kind (.string "cat"),
          kind (.object [("matches", .string "(")])] }
    let r : Response := ⟨200, [("x-mode", "fast")], kind (.string "cat")⟩
    let read : List Value := [kind (.string "dog"), kind (.string "cat")]
    let unread : List Value := [kind (.object [("matches", .string "(")])]
    e.any.getD [] = read ++ unread ∧ (∃ tree ∈ read, Sat true tree (some r.body)) ∧
      (∀ v, PatternAmong { e with any := some read }.trees v →
        (Libraries.readPattern v.text).isOk) ∧
      (∃ messages, failures e r = .ok messages ∧ messages.length = 4) ∧ ¬ e.Accepts r := by
  intro kind e r read unread
  have hmatch : ∃ tree ∈ read, Sat true tree (some r.body) := by
    refine ⟨kind (.string "cat"), by simp [read], ?_⟩
    have hchecks : treeChecks r (kind (.string "cat")) = .ok _ := rfl
    exact (treeChecks_sat _ _ hchecks).mp (allAre_singleton.mpr rfl)
  have hvalid : ∀ v, PatternAmong { e with any := some read }.trees v →
      (Libraries.readPattern v.text).isOk := by
    have hname : Operator.ofName? "kind" = none := rfl
    have hpattern : Operator.ofName? "matches" = some .pattern := rfl
    have hstring (s : String) (v : Value) : ¬ Applies .pattern v (.string s) := nofun
    rintro v ⟨tree, htree, hv⟩
    obtain rfl : v = .string "c.t" := by
      simp [trees, e, read, kind] at htree
      rcases htree with rfl | rfl | rfl | rfl <;>
        simp [PatternOf, applies_object, hname, hpattern, hstring, Operator.isNested] at hv
      exact hv
    decide +kernel
  obtain ⟨⟨found, -, hfailures⟩, haccept⟩ :=
    failures_accept e r read unread rfl (.inr hmatch) hvalid
  have hlength : (failures e r).toOption.map List.length = some 4 := by decide +kernel
  have hmessages : (found.messages e r).length = 4 := by
    rw [hfailures] at hlength
    exact Option.some.inj hlength
  refine ⟨rfl, hmatch, hvalid, ⟨_, hfailures, hmessages⟩, fun h => ?_⟩
  rw [haccept.mpr h] at hlength
  cases hlength

end Expectation

end Assay
