import Assay.CommandLine.Plan
import Assay.Proofs.Context.Layers
import Assay.Proofs.Context.Placeholders
import Assay.Proofs.Text.Joined

namespace Assay

namespace Entries

variable {α : Type}

theorem get?_eq_head? (es : Entries α) (name : String) :
    es.get? name = ((es.filter fun e => e.1 == name).head?).map Prod.snd := by
  induction es with
  | nil => rfl
  | cons e es ih =>
    obtain ⟨key, a⟩ := e
    rw [get?_cons, List.filter_cons]
    by_cases h : name = key
    · simp [h]
    · simp [h, Ne.symm h, ih]

theorem filter_sorted (es : Entries α) (name : String) :
    (es.sorted.filter fun e => e.1 == name) = es.filter fun e => e.1 == name := by
  have hsame : (es.filter fun e => e.1 == name).Pairwise fun a b => decide (a.1 ≤ b.1) = true := by
    apply List.pairwise_of_forall_mem_list
    intro a ha b hb
    have hane : a.1 = name := beq_iff_eq.mp (List.mem_filter.mp ha).2
    have hbne : b.1 = name := beq_iff_eq.mp (List.mem_filter.mp hb).2
    rw [hane, hbne]
    exact decide_eq_true (String.le_refl name)
  have hsub : (es.filter fun e => e.1 == name).Sublist es.sorted := by
    apply List.sublist_mergeSort _ _ hsame List.filter_sublist
    · intro a b c hab hbc
      exact decide_eq_true (String.le_trans (of_decide_eq_true hab) (of_decide_eq_true hbc))
    · intro a b
      simpa using String.le_total a.1 b.1
  have hperm := (List.mergeSort_perm es fun a b => decide (a.1 ≤ b.1)).filter fun e => e.1 == name
  have hfilter := hsub.filter fun e => e.1 == name
  rw [List.filter_filter] at hfilter
  simp only [Bool.and_self] at hfilter
  exact (hfilter.eq_of_length hperm.length_eq.symm).symm

theorem get?_sorted (es : Entries α) (name : String) : es.sorted.get? name = es.get? name := by
  rw [get?_eq_head?, filter_sorted, ← get?_eq_head?]

end Entries

namespace Value

variable {path name : String}

theorem segments_eq (path : String) :
    segments path = (path.toList.splitOn '.').map String.ofList := by
  rw [segments, Text.splitOnChar_eq_splitOn]

theorem segments_of_not_mem (h : '.' ∉ name.toList) : segments name = [name] := by
  rw [segments_eq, List.splitOn_eq_singleton h, List.map_singleton, String.ofList_toList]

theorem exists_segments (path : String) :
    ∃ first rest, segments path = first :: rest ∧ '.' ∉ first.toList := by
  obtain ⟨w, ws, hcut⟩ := List.exists_cons_of_ne_nil (List.splitOn_ne_nil '.' path.toList)
  refine ⟨String.ofList w, ws.map String.ofList, ?_, ?_⟩
  · rw [segments_eq, hcut, List.map_cons]
  · rw [String.toList_ofList]
    exact Text.not_mem_of_mem_splitOn (hcut ▸ List.mem_cons_self)

end Value

namespace Context

open CommandLine Template

variable {ctx : Context} {layer other : Fields} {key name text : String} {v : Value}

/-- The variables that are named: those of the configuration and those of a run. -/
inductive Layer
  | config
  | runtime

def Layer.scope : Layer → String
  | config => "config."
  | runtime => "runtime."

/-- The variables of one layer. -/
def entries (ctx : Context) : Layer → Fields
  | .config => ctx.config
  | .runtime => ctx.runtime

theorem lookup_scope (ctx : Context) (l : Layer) (key : String) :
    ctx.lookup (l.scope ++ key) = (lookupIn (ctx.entries l) key).map Value.text := by
  have hcut : Text.cutAt '.' (l.scope ++ key).toList =
      some (l.scope.toList.dropLast, key.toList) := by
    rw [String.toList_append]
    cases l with
    | config => exact Text.cutAt_append (show '.' ∉ "config".toList by decide) key.toList
    | runtime => exact Text.cutAt_append (show '.' ∉ "runtime".toList by decide) key.toList
  have hkey (fields : Fields) : (lookupIn fields (String.ofList key.toList)).map Value.text =
      (lookupIn fields key).map Value.text := by rw [String.ofList_toList]
  rw [lookup, hcut]
  cases l with
  | config => exact hkey ctx.config
  | runtime => exact hkey ctx.runtime

theorem lookupIn_of_not_mem (h : '.' ∉ name.toList) : lookupIn layer name = layer.get? name := by
  rw [lookupIn, Value.segments_of_not_mem h]
  change (layer.get? name).bind some = layer.get? name
  cases layer.get? name <;> rfl

/-- The layers agree on all names without a point. -/
def SameNames (layer other : Fields) : Prop :=
  ∀ name : String, '.' ∉ name.toList → Entries.get? layer name = Entries.get? other name

theorem SameNames.lookupIn_eq (h : SameNames layer other) : lookupIn layer = lookupIn other := by
  funext path
  obtain ⟨first, rest, hpath, hfirst⟩ := Value.exists_segments path
  rw [lookupIn, lookupIn, hpath, Value.descend?, Value.descend?]
  exact congrArg (Option.bind · _) (h first hfirst)

theorem SameNames.put (h : SameNames layer other) (key : String) (v : Value) :
    SameNames (Entries.put layer key v) (Entries.put other key v) := by
  intro name hname
  rw [Entries.get?_put, Entries.get?_put, h name hname]

theorem sameNames_put (h : '.' ∈ name.toList) (layer : Fields) (v : Value) :
    SameNames (Entries.put layer name v) layer := by
  intro key hkey
  apply Entries.get?_put_ne
  rintro rfl
  exact hkey h

theorem SameNames.sorted (h : SameNames layer other) :
    SameNames (Entries.sorted layer) (Entries.sorted other) := by
  intro name hname
  rw [Entries.get?_sorted, Entries.get?_sorted, h name hname]

section Assignments

variable {before after : List (String × String)}

/-- A layer after texts were assigned to variables, one after another. -/
def assigned (layer : Fields) (vars : List (String × String)) : Fields :=
  vars.foldl (fun vs v => Entries.put vs v.1 (.string v.2)) layer

theorem assigned_append (layer : Fields) (before after : List (String × String)) :
    assigned layer (before ++ after) = assigned (assigned layer before) after := List.foldl_append

theorem assigned_cons (layer : Fields) (name text : String) (after : List (String × String)) :
    assigned layer ((name, text) :: after) =
      assigned (Entries.put layer name (.string text)) after := rfl

theorem get?_assigned_of_not_mem (h : name ∉ after.map Prod.fst) :
    Entries.get? (assigned layer after) name = Entries.get? layer name := by
  induction after generalizing layer with
  | nil => rfl
  | cons p after ih =>
    rw [List.map_cons] at h
    obtain ⟨hp, hafter⟩ := List.ne_and_not_mem_of_not_mem_cons h
    rw [assigned_cons, ih hafter, Entries.get?_put_ne hp]

theorem get?_assigned (h : name ∉ after.map Prod.fst) :
    Entries.get? (assigned layer (before ++ (name, text) :: after)) name =
      some (.string text) := by
  rw [assigned_append, assigned_cons, get?_assigned_of_not_mem h, Entries.get?_put_self]

theorem SameNames.assigned (h : SameNames layer other) (vars : List (String × String)) :
    SameNames (assigned layer vars) (assigned other vars) := by
  induction vars generalizing layer other with
  | nil => exact h
  | cons p vars ih => exact ih (h.put p.1 _)

theorem sameNames_assigned (h : '.' ∈ name.toList) :
    SameNames (assigned layer (before ++ (name, text) :: after))
      (assigned layer (before ++ after)) := by
  rw [assigned_append, assigned_append, assigned_cons]
  exact (sameNames_put h _ _).assigned after

end Assignments

theorem fill_placeholder (ctx : Context) (h : IsName name) :
    ctx.fill (placeholder name) = (ctx.lookup (Text.trim name)).getD (placeholder name) := by
  have hfill : fillChars ctx.lookup (enclosed name.toList) = filled ctx.lookup name.toList := by
    simpa [fillChars_nil] using fillChars_append h.2 h.toList_ne_nil [] []
  rw [← String.toList_inj, toList_getD_placeholder, fill, Template.fill, String.toList_ofList,
    toList_placeholder, hfill]

/-- A name for a variable: one that a placeholder can hold, without blanks at its ends. -/
structure IsVariable (name : String) : Prop where
  isName : IsName name
  trimmed : Text.trimChars name.toList = name.toList

theorem IsVariable.fill (h : IsVariable name) (l : Layer) (hpoint : '.' ∉ name.toList)
    (hvalue : Entries.get? (ctx.entries l) name = some v) :
    ctx.fill (placeholder (l.scope ++ name)) = v.text := by
  have hname : IsName (l.scope ++ name) := by
    refine ⟨by simp [h.isName.1], ?_⟩
    rw [String.toList_append]
    have hscope : IsBraceFree l.scope.toList := by
      cases l <;> exact isBraceFree_of_all (by decide)
    exact List.forall_mem_append.mpr ⟨hscope, h.isName.2⟩
  have htrim : Text.trim (l.scope ++ name) = l.scope ++ name := by
    obtain ⟨c, cs, hscope, hc⟩ : ∃ c cs, l.scope.toList = c :: cs ∧ Text.isBlank c = false := by
      cases l <;> exact ⟨_, _, rfl, by decide⟩
    rw [Text.trim, String.toList_append, hscope, List.cons_append,
      Text.trimChars_behind cs hc h.isName.toList_ne_nil h.trimmed, ← List.cons_append, ← hscope,
      ← String.toList_append, String.ofList_toList]
  rw [fill_placeholder ctx hname, htrim, lookup_scope, lookupIn_of_not_mem hpoint, hvalue]
  rfl

theorem fill_congr {left right : Context} (hconfig : SameNames left.config right.config)
    (hruntime : SameNames left.runtime right.runtime) (henv : left.env = right.env) :
    left.fill text = right.fill text := by
  have hlookup : left.lookup = right.lookup := by
    funext reference
    unfold lookup
    rw [hconfig.lookupIn_eq, hruntime.lookupIn_eq, henv]
  rw [Context.fill, Context.fill, hlookup]

theorem IsVariable.assignment? (h : IsVariable name) (hequals : '=' ∉ name.toList)
    (text : String) : CommandLine.assignment? (name ++ "=" ++ text) = some (name, text) := by
  have hcut : Text.cutAt '=' (name ++ "=" ++ text).toList = some (name.toList, text.toList) := by
    rw [String.append_assoc, String.toList_append, String.toList_append]
    exact Text.cutAt_append hequals text.toList
  have hne : name.toList.isEmpty = false := List.isEmpty_eq_false_iff.mpr h.isName.toList_ne_nil
  rw [CommandLine.assignment?, hcut]
  change (if (Text.trimChars name.toList).isEmpty then none else
    some (String.ofList (Text.trimChars name.toList), String.ofList text.toList)) = _
  rw [h.trimmed, hne, String.ofList_toList, String.ofList_toList]
  rfl

theorem config_ofSuites (c : Configuration) (a : RunArguments) (env : List (String × String))
    (suites : List (Except Error Suite)) :
    (Plan.ofSuites (c.override a) a env suites).context =
      ⟨Entries.sorted (assigned c.vars a.vars), [], env⟩ := rfl

/-- A variable whose name has no point is read back as it was stored or saved by a run or assigned
on the command line, whatever its text is. A variable whose name has a point is never read. -/
theorem stored_read_back (h : IsVariable name) :
    ('.' ∉ name.toList →
      (∀ (ctx : Context) (v : Value),
        (ctx.store name v).fill (placeholder ("runtime." ++ name)) = v.text) ∧
      (∀ (ctx : Context) (body v : Value) (bindings : Entries String) (path : String),
        bindings.keys.Nodup → bindings.get? name = some path → savedValue body path = some v →
          (ctx.save body bindings).fill (placeholder ("runtime." ++ name)) = v.text) ∧
      ∀ (ctx : Context) (c : Configuration) (a : RunArguments) (env : List (String × String))
        (suites : List (Except Error Suite)) (before after : List (String × String))
        (text : String), a.vars = before ++ (name, text) :: after → name ∉ after.map Prod.fst →
          ctx.config = (Plan.ofSuites (c.override a) a env suites).context.config →
            ctx.fill (placeholder ("config." ++ name)) = text) ∧
    ('.' ∈ name.toList →
      (∀ (ctx : Context) (v : Value) (template : String),
        (ctx.store name v).fill template = ctx.fill template) ∧
      ∀ (ctx : Context) (c : Configuration) (a b : RunArguments) (env : List (String × String))
        (suites : List (Except Error Suite)) (before after : List (String × String))
        (text template : String), a.vars = before ++ (name, text) :: after →
          b.vars = before ++ after →
            ctx.config = (Plan.ofSuites (c.override a) a env suites).context.config →
              ctx.fill template =
                Context.fill ⟨(Plan.ofSuites (c.override b) b env suites).context.config,
                  ctx.runtime, ctx.env⟩ template) ∧
    ('=' ∉ name.toList → ∀ text : String,
      CommandLine.assignment? (name ++ "=" ++ text) = some (name, text)) := by
  refine ⟨fun hpoint => ⟨?_, ?_, ?_⟩, fun hpoint => ⟨?_, ?_⟩, h.assignment?⟩
  · intro ctx v
    have hstored : Entries.get? (ctx.store name v).runtime name = some (.string v.text) :=
      Entries.get?_put_self ctx.runtime name (.string v.text)
    exact h.fill (v := .string v.text) .runtime hpoint hstored
  · intro ctx body v bindings path hkeys hpath hvalue
    have hsaved : Entries.get? (ctx.save body bindings).runtime name = some (.string v.text) := by
      rw [get?_save hkeys, savedText, hpath, Option.bind_some, hvalue]
      rfl
    exact h.fill (v := .string v.text) .runtime hpoint hsaved
  · intro ctx c a env suites before after text hvars hlast hconfig
    have hvalue : Entries.get? ctx.config name = some (.string text) := by
      rw [hconfig, config_ofSuites, Entries.get?_sorted, hvars, get?_assigned hlast]
    exact h.fill .config hpoint hvalue
  · intro ctx v template
    exact fill_congr (fun _ _ => rfl) (sameNames_put hpoint _ _) rfl
  · intro ctx c a b env suites before after text template hvars hothers hconfig
    have hsame : SameNames ctx.config
        (Plan.ofSuites (c.override b) b env suites).context.config := by
      rw [hconfig, config_ofSuites, config_ofSuites, hvars, hothers]
      exact (sameNames_assigned hpoint).sorted
    exact fill_congr hsame (fun _ _ => rfl) rfl

/-- A text that looks like a placeholder, a saved number, the last of two assignments, and a name
with a point. -/
theorem stored_read_back_token :
    let ctx : Context := ⟨[], [("token", .null)], [("HOME", "/root")]⟩
    let b : RunArguments := ⟨[], none, none, none, none, false,
      [("token", "old"), ("token", "new")], none, false⟩
    let a : RunArguments := { b with vars := b.vars ++ [("a.b", "x")] }
    let plan := Plan.ofSuites (Configuration.usual.override a) a [] []
    IsVariable "token" ∧ '.' ∉ "token".toList ∧ '=' ∉ "token".toList ∧
      IsVariable "a.b" ∧ '.' ∈ "a.b".toList ∧
      (ctx.store "token" (.string "\x7b\x7benv.HOME\x7d\x7d")).fill (placeholder "runtime.token") =
        "\x7b\x7benv.HOME\x7d\x7d" ∧
      (ctx.save (.object [("id", .int 5)]) [("token", "body.id")]).fill
        (placeholder "runtime.token") = "5" ∧
      assignment? "token=new" = some ("token", "new") ∧
      plan.context.fill (placeholder "config.token") = "new" ∧
      (ctx.store "a.b" (.string "x")).fill (placeholder "runtime.a.b") =
        ctx.fill (placeholder "runtime.a.b") ∧
      plan.context.fill (placeholder "config.a.b") = placeholder "config.a.b" := by
  intro ctx b a plan
  have htoken : IsVariable "token" :=
    ⟨⟨by decide, isBraceFree_of_all (by decide)⟩, by decide⟩
  have hdotted : IsVariable "a.b" := ⟨⟨by decide, isBraceFree_of_all (by decide)⟩, by decide⟩
  have hplain : '.' ∉ "token".toList := by decide
  have hequals : '=' ∉ "token".toList := by decide
  have hpoint : '.' ∈ "a.b".toList := by decide
  obtain ⟨hread, -, hassignment⟩ := stored_read_back htoken
  obtain ⟨hstore, hsave, hconfig⟩ := hread hplain
  obtain ⟨-, hdead, -⟩ := stored_read_back hdotted
  obtain ⟨hkept, hvars⟩ := hdead hpoint
  have hstored := hstore ctx (.string "\x7b\x7benv.HOME\x7d\x7d")
  have hsaved := hsave ctx (.object [("id", .int 5)]) (.int 5) [("token", "body.id")] "body.id"
    (by decide) rfl rfl
  have hfive : (Value.int 5).text = "5" := by decide +kernel
  have hassigned := hconfig plan.context .usual a [] [] [("token", "old")] [("a.b", "x")] "new"
    rfl (by decide) rfl
  have hunread := hvars plan.context .usual a b [] [] b.vars [] "x" (placeholder "config.a.b")
    rfl rfl rfl
  refine ⟨htoken, hplain, hequals, hdotted, hpoint, hstored, hsaved.trans hfive,
    hassignment hequals "new", hassigned, hkept ctx _ _, hunread.trans ?_⟩
  decide +kernel

/-- A variable whose name has a point is not read back. -/
theorem dotted_name_unread :
    (¬ ∀ (ctx : Context) (name : String) (v : Value), IsVariable name →
      (ctx.store name v).fill (placeholder ("runtime." ++ name)) = v.text) ∧
    ¬ ∀ (c : Configuration) (a : RunArguments) (name text : String), IsVariable name →
      a.vars = [(name, text)] →
        (Plan.ofSuites (c.override a) a [] []).context.fill (placeholder ("config." ++ name)) =
          text := by
  have hdotted : IsVariable "a.b" := ⟨⟨by decide, isBraceFree_of_all (by decide)⟩, by decide⟩
  constructor
  · intro h
    have hread := h .empty "a.b" (.string "x") hdotted
    have hfill : (Context.empty.store "a.b" (.string "x")).fill (placeholder "runtime.a.b") =
        placeholder "runtime.a.b" := by decide +kernel
    exact absurd (hfill.symm.trans hread) (by decide)
  · intro h
    let a : RunArguments := ⟨[], none, none, none, none, false, [("a.b", "x")], none, false⟩
    have hread := h .usual a "a.b" "x" hdotted rfl
    have hfill : (Plan.ofSuites (Configuration.usual.override a) a [] []).context.fill
        (placeholder "config.a.b") = placeholder "config.a.b" := by decide +kernel
    exact absurd (hfill.symm.trans hread) (by decide)

end Context

end Assay
