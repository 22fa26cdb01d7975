import Assay.Proofs.Check.Snapshot
import Assay.Proofs.Context.Variables
import Assay.Proofs.Expression.Missing

namespace Assay

variable {p path : String} {c v x : Value} {keys : List String}

namespace Value

theorem intercalate_segments (path : String) : String.intercalate "." (segments path) = path := by
  have hparts : (segments path).map String.toList = path.toList.splitOn '.' := by
    rw [segments_eq, List.map_map]
    simp
  rw [← String.toList_inj, String.toList_intercalate, hparts]
  exact List.intercalate_splitOn '.'

theorem segments_ne_nil (path : String) : segments path ≠ [] := by
  obtain ⟨first, rest, hpath, -⟩ := exists_segments path
  rw [hpath]
  exact List.cons_ne_nil first rest

theorem walk?_eq (h : p ≠ "") (v : Value) : v.walk? p = v.descend? (segments p) := by
  rw [walk?, if_neg h]

end Value

theorem savedValue_below (v : Value) (p : String) : savedValue v ("body." ++ p) = v.walk? p := by
  have hne : "body." ++ p ≠ "body" := by
    intro h
    have hlength := congrArg String.length h
    rw [String.length_append] at hlength
    change 5 + p.length = 4 at hlength
    omega
  have hcut : Text.dropPrefix "body.".toList ("body." ++ p).toList = some p.toList := by
    rw [String.toList_append]
    rfl
  rw [savedValue, if_neg hne, hcut]
  dsimp only
  rw [String.ofList_toList]

theorem Context.lookup_eq_walk? {ctx : Context} {l : Context.Layer} {fields : Fields} (hp : p ≠ "")
    (h : ∀ key, Entries.get? fields key = Entries.get? (ctx.entries l) key) :
    ctx.lookup (l.scope ++ p) = ((Value.object fields).walk? p).map Value.text := by
  have hsame : Context.SameNames (ctx.entries l) fields := fun key _ => (h key).symm
  rw [Context.lookup_scope, hsame.lookupIn_eq, Value.walk?_eq hp, Context.lookupIn]

namespace Expression

theorem not_isLiteral_field (f : String) : ¬ IsLiteral (field f) := by
  rw [field_eq]
  exact not_isLiteral_head (c := 'b') (by decide) (by decide) (by decide) (by decide) _

theorem operandValue_field {r : Response} (hp : p ≠ "")
    (htrimmed : Text.trimChars p.toList = p.toList)
    (hlast : (Value.segments p).getLast? ≠ some "length") :
    pathValue r (field p) = r.body.walk? p ∧ operandValue r (field p) = r.body.walk? p := by
  have hchars : p.toList ≠ [] := fun hnil => hp (String.toList_inj.mp hnil)
  have hfield : Text.trimChars (field p) = field p := by
    rw [field_eq]
    exact Text.trimChars_behind "ody.".toList (by decide) hchars htrimmed
  have hpath := pathValue_field (r := r) hp hfield hlast
  refine ⟨hpath, ?_⟩
  rw [operandValue_path, hpath]
  rw [hfield]
  exact not_isLiteral_field p

end Expression

namespace Check

/-- A condition below some names. -/
def nested : List String → Value → Value
  | [], c => c
  | key :: keys, c => .object [(key, nested keys c)]

theorem evaluate_nested [Libraries] (hnames : ∀ key ∈ keys, Operator.ofName? key = none)
    (hfound : v.descend? keys = some x) :
    evaluate (nested keys c) (some v) path = evaluate c (some x) (placeBelow path keys) := by
  induction keys generalizing v path with
  | nil =>
    obtain rfl := Option.some.inj hfound
    rfl
  | cons key keys ih =>
    obtain ⟨hname, hnames⟩ := List.forall_mem_cons.mp hnames
    rw [Value.descend?, Option.bind_eq_some_iff] at hfound
    obtain ⟨child, hchild, hfound⟩ := hfound
    rw [nested, evaluate_object (List.cons_ne_nil _ _),
      if_pos (by simp [Value.isContainer_of_child? hchild]), evaluateFields_field hname,
      Option.bind_some, hchild, ih hnames hfound]
    rfl

theorem placeBelow_segments (h : path ≠ "") (p : String) :
    placeBelow path (Value.segments p) = path ++ "." ++ p := by
  rw [placeBelow_eq _ h, String.intercalate_cons_of_ne_nil (Value.segments_ne_nil p),
    Value.intercalate_segments]

end Check

/-- What is saved, read in an expression, filled in and checked under a path is what the path leads
to. -/
theorem Value.paths_agree [Libraries] (v : Value) (hp : p ≠ "") :
    (∀ (ctx : Context) (name : String),
      ctx.save v [(name, "body." ++ p)] = (v.walk? p).elim ctx (ctx.store name)) ∧
    (∀ (ctx : Context) (bindings : Entries String) (name : String), bindings.keys.Nodup →
      bindings.get? name = some ("body." ++ p) →
        Entries.get? (ctx.save v bindings).runtime name =
          ((v.walk? p).map fun x => .string x.text).or (Entries.get? ctx.runtime name)) ∧
    (Text.trimChars p.toList = p.toList → (segments p).getLast? ≠ some "length" →
      ∀ r : Response, r.body = v →
        Expression.pathValue r ("body." ++ p).toList = v.walk? p ∧
        Expression.operandValue r ("body." ++ p).toList = v.walk? p) ∧
    (∀ (ctx : Context) (fields : Fields), v = .object fields →
      ((∀ key, Entries.get? fields key = Entries.get? ctx.runtime key) →
        ctx.lookup ("runtime." ++ p) = (v.walk? p).map text) ∧
      ((∀ key, Entries.get? fields key = Entries.get? ctx.config key) →
        ctx.lookup ("config." ++ p) = (v.walk? p).map text)) ∧
    ∀ (c x : Value) (path : String), (∀ s ∈ segments p, Operator.ofName? s = none) →
      v.walk? p = some x →
        Check.evaluate (Check.nested (segments p) c) (some v) path =
          Check.evaluate c (some x) (Check.placeBelow path (segments p)) ∧
        (path ≠ "" → Check.placeBelow path (segments p) = path ++ "." ++ p) := by
  refine ⟨?_, ?_, ?_, ?_, ?_⟩
  · intro ctx name
    rw [Context.save_cons, savedValue_below]
    cases v.walk? p <;> rfl
  · intro ctx bindings name hkeys hpath
    rw [Context.get?_save hkeys, Context.savedText, hpath, Option.bind_some, savedValue_below]
  · rintro htrimmed hlast r rfl
    exact Expression.operandValue_field hp htrimmed hlast
  · rintro ctx fields rfl
    constructor
    · exact Context.lookup_eq_walk? (l := .runtime) hp
    · exact Context.lookup_eq_walk? (l := .config) hp
  · intro c x path hnames hfound
    rw [walk?_eq hp] at hfound
    exact ⟨Check.evaluate_nested hnames hfound, fun h => Check.placeBelow_segments h p⟩

/-- A field without a name, an item of an array, a field named after the body, and a field with a
number for its name. A text has no fields. -/
theorem Value.paths_agree_body :
    let inner : Value := .object [("body", .object [("1", .string "x")])]
    let fields : Fields := [("", .array [inner])]
    let v : Value := .object fields
    let ctx : Context := ⟨fields, fields, []⟩
    let r : Response := ⟨200, [], v⟩
    let c : Value := .object [("startsWith", .string "x")]
    v.walk? ".0.body.1" = some (.string "x") ∧ v.walk? ".0.body.1.y" = none ∧
      ctx.save v [("t", "body..0.body.1")] = ctx.store "t" (.string "x") ∧
      Entries.get? (ctx.save v [("t", "body..0.body.1")]).runtime "t" = some (.string "x") ∧
      ctx.save v [("t", "body..0.body.1.y")] = ctx ∧
      Expression.operandValue r "body..0.body.1".toList = some (.string "x") ∧
      ctx.lookup "runtime..0.body.1" = some "x" ∧ ctx.lookup "config..0.body.1" = some "x" ∧
      Check.evaluate (Check.nested ["", "0", "body", "1"] c) (some v) "body" =
        Check.evaluate c (some (.string "x")) "body..0.body.1" := by
  intro inner fields v ctx r c
  have hvalue : v.walk? ".0.body.1" = some (.string "x") := by rfl
  have hnone : v.walk? ".0.body.1.y" = none := by rfl
  have hsegments : segments ".0.body.1" = ["", "0", "body", "1"] := by decide
  obtain ⟨hsave, hread, hoperand, hlookup, hnested⟩ := paths_agree (p := ".0.body.1") v (by decide)
  obtain ⟨hunsaved, -⟩ := paths_agree (p := ".0.body.1.y") v (by decide)
  rw [hvalue] at hsave hread hoperand hlookup
  rw [hnone] at hunsaved
  obtain ⟨-, hoperand⟩ := hoperand (by decide) (by rw [hsegments]; decide) r rfl
  obtain ⟨hruntime, hconfig⟩ := hlookup ctx fields rfl
  have hnames : ∀ s ∈ segments ".0.body.1", Operator.ofName? s = none := by
    rw [hsegments]
    decide
  obtain ⟨hchecks, hplace⟩ := hnested c (.string "x") "body" hnames hvalue
  rw [hplace (by decide), hsegments] at hchecks
  have hsaved := hread ctx [("t", "body..0.body.1")] "t" (List.nodup_singleton "t") rfl
  exact ⟨hvalue, hnone, hsave ctx "t", hsaved, hunsaved ctx "t", hoperand,
    hruntime fun _ => rfl, hconfig fun _ => rfl, hchecks⟩

end Assay
