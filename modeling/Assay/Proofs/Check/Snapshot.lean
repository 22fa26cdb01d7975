import Assay.Proofs.Check.Labels
import Assay.Proofs.Value.Order
import Mathlib.Data.List.Flatten
import Mathlib.Data.List.Nodup

namespace Assay

section Lists

variable {α β γ : Type} {R : α → β → Prop} {as : List α} {bs : List β}

theorem exists_of_forall₂ {a : α} (h : List.Forall₂ R as bs) (ha : a ∈ as) : ∃ b ∈ bs, R a b := by
  obtain ⟨i, hi, rfl⟩ := List.getElem_of_mem ha
  have hlength := h.length_eq
  exact ⟨bs[i], List.getElem_mem _, h.get hi (hlength ▸ hi)⟩

theorem sublist_flatMap_of_forall₂ {f : α → List γ} {g : β → List γ} (h : List.Forall₂ R as bs)
    (hfg : ∀ a b, b ∈ bs → R a b → (f a).Sublist (g b)) :
    (as.flatMap f).Sublist (bs.flatMap g) := by
  induction h with
  | nil => exact .slnil
  | cons hab _ ih =>
    rw [List.flatMap_cons, List.flatMap_cons]
    have hfirst := hfg _ _ List.mem_cons_self hab
    exact hfirst.append (ih fun a b hb => hfg a b (List.mem_cons_of_mem _ hb))

end Lists

namespace Value

/-- A value without fields. Items of an array are no fields. -/
def isLeaf : Value → Bool
  | object (_ :: _) => false
  | _ => true

mutual

/-- The leaves of a value that are reached through fields alone, in order, each with the names that
lead to it. -/
def leaves : Value → List (List String × Value)
  | object (f :: fs) => leavesOfFields (f :: fs)
  | v => [([], v)]
termination_by structural v => v

def leavesOfFields : List (String × Value) → List (List String × Value)
  | [] => []
  | (key, v) :: fs => (leaves v).map (fun l => (key :: l.1, l.2)) ++ leavesOfFields fs
termination_by structural fs => fs

end

/-- The names lead through fields to a leaf. -/
inductive HasLeaf : Value → List String → Value → Prop
  | self {v : Value} (h : v.isLeaf) : HasLeaf v [] v
  | field {key : String} {child leaf : Value} {keys : List String} {fields : Fields}
    (mem : (key, child) ∈ fields) (h : HasLeaf child keys leaf) :
    HasLeaf (object fields) (key :: keys) leaf

/-- No field that is reached through fields alone has the name of an operator. -/
inductive OperatorFree : Value → Prop
  | leaf {v : Value} (h : v.isLeaf) : OperatorFree v
  | object {fields : Fields} (names : ∀ f ∈ fields, Operator.ofName? f.1 = none)
    (each : ∀ f ∈ fields, OperatorFree f.2) : OperatorFree (object fields)

/-- What is left of a value when fields are removed from objects that are reached through fields
alone, and no object loses all of them. -/
inductive Pruned : Value → Value → Prop
  | leaf {v : Value} (h : v.isLeaf) : Pruned v v
  | object {left kept fields : Fields} (nonempty : left ≠ []) (sub : kept.Sublist fields)
    (each : List.Forall₂ (SameName Pruned) left kept) : Pruned (object left) (object fields)

variable {v e : Value} {fields left kept : Fields} {keys : List String} {leaf : Value}

theorem leavesOfFields_eq (fields : Fields) :
    leavesOfFields fields =
      fields.flatMap fun f => f.2.leaves.map fun l => (f.1 :: l.1, l.2) := by
  induction fields with
  | nil => rfl
  | cons f fs ih => rw [leavesOfFields, ih, List.flatMap_cons]

theorem leaves_of_isLeaf (h : v.isLeaf) : v.leaves = [([], v)] := by
  cases v with
  | object fields =>
    cases fields with
    | nil => rfl
    | cons f fs => cases h
  | null | bool | number | string | array => rfl

theorem leaves_object (h : fields ≠ []) :
    (object fields).leaves =
      fields.flatMap fun f => f.2.leaves.map fun l => (f.1 :: l.1, l.2) := by
  obtain ⟨f, fs, rfl⟩ := List.exists_cons_of_ne_nil h
  exact leavesOfFields_eq (f :: fs)

theorem not_isLeaf_object (h : fields ≠ []) : (object fields).isLeaf = false := by
  obtain ⟨f, fs, rfl⟩ := List.exists_cons_of_ne_nil h
  rfl

theorem leaves_ne_nil (v : Value) : v.leaves ≠ [] := by
  induction v using Value.induction with
  | null | bool | number | string | array => exact List.cons_ne_nil _ _
  | object fields ih =>
    cases fields with
    | nil => exact List.cons_ne_nil _ _
    | cons f fs =>
      rw [leaves_object (List.cons_ne_nil f fs), List.flatMap_cons]
      have hfirst := ih f List.mem_cons_self
      simp [hfirst]

theorem hasLeaf_of_isLeaf (h : v.isLeaf) : v.HasLeaf keys leaf ↔ keys = [] ∧ leaf = v := by
  constructor
  · intro hleaf
    cases hleaf with
    | self => exact ⟨rfl, rfl⟩
    | field mem => rw [not_isLeaf_object (List.ne_nil_of_mem mem)] at h; cases h
  · rintro ⟨rfl, rfl⟩
    exact .self h

theorem hasLeaf_object (h : fields ≠ []) :
    (object fields).HasLeaf keys leaf ↔
      ∃ f ∈ fields, ∃ inner, keys = f.1 :: inner ∧ f.2.HasLeaf inner leaf := by
  constructor
  · intro hleaf
    cases hleaf with
    | self hself => rw [not_isLeaf_object h] at hself; cases hself
    | field mem hinner => exact ⟨_, mem, _, rfl, hinner⟩
  · rintro ⟨⟨key, child⟩, mem, inner, rfl, hinner⟩
    exact .field mem hinner

theorem mem_leaves : (keys, leaf) ∈ v.leaves ↔ v.HasLeaf keys leaf := by
  induction v using Value.induction generalizing keys with
  | null | bool | number | string | array =>
    rw [leaves_of_isLeaf rfl, hasLeaf_of_isLeaf rfl, List.mem_singleton, Prod.mk.injEq]
  | object fields ih =>
    by_cases h : fields = []
    · subst h
      rw [leaves_of_isLeaf rfl, hasLeaf_of_isLeaf rfl, List.mem_singleton, Prod.mk.injEq]
    · rw [leaves_object h, hasLeaf_object h, List.mem_flatMap]
      apply exists_congr
      intro f
      apply and_congr_right
      intro hf
      rw [List.mem_map]
      constructor
      · rintro ⟨⟨inner, x⟩, hmem, heq⟩
        cases heq
        exact ⟨inner, rfl, (ih f hf).mp hmem⟩
      · rintro ⟨inner, rfl, hleaf⟩
        exact ⟨(inner, leaf), (ih f hf).mpr hleaf, rfl⟩

theorem nodup_leaves (h : v.DistinctKeys) : (v.leaves.map Prod.fst).Nodup := by
  induction v using Value.induction with
  | null | bool | number | string | array => exact List.nodup_singleton _
  | object fields ih =>
    by_cases hfields : fields = []
    · subst hfields
      exact List.nodup_singleton _
    obtain ⟨hkeys, hparts⟩ := distinctKeys_object.mp h
    rw [leaves_object hfields, List.map_flatMap]
    apply List.nodup_flatMap.mpr
    constructor
    · intro f hf
      have hinner := (ih f hf (hparts f hf)).map (List.cons_injective (a := f.1))
      rw [List.map_map] at hinner ⊢
      exact hinner
    · refine (List.pairwise_map.mp hkeys).imp ?_
      intro f g hfg keys hf hg
      simp only [List.map_map, List.mem_map, Function.comp_apply] at hf hg
      obtain ⟨l, -, rfl⟩ := hf
      obtain ⟨m, -, hm⟩ := hg
      exact hfg (List.head_eq_of_cons_eq hm).symm

theorem operatorFree_object :
    (object fields).OperatorFree ↔
      (∀ f ∈ fields, Operator.ofName? f.1 = none) ∧ ∀ f ∈ fields, f.2.OperatorFree := by
  constructor
  · intro h
    cases h with
    | object names each => exact ⟨names, each⟩
    | leaf h =>
      cases fields with
      | nil => exact ⟨List.forall_mem_nil _, List.forall_mem_nil _⟩
      | cons f fs => cases h
  · rintro ⟨names, each⟩
    exact .object names each

theorem Settled.distinctKeys (h : v.Settled) : v.DistinctKeys := by
  induction h with
  | null | bool | int | float | string => trivial
  | array _ ih => exact distinctKeys_array.mpr ih
  | object hkeys _ ih => exact distinctKeys_object.mpr ⟨hkeys, ih⟩

theorem Pruned.refl (v : Value) : v.Pruned v := by
  induction v using Value.induction with
  | null | bool | number | string | array => exact .leaf rfl
  | object fields ih =>
    by_cases h : fields = []
    · subst h
      exact .leaf rfl
    · exact .object h (.refl fields) (List.forall₂_same.mpr fun f hf => .intro f.1 (ih f hf))

theorem Pruned.leaves_sublist (h : Pruned e v) : e.leaves.Sublist v.leaves := by
  induction v using Value.induction generalizing e with
  | null | bool | number | string | array =>
    cases h
    exact .refl _
  | object fields ih =>
    cases h with
    | leaf => exact .refl _
    | @object left kept _ nonempty sub each =>
      have hkept : kept ≠ [] := by
        rintro rfl
        cases each
        exact nonempty rfl
      have hfields : fields ≠ [] := fun hnil => hkept (List.sublist_nil.mp (hnil ▸ sub))
      rw [leaves_object nonempty, leaves_object hfields]
      refine List.Sublist.trans ?_ (sub.flatMap _)
      refine sublist_flatMap_of_forall₂ each ?_
      rintro _ _ hg ⟨key, hpruned⟩
      exact (ih _ (sub.mem hg) hpruned).map _

end Value

namespace Check

variable {v e : Value} {fields : Fields} {actual : Option Value} {path : String}

/-- The place of what is found under some names, one below the other. -/
def placeBelow (path : String) (keys : List String) : String := keys.foldl joinPath path

theorem placeBelow_eq (keys : List String) (h : path ≠ "") :
    placeBelow path keys = String.intercalate "." (path :: keys) := by
  induction keys generalizing path with
  | nil => exact (String.intercalate_singleton ..).symm
  | cons key keys ih =>
    have hbelow := ih (append_ne_empty (s := "." ++ key) h)
    rw [← joinPath_eq h] at hbelow
    rw [placeBelow, List.foldl_cons, ← placeBelow, hbelow, joinPath_eq h]
    cases keys <;> simp [String.intercalate_cons_cons, String.append_assoc]

/-- A leaf is found where it is expected. -/
def leafCheck (path : String) (leaf : List String × Value) : Check :=
  plain (placeBelow path leaf.1) "equals" leaf.2 (some leaf.2) true

/-- The checks of a value that has all leaves of the expectation. -/
def snapshot (path : String) (expected : Value) : List Check :=
  expected.leaves.map (leafCheck path)

theorem snapshot_object (h : fields ≠ []) :
    snapshot path (.object fields) = fields.flatMap fun f => snapshot (joinPath path f.1) f.2 := by
  rw [snapshot, Value.leaves_object h, List.map_flatMap]
  congr 1
  funext f
  rw [List.map_map]
  rfl

theorem evaluate_of_isLeaf [Libraries] (h : e.isLeaf) :
    evaluate e actual path =
      .ok [plain path "equals" e actual (actual.any fun a => a.equals e)] := by
  cases e with
  | object fields =>
    cases fields with
    | nil => rfl
    | cons f fs => cases h
  | null | bool | number | string | array => rfl

/-- Where no field has the name of an operator, fields are checked one by one. -/
theorem evaluateFields_fields [Libraries] {own : String × Value → List Check}
    (names : ∀ f ∈ fields, Operator.ofName? f.1 = none)
    (each : ∀ f ∈ fields,
      evaluate f.2 (actual.bind fun a => a.child? f.1) (joinPath path f.1) = .ok (own f)) :
    evaluateFields fields true actual path = .ok (fields.flatMap own) := by
  induction fields with
  | nil => exact evaluateFields_nil
  | cons f fs ih =>
    obtain ⟨hname, hnames⟩ := List.forall_mem_cons.mp names
    obtain ⟨hfirst, hrest⟩ := List.forall_mem_cons.mp each
    rw [evaluateFields_cons, evaluateFields_field hname, hfirst, ih hnames hrest]
    rfl

theorem evaluate_pruned [Libraries] (hsettled : v.Settled) (hnames : v.OperatorFree)
    (h : e.Pruned v) :
    evaluate e (some v) path = .ok (snapshot path e) := by
  have hleaf : ∀ {w : Value} {path : String}, w.Settled → w.isLeaf →
      evaluate w (some w) path = .ok (snapshot path w) := by
    intro w path hw hleaf
    rw [evaluate_of_isLeaf hleaf, Option.any_some, Value.equals_self hw, snapshot,
      Value.leaves_of_isLeaf hleaf]
    rfl
  induction v using Value.induction generalizing e path with
  | null | bool | number | string | array =>
    cases h
    exact hleaf hsettled rfl
  | object fields ih =>
    cases h with
    | leaf h => exact hleaf hsettled h
    | @object left kept _ nonempty sub each =>
      cases hsettled with
      | object hkeys hparts =>
        obtain ⟨hop, heach⟩ := Value.operatorFree_object.mp hnames
        -- What a field of the expectation is compared with is the field it has been left of.
        have hfound : ∀ f ∈ left, ∃ child, (f.1, child) ∈ fields ∧ f.2.Pruned child := by
          intro f hf
          obtain ⟨_, hg, ⟨key, hpruned⟩⟩ := exists_of_forall₂ each hf
          exact ⟨_, sub.mem hg, hpruned⟩
        have hleft : ∀ f ∈ left, Operator.ofName? f.1 = none := by
          intro f hf
          obtain ⟨child, hchild, -⟩ := hfound f hf
          exact hop (f.1, child) hchild
        rw [evaluate_object nonempty, if_pos (by simp [Value.isContainer]),
          snapshot_object nonempty]
        apply evaluateFields_fields hleft
        intro f hf
        obtain ⟨child, hchild, hpruned⟩ := hfound f hf
        have hlookup : (Value.object fields).child? f.1 = some child :=
          (Entries.get?_eq_some_iff hkeys).mpr hchild
        rw [Option.bind_some, hlookup]
        exact ih _ hchild (hparts _ hchild) (heach _ hchild) hpruned

theorem snapshot_passes {c : Check} (h : c ∈ snapshot path e) :
    c.operator = "equals" ∧ c.passed := by
  obtain ⟨leaf, -, rfl⟩ := List.mem_map.mp h
  exact ⟨rfl, rfl⟩

/-- A value satisfies itself as an expectation, with one check for each of its leaves, and it still
does when fields are removed from the expectation. -/
theorem snapshot_satisfied [Libraries] (v : Value) (hsettled : v.Settled) (hnames : v.OperatorFree)
    (path : String) :
    body v v path = .ok (snapshot path v) ∧ snapshot path v ≠ [] ∧
    (∀ c ∈ snapshot path v, c.operator = "equals" ∧ c.passed) ∧
    (v.leaves.map Prod.fst).Nodup ∧
    (∀ keys leaf, (keys, leaf) ∈ v.leaves ↔ v.HasLeaf keys leaf) ∧
    (path ≠ "" → ∀ keys, placeBelow path keys = String.intercalate "." (path :: keys)) ∧
    ∀ e, e.Pruned v → ∃ cs, body v e path = .ok cs ∧ cs ≠ [] ∧ allPassed cs ∧
      cs.Sublist (snapshot path v) := by
  have hne : ∀ e, snapshot path e ≠ [] := fun e h =>
    e.leaves_ne_nil (List.map_eq_nil_iff.mp h)
  refine ⟨evaluate_pruned hsettled hnames (.refl v), hne v, fun c => snapshot_passes,
    Value.nodup_leaves hsettled.distinctKeys, fun _ _ => Value.mem_leaves,
    fun h keys => placeBelow_eq keys h, ?_⟩
  intro e he
  refine ⟨snapshot path e, evaluate_pruned hsettled hnames he, hne e, ?_, he.leaves_sublist.map _⟩
  exact List.all_eq_true.mpr fun c hc => (snapshot_passes hc).2

/-- An object in a list may name an operator, and an empty object is a leaf. -/
theorem snapshot_satisfied_user :
    let tags : Value := .array [.object [("length", .null)]]
    let v : Value := .object
      [("user", .object [("name", .string "ann"), ("tags", tags), ("rights", .object [])]),
        ("ok", .bool true)]
    let e : Value := .object [("user", .object [("name", .string "ann"), ("rights", .object [])])]
    v.Settled ∧ v.OperatorFree ∧ e.Pruned v ∧
      v.leaves.map Prod.fst = [["user", "name"], ["user", "tags"], ["user", "rights"], ["ok"]] ∧
      body v v "body" = .ok (snapshot "body" v) ∧
      ∃ cs, body v e "body" = .ok cs ∧ allPassed cs := by
  intro tags v e
  have htags : tags.Settled :=
    .array (List.forall_mem_singleton.mpr
      (.object (by decide) (List.forall_mem_singleton.mpr .null)))
  have hempty : (Value.object []).Settled := .object .nil (List.forall_mem_nil _)
  have huser : (Value.object
      [("name", .string "ann"), ("tags", tags), ("rights", .object [])]).Settled :=
    .object (by simp [Entries.keys]) (by simp [Value.Settled.string, htags, hempty])
  have hsettled : v.Settled :=
    .object (by simp [Entries.keys]) (by simp [Value.Settled.bool, huser])
  have hinner : (Value.object
      [("name", .string "ann"), ("tags", tags), ("rights", .object [])]).OperatorFree := by
    refine .object ?_ ?_
    · simp only [List.forall_mem_cons]
      exact ⟨rfl, rfl, rfl, List.forall_mem_nil _⟩
    · simp only [List.forall_mem_cons]
      exact ⟨.leaf rfl, .leaf rfl, .leaf rfl, List.forall_mem_nil _⟩
  have hnames : v.OperatorFree := by
    refine .object ?_ ?_
    · simp only [List.forall_mem_cons]
      exact ⟨rfl, rfl, List.forall_mem_nil _⟩
    · simp only [List.forall_mem_cons]
      exact ⟨hinner, .leaf rfl, List.forall_mem_nil _⟩
  have hpruned : e.Pruned v := by
    have hkept : [("name", Value.string "ann"), ("rights", .object [])].Sublist
        [("name", .string "ann"), ("tags", tags), ("rights", .object [])] :=
      .cons_cons _ (.cons _ (.refl _))
    refine .object (List.cons_ne_nil _ _) (.cons_cons _ (.cons _ .slnil))
      (.cons (.intro "user" (.object (List.cons_ne_nil _ _) hkept ?_)) .nil)
    exact .cons (.intro "name" (.leaf rfl)) (.cons (.intro "rights" (.leaf rfl)) .nil)
  obtain ⟨hself, -, -, -, -, -, hrest⟩ := snapshot_satisfied v hsettled hnames "body"
  obtain ⟨cs, hcs, -, hpass, -⟩ := hrest e hpruned
  exact ⟨hsettled, hnames, hpruned, rfl, hself, cs, hcs, hpass⟩

end Check

end Assay
