import Assay.Proofs.Value.Equality
import Assay.Walk

namespace Assay

/-- Two entries of one name whose values are related. -/
inductive SameName {α β : Type} (R : α → β → Prop) : String × α → String × β → Prop
  | intro (key : String) {a : α} {b : β} (h : R a b) : SameName R (key, a) (key, b)

/-- The same value, where the fields of each object, at whatever depth, stand in some order. -/
inductive Value.Reordered : Value → Value → Prop
  | null : Reordered .null .null
  | bool (b : Bool) : Reordered (.bool b) (.bool b)
  | number (n : Number) : Reordered (.number n) (.number n)
  | string (s : String) : Reordered (.string s) (.string s)
  | array {items items' : List Value} (each : List.Forall₂ Reordered items items') :
    Reordered (.array items) (.array items')
  | object {fields shuffled fields' : Fields} (order : fields.Perm shuffled)
    (each : List.Forall₂ (SameName Reordered) shuffled fields') :
    Reordered (.object fields) (.object fields')

namespace SameName

variable {α β : Type} {R : α → β → Prop} {es : Entries α} {fs : Entries β}

theorem keys_eq (h : List.Forall₂ (SameName R) es fs) : es.keys = fs.keys := by
  unfold Entries.keys
  induction h with
  | nil => rfl
  | cons hf _ ih =>
    cases hf with
    | intro key => rw [List.map_cons, List.map_cons, ih]

theorem get? (h : List.Forall₂ (SameName R) es fs) (name : String) :
    Option.Rel R (es.get? name) (fs.get? name) := by
  induction h with
  | nil => exact .none
  | cons hf _ ih =>
    cases hf with
    | intro key hab =>
      rw [Entries.get?_cons, Entries.get?_cons]
      split
      · exact .some hab
      · exact ih

end SameName

namespace Value

variable {v w a b a' b' : Value} {items items' : List Value} {fields shuffled fields' : Fields}
  {segment : String}

theorem Reordered.refl (v : Value) : v.Reordered v := by
  induction v using Value.induction with
  | null => exact .null
  | bool b => exact .bool b
  | number n => exact .number n
  | string s => exact .string s
  | array items ih => exact .array (List.forall₂_same.mpr ih)
  | object fields ih =>
    exact .object (.refl fields) (List.forall₂_same.mpr fun f hf => .intro f.1 (ih f hf))

theorem get?_reordered (hkeys : fields.keys.Nodup) (order : fields.Perm shuffled)
    (each : List.Forall₂ (SameName Reordered) shuffled fields') (name : String) :
    Option.Rel Reordered (Entries.get? fields name) (Entries.get? fields' name) := by
  rw [← Entries.get?_of_perm hkeys order.symm]
  exact SameName.get? each name

theorem getElem?_reordered (h : List.Forall₂ Reordered items items') (i : Nat) :
    Option.Rel Reordered items[i]? items'[i]? := by
  induction h generalizing i with
  | nil => exact .none
  | cons hv _ ih =>
    cases i with
    | zero => exact .some hv
    | succ i => exact ih i

theorem child?_reordered (h : v.Reordered w) (hkeys : v.DistinctKeys) (segment : String) :
    Option.Rel Reordered (v.child? segment) (w.child? segment) := by
  cases h with
  | null | bool | number | string => exact .none
  | array each =>
    unfold child?
    cases readUnsigned? (Nat.pow 2 64 - 1) segment.toList with
    | none => exact .none
    | some i => exact getElem?_reordered each i
  | object order each => exact get?_reordered (distinctKeys_object.mp hkeys).1 order each segment

theorem length?_reordered (h : v.Reordered w) : v.length? = w.length? := by
  cases h with
  | null | bool | number | string => rfl
  | array each => exact congrArg some each.length_eq
  | object order each => exact congrArg some (order.length_eq.trans each.length_eq)

theorem distinctKeys_child? (h : v.child? segment = some w) (hkeys : v.DistinctKeys) :
    w.DistinctKeys := by
  cases v with
  | array items =>
    obtain ⟨i, -, hi⟩ := Option.bind_eq_some_iff.mp h
    exact distinctKeys_array.mp hkeys w (List.mem_of_getElem? hi)
  | object fields => exact (distinctKeys_object.mp hkeys).2 _ (Entries.mem_of_get? h)
  | null | bool | number | string => cases h

theorem toDouble?_reordered (h : v.Reordered w) : v.toDouble? = w.toDouble? := by
  cases h <;> rfl

theorem asString?_reordered (h : v.Reordered w) : v.asString? = w.asString? := by
  cases h <;> rfl

theorem kindName_reordered (h : v.Reordered w) : kindName (some v) = kindName (some w) := by
  cases h <;> rfl

/-- No object stands anywhere in the value. -/
inductive ObjectFree : Value → Prop
  | null : ObjectFree .null
  | bool (b : Bool) : ObjectFree (.bool b)
  | number (n : Number) : ObjectFree (.number n)
  | string (s : String) : ObjectFree (.string s)
  | array {items : List Value} (h : ∀ v ∈ items, ObjectFree v) : ObjectFree (.array items)

theorem ObjectFree.eq_of_reordered (h : v.ObjectFree) (hvw : v.Reordered w) : v = w := by
  induction h generalizing w with
  | null | bool | number | string =>
    cases hvw
    rfl
  | array h ih =>
    cases hvw with
    | array each =>
      have heq := forall₂_of_mem each fun v hv v' => ih v hv (w := v')
      rw [List.forall₂_eq_eq_eq] at heq
      rw [heq]

/-- Values that equal the same values, in whatever order the fields of those stand. -/
def Interchangeable (a a' : Value) : Prop :=
  ∀ b b', b.Reordered b' → b.DistinctKeys → a.equals b = a'.equals b'

theorem equalsAll_interchangeable {others others' : List Value}
    (h : List.Forall₂ Interchangeable items items') (each : List.Forall₂ Reordered others others')
    (hkeys : ∀ b ∈ others, b.DistinctKeys) :
    equalsAll items others = equalsAll items' others' := by
  induction h generalizing others others' with
  | nil => cases each <;> rfl
  | cons hv _ ih =>
    cases each with
    | nil => rfl
    | cons hb hbs =>
      obtain ⟨hfirst, hrest⟩ := List.forall_mem_cons.mp hkeys
      rw [equalsAll, equalsAll, hv _ _ hb hfirst, ih hbs hrest]

theorem equalsFields_interchangeable {others others' : Fields}
    (h : List.Forall₂ (SameName Interchangeable) fields fields')
    (found : ∀ name, Option.Rel Reordered (Entries.get? others name) (Entries.get? others' name))
    (hkeys : ∀ f ∈ others, f.2.DistinctKeys) :
    equalsFields fields others = equalsFields fields' others' := by
  induction h with
  | nil => rfl
  | cons hf _ ih =>
    cases hf with
    | @intro key v v' hv =>
      have hfirst : (Entries.get? others key).any v.equals =
          (Entries.get? others' key).any v'.equals := by
        generalize hleft : Entries.get? others key = left
        generalize hright : Entries.get? others' key = right
        have hrel := found key
        rw [hleft, hright] at hrel
        cases hrel with
        | none => rfl
        | some hb => exact hv _ _ hb (hkeys _ (Entries.mem_of_get? hleft))
      rw [equalsFields, equalsFields, ih, hfirst]

theorem interchangeable_of_reordered (h : a.Reordered a') : a.Interchangeable a' := by
  induction a using Value.induction generalizing a' with
  | null | bool | number | string =>
    intro b b' hb _
    cases h
    cases hb <;> rfl
  | array items ih =>
    cases h with
    | @array _ items' each =>
      have heach : List.Forall₂ Interchangeable items items' :=
        forall₂_of_mem each fun v hv v' => ih v hv
      intro b b' hb hkeys
      cases hb with
      | array others => exact equalsAll_interchangeable heach others (distinctKeys_array.mp hkeys)
      | _ => rfl
  | object fields ih =>
    cases h with
    | @object _ shuffled fields' order each =>
      have heach : List.Forall₂ (SameName Interchangeable) shuffled fields' := by
        refine forall₂_of_mem each ?_
        rintro ⟨key, v⟩ hf _ ⟨_, hv⟩
        exact .intro key (ih (key, v) (order.mem_iff.mpr hf) hv)
      intro b b' hb hkeys
      cases hb with
      | @object others _ others' order' pairs =>
        obtain ⟨hnodup, hparts⟩ := distinctKeys_object.mp hkeys
        have hall : equalsFields fields others = equalsFields shuffled others := by
          rw [equalsFields_eq_all, equalsFields_eq_all, order.all_eq]
        rw [equals, equals, hall, equalsFields_interchangeable heach
          (get?_reordered hnodup order' pairs) hparts, order.length_eq, each.length_eq,
          order'.length_eq, pairs.length_eq]
      | _ => rfl

theorem equals_reordered (ha : a.Reordered a') (hb : b.Reordered b') (hkeys : b.DistinctKeys) :
    a.equals b = a'.equals b' := interchangeable_of_reordered ha b b' hb hkeys

/-- Equality is an equivalence of the values that can be written in JSON, and the order of fields
takes no part in it. -/
theorem equals_equivalence :
    (∀ a : Value, a.Settled → a.equals a) ∧
    (∀ a b : Value, a.DistinctKeys → a.equals b → b.equals a) ∧
    (∀ a b c : Value, a.equals b → b.equals c → a.equals c) ∧
    (∀ a a' b b' : Value, a.Reordered a' → b.Reordered b' → b.DistinctKeys →
      a.equals b = a'.equals b') :=
  ⟨fun _ => equals_self, fun _ _ => equals_symm, fun _ _ _ => equals_trans,
    fun _ _ _ _ => equals_reordered⟩

/-- An integer equals a float, and an object one with its fields the other way round. -/
theorem equals_equivalence_numbers :
    let a : Value := .object
      [("n", .int 1), ("all", .array [.object [("x", .null), ("y", .null)]])]
    let a' : Value := .object
      [("all", .array [.object [("y", .null), ("x", .null)]]), ("n", .int 1)]
    let b : Value := .object
      [("n", .number (.float (.ofInt 1))), ("all", .array [.object [("x", .null), ("y", .null)]])]
    a.Settled ∧ a.DistinctKeys ∧ b.DistinctKeys ∧ a.Reordered a' ∧
      a.equals a ∧ b.equals a ∧ a'.equals b ∧ a'.equals a := by
  intro a a' b
  obtain ⟨hself, hsymm, htrans, horder⟩ := equals_equivalence
  have hitem : (Value.object [("x", .null), ("y", .null)]).Settled :=
    .object (by decide) (by simp [Settled.null])
  have hlist : (Value.array [.object [("x", .null), ("y", .null)]]).Settled :=
    .array (List.forall_mem_singleton.mpr hitem)
  have hsettled : a.Settled :=
    .object (by decide) (List.forall_mem_cons.mpr
      ⟨.int ⟨by decide, by decide⟩, List.forall_mem_singleton.mpr hlist⟩)
  have ha : a.DistinctKeys := by simp [a, DistinctKeys, DistinctKeysFields, DistinctKeysAll,
    Entries.keys, int]
  have hb : b.DistinctKeys := by simp [b, DistinctKeys, DistinctKeysFields, DistinctKeysAll,
    Entries.keys]
  have hreordered : a.Reordered a' := by
    have hitems : (Value.object [("x", .null), ("y", .null)]).Reordered
        (.object [("y", .null), ("x", .null)]) :=
      .object (.swap _ _ _) (.cons (.intro "y" .null) (.cons (.intro "x" .null) .nil))
    exact .object (.swap _ _ _)
      (.cons (.intro "all" (.array (.cons hitems .nil))) (.cons (.intro "n" (.number _)) .nil))
  have hab : a.equals b := by decide +kernel
  have hab' : a'.equals b := (horder a a' b b hreordered (.refl b) hb).symm.trans hab
  have hba : b.equals a := hsymm a b ha hab
  exact ⟨hsettled, ha, hb, hreordered, hself a hsettled, hba, hab', htrans a' b a hab' hba⟩

end Value

end Assay
