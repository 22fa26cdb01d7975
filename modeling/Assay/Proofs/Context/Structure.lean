import Assay.Proofs.Value.Order

namespace Assay

/-- Item by item related to some items by a function's graph is to be their image. -/
theorem eq_map_of_forall₂ {α β : Type} {R : α → β → Prop} {f : α → β} {as : List α} {bs : List β}
    (h : List.Forall₂ R as bs) (hf : ∀ a ∈ as, ∀ b, R a b → b = f a) : bs = as.map f := by
  induction h with
  | nil => rfl
  | cons hab _ ih =>
    obtain ⟨ha, has⟩ := List.forall_mem_cons.mp hf
    rw [List.map_cons, ha _ hab, ih has]

namespace Context

/-- The same value but for its texts, which are filled: items and fields stand in their places, and
the fields keep their names. -/
inductive Fills (ctx : Context) : Value → Value → Prop
  | null : Fills ctx .null .null
  | bool (b : Bool) : Fills ctx (.bool b) (.bool b)
  | number (n : Number) : Fills ctx (.number n) (.number n)
  | string (s : String) : Fills ctx (.string s) (.string (ctx.fill s))
  | array {items items' : List Value} (each : List.Forall₂ (Fills ctx) items items') :
    Fills ctx (.array items) (.array items')
  | object {fields fields' : Fields} (each : List.Forall₂ (SameName (Fills ctx)) fields fields') :
    Fills ctx (.object fields) (.object fields')

variable {ctx : Context} {v w : Value}

theorem fills_resolve (ctx : Context) (v : Value) : ctx.Fills v (ctx.resolve v) := by
  induction v using Value.induction with
  | null => exact .null
  | bool b => exact .bool b
  | number n => exact .number n
  | string s => exact .string s
  | array items ih =>
    rw [resolve, resolveAll_eq]
    exact .array (List.forall₂_map_right_iff.mpr (List.forall₂_same.mpr ih))
  | object fields ih =>
    rw [resolve, resolveFields_eq]
    refine .object (List.forall₂_map_right_iff.mpr (List.forall₂_same.mpr fun f hf => ?_))
    exact .intro f.1 (ih f hf)

theorem Fills.eq_resolve (h : ctx.Fills v w) : w = ctx.resolve v := by
  induction v using Value.induction generalizing w with
  | null | bool | number | string =>
    cases h
    rfl
  | array items ih =>
    cases h with
    | array each => rw [resolve, resolveAll_eq, eq_map_of_forall₂ each fun v hv w h => ih v hv h]
  | object fields ih =>
    cases h with
    | object each =>
      rw [resolve, resolveFields_eq, eq_map_of_forall₂ each]
      rintro f hf f' ⟨name, hfilled⟩
      rw [ih _ hf hfilled]

theorem child?_resolve (ctx : Context) (v : Value) (segment : String) :
    (ctx.resolve v).child? segment = (v.child? segment).map ctx.resolve := by
  cases v with
  | null | bool | number | string => rfl
  | array items =>
    rw [resolve, resolveAll_eq]
    unfold Value.child?
    cases readUnsigned? (Nat.pow 2 64 - 1) segment.toList with
    | none => rfl
    | some i => exact List.getElem?_map
  | object fields => exact ctx.get?_resolveFields fields segment

theorem descend?_resolve (ctx : Context) (v : Value) (segments : List String) :
    (ctx.resolve v).descend? segments = (v.descend? segments).map ctx.resolve := by
  induction segments generalizing v with
  | nil => rfl
  | cons segment segments ih =>
    rw [Value.descend?, Value.descend?, child?_resolve, Option.bind_map, Option.map_bind]
    congr 1
    funext child
    exact ih child

theorem walk?_resolve (ctx : Context) (v : Value) (path : String) :
    (ctx.resolve v).walk? path = (v.walk? path).map ctx.resolve := by
  unfold Value.walk?
  split
  · rfl
  · exact ctx.descend?_resolve v (Value.segments path)

/-- Deep filling is what keeps the structure of a value and fills its texts, and it makes no
difference whether one fills a value and then follows a path, or the other way round. -/
theorem resolve_structure (ctx : Context) (v : Value) :
    (∀ w, ctx.Fills v w ↔ w = ctx.resolve v) ∧
    (∀ path, (ctx.resolve v).walk? path = none ↔ v.walk? path = none) ∧
    (∀ path, (ctx.resolve v).walk? path = (v.walk? path).map ctx.resolve) ∧
    (∀ segments, (ctx.resolve v).descend? segments = (v.descend? segments).map ctx.resolve) := by
  refine ⟨fun w => ⟨Fills.eq_resolve, ?_⟩, fun path => ?_, ctx.walk?_resolve v,
    ctx.descend?_resolve v⟩
  · rintro rfl
    exact ctx.fills_resolve v
  · rw [walk?_resolve, Option.map_eq_none_iff]

-- A name that looks like a placeholder stays, and a text filled with `[1]` is no array.
example :
    let ctx : Context := ⟨[("a", .array [.nat 1])], [], []⟩
    let v : Value := .object [("\x7b\x7bconfig.a\x7d\x7d", .string "\x7b\x7bconfig.a\x7d\x7d")]
    ((ctx.resolve v).walk? "\x7b\x7bconfig.a\x7d\x7d").isNone ∧
      (((ctx.resolve v).descend? ["\x7b\x7bconfig.a\x7d\x7d"]).bind Value.asString?) = some "[1]" ∧
      ((ctx.resolve v).descend? ["\x7b\x7bconfig.a\x7d\x7d", "0"]).isNone := by
  cbv

end Context

end Assay
