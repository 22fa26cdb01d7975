import Assay.Probe.Request
import Mathlib.Data.List.Nodup

namespace Assay

namespace Entries

variable {α : Type} {es fs : Entries α} {key name : String} {a : α}

theorem get?_cons (key : String) (a : α) (es : Entries α) (name : String) :
    get? ((key, a) :: es) name = if name = key then some a else es.get? name := by
  by_cases h : name = key
  · subst h
    simp [get?]
  · have hne : (name == key) = false := beq_eq_false_iff_ne.mpr h
    simp [get?, List.lookup_cons, h, hne]

theorem get?_put (es : Entries α) (key : String) (a : α) (name : String) :
    (es.put key a).get? name = if name = key then some a else es.get? name := by
  induction es with
  | nil => exact get?_cons ..
  | cons e es ih =>
    obtain ⟨k, b⟩ := e
    by_cases hk : k = key
    · subst hk
      by_cases h : name = k <;> simp [put, get?_cons, h]
    · by_cases h : name = k
      · subst h
        simp [put, get?_cons, hk]
      · simp [put, get?_cons, hk, h, ih]

theorem get?_put_self (es : Entries α) (key : String) (a : α) :
    (es.put key a).get? key = some a := by
  rw [get?_put, if_pos rfl]

theorem get?_put_ne (h : name ≠ key) : (es.put key a).get? name = es.get? name := by
  rw [get?_put, if_neg h]

theorem mem_keys_put : name ∈ (es.put key a).keys ↔ name = key ∨ name ∈ es.keys := by
  induction es with
  | nil => simp [put, keys]
  | cons e es ih =>
    obtain ⟨k, b⟩ := e
    simp only [keys] at ih ⊢
    by_cases hk : k = key
    · subst hk
      simp [put]
    · simp only [put, hk, if_false, List.map_cons, List.mem_cons, ih]
      exact or_left_comm

theorem nodup_keys_put (h : es.keys.Nodup) : (es.put key a).keys.Nodup := by
  induction es with
  | nil => simp [put, keys]
  | cons e es ih =>
    obtain ⟨k, b⟩ := e
    have hcons := List.nodup_cons.mp h
    by_cases hk : k = key
    · subst hk
      simpa [put, keys] using h
    · have hnot : k ∉ (put es key a).keys := by
        rw [mem_keys_put]
        exact not_or.mpr ⟨hk, hcons.1⟩
      simp only [put, hk, if_false]
      exact List.nodup_cons.mpr ⟨hnot, ih hcons.2⟩

theorem nodup_keys_ofList (es : List (String × α)) : (ofList es).keys.Nodup := by
  have hfold : ∀ fs : Entries α, fs.keys.Nodup →
      (es.foldl (fun fs e => fs.put e.1 e.2) fs).keys.Nodup := by
    induction es with
    | nil => exact fun fs h => h
    | cons e es ih => exact fun fs h => ih _ (nodup_keys_put h)
  exact hfold [] List.nodup_nil

theorem nodup_keys_sorted (h : es.keys.Nodup) : es.sorted.keys.Nodup :=
  (((List.mergeSort_perm es _).map Prod.fst).nodup_iff).mpr h

theorem get?_eq_none_iff : es.get? name = none ↔ name ∉ es.keys := by
  induction es with
  | nil => simp [get?, keys]
  | cons e es ih =>
    obtain ⟨k, b⟩ := e
    simp only [keys] at ih
    by_cases h : name = k
    · simp [get?_cons, keys, h]
    · simp [get?_cons, keys, h, ih]

theorem get?_eq_some_iff (h : es.keys.Nodup) : es.get? name = some a ↔ (name, a) ∈ es := by
  induction es with
  | nil => simp [get?]
  | cons e es ih =>
    obtain ⟨k, b⟩ := e
    obtain ⟨hk, hrest⟩ := List.nodup_cons.mp h
    by_cases hname : name = k
    · subst hname
      have hnot : (name, a) ∉ es := by
        intro hmem
        have hkey : name ∈ es.map Prod.fst := List.mem_map.mpr ⟨_, hmem, rfl⟩
        exact hk hkey
      simp [get?_cons, hnot, eq_comm]
    · simp [get?_cons, hname, ih hrest]

theorem get?_of_perm (h : es.keys.Nodup) (hperm : fs.Perm es) (name : String) :
    fs.get? name = es.get? name := by
  have hfs : fs.keys.Nodup := ((hperm.map Prod.fst).nodup_iff).mpr h
  apply Option.ext
  intro a
  rw [get?_eq_some_iff hfs, get?_eq_some_iff h]
  exact hperm.mem_iff

end Entries

namespace Context

variable {ctx left : Context} {name : String}

/-- What happens to a context at most: its runtime variables get new values, and new ones are
added. -/
structure Grows (ctx left : Context) : Prop where
  config : left.config = ctx.config
  env : left.env = ctx.env
  keeps : ∀ name ∈ Entries.keys ctx.runtime, name ∈ Entries.keys left.runtime

theorem Grows.refl (ctx : Context) : ctx.Grows ctx := ⟨rfl, rfl, fun _ h => h⟩

theorem Grows.trans {middle : Context} (h : ctx.Grows middle) (g : middle.Grows left) :
    ctx.Grows left :=
  ⟨g.config.trans h.config, g.env.trans h.env, fun name hname => g.keeps name (h.keeps name hname)⟩

theorem define_grows (ctx : Context) (name : String) (v : Value) :
    ctx.Grows (ctx.define name v) :=
  ⟨rfl, rfl, fun _ h => Entries.mem_keys_put.mpr (.inr h)⟩

theorem defineAll_append (ctx : Context) (vars more : Fields) :
    ctx.defineAll (vars ++ more) = (ctx.defineAll vars).defineAll more := List.foldl_append

theorem defineAll_cons (ctx : Context) (name : String) (v : Value) (vars : Fields) :
    ctx.defineAll ((name, v) :: vars) = (ctx.define name (ctx.resolve v)).defineAll vars := rfl

theorem defineAll_grows (ctx : Context) (vars : Fields) : ctx.Grows (ctx.defineAll vars) := by
  induction vars generalizing ctx with
  | nil => exact .refl ctx
  | cons p vars ih => exact (ctx.define_grows ..).trans (ih _)

theorem get?_defineAll_of_not_mem {vars : Fields} (h : name ∉ Entries.keys vars) :
    Entries.get? (ctx.defineAll vars).runtime name = Entries.get? ctx.runtime name := by
  induction vars generalizing ctx with
  | nil => rfl
  | cons p vars ih =>
    obtain ⟨k, v⟩ := p
    simp only [Entries.keys, List.map_cons, List.mem_cons, not_or] at h ih
    rw [defineAll_cons, ih h.2]
    exact Entries.get?_put_ne h.1

/-- A variable gets its value from the variables before it, and keeps it unless it is defined once
more. -/
theorem get?_defineAll {vars more : Fields} {v : Value} (h : name ∉ Entries.keys more) :
    Entries.get? (ctx.defineAll (vars ++ (name, v) :: more)).runtime name =
      some ((ctx.defineAll vars).resolve v) := by
  rw [defineAll_append, defineAll_cons, get?_defineAll_of_not_mem h]
  exact Entries.get?_put_self ..

section Save

variable {body : Value} {bindings : Entries String}

/-- The text that is saved under a name: that of the value at the path of its binding. -/
def savedText (bindings : Entries String) (body : Value) (name : String) : Option Value :=
  ((Entries.get? bindings name).bind (savedValue body)).map fun v => .string v.text

theorem save_cons (ctx : Context) (body : Value) (name path : String) (bindings : Entries String) :
    ctx.save body ((name, path) :: bindings) =
      (match savedValue body path with
        | some v => ctx.store name v
        | none => ctx).save body bindings := rfl

theorem save_grows (ctx : Context) (body : Value) (bindings : Entries String) :
    ctx.Grows (ctx.save body bindings) := by
  induction bindings generalizing ctx with
  | nil => exact .refl ctx
  | cons b bindings ih =>
    obtain ⟨k, path⟩ := b
    rw [save_cons]
    cases savedValue body path with
    | none => exact ih ctx
    | some v => exact (ctx.define_grows ..).trans (ih _)

theorem get?_save (h : bindings.keys.Nodup) (name : String) :
    Entries.get? (ctx.save body bindings).runtime name =
      (savedText bindings body name).or (Entries.get? ctx.runtime name) := by
  induction bindings generalizing ctx with
  | nil => simp [Context.save, savedText, Entries.get?]
  | cons b bindings ih =>
    obtain ⟨k, path⟩ := b
    obtain ⟨hk, hrest⟩ := List.nodup_cons.mp h
    rw [save_cons, ih hrest]
    by_cases hname : name = k
    · -- No later binding has this name, so what this one writes stays.
      subst hname
      have hnone : Entries.get? bindings name = none := Entries.get?_eq_none_iff.mpr hk
      have hself : Entries.get? ((name, path) :: bindings : Entries String) name = some path := by
        rw [Entries.get?_cons, if_pos rfl]
      simp only [savedText, hnone, hself, Option.bind_none, Option.map_none, Option.none_or,
        Option.bind_some]
      cases savedValue body path with
      | none => rfl
      | some v => exact Entries.get?_put_self ..
    · have hother : Entries.get? ((k, path) :: bindings : Entries String) name =
          Entries.get? bindings name := by
        rw [Entries.get?_cons, if_neg hname]
      have hsame : ∀ c : Context, c = ctx ∨ (∃ v, c = ctx.store k v) →
          Entries.get? c.runtime name = Entries.get? ctx.runtime name := by
        rintro c (rfl | ⟨v, rfl⟩)
        · rfl
        · exact Entries.get?_put_ne hname
      simp only [savedText, hother]
      congr 1
      apply hsame
      cases savedValue body path with
      | none => exact .inl rfl
      | some v => exact .inr ⟨v, rfl⟩

end Save

end Context

end Assay
