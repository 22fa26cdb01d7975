import Assay.Document.Record
import Assay.Proofs.Document.Sound
import Assay.Proofs.Unit.Written

namespace Assay

variable {α β : Type} {o : Origin} {get : String → Option Document} {a b : α}

namespace Record

/-- The record comes to a value on fields that pass its checks one by one. -/
def Accepts (r : Record α) (o : Origin) (get : String → Option Document) (a : α) : Prop :=
  r.build o get = .ok a ∧ ∀ name d, get name = some d → r.check o name d = .ok ()

theorem Accepts.pure (a : α) : (Pure.pure a : Record α).Accepts o get a := ⟨rfl, fun _ _ _ => rfl⟩

theorem Accepts.seq {f : Record (α → β)} {r : Record α} {g : α → β} (hf : f.Accepts o get g)
    (hr : r.Accepts o get a) : (f <*> r).Accepts o get (g a) := by
  constructor
  · exact bind_eq_ok.mpr ⟨g, hf.1, bind_eq_ok.mpr ⟨a, hr.1, rfl⟩⟩
  · exact fun name d hd => bind_eq_ok.mpr ⟨(), hf.2 name d hd, hr.2 name d hd⟩

theorem Accepts.map {r : Record α} {g : α → β} (hr : r.Accepts o get a) :
    (g <$> r).Accepts o get (g a) := (Accepts.pure g).seq hr

variable {name : String} {dec : Decoder α} {d : Document}

theorem required_accepts (hget : get name = some d) (h : dec o d = .ok a) :
    (required name dec).Accepts o get a := by
  constructor
  · simp only [required, hget, h]
  · intro key e he
    unfold required
    by_cases hkey : key = name
    · subst hkey
      cases hget.symm.trans he
      simp only [if_true, h]
      rfl
    · simp only [if_neg hkey]

theorem optional_accepts {absent : α} (hget : get name = some d) (h : dec o d = .ok a) :
    (optional name absent dec).Accepts o get a := by
  constructor
  · simp only [optional, hget, h]
  · intro key e he
    exact (required_accepts hget h).2 key e he

theorem inspect_ok {r : Record α} {es : List (String × Document)} {seen : List String}
    (hkeys : (es.map Prod.fst).Nodup) (hseen : ∀ e ∈ es, e.1 ∉ seen)
    (hcheck : ∀ e ∈ es, r.check o e.1 e.2 = .ok ()) :
    r.inspect false o seen (es.map fun e => (.text e.1, e.2)) = .ok () := by
  induction es generalizing seen with
  | nil => rfl
  | cons e es ih =>
    obtain ⟨k, d⟩ := e
    obtain ⟨hk, hkeys⟩ := List.nodup_cons.mp hkeys
    obtain ⟨hnot, hseen⟩ := List.forall_mem_cons.mp hseen
    obtain ⟨hd, hcheck⟩ := List.forall_mem_cons.mp hcheck
    have hcontains : seen.contains k = false := by simpa using hnot
    have hcons : ∀ e ∈ es, e.1 ∉ k :: seen := by
      intro e he hmem
      rcases List.mem_cons.mp hmem with heq | hmem
      · exact hk (List.mem_map.mpr ⟨e, he, heq⟩)
      · exact hseen e he hmem
    rw [List.map_cons, inspect]
    by_cases hknown : r.names.contains k = true
    · rw [if_pos hknown, hcontains, if_neg Bool.false_ne_true, hd]
      exact ih hkeys hcons hcheck
    · rw [if_neg hknown, if_neg Bool.false_ne_true]
      exact ih hkeys hseen hcheck

theorem lookup_ofFields (fields : Fields) (name : String) :
    (Document.ofFields fields).lookup (.text name) =
      (Entries.get? fields name).map Document.ofValue := by
  induction fields with
  | nil => rfl
  | cons f fs ih =>
    obtain ⟨k, v⟩ := f
    rw [Document.ofFields, Entries.get?_cons, List.lookup_cons, ih]
    by_cases h : name = k
    · subst h
      simp
    · have hne : (Key.text name == Key.text k) = false := by simpa using h
      rw [hne, if_neg h]

theorem decode_object {r : Record α} {fields : Fields} (hkeys : fields.keys.Nodup) (type : String)
    (h : r.Accepts o (fun name => (fields.get? name).map .ofValue) a) :
    r.decode type false o (.ofValue (.object fields)) = .ok a := by
  have hinspect : r.inspect false o [] (Document.ofFields fields) = .ok () := by
    have heq : Document.ofFields fields =
        (fields.map fun f => (f.1, Document.ofValue f.2)).map fun e => (Key.text e.1, e.2) := by
      rw [Document.ofFields_eq, List.map_map]
      rfl
    rw [heq]
    apply inspect_ok
    · rwa [List.map_map]
    · exact fun e _ => List.not_mem_nil
    · intro e he
      obtain ⟨f, hf, rfl⟩ := List.mem_map.mp he
      have hget := (Entries.get?_eq_some_iff hkeys).mpr hf
      exact h.2 f.1 (.ofValue f.2) (congrArg (Option.map Document.ofValue) hget)
  rw [Document.ofValue, decode, fromEntries, hinspect]
  simp only [lookup_ofFields]
  exact h.1

end Record

/-- What a decoder makes of a value after its texts were filled. -/
def Decoder.Reads (ctx : Context) (dec : Decoder α) (v : Value) (b : α) : Prop :=
  dec .jsonValue (.ofValue (ctx.resolve v)) = .ok b

/-- What a record makes of fields after their texts were filled. -/
def Record.Reads (ctx : Context) (r : Record α) (fields : Fields) (b : α) : Prop :=
  r.Accepts .jsonValue (fun name => (fields.get? name).map fun v => .ofValue (ctx.resolve v)) b

variable {ctx : Context} {v : Value}

namespace Decoder

variable {dec : Decoder α}

theorem text_reads (s : String) : text.Reads ctx (.string s) (ctx.fill s) := rfl

theorem looseText_reads (s : String) : looseText.Reads ctx (.string s) (ctx.fill s) := rfl

theorem bool_reads (b : Bool) : bool.Reads ctx (.bool b) b := rfl

theorem value_reads (h : v.Settled) : value.Reads ctx v (ctx.resolve v) :=
  anyValue_ofValue (ctx.resolve_settled h)

theorem fields_reads {fs : Fields} (h : (Value.object fs).Settled) :
    fields.Reads ctx (.object fs) (ctx.resolveFields fs) :=
  fields_ofValue .jsonValue (ctx.resolve_settled h)

theorem list_reads {vs : List Value} (h : ∀ v ∈ vs, v.Settled) :
    (list value).Reads ctx (.array vs) (vs.map ctx.resolve) := by
  have hvs : ∀ w ∈ vs.map ctx.resolve, w.Settled := by
    intro w hw
    obtain ⟨v, hv, rfl⟩ := List.mem_map.mp hw
    exact ctx.resolve_settled (h v hv)
  rw [← ctx.resolveAll_eq] at hvs ⊢
  exact eachOf_ofValues .jsonValue hvs

theorem integer_reads {low high n : Int} {wide : Int × Int} {name : String} (hlow : low ≤ n)
    (hhigh : n ≤ high) : (integer low high wide name).Reads ctx (.int n) n :=
  if_pos ⟨hlow, hhigh⟩

theorem unsigned_reads {high n : Nat} {name : String} (h : n ≤ high) :
    (unsigned high name).Reads ctx (.nat n) n := by
  have hread : (integer 0 high (0, Nat.pow 2 64 - 1) name).Reads ctx (.int n) n :=
    integer_reads (by omega) (by omega)
  exact congrArg (Except.map Int.toNat) hread

theorem nullable_null : (nullable dec).Reads ctx .null none := rfl

theorem nullable_ofValue (hv : v ≠ .null) (h : dec o (.ofValue v) = .ok a) :
    nullable dec o (.ofValue v) = .ok (some a) := by
  cases v with
  | null => exact absurd rfl hv
  | bool b => exact congrArg (Except.map some) h
  | number n => exact congrArg (Except.map some) h
  | string s => exact congrArg (Except.map some) h
  | array items => exact congrArg (Except.map some) h
  | object fields => exact congrArg (Except.map some) h

theorem resolve_ne_null (hv : v ≠ .null) : ctx.resolve v ≠ .null := by
  cases v with
  | null => exact absurd rfl hv
  | _ => exact nofun

theorem Reads.nullable (hv : v ≠ .null) (h : dec.Reads ctx v a) :
    (nullable dec).Reads ctx v (some a) := nullable_ofValue (resolve_ne_null hv) h

theorem Reads.ofOption {γ : Type} {f : γ → Value} {g : γ → α} {x : Option γ}
    (hf : ∀ c, f c ≠ .null) (h : ∀ c ∈ x, dec.Reads ctx (f c) (g c)) :
    (Decoder.nullable dec).Reads ctx (Value.ofOption f x) (x.map g) := by
  cases x with
  | none => exact nullable_null
  | some c => exact (h c rfl).nullable (hf c)

end Decoder

namespace Record

variable {fields : Fields}

theorem Reads.seq {f : Record (α → β)} {r : Record α} {g : α → β} (hf : f.Reads ctx fields g)
    (hr : r.Reads ctx fields a) : (f <*> r).Reads ctx fields (g a) := Accepts.seq hf hr

theorem Reads.map {r : Record α} {g : α → β} (hr : r.Reads ctx fields a) :
    (g <$> r).Reads ctx fields (g a) := Accepts.map hr

variable {name : String} {dec : Decoder α}

theorem required_reads (hget : fields.get? name = some v) (h : dec.Reads ctx v a) :
    (required name dec).Reads ctx fields a := required_accepts (by simp [hget]) h

theorem optional_reads {absent : α} (hget : fields.get? name = some v) (h : dec.Reads ctx v a) :
    (optional name absent dec).Reads ctx fields a := optional_accepts (by simp [hget]) h

theorem Reads.decode {r : Record α} (hkeys : fields.keys.Nodup) (type : String)
    (h : r.Reads ctx fields a) : (r.decode type false).Reads ctx (.object fields) a := by
  rw [← ctx.keys_resolveFields] at hkeys
  apply decode_object hkeys
  have hget : (fun name => (Entries.get? (ctx.resolveFields fields) name).map Document.ofValue) =
      fun name => (fields.get? name).map fun v => .ofValue (ctx.resolve v) := by
    funext name
    rw [ctx.get?_resolveFields, Option.map_map]
    rfl
  rw [hget]
  exact h

end Record

end Assay
