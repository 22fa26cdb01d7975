import Assay.Document.Loose
import Assay.Libraries
import Assay.Proofs.Context.Layers
import Assay.Proofs.Number.Reading
import Assay.Proofs.Script.Trials

namespace Assay

/-- Integers of 64 bits, and doubles that there are. -/
def Number.Sound : Number → Prop
  | .int n => -2 ^ 63 ≤ n ∧ n < 2 ^ 64
  | .float x => x.Representable

/-- A document all of whose numbers can be. -/
inductive Document.Sound : Document → Prop
  | null : Sound .null
  | bool (b : Bool) : Sound (.bool b)
  | number {n : Number} (h : n.Sound) : Sound (.number n)
  | string (s : String) : Sound (.string s)
  | plain (s : String) : Sound (.plain s)
  | sequence {items : List Document} (h : ∀ d ∈ items, Sound d) : Sound (.sequence items)
  | mapping {entries : List (Key × Document)} (h : ∀ e ∈ entries, Sound e.2) :
    Sound (.mapping entries)

/-- What is relied on of the library for YAML: its documents are sound. -/
class Libraries.Lawful [Libraries] : Prop where
  sound_of_readYaml {text : String} {d : Document} (h : Libraries.readYaml text = .ok d) : d.Sound

/-- A value whose numbers can be written in JSON and whose objects do not repeat a key: it is read
back as it is. -/
inductive Value.Settled : Value → Prop
  | null : Settled .null
  | bool (b : Bool) : Settled (.bool b)
  | int {n : Int} (h : (Number.int n).Sound) : Settled (.number (.int n))
  | float {x : Double} (h : x.Representable) (hx : x.isFinite) : Settled (.number (.float x))
  | string (s : String) : Settled (.string s)
  | array {items : List Value} (h : ∀ v ∈ items, Settled v) : Settled (.array items)
  | object {fields : Fields} (hkeys : fields.keys.Nodup) (h : ∀ f ∈ fields, Settled f.2) :
    Settled (.object fields)

namespace Entries

variable {α : Type} {es : Entries α} {key : String} {a : α}

theorem mem_put {e : String × α} (h : e ∈ es.put key a) : e = (key, a) ∨ e ∈ es := by
  induction es with
  | nil => exact .inl (List.mem_singleton.mp h)
  | cons f es ih =>
    obtain ⟨k, b⟩ := f
    by_cases hk : k = key
    · subst hk
      rw [put, if_pos rfl, List.mem_cons] at h
      exact h.imp_right (List.mem_cons_of_mem _)
    · rw [put, if_neg hk, List.mem_cons] at h
      rcases h with rfl | h
      · exact .inr List.mem_cons_self
      · exact (ih h).imp_right (List.mem_cons_of_mem _)

theorem mem_ofList {e : String × α} {es : List (String × α)} (h : e ∈ ofList es) : e ∈ es := by
  have hfold : ∀ (es fs : Entries α), e ∈ es.foldl (fun fs e => fs.put e.1 e.2) fs →
      e ∈ fs ∨ e ∈ es := by
    intro es
    induction es with
    | nil => exact fun fs h => .inl h
    | cons f es ih =>
      intro fs h
      rcases ih (fs.put f.1 f.2) h with hput | hes
      · rcases mem_put hput with rfl | hfs
        · exact .inr List.mem_cons_self
        · exact .inl hfs
      · exact .inr (List.mem_cons_of_mem _ hes)
  exact (hfold es [] h).resolve_left List.not_mem_nil

theorem put_eq_append (h : key ∉ es.keys) : es.put key a = es ++ [(key, a)] := by
  induction es with
  | nil => rfl
  | cons e es ih =>
    obtain ⟨k, b⟩ := e
    simp only [keys, List.map_cons, List.mem_cons, not_or] at h ih
    rw [put, if_neg (Ne.symm h.1), ih h.2, List.cons_append]

theorem ofList_eq_self (h : es.keys.Nodup) : ofList es = es := by
  have hfold : ∀ (es fs : Entries α), (keys (fs ++ es)).Nodup →
      es.foldl (fun fs e => fs.put e.1 e.2) fs = fs ++ es := by
    intro es
    induction es with
    | nil => exact fun fs _ => (List.append_nil fs).symm
    | cons e es ih =>
      intro fs h
      have hnot : e.1 ∉ fs.keys := by
        intro hmem
        unfold keys at h hmem
        rw [List.map_append, List.nodup_append] at h
        exact h.2.2 e.1 hmem e.1 List.mem_cons_self rfl
      rw [List.append_cons] at h ⊢
      rw [List.foldl_cons, put_eq_append hnot]
      exact ih (fs ++ [e]) h
  exact hfold es [] h

end Entries

namespace Document

theorem ofValues_eq (items : List Value) : ofValues items = items.map ofValue := by
  induction items with
  | nil => rfl
  | cons v vs ih => rw [ofValues, ih, List.map_cons]

theorem ofFields_eq (fields : Fields) :
    ofFields fields = fields.map fun f => (Key.text f.1, ofValue f.2) := by
  induction fields with
  | nil => rfl
  | cons f fs ih => rw [ofFields, ih, List.map_cons]

theorem ofValue_array {items : List Value} (h : ∀ v ∈ items, (ofValue v).Sound) :
    (ofValue (.array items)).Sound := by
  rw [ofValue, ofValues_eq]
  refine .sequence fun d hd => ?_
  obtain ⟨v, hv, rfl⟩ := List.mem_map.mp hd
  exact h v hv

theorem ofValue_object {fields : Fields} (h : ∀ f ∈ fields, (ofValue f.2).Sound) :
    (ofValue (.object fields)).Sound := by
  rw [ofValue, ofFields_eq]
  refine .mapping fun e he => ?_
  obtain ⟨f, hf, rfl⟩ := List.mem_map.mp he
  exact h f hf

theorem ofValue_sound {v : Value} (h : v.Settled) : (ofValue v).Sound := by
  induction h with
  | null => exact .null
  | bool b => exact .bool b
  | int h => exact .number h
  | float h _ => exact .number h
  | string s => exact .string s
  | array _ ih => exact ofValue_array ih
  | object _ _ ih => exact ofValue_object ih

end Document

namespace Context

variable (ctx : Context)

theorem resolveAll_eq (items : List Value) : ctx.resolveAll items = items.map ctx.resolve := by
  induction items with
  | nil => rfl
  | cons v vs ih => rw [resolveAll, ih, List.map_cons]

theorem resolveFields_eq (fields : Fields) :
    ctx.resolveFields fields = fields.map fun f => (f.1, ctx.resolve f.2) := by
  induction fields with
  | nil => rfl
  | cons f fs ih => rw [resolveFields, ih, List.map_cons]

theorem keys_resolveFields (fields : Fields) :
    Entries.keys (ctx.resolveFields fields) = Entries.keys fields := by
  rw [resolveFields_eq, Entries.keys, Entries.keys, List.map_map]
  rfl

theorem get?_resolveFields (fields : Fields) (name : String) :
    Entries.get? (ctx.resolveFields fields) name = (Entries.get? fields name).map ctx.resolve := by
  induction fields with
  | nil => rfl
  | cons f fs ih =>
    obtain ⟨k, v⟩ := f
    rw [resolveFields, Entries.get?_cons, Entries.get?_cons, ih]
    by_cases h : name = k
    · rw [if_pos h, if_pos h, Option.map_some]
    · rw [if_neg h, if_neg h]

theorem resolve_settled {v : Value} (h : v.Settled) : (ctx.resolve v).Settled := by
  induction h with
  | null => exact .null
  | bool b => exact .bool b
  | int h => exact .int h
  | float h hx => exact .float h hx
  | string s => exact .string _
  | array _ ih =>
    rw [resolve, resolveAll_eq]
    refine .array fun w hw => ?_
    obtain ⟨v, hv, rfl⟩ := List.mem_map.mp hw
    exact ih v hv
  | object hkeys _ ih =>
    rw [← ctx.keys_resolveFields] at hkeys
    rw [resolve]
    refine .object hkeys fun e he => ?_
    rw [resolveFields_eq] at he
    obtain ⟨f, hf, rfl⟩ := List.mem_map.mp he
    exact ih f hf

end Context

namespace Scalar

theorem float?_representable {s : String} {x : Double} (h : float? s = some x) :
    x.Representable := by
  have hcases {a b c d : Bool} {body : List Char}
      (h : (if a then none else if b then some (.infinite false) else
        if c then some (.infinite true) else if d then some .nan else
        (Double.read? body).filter Double.isFinite) = some x) : x.Representable := by
    cases a with
    | true => cases h
    | false =>
      cases b with
      | true =>
        cases h
        exact Double.infinite_representable false
      | false =>
        cases c with
        | true =>
          cases h
          exact Double.infinite_representable true
        | false =>
          cases d with
          | true =>
            cases h
            exact Double.nan_representable
          | false => exact Double.read?_representable (Option.filter_eq_some_iff.mp h).1
  exact hcases h

theorem representable_of_ofPlain {s : String} {x : Double} (h : ofPlain s = .float x) :
    x.Representable := by
  unfold ofPlain at h
  dsimp only at h
  split at h
  · cases h
  · split at h
    · cases h
    · split at h
      · cases h
      · split at h
        next hx =>
          cases h
          split at hx
          · cases hx
          · exact float?_representable hx
        next => cases h

end Scalar

namespace Decoder

theorem anyValues_ofValues {items : List Value}
    (h : ∀ v ∈ items, anyValue (.ofValue v) = .ok v) :
    anyValues (Document.ofValues items) = .ok items := by
  induction items with
  | nil => rfl
  | cons v vs ih =>
    obtain ⟨hv, hvs⟩ := List.forall_mem_cons.mp h
    rw [Document.ofValues, anyValues, hv, ih hvs]
    rfl

theorem anyFields_ofFields {fields : Fields}
    (h : ∀ f ∈ fields, anyValue (.ofValue f.2) = .ok f.2) :
    anyFields (Document.ofFields fields) = .ok fields := by
  induction fields with
  | nil => rfl
  | cons f fs ih =>
    obtain ⟨hf, hfs⟩ := List.forall_mem_cons.mp h
    rw [Document.ofFields, anyFields, hf, ih hfs]
    rfl

theorem anyValue_ofValue {v : Value} (h : v.Settled) : anyValue (.ofValue v) = .ok v := by
  induction h with
  | null => rfl
  | bool b => rfl
  | int h => rfl
  | float h hx => simp [Document.ofValue, anyValue, hx]
  | string s => rfl
  | array _ ih =>
    rw [Document.ofValue, anyValue, anyValues_ofValues ih]
    rfl
  | object hkeys _ ih =>
    rw [Document.ofValue, anyValue, anyFields_ofFields ih]
    change Except.ok (Value.object (Entries.ofList _)) = _
    rw [Entries.ofList_eq_self hkeys]

theorem entriesOf_ofFields {fields : Fields} (o : Origin)
    (h : ∀ f ∈ fields, anyValue (.ofValue f.2) = .ok f.2) :
    entriesOf value o (Document.ofFields fields) = .ok fields := by
  induction fields with
  | nil => rfl
  | cons f fs ih =>
    obtain ⟨hf, hfs⟩ := List.forall_mem_cons.mp h
    rw [Document.ofFields, entriesOf, value, hf, ih hfs]
    rfl

theorem fields_ofValue {fs : Fields} (o : Origin) (h : (Value.object fs).Settled) :
    fields o (.ofValue (.object fs)) = .ok fs := by
  cases h with
  | object hkeys h =>
    have hentries := entriesOf_ofFields o fun f hf => anyValue_ofValue (h f hf)
    rw [Document.ofValue, fields, entries, hentries]
    exact congrArg Except.ok (Entries.ofList_eq_self hkeys)

theorem eachOf_ofValues {items : List Value} (o : Origin) (h : ∀ v ∈ items, v.Settled) :
    eachOf value o (Document.ofValues items) = .ok items := by
  induction items with
  | nil => rfl
  | cons v vs ih =>
    obtain ⟨hv, hvs⟩ := List.forall_mem_cons.mp h
    rw [Document.ofValues, eachOf, value, anyValue_ofValue hv, ih hvs]
    rfl

theorem forall_mem_of_anyValues {items : List Document} {P : Value → Prop}
    (hitems : ∀ d ∈ items, ∀ v, anyValue d = .ok v → P v) {vs : List Value}
    (h : anyValues items = .ok vs) : ∀ v ∈ vs, P v := by
  induction items generalizing vs with
  | nil =>
    cases h
    exact List.forall_mem_nil _
  | cons d ds ih =>
    rw [anyValues] at h
    obtain ⟨v, hv, h⟩ := bind_eq_ok.mp h
    obtain ⟨ws, hws, h⟩ := bind_eq_ok.mp h
    cases h
    obtain ⟨hd, hds⟩ := List.forall_mem_cons.mp hitems
    exact List.forall_mem_cons.mpr ⟨hd v hv, ih hds hws⟩

theorem forall_mem_of_anyFields {entries : List (Key × Document)} {P : Value → Prop}
    (hentries : ∀ e ∈ entries, ∀ v, anyValue e.2 = .ok v → P v) {fs : List (String × Value)}
    (h : anyFields entries = .ok fs) : ∀ f ∈ fs, P f.2 := by
  induction entries generalizing fs with
  | nil =>
    cases h
    exact List.forall_mem_nil _
  | cons e es ih =>
    rw [anyFields] at h
    obtain ⟨k, -, h⟩ := bind_eq_ok.mp h
    obtain ⟨v, hv, h⟩ := bind_eq_ok.mp h
    obtain ⟨gs, hgs, h⟩ := bind_eq_ok.mp h
    cases h
    obtain ⟨he, hes⟩ := List.forall_mem_cons.mp hentries
    exact List.forall_mem_cons.mpr ⟨he v hv, ih hes hgs⟩

theorem float_settled {x : Double} (hx : x.Representable) :
    (if x.isFinite then Value.number (.float x) else .null).Settled := by
  split
  next hfinite => exact .float hx hfinite
  next => exact .null

theorem ofScalar_settled {s : String} {v : Value} (h : ofScalar (.ofPlain s) = .ok v) :
    v.Settled := by
  cases hs : Scalar.ofPlain s with
  | null =>
    rw [hs] at h
    cases h
    exact .null
  | bool b =>
    rw [hs] at h
    cases h
    exact .bool b
  | int n =>
    rw [hs, ofScalar] at h
    split at h
    next hn =>
      cases h
      exact .int hn
    next => cases h
  | float x =>
    rw [hs, ofScalar] at h
    cases h
    exact float_settled (Scalar.representable_of_ofPlain hs)
  | text t =>
    rw [hs] at h
    cases h
    exact .string t

theorem anyValue_settled {d : Document} (hd : d.Sound) : ∀ v, anyValue d = .ok v → v.Settled := by
  induction hd with
  | null =>
    intro v h
    cases h
    exact .null
  | bool b =>
    intro v h
    cases h
    exact .bool b
  | @number n hn =>
    intro v h
    cases n with
    | int n =>
      cases h
      exact .int hn
    | float x =>
      rw [anyValue] at h
      cases h
      exact float_settled hn
  | string s =>
    intro v h
    cases h
    exact .string s
  | plain s =>
    intro v h
    rw [anyValue] at h
    exact ofScalar_settled h
  | sequence _ ih =>
    intro v h
    rw [anyValue] at h
    obtain ⟨vs, hvs, rfl⟩ := map_eq_ok.mp h
    exact .array (forall_mem_of_anyValues ih hvs)
  | mapping _ ih =>
    intro v h
    rw [anyValue] at h
    obtain ⟨fs, hfs, rfl⟩ := map_eq_ok.mp h
    have hall := forall_mem_of_anyFields ih hfs
    exact .object (Entries.nodup_keys_ofList fs) fun f hf => hall f (Entries.mem_ofList hf)

end Decoder

end Assay
