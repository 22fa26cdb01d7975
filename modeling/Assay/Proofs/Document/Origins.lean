import Assay.Document.Record
import Assay.Proofs.Script.Trials

namespace Assay

variable {α β : Type}

/-- Read as JSON text or as a JSON value, a document gives the same; only the mismatches are worded
differently. -/
def Decoder.Alike (dec : Decoder α) : Prop :=
  ∀ d a, dec .jsonText d = .ok a ↔ dec .jsonValue d = .ok a

namespace Decoder

variable {dec : Decoder α}

theorem Alike.map (h : dec.Alike) (f : α → β) : Alike fun o d => (dec o d).map f := by
  intro d b
  rw [map_eq_ok, map_eq_ok]
  simp only [h d]

theorem Alike.nullable (h : dec.Alike) : (nullable dec).Alike := by
  intro d x
  have hsome := h.map some d x
  cases d with
  | null => exact Iff.rfl
  | plain s =>
    rw [Decoder.nullable, Decoder.nullable]
    by_cases hs : Scalar.isNull s = true
    · rw [if_pos hs, if_pos hs]
    · rw [if_neg hs, if_neg hs]
      exact hsome
  | bool b => exact hsome
  | number n => exact hsome
  | string s => exact hsome
  | sequence items => exact hsome
  | mapping es => exact hsome

theorem Alike.eachOf (h : dec.Alike) (ds : List Document) (as : List α) :
    eachOf dec .jsonText ds = .ok as ↔ eachOf dec .jsonValue ds = .ok as := by
  induction ds generalizing as with
  | nil => exact Iff.rfl
  | cons d ds ih =>
    rw [Decoder.eachOf, Decoder.eachOf]
    simp only [bind_eq_ok, h d, ih]

theorem Alike.list (h : dec.Alike) : (list dec).Alike := by
  intro d as
  unfold Decoder.list
  split
  · exact h.eachOf _ as
  · exact Iff.rfl
  · exact Iff.rfl

theorem Alike.entriesOf (h : dec.Alike) (es : List (Key × Document)) (as : List (String × α)) :
    entriesOf dec .jsonText es = .ok as ↔ entriesOf dec .jsonValue es = .ok as := by
  induction es generalizing as with
  | nil => exact Iff.rfl
  | cons e es ih =>
    rw [Decoder.entriesOf, Decoder.entriesOf]
    simp only [bind_eq_ok, h e.2, ih]

theorem Alike.entries (h : dec.Alike) : (entries dec).Alike := by
  intro d as
  unfold Decoder.entries
  split
  · exact h.entriesOf _ as
  · exact Iff.rfl
  · exact Iff.rfl

theorem text_alike : text.Alike := fun _ _ => Iff.rfl

theorem bool_alike : bool.Alike := fun _ _ => Iff.rfl

theorem float_alike : float.Alike := fun _ _ => Iff.rfl

theorem integer_alike (low high : Int) (wide : Int × Int) (name : String) :
    (integer low high wide name).Alike := fun _ _ => Iff.rfl

theorem unsigned_alike (high : Nat) (name : String) : (unsigned high name).Alike :=
  (integer_alike _ _ _ _).map Int.toNat

theorem value_alike : value.Alike := fun _ _ => Iff.rfl

theorem fields_alike : fields.Alike := value_alike.entries.map Entries.ofList

theorem variant_alike (known : List (String × α)) : (variant known).Alike := by
  intro d a
  unfold variant
  dsimp only
  split
  · exact Iff.rfl
  · exact Iff.rfl
  · rw [if_neg nofun, if_neg nofun]
  · exact ⟨nofun, nofun⟩

end Decoder

/-- A record whose checks and parts do not tell JSON text from JSON values. -/
structure Record.Alike (r : Record α) : Prop where
  check (key : String) (d : Document) :
    r.check .jsonText key d = .ok () ↔ r.check .jsonValue key d = .ok ()
  build (get : String → Option Document) (a : α) :
    r.build .jsonText get = .ok a ↔ r.build .jsonValue get = .ok a

namespace Record

variable {dec : Decoder α}

theorem Alike.pure (a : α) : (Pure.pure a : Record α).Alike :=
  ⟨fun _ _ => Iff.rfl, fun _ _ => Iff.rfl⟩

theorem Alike.seq {f : Record (α → β)} {r : Record α} (hf : f.Alike) (hr : r.Alike) :
    (f <*> r).Alike := by
  constructor
  · intro key d
    change (f.check _ key d >>= fun _ => r.check _ key d) = _ ↔
      (f.check _ key d >>= fun _ => r.check _ key d) = _
    simp only [bind_eq_ok, hf.check, hr.check]
  · intro get b
    change (f.build _ get >>= fun g => r.build _ get >>= fun x => Pure.pure (g x)) = _ ↔
      (f.build _ get >>= fun g => r.build _ get >>= fun x => Pure.pure (g x)) = _
    simp only [bind_eq_ok, hf.build, hr.build]

theorem Alike.map {r : Record α} {f : α → β} (hr : r.Alike) : (f <$> r).Alike :=
  (Alike.pure f).seq hr

theorem required_alike (name : String) (h : dec.Alike) : (required name dec).Alike := by
  constructor
  · intro key d
    unfold required
    by_cases hkey : key = name
    · simp only [if_pos hkey]
      exact h.map (fun _ => ()) d ()
    · simp only [if_neg hkey]
  · intro get a
    unfold required
    dsimp only
    cases get name with
    | none => exact ⟨nofun, nofun⟩
    | some d => exact h d a

theorem optional_alike (name : String) (absent : α) (h : dec.Alike) :
    (optional name absent dec).Alike := by
  refine ⟨(required_alike name h).check, fun get a => ?_⟩
  unfold optional
  dsimp only
  cases get name with
  | none => exact Iff.rfl
  | some d => exact h d a

theorem option_alike (name : String) (h : dec.Alike) : (option name dec).Alike :=
  optional_alike name none h.nullable

variable {r : Record α}

theorem Alike.inspect (h : r.Alike) (strict : Bool) (seen : List String)
    (es : List (Key × Document)) :
    r.inspect strict .jsonText seen es = .ok () ↔ r.inspect strict .jsonValue seen es = .ok () := by
  induction es generalizing seen with
  | nil => exact Iff.rfl
  | cons e es ih =>
    obtain ⟨key, d⟩ := e
    cases key with
    | text k =>
      rw [Record.inspect, Record.inspect]
      by_cases hknown : r.names.contains k = true
      · rw [if_pos hknown, if_pos hknown]
        by_cases hseen : seen.contains k = true
        · rw [if_pos hseen, if_pos hseen]
        · rw [if_neg hseen, if_neg hseen]
          simp only [bind_eq_ok, h.check, ih]
      · rw [if_neg hknown, if_neg hknown]
        by_cases hstrict : strict = true
        · rw [if_pos hstrict, if_pos hstrict]
        · rw [if_neg hstrict, if_neg hstrict]
          exact ih seen
    | sequence => exact Iff.rfl
    | mapping => exact Iff.rfl

theorem fromItems_eq_ok {type : String} {o : Origin} {ds : List Document} {a : α} :
    r.fromItems type o ds = .ok a ↔
      r.inspect false o [] ((r.names.zip ds).map fun p => (Key.text p.1, p.2)) = .ok () ∧
      (r.build o fun name =>
        ((r.names.zip ds).map fun p => (Key.text p.1, p.2)).lookup (.text name)) = .ok a ∧
      ¬ r.names.length < ds.length := by
  unfold fromItems
  dsimp only
  rw [bind_eq_ok]
  constructor
  · rintro ⟨_, hinspect, h⟩
    split at h
    · cases h
    · obtain ⟨b, hb, h⟩ := bind_eq_ok.mp h
      split at h
      · cases h
      next hlength =>
        cases h
        exact ⟨hinspect, hb, hlength⟩
  · rintro ⟨hinspect, hb, hlength⟩
    refine ⟨(), hinspect, ?_⟩
    rw [hb]
    exact if_neg hlength

theorem Alike.decode (h : r.Alike) (type : String) (strict : Bool) :
    (r.decode type strict).Alike := by
  intro d a
  have hentries (es : List (Key × Document)) : r.fromEntries strict .jsonText es = .ok a ↔
      r.fromEntries strict .jsonValue es = .ok a := by
    unfold fromEntries
    simp only [bind_eq_ok, h.inspect, h.build]
  unfold Record.decode
  split
  · exact hentries _
  · exact hentries []
  · rw [if_neg nofun, if_neg nofun, fromItems_eq_ok, fromItems_eq_ok, h.inspect, h.build]
  · exact Iff.rfl

end Record

end Assay
