import Assay.Document.Record
import Assay.Proofs.Document.Sound
import Assay.Unit.Comparison
import Assay.Unit.Duration

namespace Assay

-- Nothing below computes with doubles.
attribute [local irreducible] Double.ofRatio

variable {α β : Type} {P : α → Prop} {Q : β → Prop}

/-- Whatever the decoder reads from a sound document has a property. -/
def Decoder.Yields (dec : Decoder α) (P : α → Prop) : Prop :=
  ∀ o d a, d.Sound → dec o d = .ok a → P a

/-- Whatever the record makes of sound documents has a property. -/
def Record.Yields (r : Record α) (P : α → Prop) : Prop :=
  ∀ o (get : String → Option Document) a, (∀ name d, get name = some d → d.Sound) →
    r.build o get = .ok a → P a

namespace Decoder

variable {dec : Decoder α}

theorem Yields.map {f : α → β} (h : dec.Yields P) (hf : ∀ a, P a → Q (f a)) :
    Yields (fun o d => (dec o d).map f) Q := by
  intro o d b hd hb
  obtain ⟨a, ha, rfl⟩ := map_eq_ok.mp hb
  exact hf a (h o d a hd ha)

theorem Yields.nullable (h : dec.Yields P) : (nullable dec).Yields fun o => ∀ a ∈ o, P a := by
  intro o d x hd hx a ha
  have hsome {d : Document} (hd : d.Sound) (hx : (dec o d).map some = .ok x) : P a := by
    obtain ⟨b, hb, rfl⟩ := map_eq_ok.mp hx
    have hab : b = a := Option.some.inj ha
    exact hab ▸ h o d b hd hb
  cases hd with
  | null =>
    cases hx
    cases ha
  | plain s =>
    rw [Decoder.nullable] at hx
    split at hx
    · cases hx
      cases ha
    · exact hsome (.plain s) hx
  | bool b => exact hsome (.bool b) hx
  | number hn => exact hsome (.number hn) hx
  | string s => exact hsome (.string s) hx
  | sequence hs => exact hsome (.sequence hs) hx
  | mapping hm => exact hsome (.mapping hm) hx

theorem Yields.eachOf (h : dec.Yields P) {o : Origin} {ds : List Document} {as : List α}
    (hds : ∀ d ∈ ds, d.Sound) (has : eachOf dec o ds = .ok as) : ∀ a ∈ as, P a := by
  induction ds generalizing as with
  | nil =>
    cases has
    exact List.forall_mem_nil _
  | cons d ds ih =>
    rw [Decoder.eachOf] at has
    obtain ⟨a, ha, has⟩ := bind_eq_ok.mp has
    obtain ⟨bs, hbs, has⟩ := bind_eq_ok.mp has
    cases has
    obtain ⟨hd, hds⟩ := List.forall_mem_cons.mp hds
    exact List.forall_mem_cons.mpr ⟨h o d a hd ha, ih hds hbs⟩

theorem Yields.list (h : dec.Yields P) : (list dec).Yields fun as => ∀ a ∈ as, P a := by
  intro o d as hd has
  unfold Decoder.list at has
  split at has
  next items =>
    cases hd with
    | sequence hitems => exact h.eachOf hitems has
  next =>
    cases has
    exact List.forall_mem_nil _
  next => cases has

theorem Yields.entriesOf (h : dec.Yields P) {o : Origin} {es : List (Key × Document)}
    {as : List (String × α)} (hes : ∀ e ∈ es, e.2.Sound) (has : entriesOf dec o es = .ok as) :
    ∀ a ∈ as, P a.2 := by
  induction es generalizing as with
  | nil =>
    cases has
    exact List.forall_mem_nil _
  | cons e es ih =>
    rw [Decoder.entriesOf] at has
    obtain ⟨k, -, has⟩ := bind_eq_ok.mp has
    obtain ⟨a, ha, has⟩ := bind_eq_ok.mp has
    obtain ⟨bs, hbs, has⟩ := bind_eq_ok.mp has
    cases has
    obtain ⟨he, hes⟩ := List.forall_mem_cons.mp hes
    exact List.forall_mem_cons.mpr ⟨h o e.2 a he ha, ih hes hbs⟩

theorem Yields.entries (h : dec.Yields P) : (entries dec).Yields fun as => ∀ a ∈ as, P a.2 := by
  intro o d as hd has
  unfold Decoder.entries at has
  split at has
  next es =>
    cases hd with
    | mapping hes => exact h.entriesOf hes has
  next =>
    cases has
    exact List.forall_mem_nil _
  next => cases has

theorem value_yields : value.Yields Value.Settled := fun _ _ v hd h => anyValue_settled hd v h

theorem fields_yields : fields.Yields fun fs => (Value.object fs).Settled :=
  value_yields.entries.map fun fs hfs =>
    .object (Entries.nodup_keys_ofList fs) fun f hf => hfs f (Entries.mem_ofList hf)

theorem integer_yields (low high : Int) (wide : Int × Int) (name : String) :
    (integer low high wide name).Yields fun n => low ≤ n ∧ n ≤ high := by
  intro o d n _ h
  have hwithin {m : Int} (h : (if low ≤ m ∧ m ≤ high then .ok m else
      .error (.value (.int m) name) : Except Mismatch Int) = .ok n) : low ≤ n ∧ n ≤ high := by
    split at h
    next hm =>
      cases h
      exact hm
    next => cases h
  unfold integer at h
  split at h
  · exact hwithin h
  · split at h
    · exact hwithin h
    · cases h
  · cases h

theorem unsigned_yields (high : Nat) (name : String) : (unsigned high name).Yields (· ≤ high) :=
  (integer_yields 0 high (0, Nat.pow 2 64 - 1) name).map fun n hn => by omega

end Decoder

/-- Whole numbers of 64 bits, and doubles that there are. -/
def LooseScalar.Sound : LooseScalar → Prop
  | .int n => n < 2 ^ 64
  | .float x => x.Representable
  | .text _ => True

namespace LooseScalar

theorem ofInt_sound {n : Int} (h : (Number.int n).Sound) : (ofInt n).Sound := by
  unfold ofInt
  split
  · have hlt := h.2
    change n.toNat < 2 ^ 64
    omega
  · exact Double.ofInt_representable n

theorem decode_yields : decode.Yields Sound := by
  intro o d s hd h
  cases hd with
  | @number n hn =>
    cases n with
    | int n =>
      cases h
      exact ofInt_sound hn
    | float x =>
      cases h
      exact hn
  | string t =>
    cases h
    exact True.intro
  | plain t =>
    rw [decode] at h
    cases hs : Scalar.ofPlain t with
    | int n =>
      rw [hs, ofScalar] at h
      split at h
      next hn =>
        cases h
        exact ofInt_sound hn
      next => cases h
    | float x =>
      rw [hs, ofScalar] at h
      cases h
      exact Scalar.representable_of_ofPlain hs
    | text t =>
      rw [hs, ofScalar] at h
      cases h
      exact True.intro
    | null =>
      rw [hs] at h
      cases h
    | bool b =>
      rw [hs] at h
      cases h
  | null => cases h
  | bool b => cases h
  | sequence _ => cases h
  | mapping _ => cases h

end LooseScalar

namespace Duration

theorem ofMillis_le (x : Double) : (ofMillis x).millis ≤ limit := by
  unfold ofMillis Double.toNatClamped
  split
  · exact Nat.zero_le _
  · exact Nat.min_le_left _ _
  · split
    · exact Nat.zero_le _
    · exact Nat.le_refl _
  · exact Nat.zero_le _

theorem parse?_le {text : String} {d : Duration} (h : parse? text = some d) :
    d.millis ≤ limit := by
  unfold parse? at h
  obtain ⟨x, -, h⟩ := Option.bind_eq_some_iff.mp h
  split at h
  · cases h
    exact ofMillis_le _
  · cases h

theorem decode_yields : decode.Yields (·.millis ≤ limit) := by
  intro o d a hd h
  obtain ⟨s, hs, h⟩ := bind_eq_ok.mp h
  have hsound := LooseScalar.decode_yields o d s hd hs
  cases s with
  | int n =>
    cases h
    have hlt : n < 2 ^ 64 := hsound
    change n ≤ Nat.pow 2 64 - 1
    rw [Nat.pow_eq]
    omega
  | float x =>
    rw [ofScalar] at h
    split at h
    · cases h
      exact ofMillis_le x
    · cases h
  | text t =>
    rw [ofScalar] at h
    split at h
    next hparse =>
      cases h
      exact parse?_le hparse
    next => cases h

end Duration

namespace Comparison

theorem parse?_representable {text : String} {c : Comparison} (h : parse? text = some c) :
    c.bound.Representable := by
  unfold parse? at h
  obtain ⟨x, hx, rfl⟩ := Option.map_eq_some_iff.mp h
  exact Double.read?_representable hx

theorem decode_yields : decode.Yields (·.bound.Representable) := by
  intro o d a hd h
  obtain ⟨s, hs, h⟩ := bind_eq_ok.mp h
  have hsound := LooseScalar.decode_yields o d s hd hs
  cases s with
  | int n =>
    cases h
    exact Double.ofNat_representable n
  | float x =>
    cases h
    exact hsound
  | text t =>
    rw [ofScalar] at h
    split at h
    next hparse =>
      cases h
      exact parse?_representable hparse
    next => cases h

end Comparison

namespace Record

theorem Yields.pure {a : α} (h : P a) : Yields (Pure.pure a : Record α) P := by
  intro o get b _ hb
  cases hb
  exact h

theorem Yields.seq {f : Record (α → β)} {r : Record α}
    (hf : f.Yields fun g => ∀ a, P a → Q (g a)) (hr : r.Yields P) : Yields (f <*> r) Q := by
  intro o get b hget hb
  obtain ⟨g, hg, hb⟩ := bind_eq_ok.mp hb
  obtain ⟨a, ha, hb⟩ := bind_eq_ok.mp hb
  cases hb
  exact hf o get g hget hg a (hr o get a hget ha)

theorem Yields.map {f : α → β} {r : Record α} (hr : r.Yields P) (hf : ∀ a, P a → Q (f a)) :
    Yields (f <$> r) Q := Yields.seq (.pure hf) hr

variable {name : String} {dec : Decoder α}

theorem required_yields (h : dec.Yields P) : (required name dec).Yields P := by
  intro o get a hget ha
  unfold required at ha
  dsimp only at ha
  split at ha
  next d hd => exact h o d a (hget name d hd) ha
  next => cases ha

theorem optional_yields {absent : α} (h : dec.Yields P) (habsent : P absent) :
    (optional name absent dec).Yields P := by
  intro o get a hget ha
  unfold optional at ha
  dsimp only at ha
  split at ha
  next d hd => exact h o d a (hget name d hd) ha
  next =>
    cases ha
    exact habsent

theorem option_yields (h : dec.Yields P) : (option name dec).Yields fun o => ∀ a ∈ o, P a :=
  optional_yields h.nullable nofun

theorem sound_of_lookup {es : List (Key × Document)} (hes : ∀ e ∈ es, e.2.Sound) (name : String)
    (d : Document) (h : es.lookup (.text name) = some d) : d.Sound := by
  obtain ⟨pre, post, rfl, -⟩ := List.lookup_eq_some_iff.mp h
  exact hes _ (List.mem_append_right pre List.mem_cons_self)

theorem Yields.build {r : Record α} (h : r.Yields P) {o : Origin} {es : List (Key × Document)}
    {a : α} (hes : ∀ e ∈ es, e.2.Sound)
    (ha : (r.build o fun name => es.lookup (.text name)) = .ok a) : P a :=
  h o _ a (sound_of_lookup hes) ha

theorem Yields.fromEntries {r : Record α} (h : r.Yields P) {strict : Bool} {o : Origin}
    {es : List (Key × Document)} {a : α} (hes : ∀ e ∈ es, e.2.Sound)
    (ha : r.fromEntries strict o es = .ok a) : P a := by
  obtain ⟨-, -, ha⟩ := bind_eq_ok.mp ha
  exact h.build hes ha

theorem Yields.fromItems {r : Record α} (h : r.Yields P) {type : String} {o : Origin}
    {ds : List Document} {a : α} (hds : ∀ d ∈ ds, d.Sound) (ha : r.fromItems type o ds = .ok a) :
    P a := by
  have hes : ∀ e ∈ (r.names.zip ds).map fun p => (Key.text p.1, p.2), e.2.Sound := by
    intro e he
    obtain ⟨p, hp, rfl⟩ := List.mem_map.mp he
    exact hds p.2 (List.of_mem_zip hp).2
  unfold Record.fromItems at ha
  obtain ⟨-, -, ha⟩ := bind_eq_ok.mp ha
  dsimp only at ha
  split at ha
  · cases ha
  · obtain ⟨b, hb, ha⟩ := bind_eq_ok.mp ha
    split at ha
    · cases ha
    · cases ha
      exact h.build hes hb

theorem Yields.decode {r : Record α} (h : r.Yields P) (type : String) (strict : Bool) :
    (r.decode type strict).Yields P := by
  intro o d a hd ha
  cases hd with
  | mapping hes => exact h.fromEntries hes ha
  | sequence hds =>
    rw [Record.decode] at ha
    split at ha
    · cases ha
    · exact h.fromItems hds ha
  | plain s =>
    unfold Record.decode at ha
    split at ha
    next heq => cases heq
    next => exact h.fromEntries (List.forall_mem_nil _) ha
    next heq => cases heq
    next => cases ha
  | null => cases ha
  | bool b => cases ha
  | number hn => cases ha
  | string s => cases ha

end Record

end Assay
