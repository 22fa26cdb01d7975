import Assay.Json.Read
import Assay.Proofs.Document.Sound

namespace Assay.Json

-- Nothing below computes with doubles.
attribute [local irreducible] Double.ofRatio

variable {c c' : Cursor} {positive : Bool} {significand : Nat} {n : Number}

theorem ite_error_eq_ok {ε α : Type} {p : Prop} [Decidable p] {e : ε} {x : Except ε α} {a : α} :
    (if p then .error e else x) = .ok a ↔ ¬ p ∧ x = .ok a := by
  by_cases hp : p
  · rw [if_pos hp]
    exact ⟨nofun, fun h => absurd hp h.1⟩
  · rw [if_neg hp]
    exact ⟨fun h => ⟨hp, h⟩, fun h => h.2⟩

namespace Significand

theorem feed_le {s : Significand} (h : s.value ≤ maxUnsigned) (c : Char) :
    (s.feed c).value ≤ maxUnsigned := by
  unfold feed
  dsimp only
  split
  next hnext => exact hnext.2
  next => exact h

theorem extend_le {value : Nat} (h : value ≤ maxUnsigned) (ds : List Char) :
    (extend value ds).value ≤ maxUnsigned := by
  have hfold : ∀ (ds : List Char) (s : Significand), s.value ≤ maxUnsigned →
      (ds.foldl feed s).value ≤ maxUnsigned := by
    intro ds
    induction ds with
    | nil => exact fun s hs => hs
    | cons d ds ih => exact fun s hs => ih (s.feed d) (feed_le hs d)
  exact hfold ds ⟨value, 0, 0⟩ h

end Significand

theorem scale_representable {x y : Double} {exponent : Int} {rounds : Nat}
    (hx : x.Representable) (h : scale x exponent rounds = some y) : y.Representable := by
  induction rounds generalizing x exponent with
  | zero =>
    cases h
    exact hx
  | succ rounds ih =>
    rw [scale] at h
    split at h
    · split at h
      · dsimp only at h
        split at h
        · cases h
          exact Double.mul_representable _ _
        · cases h
      · cases h
        exact Double.div_representable _ _
    · split at h
      · cases h
        exact hx
      · split at h
        · cases h
        · exact ih (Double.div_representable _ _) h

theorem float_sound {exponent : Int} (h : float positive significand exponent c = .ok (n, c')) :
    n.Sound := by
  unfold float at h
  split at h
  next x hx =>
    cases h
    have hsound := scale_representable (Double.ofNat_representable significand) hx
    exact Double.ite_representable hsound (Double.neg_representable hsound)
  next => cases h

theorem readExponent_sound {start : Int}
    (h : readExponent positive significand start c = .ok (n, c')) : n.Sound := by
  unfold readExponent at h
  dsimp only at h
  split at h
  · cases h
  · obtain ⟨-, h⟩ := ite_error_eq_ok.mp h
    split at h
    · exact float_sound h
    · obtain ⟨-, h⟩ := ite_error_eq_ok.mp h
      cases h
      exact Double.finite_zero_representable (!positive)

theorem readTail_sound {exponent : Int}
    (h : readTail positive significand exponent c = .ok (n, c')) : n.Sound := by
  unfold readTail at h
  split at h
  · exact readExponent_sound h
  · exact readExponent_sound h
  · exact float_sound h

theorem readFraction_sound {exponent : Int}
    (h : readFraction positive significand exponent c = .ok (n, c')) : n.Sound := by
  unfold readFraction at h
  dsimp only at h
  split at h
  · cases h
  · exact readTail_sound h

theorem exact_sound (h : significand ≤ maxUnsigned) : (exact positive significand).Sound := by
  unfold maxUnsigned at h
  rw [Nat.pow_eq] at h
  unfold exact
  split
  · constructor <;> omega
  · split
    next hneg =>
      rw [Nat.pow_eq] at hneg
      constructor <;> omega
    next => exact Double.neg_representable (Double.ofNat_representable significand)

theorem readNumber_sound (h : readNumber positive c = .ok (n, c')) : n.Sound := by
  have hextend (ds : List Char) := Significand.extend_le (Nat.zero_le maxUnsigned) ds
  unfold readNumber at h
  split at h
  · cases h
  next d _ _ =>
    obtain ⟨-, h⟩ := ite_error_eq_ok.mp h
    dsimp only at h
    generalize (if d = '0' then (['0'], c.step) else c.digits) = digits at h
    obtain ⟨-, h⟩ := ite_error_eq_ok.mp h
    split at h
    · exact readFraction_sound h
    · exact readExponent_sound h
    · exact readExponent_sound h
    · split at h
      · cases h
        exact exact_sound (hextend _)
      · exact float_sound h

theorem readIdent_eq {v w : Value} {xs : List Char} (h : readIdent v xs c = .ok (w, c')) :
    w = v := by
  induction xs generalizing c with
  | nil =>
    cases h
    rfl
  | cons x xs ih =>
    rw [readIdent] at h
    split at h
    · cases h
    · split at h
      · exact ih h
      · cases h

/-- Readers with so much fuel make sound documents. -/
structure ReadsSound (fuel : Nat) : Prop where
  value {depth : Nat} {c c' : Cursor} {v : Value} :
    readValue fuel depth c = .ok (v, c') → (Document.ofValue v).Sound
  items {depth : Nat} {first : Bool} {c c' : Cursor} {vs : List Value} :
    readItems fuel depth first c = .ok (vs, c') → ∀ v ∈ vs, (Document.ofValue v).Sound
  fields {depth : Nat} {first : Bool} {c c' : Cursor} {fs : List (String × Value)} :
    readFields fuel depth first c = .ok (fs, c') → ∀ f ∈ fs, (Document.ofValue f.2).Sound

theorem readValue_sound {fuel depth : Nat} {v : Value} (ih : ReadsSound fuel)
    (h : readValue (fuel + 1) depth c = .ok (v, c')) : (Document.ofValue v).Sound := by
  rw [readValue] at h
  split at h
  · cases h
  · rw [readIdent_eq h]
    exact .null
  · rw [readIdent_eq h]
    exact .bool true
  · rw [readIdent_eq h]
    exact .bool false
  · obtain ⟨p, hp, heq⟩ := map_eq_ok.mp h
    cases heq
    exact .number (readNumber_sound hp)
  · obtain ⟨p, -, heq⟩ := map_eq_ok.mp h
    cases heq
    exact .string _
  · obtain ⟨-, h⟩ := ite_error_eq_ok.mp h
    obtain ⟨p, hp, heq⟩ := map_eq_ok.mp h
    cases heq
    exact Document.ofValue_array (ih.items hp)
  · obtain ⟨-, h⟩ := ite_error_eq_ok.mp h
    obtain ⟨p, hp, heq⟩ := map_eq_ok.mp h
    cases heq
    exact Document.ofValue_object (ih.fields hp)
  · split at h
    · obtain ⟨p, hp, heq⟩ := map_eq_ok.mp h
      cases heq
      exact .number (readNumber_sound hp)
    · cases h

theorem readItems_sound {fuel depth : Nat} {first : Bool} {vs : List Value} (ih : ReadsSound fuel)
    (h : readItems (fuel + 1) depth first c = .ok (vs, c')) :
    ∀ v ∈ vs, (Document.ofValue v).Sound := by
  unfold readItems at h
  extract_lets start item next at h
  have hitem {c : Cursor} (h : item c = .ok (vs, c')) : ∀ v ∈ vs, (Document.ofValue v).Sound := by
    obtain ⟨p, hp, h⟩ := bind_eq_ok.mp h
    obtain ⟨q, hq, h⟩ := bind_eq_ok.mp h
    cases h
    exact List.forall_mem_cons.mpr ⟨ih.value hp, ih.items hq⟩
  split at h
  · cases h
  · cases h
    exact List.forall_mem_nil _
  · split at h
    · exact hitem h
    · split at h
      · split at h
        · cases h
        · cases h
        · exact hitem h
      · cases h

theorem readFields_sound {fuel depth : Nat} {first : Bool} {fs : List (String × Value)}
    (ih : ReadsSound fuel) (h : readFields (fuel + 1) depth first c = .ok (fs, c')) :
    ∀ f ∈ fs, (Document.ofValue f.2).Sound := by
  unfold readFields at h
  extract_lets start field next at h
  have hfield {c : Cursor} (h : field c = .ok (fs, c')) :
      ∀ f ∈ fs, (Document.ofValue f.2).Sound := by
    obtain ⟨k, -, h⟩ := bind_eq_ok.mp h
    dsimp only at h
    split at h
    · cases h
    · obtain ⟨p, hp, h⟩ := bind_eq_ok.mp h
      obtain ⟨q, hq, h⟩ := bind_eq_ok.mp h
      cases h
      exact List.forall_mem_cons.mpr ⟨ih.value hp, ih.fields hq⟩
    · cases h
  split at h
  · cases h
  · cases h
    exact List.forall_mem_nil _
  · split at h
    · split at h
      · exact hfield h
      · cases h
    · split at h
      · split at h
        · cases h
        · exact hfield h
        · cases h
        · cases h
      · cases h

theorem readsSound (fuel : Nat) : ReadsSound fuel := by
  induction fuel with
  | zero => exact ⟨nofun, nofun, nofun⟩
  | succ fuel ih => exact ⟨readValue_sound ih, readItems_sound ih, readFields_sound ih⟩

theorem parse_sound {text : String} {v : Value} (h : parse text = .ok v) :
    (Document.ofValue v).Sound := by
  obtain ⟨p, hp, h⟩ := bind_eq_ok.mp h
  dsimp only at h
  split at h
  · cases h
    exact (readsSound _).value hp
  · cases h

end Assay.Json
