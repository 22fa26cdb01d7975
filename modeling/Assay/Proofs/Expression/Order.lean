import Assay.Expression.Operand
import Assay.Proofs.Value.Equality

namespace Assay

namespace Double

variable {x y z : Double} {o : Ordering}

theorem compare?_eq_some :
    x.compare? y = some o ↔ ∃ p q, x.rank? = some p ∧ y.rank? = some q ∧ compare p q = o := by
  unfold compare?
  cases x.rank? <;> cases y.rank? <;> simp

theorem equals_iff_of_compare? (h : x.compare? y = some o) : x.equals y ↔ o = .eq := by
  rw [equals, h, beq_iff_eq, Option.some.injEq]

theorem compare?_self (h : x.compare? y = some o) : x.compare? x = some .eq := by
  obtain ⟨p, -, hp, -⟩ := compare?_eq_some.mp h
  exact compare?_eq_some.mpr ⟨p, p, hp, hp, compare_eq_iff_eq.mpr rfl⟩

theorem compare?_lt_trans (h : x.compare? y = some .lt) (g : y.compare? z = some .lt) :
    x.compare? z = some .lt := by
  obtain ⟨p, q, hp, hq, hpq⟩ := compare?_eq_some.mp h
  obtain ⟨q', s, hq', hs, hqs⟩ := compare?_eq_some.mp g
  obtain rfl : q = q' := Option.some.inj (hq.symm.trans hq')
  exact compare?_eq_some.mpr ⟨p, s, hp, hs, Std.TransCmp.lt_trans hpq hqs⟩

end Double

namespace Expression

variable {l r : Option Value} {v w : Value} {a b c : String} {x y : Double} {o : Ordering}

/-- Operands are ordered by the numbers they stand for, and texts of which one is no numeral by
their characters. -/
inductive IsOrdered : Option Value → Option Value → Ordering → Prop
  | numbers {v w : Value} {x y : Double} {o : Ordering} (left : numberOf v = some x)
    (right : numberOf w = some y) (h : x.compare? y = some o) : IsOrdered (some v) (some w) o
  | texts {a b : String} (h : readDouble? a = none ∨ readDouble? b = none) :
    IsOrdered (some (.string a)) (some (.string b)) (compare a b)

theorem order_numerals (ha : readDouble? a = some x) (hb : readDouble? b = some y) :
    order (some (.string a)) (some (.string b)) = x.compare? y := by
  simp only [order, ha, hb]

theorem order_texts (h : readDouble? a = none ∨ readDouble? b = none) :
    order (some (.string a)) (some (.string b)) = some (compare a b) := by
  simp only [order]
  split
  · next hx hy => simp [hx, hy] at h
  · rfl

theorem order_eq_bind (h : v.asString? = none ∨ w.asString? = none) :
    order (some v) (some w) = (numberOf v).bind fun x => (numberOf w).bind x.compare? := by
  unfold order
  split
  · next hv hw =>
    cases hv
    cases hw
    rcases h with h | h <;> cases h
  · next hv hw =>
    cases hv
    cases hw
    rfl
  · next hnot => exact absurd rfl (hnot v w rfl)

theorem exists_of_order (h : order l r = some o) : ∃ v w, l = some v ∧ r = some w := by
  cases l with
  | none => cases h
  | some v =>
    cases r with
    | none => cases v <;> cases h
    | some w => exact ⟨v, w, rfl, rfl⟩

theorem isOrdered_texts (h : order (some (.string a)) (some (.string b)) = some o) :
    IsOrdered (some (.string a)) (some (.string b)) o := by
  cases ha : readDouble? a with
  | none =>
    rw [order_texts (.inl ha)] at h
    obtain rfl := Option.some.inj h
    exact .texts (.inl ha)
  | some x =>
    cases hb : readDouble? b with
    | none =>
      rw [order_texts (.inr hb)] at h
      obtain rfl := Option.some.inj h
      exact .texts (.inr hb)
    | some y =>
      rw [order_numerals ha hb] at h
      exact .numbers ha hb h

theorem isOrdered_of_order (h : order l r = some o) : IsOrdered l r o := by
  obtain ⟨v, w, rfl, rfl⟩ := exists_of_order h
  by_cases htexts : v.asString? = none ∨ w.asString? = none
  · rw [order_eq_bind htexts] at h
    obtain ⟨x, hx, hrest⟩ := Option.bind_eq_some_iff.mp h
    obtain ⟨y, hy, hxy⟩ := Option.bind_eq_some_iff.mp hrest
    exact .numbers hx hy hxy
  · cases v with
    | string a =>
      cases w with
      | string b => exact isOrdered_texts h
      | null | bool | number | array | object => exact absurd (.inr rfl) htexts
    | null | bool | number | array | object => exact absurd (.inl rfl) htexts

/-- The operands are two texts that differ and read as the same number. -/
inductive Respelled : Option Value → Option Value → Prop
  | intro {a b : String} {x y : Double} (differ : a ≠ b) (left : readDouble? a = some x)
    (right : readDouble? b = some y) (same : x.equals y) :
    Respelled (some (.string a)) (some (.string b))

theorem looselyEqual_texts : looselyEqual (some (.string a)) (some (.string b)) ↔ a = b :=
  beq_iff_eq

theorem looselyEqual_numbers (hv : numberOf v = some x) (hw : numberOf w = some y)
    (hspelled : ¬ Respelled (some v) (some w)) (hself : v = w → x.equals y) :
    looselyEqual (some v) (some w) ↔ x.equals y := by
  cases v with
  | number m =>
    cases hv
    cases w with
    | number n =>
      cases hw
      exact Iff.rfl
    | string b =>
      change readDouble? b = some y at hw
      simp [looselyEqual, hw]
    | null | bool | array | object => cases hw
  | string a =>
    change readDouble? a = some x at hv
    cases w with
    | number n =>
      cases hw
      simp only [looselyEqual, hv, Option.any_some]
      exact ⟨Double.equals_symm, Double.equals_symm⟩
    | string b =>
      change readDouble? b = some y at hw
      rw [looselyEqual_texts]
      constructor
      · rintro rfl
        exact hself rfl
      · intro hsame
        by_contra hdiffer
        exact hspelled (.intro hdiffer hv hw hsame)
    | null | bool | array | object => cases hw
  | null | bool | array | object => cases hv

/-- Operands that are ordered are equal just where the order says so, unless they are respelled. -/
theorem looselyEqual_iff (h : order l r = some o) (hspelled : ¬ Respelled l r) :
    looselyEqual l r ↔ o = .eq := by
  cases isOrdered_of_order h with
  | @numbers v w x y _ hx hy hxy =>
    rw [looselyEqual_numbers hx hy hspelled, Double.equals_iff_of_compare? hxy]
    rintro rfl
    obtain rfl : x = y := Option.some.inj (hx.symm.trans hy)
    exact (Double.equals_iff_of_compare? (Double.compare?_self hxy)).mpr rfl
  | texts => rw [looselyEqual_texts, Std.compare_eq_iff_eq]

theorem Respelled.order_eq (h : Respelled l r) : order l r = some .eq := by
  cases h with
  | intro _ left right same =>
    rw [order_numerals left right]
    exact beq_iff_eq.mp same

theorem Respelled.not_looselyEqual (h : Respelled l r) : looselyEqual l r = false := by
  cases h with
  | intro differ => exact beq_eq_false_iff_ne.mpr differ

theorem holds_less (h : order l r = some o) : holds l r .less ↔ o = .lt := by
  rw [holds, h, beq_iff_eq, Option.some.injEq]

theorem holds_greater (h : order l r = some o) : holds l r .greater ↔ o = .gt := by
  rw [holds, h, beq_iff_eq, Option.some.injEq]

theorem holds_atMost (h : order l r = some o) : holds l r .atMost ↔ o = .lt ∨ o = .eq := by
  rw [holds, h, Bool.or_eq_true, beq_iff_eq, beq_iff_eq, Option.some.injEq, Option.some.injEq]

theorem holds_atLeast (h : order l r = some o) : holds l r .atLeast ↔ o = .gt ∨ o = .eq := by
  rw [holds, h, Bool.or_eq_true, beq_iff_eq, beq_iff_eq, Option.some.injEq, Option.some.injEq]

theorem holds_unequal : holds l r .unequal ↔ ¬ holds l r .equal := by
  rw [holds, holds, Bool.not_eq_true', Bool.not_eq_true]

/-- The relation that an order comes to. -/
def strictRelation : Ordering → Relation
  | .lt => .less
  | .eq => .equal
  | .gt => .greater

def strictRelations : List Relation := [.less, .equal, .greater]

/-- Exactly one of the strict relations holds, and the others follow from them. -/
structure Consistent (l r : Option Value) : Prop where
  one : ∃! relation, relation ∈ strictRelations ∧ holds l r relation
  atMost : holds l r .atMost ↔ holds l r .less ∨ holds l r .equal
  atLeast : holds l r .atLeast ↔ holds l r .greater ∨ holds l r .equal

theorem holds_strict {relation : Relation} (h : order l r = some o)
    (hspelled : ¬ Respelled l r) (hstrict : relation ∈ strictRelations) :
    holds l r relation ↔ relation = strictRelation o := by
  simp only [strictRelations, List.mem_cons, List.not_mem_nil, or_false] at hstrict
  rcases hstrict with rfl | rfl | rfl
  · rw [holds_less h]
    cases o <;> simp [strictRelation]
  · rw [holds, looselyEqual_iff h hspelled]
    cases o <;> simp [strictRelation]
  · rw [holds_greater h]
    cases o <;> simp [strictRelation]

theorem consistent_of_order (h : order l r = some o) (hspelled : ¬ Respelled l r) :
    Consistent l r := by
  have hequal : holds l r .equal ↔ o = .eq := looselyEqual_iff h hspelled
  refine ⟨⟨strictRelation o, ?_, ?_⟩, ?_, ?_⟩
  · have hstrict : strictRelation o ∈ strictRelations := by cases o <;> decide
    exact ⟨hstrict, (holds_strict h hspelled hstrict).mpr rfl⟩
  · rintro relation ⟨hstrict, hholds⟩
    exact (holds_strict h hspelled hstrict).mp hholds
  · rw [holds_atMost h, holds_less h, hequal]
  · rw [holds_atLeast h, holds_greater h, hequal]

theorem Respelled.holds_iff (h : Respelled l r) (relation : Relation) :
    holds l r relation ↔ relation = .unequal ∨ relation = .atMost ∨ relation = .atLeast := by
  have horder := h.order_eq
  have hequal : holds l r .equal = false := h.not_looselyEqual
  cases relation with
  | equal => simp [hequal]
  | unequal => simp [holds_unequal, hequal]
  | greater => simp [holds_greater horder]
  | atLeast => simp [holds_atLeast horder]
  | less => simp [holds_less horder]
  | atMost => simp [holds_atMost horder]

/-- If both texts are numerals, their numbers stand in the order of the texts. -/
def InTextOrder (a b : String) : Prop :=
  ∀ x y, readDouble? a = some x → readDouble? b = some y → x.compare? y = some (compare a b)

theorem InTextOrder.order_eq (h : InTextOrder a b) :
    order (some (.string a)) (some (.string b)) = some (compare a b) := by
  cases ha : readDouble? a with
  | none => exact order_texts (.inl ha)
  | some x =>
    cases hb : readDouble? b with
    | none => exact order_texts (.inr hb)
    | some y => rw [order_numerals ha hb, h x y ha hb]

/-- Whether one text stands before another one. -/
def Before (a b : String) : Prop := holds (some (.string a)) (some (.string b)) .less

instance : Decidable (Before a b) := inferInstanceAs (Decidable (_ = true))

theorem before_iff : Before a b ↔ order (some (.string a)) (some (.string b)) = some .lt :=
  beq_iff_eq

theorem before_trans_numerals (h : ∀ s ∈ [a, b, c], (readDouble? s).isSome) (hab : Before a b)
    (hbc : Before b c) : Before a c := by
  simp only [List.forall_mem_cons, Option.isSome_iff_exists] at h
  obtain ⟨⟨x, hx⟩, ⟨y, hy⟩, ⟨z, hz⟩, -⟩ := h
  rw [before_iff] at hab hbc ⊢
  rw [order_numerals hx hy] at hab
  rw [order_numerals hy hz] at hbc
  rw [order_numerals hx hz]
  exact Double.compare?_lt_trans hab hbc

theorem before_trans_texts (h : [a, b, c].Pairwise InTextOrder) (hab : Before a b)
    (hbc : Before b c) : Before a c := by
  simp only [List.pairwise_cons, List.forall_mem_cons] at h
  obtain ⟨⟨horder, horder', -⟩, ⟨horder'', -⟩, -⟩ := h
  rw [before_iff] at hab hbc ⊢
  rw [horder.order_eq] at hab
  rw [horder''.order_eq] at hbc
  rw [horder'.order_eq]
  exact congrArg some (Std.TransCmp.lt_trans (Option.some.inj hab) (Option.some.inj hbc))

/-- The relations of operands that are ordered agree with each other, unless the operands are two
spellings of one number. The order of texts is transitive among numerals, and where numerals stand
in the order of their texts. -/
theorem relations_consistent :
    (∀ l r : Option Value, (order l r).isSome → ¬ Respelled l r → Consistent l r) ∧
    (∀ l r : Option Value, Respelled l r → (order l r).isSome ∧ ∀ relation,
      (holds l r relation ↔ relation = .unequal ∨ relation = .atMost ∨ relation = .atLeast)) ∧
    (∀ l r : Option Value, holds l r .unequal ↔ ¬ holds l r .equal) ∧
    ∀ a b c : String,
      (∀ s ∈ [a, b, c], (readDouble? s).isSome) ∨ [a, b, c].Pairwise InTextOrder →
        Before a b → Before b c → Before a c := by
  refine ⟨?_, ?_, fun _ _ => holds_unequal, ?_⟩
  · intro l r h hspelled
    obtain ⟨o, ho⟩ := Option.isSome_iff_exists.mp h
    exact consistent_of_order ho hspelled
  · intro l r h
    exact ⟨by rw [h.order_eq, Option.isSome_some], h.holds_iff⟩
  · rintro a b c (hnumerals | htexts)
    · exact before_trans_numerals hnumerals
    · exact before_trans_texts htexts

/-- A text and a number, two spellings of one number, numerals, and a numeral among texts. -/
theorem relations_consistent_spellings :
    let l : Option Value := some (.string " 42.0")
    let r : Option Value := some (.number (.int 42))
    (order l r).isSome ∧ ¬ Respelled l r ∧ Consistent l r ∧
      Respelled (some (.string "1")) (some (.string "1.0")) ∧
      holds (some (.string "1")) (some (.string "1.0")) .atMost ∧
      (∀ s ∈ ["9", "10", "1e3"], (readDouble? s).isSome) ∧ Before "9" "1e3" ∧
      ["10", "1a", "b"].Pairwise InTextOrder ∧ Before "10" "b" := by
  intro l r
  obtain ⟨hconsistent, hrespelled, -, htrans⟩ := relations_consistent
  have horder : (order l r).isSome := by decide +kernel
  have hspelled : ¬ Respelled (some (.string " 42.0")) (some (.number (.int 42))) := nofun
  have hone : Respelled (some (.string "1")) (some (.string "1.0")) :=
    .intro (x := .ofNat 1) (y := .ofNat 1) (by decide) (by decide +kernel) (by decide +kernel)
      (by decide +kernel)
  have hnumerals : ∀ s ∈ ["9", "10", "1e3"], (readDouble? s).isSome := by decide +kernel
  have htexts : ["10", "1a", "b"].Pairwise InTextOrder := by
    have ha : readDouble? "1a" = none := by decide +kernel
    have hb : readDouble? "b" = none := by decide +kernel
    simp [InTextOrder, ha, hb]
  have hatMost := ((hrespelled _ _ hone).2 .atMost).mpr (.inr (.inl rfl))
  have hbefore : Before "9" "1e3" :=
    htrans "9" "10" "1e3" (.inl hnumerals) (by decide +kernel) (by decide +kernel)
  have hbefore' : Before "10" "b" :=
    htrans "10" "1a" "b" (.inr htexts) (by decide +kernel) (by decide +kernel)
  exact ⟨horder, hspelled, hconsistent l r horder hspelled, hone, hatMost, hnumerals, hbefore,
    htexts, hbefore'⟩

/-- Two spellings of one number, and a text between two numerals. -/
theorem relations_of_numerals :
    (¬ ∀ l r : Option Value, (order l r).isSome → Consistent l r) ∧
    ¬ ∀ a b c : String, Before a b → Before b c → Before a c := by
  constructor
  · intro h
    have hconsistent := h (some (.string "10")) (some (.string "10.0")) (by decide +kernel)
    have hnot : ¬ (holds (some (.string "10")) (some (.string "10.0")) .less ∨
        holds (some (.string "10")) (some (.string "10.0")) .equal) := by decide +kernel
    exact hnot (hconsistent.atMost.mp (by decide +kernel))
  · intro h
    have hbefore : Before "10" "9" := h "10" "1a" "9" (by decide +kernel) (by decide +kernel)
    have hnot : ¬ Before "10" "9" := by decide +kernel
    exact hnot hbefore

end Expression

end Assay
