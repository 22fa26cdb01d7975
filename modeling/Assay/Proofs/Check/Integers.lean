import Assay.Expression.Evaluate
import Assay.Libraries.BuiltIn
import Assay.Proofs.Check.Conditions
import Assay.Proofs.Expression.Numeral
import Assay.Proofs.Number.Whole

namespace Assay

open Double (ofInt rounded)

variable {x y : Int} {m n : Number}

/-- What a relation says of two whole numbers. -/
def Relation.Between (x y : Int) : Relation → Prop
  | equal => x = y
  | unequal => x ≠ y
  | greater => x > y
  | atLeast => x ≥ y
  | less => x < y
  | atMost => x ≤ y

namespace Relation

theorem holds_ofInt (hx : (Number.int x).Sound) (hy : (Number.int y).Sound) (relation : Relation) :
    relation.holds (ofInt x) (ofInt y) ↔ relation.Between (rounded x) (rounded y) := by
  cases relation with
  | equal => exact Double.equals_ofInt hx hy
  | unequal => simp [holds, Between, ← Double.equals_ofInt hx hy]
  | greater => exact Double.less_ofInt hy hx
  | atLeast => exact Double.atMost_ofInt hy hx
  | less => exact Double.less_ofInt hx hy
  | atMost => exact Double.atMost_ofInt hx hy

/-- Where one of two numbers is below `2 ^ 53`, they compare as their roundings do. -/
theorem between_rounded (h : x.natAbs < 2 ^ 53 ∨ y.natAbs < 2 ^ 53) (relation : Relation) :
    relation.Between (rounded x) (rounded y) ↔ relation.Between x y := by
  have hlt := Double.rounded_lt_iff h
  have hgt := Double.rounded_lt_iff h.symm
  cases relation <;> simp only [Between] <;> omega

end Relation

namespace Check

variable {path : String}

/-- Whether an expectation holds of a value. -/
def Accepts [Libraries] (expected actual : Value) (path : String) : Prop :=
  ∃ cs, evaluate expected (some actual) path = .ok cs ∧ allPassed cs

theorem accepts_iff [Libraries] {expected actual : Value} {c : Check}
    (h : evaluate expected (some actual) path = .ok [c]) :
    Accepts expected actual path ↔ c.passed := by
  unfold Accepts
  rw [h]
  simp [allPassed]

theorem accepts_number [Libraries] {v : Value} :
    Accepts (.number n) v path ↔ v.equals (.number n) := by
  rw [accepts_iff rfl]
  rfl

theorem accepts_oneOf [Libraries] {options : List Value} {v : Value} :
    Accepts (.object [("in", .array options)]) v path ↔ ∃ o ∈ options, v.equals o :=
  (accepts_iff rfl).trans List.any_eq_true

theorem accepts_contains [Libraries] {items : List Value} {v : Value} :
    Accepts (.object [("contains", v)]) (.array items) path ↔ ∃ a ∈ items, a.equals v :=
  (accepts_iff rfl).trans List.any_eq_true

theorem accepts_bound [Libraries] {v limit : Value} (b : Bound) :
    Accepts (.object [(b.name, limit)]) v path ↔ b.holds (some v) limit := by
  have heval : evaluate (.object [(b.name, limit)]) (some v) path =
      .ok [plain path b.name limit (some v) (b.holds (some v) limit)] := by
    cases b <;> rfl
  exact accepts_iff heval

variable {xs ys : List Int}

theorem equals_int (hx : (Number.int x).Sound) (hy : (Number.int y).Sound) :
    (Value.int x).equals (.int y) ↔ rounded x = rounded y := by
  rw [← Double.equals_ofInt hx hy]
  rfl

variable [Libraries]

theorem accepts_oneOf_int (hx : (Number.int x).Sound) (hys : ∀ z ∈ ys, (Number.int z).Sound) :
    Accepts (.object [("in", .array (ys.map .int))]) (.int x) path ↔
      ∃ z ∈ ys, rounded x = rounded z := by
  simp only [accepts_oneOf, List.mem_map, exists_exists_and_eq_and]
  exact exists_congr fun z => and_congr_right fun hz => equals_int hx (hys z hz)

theorem accepts_contains_int (hxs : ∀ z ∈ xs, (Number.int z).Sound) (hy : (Number.int y).Sound) :
    Accepts (.object [("contains", .int y)]) (.array (xs.map .int)) path ↔
      ∃ z ∈ xs, rounded z = rounded y := by
  simp only [accepts_contains, List.mem_map, exists_exists_and_eq_and]
  exact exists_congr fun z => and_congr_right fun hz => equals_int (hxs z hz) hy

theorem accepts_bound_int (hx : (Number.int x).Sound) (hy : (Number.int y).Sound) (b : Bound) :
    Accepts (.object [(b.name, .int y)]) (.int x) path ↔
      b.relation.Between (rounded x) (rounded y) := by
  rw [accepts_bound, ← Relation.holds_ofInt hx hy]
  rfl

end Check

namespace Expression

variable {r : Response}

/-- An operand that stands for a whole number is its numeral or leads to it. -/
def Denotes (r : Response) (operand : List Char) (y : Int) : Prop :=
  operandValue r operand = some (.int y) ∨ operand = (Value.int y).compact.toList

theorem Denotes.exists_number {operand : List Char} (h : Denotes r operand y)
    (hy : (Number.int y).Sound) :
    ∃ n, operandValue r operand = some (.number n) ∧ n.toDouble = ofInt y := by
  rcases h with h | rfl
  · exact ⟨.int y, h, rfl⟩
  · exact operandValue_compact r hy

theorem holds_numbers (hx : (Number.int x).Sound) (hy : (Number.int y).Sound)
    (hm : m.toDouble = ofInt x) (hn : n.toDouble = ofInt y) (relation : Relation) :
    holds (some (.number m)) (some (.number n)) relation ↔
      relation.Between (rounded x) (rounded y) := by
  have hequal : looselyEqual (some (.number m)) (some (.number n)) ↔ rounded x = rounded y := by
    rw [← Double.equals_ofInt hx hy, ← hm, ← hn]
    rfl
  have horder : order (some (.number m)) (some (.number n)) =
      some (compare (rounded x) (rounded y)) := by
    rw [← Double.compare?_ofInt hx hy, ← hm, ← hn]
    rfl
  cases relation with
  | equal => exact hequal
  | unequal => simp [holds, Relation.Between, ← hequal]
  | greater | less =>
    simp only [holds, horder, Relation.Between, beq_iff_eq, Option.some.injEq, compare_gt_iff_gt,
      compare_lt_iff_lt]
  | atLeast | atMost =>
    simp only [holds, horder, Relation.Between, Bool.or_eq_true, beq_iff_eq, Option.some.injEq,
      compare_gt_iff_gt, compare_lt_iff_lt, compare_eq_iff_eq]
    omega

theorem leafFailure_numbers {cs : List Char} {l : Leaf} (hx : (Number.int x).Sound)
    (hy : (Number.int y).Sound) (hleaf : leaf? cs = some l)
    (hleft : pathValue r l.left = some (.int x)) (hright : Denotes r l.right y) :
    leafFailure r cs = none ↔ l.relation.Between (rounded x) (rounded y) := by
  obtain ⟨n, hn, hdouble⟩ := hright.exists_number hy
  rw [← holds_numbers (m := .int x) hx hy rfl hdouble]
  unfold leafFailure
  simp [hleaf, hleft, hn, Value.int]

end Expression

/-- Whole numbers are compared by what they are rounded to, wherever they are compared. The order of
two numbers is never reversed by that, and it is kept when one of them is below `2 ^ 53`. -/
theorem integers_compare_rounded [Libraries] (hx : (Number.int x).Sound)
    (hy : (Number.int y).Sound) :
    (∀ path, Check.Accepts (.int y) (.int x) path ↔ rounded x = rounded y) ∧
    (∀ (ys : List Int) path, (∀ z ∈ ys, (Number.int z).Sound) →
      (Check.Accepts (.object [("in", .array (ys.map .int))]) (.int x) path ↔
        ∃ z ∈ ys, rounded x = rounded z)) ∧
    (∀ (xs : List Int) path, (∀ z ∈ xs, (Number.int z).Sound) →
      (Check.Accepts (.object [("contains", .int y)]) (.array (xs.map .int)) path ↔
        ∃ z ∈ xs, rounded z = rounded y)) ∧
    (∀ (b : Bound) path, Check.Accepts (.object [(b.name, .int y)]) (.int x) path ↔
      b.relation.Between (rounded x) (rounded y)) ∧
    (∀ r cs l, Expression.leaf? cs = some l →
      Expression.pathValue r l.left = some (.int x) → Expression.Denotes r l.right y →
      (Expression.leafFailure r cs = none ↔ l.relation.Between (rounded x) (rounded y))) ∧
    (x ≤ y → rounded x ≤ rounded y) ∧
    (x.natAbs < 2 ^ 53 ∨ y.natAbs < 2 ^ 53 →
      ∀ relation : Relation, relation.Between (rounded x) (rounded y) ↔ relation.Between x y) := by
  refine ⟨fun path => Check.accepts_number.trans (Check.equals_int hx hy),
    fun ys path hys => Check.accepts_oneOf_int hx hys,
    fun xs path hxs => Check.accepts_contains_int hxs hy,
    fun b path => Check.accepts_bound_int hx hy b, ?_, Double.rounded_mono,
    Relation.between_rounded⟩
  intro r cs l hleaf hleft hright
  exact Expression.leafFailure_numbers hx hy hleaf hleft hright

/-- The first whole numbers that are taken for each other. -/
theorem integers_compare_rounded_adjacent :
    let x : Int := 2 ^ 53 + 1
    let y : Int := 2 ^ 53
    let r : Response := ⟨200, [], .object [("id", .int x)]⟩
    let text := "body.id <= 9007199254740992".toList
    ((Number.int x).Sound ∧ (Number.int y).Sound) ∧
      Check.Accepts (.int y) (.int x) "body" ∧
      Check.Accepts (.object [("in", .array [.int 7, .int y])]) (.int x) "body" ∧
      Check.Accepts (.object [("contains", .int y)]) (.array [.int 7, .int x]) "body" ∧
      ¬ Check.Accepts (.object [("gt", .int y)]) (.int x) "body" ∧
      Expression.leafFailure r text = none ∧ rounded y ≤ rounded x ∧
      (rounded x = rounded 7 ↔ x = 7) := by
  intro x y r text
  have hx : (Number.int x).Sound := ⟨by decide, by decide⟩
  have hy : (Number.int y).Sound := ⟨by decide, by decide⟩
  have hseven : (Number.int 7).Sound := ⟨by decide, by decide⟩
  have hround : rounded x = rounded y := by decide +kernel
  have hlist {z : Int} (hz : (Number.int z).Sound) : ∀ w ∈ [7, z], (Number.int w).Sound := by
    simpa using ⟨hseven, hz⟩
  have hleaf : Expression.leaf? text =
      some ⟨"body.id".toList, .atMost, "9007199254740992".toList⟩ := by decide +kernel
  have hright : "9007199254740992".toList = (Value.int y).compact.toList := by decide +kernel
  have h := integers_compare_rounded hx hy
  refine ⟨⟨hx, hy⟩, (h.1 _).mpr hround, (h.2.1 [7, y] _ (hlist hy)).mpr ⟨y, ?_, hround⟩,
    (h.2.2.1 [7, x] _ (hlist hx)).mpr ⟨x, ?_, hround⟩, ?_, ?_, ?_, ?_⟩
  · simp
  · simp
  · intro hgt
    exact absurd ((h.2.2.2.1 .above _).mp hgt) hround.not_gt
  · exact (h.2.2.2.2.1 r text _ hleaf rfl (.inr hright)).mpr hround.le
  · exact (integers_compare_rounded hy hx).2.2.2.2.2.1 (by decide)
  · exact (integers_compare_rounded hx hseven).2.2.2.2.2.2 (.inr (by decide)) .equal

/-- Of two different numbers one is accepted for the other. -/
theorem adjacent_integers_accepted :
    ¬ ∀ x y : Int, (Number.int x).Sound → (Number.int y).Sound →
      (Check.Accepts (.int y) (.int x) "body" ↔ x = y) := by
  intro h
  have hx : (Number.int (2 ^ 53 + 1)).Sound := ⟨by decide, by decide⟩
  have hy : (Number.int (2 ^ 53)).Sound := ⟨by decide, by decide⟩
  have haccepts : Check.Accepts (.int (2 ^ 53)) (.int (2 ^ 53 + 1)) "body" :=
    Check.accepts_number.mpr ((Check.equals_int hx hy).mpr (by decide +kernel))
  exact absurd ((h _ _ hx hy).mp haccepts) (by decide)

end Assay
