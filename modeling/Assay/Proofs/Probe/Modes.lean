import Assay.Probe.File
import Assay.Proofs.Unit.Written

namespace Assay.FileStep

open Nat (digitChar ofDigitChars toDigits)
open Text (isBlank_digit trimChars_eq_self)

variable {c : Char} {cs : List Char} {d n : Nat} {path mode : String} {o : ExecOutput}

/-- A text of octal digits. -/
def IsOctal (mode : String) : Bool := mode.toList.all fun c => '0' ≤ c ∧ c ≤ '7'

/-- The number that octal digits denote. -/
def octal (mode : String) : Nat := ofDigitChars 8 mode.toList 0

/-- Digits without zeros before them. -/
def plainDigits (cs : List Char) : List Char :=
  match cs.dropWhile (· == '0') with
  | [] => ['0']
  | cs => cs

theorem plainDigits_of_ne_nil (h : cs.dropWhile (· == '0') ≠ []) :
    plainDigits cs = cs.dropWhile (· == '0') := by
  unfold plainDigits
  split
  · next hnil => exact absurd hnil h
  · rfl

theorem plainDigits_eq_zero : plainDigits cs = ['0'] ↔ cs.dropWhile (· == '0') = [] := by
  constructor
  · intro h
    by_contra hne
    have hhead := List.head?_dropWhile_not (· == '0') cs
    rw [← plainDigits_of_ne_nil hne, h] at hhead
    cases hhead
  · intro h
    rw [plainDigits, h]

theorem plainDigits_append_singleton (cs : List Char) (c : Char) :
    plainDigits (cs ++ [c]) =
      if cs.dropWhile (· == '0') = [] then [c] else plainDigits cs ++ [c] := by
  by_cases hnil : cs.dropWhile (· == '0') = []
  · rw [if_pos hnil, plainDigits, List.dropWhile_append, hnil]
    by_cases hc : c = '0'
    · subst hc
      rfl
    · simp [hc]
  · have hrest : (cs ++ [c]).dropWhile (· == '0') = cs.dropWhile (· == '0') ++ [c] := by
      rw [List.dropWhile_append, if_neg (by simpa using hnil)]
    rw [if_neg hnil, plainDigits_of_ne_nil hnil, plainDigits_of_ne_nil (by simp [hrest]), hrest]

theorem toDigits_append_digit (hd : d < 8) :
    toDigits 8 (8 * n + d) = if n = 0 then [digitChar d] else toDigits 8 n ++ [digitChar d] := by
  rw [← Nat.toDigits_of_lt_base hd]
  split
  · next h => rw [h, Nat.mul_zero, Nat.zero_add]
  · next h => rw [Nat.toDigits_append_toDigits (by decide) (Nat.pos_of_ne_zero h) hd]

theorem toDigits_injective : Function.Injective (toDigits 8) := by
  intro n m h
  have hvalue := congrArg (ofDigitChars 8 · 0) h
  simpa only [Nat.ofDigitChars_toDigits (b := 8) (by decide) (by decide)] using hvalue

theorem octal_digit (h : '0' ≤ c ∧ c ≤ '7') :
    c.toNat - '0'.toNat < 8 ∧ digitChar (c.toNat - '0'.toNat) = c := by
  have hlow : 48 ≤ c.toNat := h.1
  have hhigh : c.toNat ≤ 55 := h.2
  have hzero : '0'.toNat = 48 := rfl
  rw [← Char.toNat_inj, Nat.toNat_digitChar_of_lt_ten (by omega)]
  omega

/-- Without zeros before them, octal digits are those in which their number is written. -/
theorem plainDigits_eq_toDigits (h : ∀ c ∈ cs, '0' ≤ c ∧ c ≤ '7') :
    plainDigits cs = toDigits 8 (ofDigitChars 8 cs 0) := by
  induction cs using List.reverseRecOn with
  | nil => rfl
  | append_singleton cs c ih =>
    obtain ⟨hcs, hc⟩ := List.forall_mem_append.mp h
    obtain ⟨hlt, hdigit⟩ := octal_digit (hc c List.mem_cons_self)
    have hzero : cs.dropWhile (· == '0') = [] ↔ ofDigitChars 8 cs 0 = 0 := by
      rw [← plainDigits_eq_zero, ih hcs, ← Nat.toDigits_zero 8, toDigits_injective.eq_iff]
    rw [Nat.ofDigitChars_append, Nat.ofDigitChars_cons, Nat.ofDigitChars_nil,
      toDigits_append_digit hlt, hdigit, plainDigits_append_singleton, ih hcs]
    simp only [hzero]

theorem plainMode_eq (h : IsOctal mode) : plainMode mode = toDigits 8 (octal mode) := by
  have hdigits : ∀ c ∈ mode.toList, '0' ≤ c ∧ c ≤ '7' := by
    simpa [IsOctal, List.all_eq_true] using h
  have hblank : ∀ c ∈ mode.toList, Text.isBlank c = false := by
    intro c hc
    obtain ⟨hlow, hhigh⟩ := hdigits c hc
    have hdigit : c.isDigit := by
      simp only [Char.isDigit, Bool.and_eq_true, decide_eq_true_eq]
      exact ⟨hlow, Char.le_trans hhigh (by decide : '7' ≤ '9')⟩
    exact isBlank_digit hdigit
  rw [octal, ← plainDigits_eq_toDigits hdigits, plainMode, trimChars_eq_self hblank]
  rfl

theorem modeFailures_eq_nil (hsuccess : o.success) (hmode : IsOctal mode)
    (hactual : IsOctal (Text.trim o.stdout)) :
    modeFailures path mode o = [] ↔ octal (Text.trim o.stdout) = octal mode := by
  rw [modeFailures, plainMode_eq hmode, plainMode_eq hactual]
  simp [hsuccess, toDigits_injective.eq_iff]

end Assay.FileStep
