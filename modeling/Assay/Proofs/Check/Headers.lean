import Assay.Check.Response
import Assay.Proofs.Context.Layers
import Assay.Proofs.Text.Case

namespace Assay.Check

variable {headers shuffled : List (String × String)} {expected renamed : Fields}
  {name other : String}

/-- A text with the letters of ASCII in lower case. -/
def folded (s : String) : String := String.ofList (s.toList.map Char.toLower)

theorem sameIgnoringCase_iff_folded :
    Text.sameIgnoringCase name other ↔ folded name = folded other := by
  rw [Text.sameIgnoringCase_iff, folded, folded, String.ofList_inj]

/-- Headers by their names in lower case. -/
def byFoldedName (headers : List (String × String)) : Entries String :=
  headers.map fun h => (folded h.1, h.2)

/-- No two names are the same up to the case of ASCII letters. -/
def DistinctNames (headers : List (String × String)) : Prop :=
  headers.Pairwise fun g h => ¬ Text.sameIgnoringCase g.1 h.1

theorem header?_eq_get? (headers : List (String × String)) (name : String) :
    header? headers name = (byFoldedName headers).get? (folded name) := by
  induction headers with
  | nil => rfl
  | cons h headers ih =>
    rw [byFoldedName, List.map_cons, Entries.get?_cons, ← byFoldedName, ← ih, header?, header?,
      List.find?_cons]
    cases hname : Text.sameIgnoringCase h.1 name with
    | true => rw [if_pos (sameIgnoringCase_iff_folded.mp hname).symm, Option.map_some]
    | false =>
      rw [if_neg]
      intro heq
      rw [sameIgnoringCase_iff_folded.mpr heq.symm] at hname
      cases hname

theorem header?_congr (h : Text.sameIgnoringCase name other) :
    header? headers name = header? headers other := by
  rw [header?_eq_get?, header?_eq_get?, sameIgnoringCase_iff_folded.mp h]

theorem header?_perm (hnames : DistinctNames headers) (h : headers.Perm shuffled) (name : String) :
    header? headers name = header? shuffled name := by
  have hkeys : (byFoldedName headers).keys.Nodup := by
    rw [Entries.keys, byFoldedName, List.map_map, List.Nodup, List.pairwise_map]
    exact hnames.imp fun hne heq => hne (sameIgnoringCase_iff_folded.mpr heq)
  rw [header?_eq_get?, header?_eq_get?]
  exact (Entries.get?_of_perm hkeys (h.symm.map _) _).symm

variable [Libraries]

theorem headers_congr (h : ∀ name, header? headers name = header? shuffled name)
    (expected : Fields) : Check.headers headers expected = Check.headers shuffled expected := by
  induction expected with
  | nil => rfl
  | cons e expected ih => rw [Check.headers, Check.headers, ih, h]

theorem headers_singleton (headers : List (String × String)) (name : String) (condition : Value) :
    Check.headers headers [(name, condition)] =
      evaluate condition ((header? headers name).map .string) ("headers." ++ Text.lower name) := by
  rw [Check.headers, Check.headers]
  cases evaluate condition ((header? headers name).map .string) ("headers." ++ Text.lower name) with
  | error e => rfl
  | ok checks => exact congrArg Except.ok (List.append_nil checks)

/-- The same expectation on a header, but for the case of ASCII letters in its name. -/
def SameExpectation (e f : String × Value) : Prop := Text.sameIgnoringCase e.1 f.1 ∧ e.2 = f.2

theorem headers_renamed (h : List.Forall₂ SameExpectation expected renamed) :
    Check.headers headers expected = Check.headers headers renamed := by
  induction h with
  | nil => rfl
  | @cons e f expected renamed hname _ ih =>
    obtain ⟨name, condition⟩ := e
    obtain ⟨other, _⟩ := f
    obtain ⟨hname, rfl⟩ := hname
    rw [Check.headers, Check.headers, ih, header?_congr hname, Text.lower_congr hname]

end Assay.Check
