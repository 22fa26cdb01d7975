import Assay.Files.Suites
import Assay.Proofs.Text.Case
import Assay.Proofs.Text.Joined

namespace Assay

namespace Path

open Text (cutAtLast splitOnChar splitOnChar_eq_splitOn)

variable {directory name : String} {names others : List String}

/-- What a directory may list: names other than those of itself and of what it is in. -/
structure IsName (name : String) : Prop where
  nonempty : name ≠ ""
  plain : '/' ∉ name.toList
  inside : name ≠ "."
  below : name ≠ ".."

instance (name : String) : Decidable (IsName name) :=
  decidable_of_iff (name ≠ "" ∧ '/' ∉ name.toList ∧ name ≠ "." ∧ name ≠ "..")
    ⟨fun h => ⟨h.1, h.2.1, h.2.2.1, h.2.2.2⟩, fun h => ⟨h.nonempty, h.plain, h.inside, h.below⟩⟩

/-- The name of a suite file: more than an extension, and one of the three, whatever its case. -/
def IsSuiteName (name : String) : Prop :=
  ∃ stem ext, stem ≠ [] ∧ '.' ∉ ext ∧ name.toList = stem ++ '.' :: ext ∧
    String.ofList (ext.map Char.toLower) ∈ suiteExtensions

/-- Where the names lead to from a directory. -/
def place (directory : String) (names : List String) : String := names.foldl join directory

/-- The names between the slashes. -/
def parts (cs : List Char) : List String :=
  ((splitOnChar '/' cs).filter fun c => !c.isEmpty && c != ['.']).map String.ofList

theorem components_eq (path : String) : components path = parts path.toList := rfl

theorem parts_append (cs ds : List Char) : parts (cs ++ '/' :: ds) = parts cs ++ parts ds := by
  simp only [parts, splitOnChar_eq_splitOn, List.splitOn_append_cons_self, List.filter_append,
    List.map_append]

theorem IsName.parts_eq (h : IsName name) : parts name.toList = [name] := by
  have hempty : name.toList.isEmpty = false := by simpa using h.nonempty
  have hpoint : (name.toList != ['.']) = true := by
    rw [bne_iff_ne]
    exact fun heq => h.inside (String.toList_inj.mp heq)
  rw [parts, splitOnChar_eq_splitOn, List.splitOn_eq_singleton h.plain]
  simp [hempty, hpoint]

theorem components_join (h : IsName name) :
    components (join directory name) = components directory ++ [name] := by
  rw [← h.parts_eq, components_eq, components_eq]
  unfold join
  split
  · next hends =>
    rw [Bool.or_eq_true, decide_eq_true_eq] at hends
    rcases hends with rfl | hends
    · rw [String.toList_append]
      rfl
    · -- The slash at the end of the directory is the one between it and the name.
      obtain ⟨cs, hcs⟩ := List.isSuffixOf_iff_suffix.mp hends
      have hslash : "/".toList = '/' :: [] := rfl
      rw [String.toList_append, ← hcs, hslash, List.append_assoc, List.singleton_append,
        parts_append, parts_append]
      simp [parts, splitOnChar]
  · rw [String.toList_append, String.toList_append, List.append_assoc]
    exact parts_append _ _

theorem components_place (h : ∀ n ∈ names, IsName n) :
    components (place directory names) = components directory ++ names := by
  induction names generalizing directory with
  | nil => exact (List.append_nil _).symm
  | cons n ns ih =>
    obtain ⟨hn, hns⟩ := List.forall_mem_cons.mp h
    calc components (place directory (n :: ns))
        = components (join directory n) ++ ns := ih hns
      _ = components directory ++ n :: ns := by
        rw [components_join hn, List.append_assoc, List.singleton_append]

theorem place_injective (h : ∀ n ∈ names, IsName n) (hothers : ∀ n ∈ others, IsName n)
    (heq : place directory names = place directory others) : names = others := by
  have hcomponents := congrArg components heq
  rw [components_place h, components_place hothers] at hcomponents
  exact List.append_cancel_left hcomponents

theorem fileName?_join (h : IsName name) : fileName? (join directory name) = some name := by
  have hbelow : (name != "..") = true := bne_iff_ne.mpr h.below
  rw [fileName?, components_join h, List.getLast?_concat, Option.filter_some, if_pos hbelow]

theorem extension?_join (h : IsName name) {extension : String} :
    extension? (join directory name) = some extension ↔
      ∃ stem ext, stem ≠ [] ∧ '.' ∉ ext ∧ name.toList = stem ++ '.' :: ext ∧
        extension = .ofList ext := by
  simp only [extension?, fileName?_join h, bind, Option.bind_some]
  constructor
  · intro hext
    obtain ⟨⟨stem, ext⟩, hcut, hext⟩ := Option.bind_eq_some_iff.mp hext
    obtain ⟨hname, hpoint⟩ := Text.cutAtLast_eq_some_iff.mp hcut
    split at hext
    · cases hext
    · next hstem =>
      rw [List.isEmpty_iff] at hstem
      exact ⟨stem, ext, hstem, hpoint, hname, (Option.some.inj hext).symm⟩
  · rintro ⟨stem, ext, hstem, hpoint, hname, rfl⟩
    have hnonempty : ¬ stem.isEmpty := by simpa using hstem
    rw [Text.cutAtLast_eq_some_iff.mpr ⟨hname, hpoint⟩, Option.bind_some, if_neg hnonempty]

theorem any_sameIgnoringCase_iff (ext : List Char) :
    suiteExtensions.any (Text.sameIgnoringCase (.ofList ext)) ↔
      String.ofList (ext.map Char.toLower) ∈ suiteExtensions := by
  have hlower : ∀ s ∈ suiteExtensions, s.toList.map Char.toLower = s.toList := by decide
  rw [List.any_eq_true]
  constructor
  · rintro ⟨s, hs, hsame⟩
    rw [Text.sameIgnoringCase_iff, String.toList_ofList, hlower s hs] at hsame
    rwa [hsame, String.ofList_toList]
  · intro hmem
    have hsame := hlower _ hmem
    refine ⟨_, hmem, Text.sameIgnoringCase_iff.mpr ?_⟩
    rw [hsame, String.toList_ofList, String.toList_ofList]

theorem isSuiteFile_join (h : IsName name) :
    isSuiteFile (join directory name) ↔ IsSuiteName name := by
  rw [isSuiteFile, Option.any_eq_true]
  constructor
  · rintro ⟨_, hext, hany⟩
    obtain ⟨stem, ext, hstem, hpoint, hname, rfl⟩ := (extension?_join h).mp hext
    exact ⟨stem, ext, hstem, hpoint, hname, (any_sameIgnoringCase_iff ext).mp hany⟩
  · rintro ⟨stem, ext, hstem, hpoint, hname, hmem⟩
    exact ⟨.ofList ext, (extension?_join h).mpr ⟨stem, ext, hstem, hpoint, hname, rfl⟩,
      (any_sameIgnoringCase_iff ext).mpr hmem⟩

theorem namesAtMost_iff : namesAtMost names others ↔ names ≤ others := by
  induction names generalizing others with
  | nil => simp [namesAtMost, ← not_lt]
  | cons n ns ih =>
    cases others with
    | nil => simp [namesAtMost, ← not_lt]
    | cons m ms =>
      have hcons : n :: ns ≤ m :: ms ↔ ¬ (m < n ∨ m = n ∧ ms < ns) := by
        rw [← not_lt, List.cons_lt_cons_iff]
      rw [namesAtMost, hcons]
      by_cases heq : n = m
      · subst heq
        rw [if_pos rfl, ih, ← not_lt]
        simp
      · have hne : m ≠ n := Ne.symm heq
        simp only [if_neg heq, decide_eq_true_eq, hne, false_and, or_false, not_lt]

theorem atMost_iff {a b : String} : atMost a b ↔ components a ≤ components b := namesAtMost_iff

end Path

end Assay
