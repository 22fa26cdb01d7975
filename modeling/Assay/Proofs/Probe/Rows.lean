import Assay.Proofs.Probe.Questions
import Assay.Proofs.Shell.Occurrence
import Assay.Proofs.Text.Lines

namespace Assay.ProcessStep

open Shell (Unescaped head_of_prefix_quoted infix_quoted_iff quoted toList_shellQuote_eq
  unescaped_of_all)
open Text (FirstWord contains_iff exists_firstWord head?_wordsOf_eq_some isBlank)

variable {name line columns command : String} {row : ProcessRow}

/-- The row of a line that is not the filter's own. -/
def keep (name line : String) : Option ProcessRow :=
  if Text.contains line ("grep -- " ++ name) then none
  else (Text.words line).head?.map fun user => ⟨user, line⟩

theorem matchingRows_eq (listing name : String) :
    matchingRows listing name = (Text.lines listing).filterMap (keep name) := rfl

theorem firstWord_words {user : String} :
    (Text.words line).head? = some user ↔ FirstWord line.toList user.toList := by
  rw [Text.words, List.head?_map, Option.map_eq_some_iff, ← head?_wordsOf_eq_some]
  constructor
  · rintro ⟨w, hw, rfl⟩
    rw [hw, String.toList_ofList]
  · intro hw
    exact ⟨_, hw, String.ofList_toList⟩

theorem keep_eq_some :
    keep name line = some row ↔ row.line = line ∧ FirstWord line.toList row.user.toList ∧
      ¬ ("grep -- " ++ name).toList <:+: line.toList := by
  rw [← contains_iff, ← firstWord_words, keep]
  obtain ⟨user, own⟩ := row
  cases Text.contains line ("grep -- " ++ name) with
  | true => simp
  | false =>
    simp only [Bool.false_eq_true, if_false, Option.map_eq_some_iff, ProcessRow.mk.injEq,
      not_false_eq_true, and_true]
    constructor
    · rintro ⟨user', huser, rfl, rfl⟩
      exact ⟨rfl, huser⟩
    · rintro ⟨rfl, huser⟩
      exact ⟨user, huser, rfl, rfl⟩

/-- A row that shows something, and in which no such filter is named. -/
def IsForeign (line : String) : Bool :=
  line.toList.any (!isBlank ·) && !Text.contains line "grep -- "

theorem exists_keep (hshown : ∃ c ∈ line.toList, isBlank c = false)
    (hnot : ¬ ("grep -- " ++ name).toList <:+: line.toList) : ∃ row, keep name line = some row := by
  obtain ⟨w, hw⟩ := exists_firstWord hshown
  refine ⟨⟨String.ofList w, line⟩, keep_eq_some.mpr ⟨rfl, ?_, hnot⟩⟩
  rwa [String.toList_ofList]

theorem keep_of_isForeign (name : String) (h : IsForeign line) :
    ∃ row, keep name line = some row := by
  simp only [IsForeign, Bool.and_eq_true, List.any_eq_true, Bool.not_eq_true',
    ← Bool.not_eq_true, contains_iff] at h
  obtain ⟨⟨c, hc, hshown⟩, hnot⟩ := h
  refine exists_keep ⟨c, hc, by simpa using hshown⟩ fun hin => hnot ?_
  rw [String.toList_append] at hin
  exact (List.prefix_append _ _).isInfix.trans hin

theorem filter_keep (name : String) (ls : List String) :
    List.Forall₂ (fun line row => row.line = line ∧ FirstWord line.toList row.user.toList)
      (ls.filter IsForeign) ((ls.filterMap (keep name)).filter (IsForeign ·.line)) := by
  induction ls with
  | nil => exact .nil
  | cons line ls ih =>
    cases hforeign : IsForeign line with
    | true =>
      obtain ⟨row, hrow⟩ := keep_of_isForeign name hforeign
      obtain ⟨rfl, hfirst, -⟩ := keep_eq_some.mp hrow
      simp only [List.filterMap_cons_some hrow, List.filter_cons, hforeign, if_true]
      exact .cons ⟨rfl, hfirst⟩ ih
    | false =>
      cases hrow : keep name line with
      | none =>
        simp only [List.filterMap_cons_none hrow, List.filter_cons, hforeign]
        exact ih
      | some row =>
        obtain ⟨rfl, -, -⟩ := keep_eq_some.mp hrow
        simp only [List.filterMap_cons_some hrow, List.filter_cons, hforeign]
        exact ih

/-- A row ends with the quoted name, however the text before it is cut into parts. -/
theorem toList_row {shell command listing marker : String} (columns name : String)
    (h : shell.toList ++ command.toList = listing.toList ++ marker.toList) :
    (columns ++ (shell ++ (command ++ shellQuote name))).toList =
      columns.toList ++ listing.toList ++ (marker.toList ++ quoted name.toList) := by
  simp only [String.toList_append, toList_shellQuote_eq]
  rw [← List.append_assoc shell.toList, h, List.append_assoc, List.append_assoc]

/-- The row of the shell that runs a listing, with the name quoted in it. -/
theorem shell_row_eq (columns : String) (h : Lists name command) :
    ∃ listing ∈ ["sh -c ps aux | ", "sh -c ps -ef | "],
      (columns ++ ("sh -c " ++ command)).toList =
        columns.toList ++ listing.toList ++ ("grep -- ".toList ++ quoted name.toList) := by
  cases h with
  | full => exact ⟨_, .head _, toList_row columns name (by decide +kernel)⟩
  | plain => exact ⟨_, .tail _ (.head _), toList_row columns name (by decide +kernel)⟩

theorem not_infix_append {listing : String} (hcolumns : ¬ Text.contains columns "grep -- ")
    (h : listing ∈ ["sh -c ps aux | ", "sh -c ps -ef | "]) :
    ¬ "grep -- ".toList <:+: columns.toList ++ listing.toList := by
  have hnone : ∀ l ∈ ["sh -c ps aux | ", "sh -c ps -ef | "],
      ¬ "grep -- ".toList <:+: l.toList ∧ l.toList.head? = some 's' := by decide +kernel
  obtain ⟨hlisting, hhead⟩ := hnone listing h
  intro hin
  rcases List.infix_append_iff.mp hin with hleft | hright | ⟨l, r, hlr, hl, hr⟩
  · exact hcolumns (contains_iff.mpr hleft)
  · exact hlisting hright
  · -- What is behind the columns begins with a letter that the filter does not have.
    cases r with
    | nil =>
      rw [List.append_nil] at hlr
      exact hcolumns (contains_iff.mpr (hlr ▸ hl.isInfix))
    | cons c r =>
      obtain ⟨rest, hrest⟩ := hr
      rw [← hrest, List.cons_append, List.head?_cons, Option.some.injEq] at hhead
      subst hhead
      have hmem : 's' ∈ "grep -- ".toList := by simp [hlr]
      simp at hmem

theorem shell_row_kept_iff (hcolumns : ¬ Text.contains columns "grep -- ")
    (h : Lists name command) :
    (∃ row, keep name (columns ++ ("sh -c " ++ command)) = some row) ↔
      ¬ name.toList <+: (shellQuote name).toList := by
  obtain ⟨listing, hlisting, hline⟩ := shell_row_eq columns h
  have hmarker : "grep -- ".toList = 'g' :: "rep -- ".toList := by decide +kernel
  have hplain : Unescaped ('g' :: "rep -- ".toList) := by
    rw [← hmarker]
    exact unescaped_of_all (by decide +kernel)
  have hpre := not_infix_append hcolumns hlisting
  rw [hmarker] at hpre
  have hinfix := infix_quoted_iff name.toList hplain (by decide +kernel) hpre
  rw [← hmarker, ← hline, ← toList_shellQuote_eq, ← String.toList_append] at hinfix
  rw [← hinfix]
  constructor
  · rintro ⟨row, hrow⟩
    exact (keep_eq_some.mp hrow).2.2
  · refine exists_keep ⟨'s', ?_, rfl⟩
    simp

/-- Of the rows that a listing adds to itself, that of the filter is dropped. That of the shell,
which has the name in quotes, is kept like any other, unless its name begins its own quoted form:
no name does that but the empty one and some that begin with a quote. Rows that name no such filter
are kept in their order, each with its first column as the user. -/
theorem matchingRows_own (listing name : String) :
    (∀ columns, ∀ row ∈ matchingRows listing name, row.line ≠ columns ++ ("grep -- " ++ name)) ∧
    List.Forall₂ (fun line row => row.line = line ∧ FirstWord line.toList row.user.toList)
      ((Text.lines listing).filter IsForeign)
      ((matchingRows listing name).filter (IsForeign ·.line)) ∧
    (∀ columns command, ¬ Text.contains columns "grep -- " → Lists name command →
      columns ++ ("sh -c " ++ command) ∈ Text.lines listing →
      ((∃ row ∈ matchingRows listing name, row.line = columns ++ ("sh -c " ++ command)) ↔
        ¬ name.toList <+: (shellQuote name).toList)) ∧
    (name.toList <+: (shellQuote name).toList → ∀ c ∈ name.toList.head?, c = '\'') := by
  rw [matchingRows_eq]
  refine ⟨fun columns row hrow hline => ?_, filter_keep name _, ?_, fun h c hc => ?_⟩
  · obtain ⟨line, -, hkept⟩ := List.mem_filterMap.mp hrow
    obtain ⟨rfl, -, hnot⟩ := keep_eq_some.mp hkept
    have hwhole : row.line.toList = columns.toList ++ ("grep -- " ++ name).toList := by
      rw [hline, String.toList_append]
    exact hnot (hwhole ▸ (List.suffix_append _ _).isInfix)
  · intro columns command hcolumns h hmem
    rw [← shell_row_kept_iff hcolumns h]
    constructor
    · rintro ⟨row, hrow, hline⟩
      obtain ⟨line, -, hkept⟩ := List.mem_filterMap.mp hrow
      obtain ⟨rfl, -, -⟩ := keep_eq_some.mp hkept
      exact ⟨row, hline ▸ hkept⟩
    · rintro ⟨row, hkept⟩
      exact ⟨row, List.mem_filterMap.mpr ⟨_, hmem, hkept⟩, (keep_eq_some.mp hkept).1⟩
  · rw [toList_shellQuote_eq] at h
    exact head_of_prefix_quoted h hc

theorem matchingRows_own_nginx :
    let shell := "root 98 0:00 " ++ ("sh -c " ++ listCommand "nginx")
    let filter := "root 99 0:00 " ++ ("grep -- " ++ "nginx")
    let listing := "www  12 0:07 nginx: worker\n" ++ shell ++ "\n" ++ filter ++ "\n"
    ¬ Text.contains "root 98 0:00 " "grep -- " ∧ Lists "nginx" (listCommand "nginx") ∧
      shell ∈ Text.lines listing ∧ ¬ "nginx".toList <+: (shellQuote "nginx").toList ∧
      (∃ row ∈ matchingRows listing "nginx", row.line = shell) ∧
      ∀ row ∈ matchingRows listing "nginx", row.line ≠ filter := by
  intro shell filter listing
  obtain ⟨hfilter, -, hshell, hquote⟩ := matchingRows_own listing "nginx"
  have hcolumns : ¬ Text.contains "root 98 0:00 " "grep -- " := by decide +kernel
  have hmem : shell ∈ Text.lines listing := by decide +kernel
  have hprefix : ¬ "nginx".toList <+: (shellQuote "nginx").toList := fun h => by
    have hhead := hquote h 'n' (by decide +kernel)
    cases hhead
  exact ⟨hcolumns, .full, hmem, hprefix, (hshell _ _ hcolumns .full hmem).mpr hprefix,
    hfilter "root 99 0:00 "⟩

/-- The shell that runs a listing is taken for a process of the name. -/
theorem own_shell_listed :
    ¬ ∀ listing name columns command : String, '\n' ∉ name.toList → Lists name command →
      ∀ row ∈ matchingRows listing name, row.line ≠ columns ++ ("grep -- " ++ name) ∧
        row.line ≠ columns ++ ("sh -c " ++ command) := by
  intro h
  have hrows : matchingRows "root 98 0:00 sh -c ps aux | grep -- 'nginx'\n" "nginx" =
      [⟨"root", "root 98 0:00 sh -c ps aux | grep -- 'nginx'"⟩] := by decide +kernel
  have hname : '\n' ∉ "nginx".toList := by decide +kernel
  have hnone := h "root 98 0:00 sh -c ps aux | grep -- 'nginx'\n" "nginx" "root 98 0:00 "
    (listCommand "nginx") hname .full
  rw [hrows] at hnone
  exact (hnone _ List.mem_cons_self).2 (by decide +kernel)

end Assay.ProcessStep
