import Assay.Proofs.Files.Path
import Mathlib.Data.List.Nodup

namespace Assay

open Assay.Path (IsName IsSuiteName components isSuiteFile_join join place)

variable {path f : String} {names others : List String}

namespace Tree

variable {t u : Tree} {es fs : List (String × Tree)}

/-- A tree of which every directory can be listed. -/
inductive Listed : Tree → Prop
  | file : Listed .file
  | directory {entries : List (String × Tree)} (h : ∀ e ∈ entries, Listed e.2) :
    Listed (.directory entries)

/-- A tree whose directories list names, and each name once. -/
inductive WellNamed : Tree → Prop
  | file : WellNamed .file
  | directory {entries : List (String × Tree)} (hkeys : (entries.map Prod.fst).Nodup)
    (hnames : ∀ e ∈ entries, IsName e.1) (h : ∀ e ∈ entries, WellNamed e.2) :
    WellNamed (.directory entries)

/-- The names on the way to a file of the tree. -/
inductive FileAt : Tree → List String → Prop
  | here : FileAt .file []
  | inside {entries : List (String × Tree)} {name : String} {t : Tree} {names : List String}
    (hmem : (name, t) ∈ entries) (h : FileAt t names) : FileAt (.directory entries) (name :: names)

/-- The names on the way to a suite file. -/
def SuiteAt (t : Tree) (names : List String) : Prop :=
  t.FileAt names ∧ ∃ name ∈ names.getLast?, IsSuiteName name

/-- The same tree where directories, at any depth, are listed in other orders. -/
inductive Relisted : Tree → Tree → Prop
  | same (t : Tree) : Relisted t t
  | listing {es fs : List (String × Tree)} (h : es.Perm fs) :
    Relisted (.directory es) (.directory fs)
  | within (before : List (String × Tree)) (name : String) (after : List (String × Tree))
    {t u : Tree} (h : Relisted t u) :
    Relisted (.directory (before ++ (name, t) :: after)) (.directory (before ++ (name, u) :: after))
  | trans {t u v : Tree} (h : Relisted t u) (h' : Relisted u v) : Relisted t v

theorem fileAt_directory :
    (directory es).FileAt names ↔
      ∃ name t rest, (name, t) ∈ es ∧ t.FileAt rest ∧ names = name :: rest := by
  constructor
  · rintro ⟨⟩
    next name t rest hat hmem => exact ⟨name, t, rest, hmem, hat, rfl⟩
  · rintro ⟨name, t, rest, hmem, hat, rfl⟩
    exact .inside hmem hat

theorem fileAt_append :
    (directory (es ++ fs)).FileAt names ↔
      (directory es).FileAt names ∨ (directory fs).FileAt names := by
  simp only [fileAt_directory, List.mem_append, or_and_right, exists_or]

theorem fileAt_cons {name : String} :
    (directory ((name, t) :: es)).FileAt names ↔
      (∃ rest, t.FileAt rest ∧ names = name :: rest) ∨ (directory es).FileAt names := by
  simp only [fileAt_directory, List.mem_cons, or_and_right, exists_or, Prod.mk.injEq]
  simp

theorem FileAt.isName (hf : t.FileAt names) (h : t.WellNamed) : ∀ n ∈ names, IsName n := by
  induction hf with
  | here => exact List.forall_mem_nil _
  | inside hmem _ ih =>
    cases h with
    | directory _ hnames h => exact List.forall_mem_cons.mpr ⟨hnames _ hmem, ih (h _ hmem)⟩

theorem listed_directory : (directory es).Listed ↔ ∀ e ∈ es, e.2.Listed := by
  constructor
  · rintro ⟨⟩
    assumption
  · exact .directory

theorem not_listed_unlisted {reason : String} : ¬ (unlisted reason).Listed := by
  rintro ⟨⟩

theorem WellNamed.listed (h : t.WellNamed) : t.Listed := by
  induction h with
  | file => exact .file
  | directory _ _ _ ih => exact .directory ih

mutual

/-- The suite files at or below a place, as far as its directories can be listed. -/
def suiteFiles (path : String) : Tree → List String
  | file => if isSuiteFile path then [path] else []
  | directory entries => suiteFilesIn path entries
  | unlisted _ => []
termination_by structural t => t

def suiteFilesIn (path : String) : List (String × Tree) → List String
  | [] => []
  | (name, t) :: es => t.suiteFiles (join path name) ++ suiteFilesIn path es
termination_by structural es => es

end

/-- The suite files below a directory in the order of their paths. -/
def sortedSuiteFiles (path : String) (t : Tree) : List String :=
  (t.suiteFiles path).mergeSort Path.atMost

mutual

/-- A scan finds the suite files of a tree that can be listed, and of another one it fails. -/
theorem scan_cases (path : String) (t : Tree) :
    (t.Listed ∧ t.scan path = .ok (t.suiteFiles path)) ∨
      (¬ t.Listed ∧ ∃ reason, t.scan path = .error (.io reason)) :=
  match t with
  | file => .inl ⟨.file, rfl⟩
  | unlisted reason => .inr ⟨not_listed_unlisted, reason, rfl⟩
  | directory es => by
    rw [listed_directory]
    exact scanEntries_cases path es
termination_by structural t

theorem scanEntries_cases (path : String) (es : List (String × Tree)) :
    ((∀ e ∈ es, e.2.Listed) ∧ scanEntries path es = .ok (suiteFilesIn path es)) ∨
      (¬ (∀ e ∈ es, e.2.Listed) ∧ ∃ reason, scanEntries path es = .error (.io reason)) :=
  match es with
  | [] => .inl ⟨List.forall_mem_nil _, rfl⟩
  | (name, t) :: es => by
    rw [List.forall_mem_cons, scanEntries, suiteFilesIn]
    rcases scan_cases (join path name) t with ⟨ht, hscan⟩ | ⟨ht, reason, hscan⟩
    · rcases scanEntries_cases path es with ⟨hes, hrest⟩ | ⟨hes, reason, hrest⟩
      · exact .inl ⟨⟨ht, hes⟩, by rw [hscan, hrest]; rfl⟩
      · exact .inr ⟨fun h => hes h.2, reason, by rw [hscan, hrest]; rfl⟩
    · exact .inr ⟨fun h => ht h.1, reason, by rw [hscan]; rfl⟩
termination_by structural es

end

theorem scan_eq (h : t.Listed) : t.scan path = .ok (t.suiteFiles path) :=
  ((scan_cases path t).resolve_right fun hnot => hnot.1 h).2

theorem scan_of_not_listed (h : ¬ t.Listed) : ∃ reason, t.scan path = .error (.io reason) :=
  ((scan_cases path t).resolve_left fun hlisted => h hlisted.1).2

theorem suiteFilesIn_eq (path : String) (es : List (String × Tree)) :
    suiteFilesIn path es = es.flatMap fun e => e.2.suiteFiles (join path e.1) := by
  induction es with
  | nil => rfl
  | cons e es ih => rw [suiteFilesIn, List.flatMap_cons, ih]

theorem mem_suiteFiles (h : t.WellNamed) :
    f ∈ t.suiteFiles path ↔ ∃ names, t.FileAt names ∧ f = place path names ∧ isSuiteFile f := by
  induction h generalizing path with
  | file =>
    rw [suiteFiles, List.mem_ite_nil_right, List.mem_singleton]
    constructor
    · rintro ⟨hsuite, rfl⟩
      exact ⟨[], .here, rfl, hsuite⟩
    · rintro ⟨_, ⟨⟩, rfl, hsuite⟩
      exact ⟨hsuite, rfl⟩
  | directory _ _ _ ih =>
    rw [suiteFiles, suiteFilesIn_eq, List.mem_flatMap]
    constructor
    · rintro ⟨⟨name, t⟩, hmem, hf⟩
      obtain ⟨names, hat, hplace, hsuite⟩ := (ih _ hmem).mp hf
      exact ⟨name :: names, .inside hmem hat, hplace, hsuite⟩
    · rintro ⟨_, hat, hplace, hsuite⟩
      obtain ⟨name, t, names, hmem, hrest, rfl⟩ := fileAt_directory.mp hat
      exact ⟨(name, t), hmem, (ih _ hmem).mpr ⟨names, hrest, hplace, hsuite⟩⟩

theorem nodup_suiteFiles (h : t.WellNamed) : (t.suiteFiles path).Nodup := by
  induction h generalizing path with
  | file =>
    rw [suiteFiles]
    split
    · exact List.nodup_singleton path
    · exact List.nodup_nil
  | directory hkeys hnames h ih =>
    rw [suiteFiles, suiteFilesIn_eq, List.nodup_flatMap]
    refine ⟨fun e he => ih e he, ?_⟩
    refine (List.pairwise_map.mp hkeys).imp_of_mem fun {a b} ha hb hne f hfa hfb => hne ?_
    -- A file below both entries is at one place by two ways, which begin with their names.
    obtain ⟨ns, hns, hplace, -⟩ := (mem_suiteFiles (h a ha)).mp hfa
    obtain ⟨ms, hms, hother, -⟩ := (mem_suiteFiles (h b hb)).mp hfb
    have hway := List.forall_mem_cons.mpr ⟨hnames a ha, hns.isName (h a ha)⟩
    have hdetour := List.forall_mem_cons.mpr ⟨hnames b hb, hms.isName (h b hb)⟩
    have heq : place path (a.1 :: ns) = place path (b.1 :: ms) := hplace.symm.trans hother
    exact (List.cons.inj (Path.place_injective hway hdetour heq)).1

theorem isSuiteFile_place (h : ∀ n ∈ names, IsName n) (hne : names ≠ []) :
    isSuiteFile (place path names) ↔ ∃ name ∈ names.getLast?, IsSuiteName name := by
  obtain ⟨ns, n, rfl⟩ := (List.eq_nil_or_concat' names).resolve_left hne
  have hn : IsName n := h n (by simp)
  rw [place, List.foldl_concat, isSuiteFile_join hn]
  simp

theorem mem_sortedSuiteFiles (h : (directory es).WellNamed) :
    f ∈ (directory es).sortedSuiteFiles path ↔
      ∃ names, (directory es).SuiteAt names ∧ place path names = f := by
  rw [sortedSuiteFiles, List.mem_mergeSort, mem_suiteFiles h]
  refine exists_congr fun names => ?_
  constructor
  · rintro ⟨hat, rfl, hsuite⟩
    have hne : names ≠ [] := by
      rintro rfl
      cases hat
    exact ⟨⟨hat, (isSuiteFile_place (hat.isName h) hne).mp hsuite⟩, rfl⟩
  · rintro ⟨⟨hat, hlast⟩, rfl⟩
    have hne : names ≠ [] := by
      rintro rfl
      cases hat
    exact ⟨hat, rfl, (isSuiteFile_place (hat.isName h) hne).mpr hlast⟩

theorem nodup_sortedSuiteFiles (h : t.WellNamed) : (t.sortedSuiteFiles path).Nodup :=
  (List.mergeSort_perm _ _).nodup_iff.mpr (nodup_suiteFiles h)

theorem pairwise_sortedSuiteFiles (path : String) (t : Tree) :
    (t.sortedSuiteFiles path).Pairwise fun a b => components a ≤ components b := by
  refine (List.pairwise_mergeSort ?_ ?_ (t.suiteFiles path)).imp Path.atMost_iff.mp
  · intro a b c hab hbc
    rw [Path.atMost_iff] at hab hbc ⊢
    exact hab.trans hbc
  · intro a b
    rw [Bool.or_eq_true, Path.atMost_iff, Path.atMost_iff]
    exact le_total _ _

theorem Relisted.wellNamed (h : Relisted t u) (ht : t.WellNamed) : u.WellNamed := by
  induction h with
  | same t => exact ht
  | listing hperm =>
    cases ht with
    | directory hkeys hnames h =>
      refine .directory ((hperm.map Prod.fst).nodup_iff.mp hkeys) ?_ ?_
      · exact fun e he => hnames e (hperm.mem_iff.mpr he)
      · exact fun e he => h e (hperm.mem_iff.mpr he)
  | within before name after _ ih =>
    cases ht with
    | directory hkeys hnames h =>
      rw [List.map_append, List.map_cons] at hkeys
      have hnames := List.forall_mem_append.mp hnames
      have h := List.forall_mem_append.mp h
      obtain ⟨hname, hnamesAfter⟩ := List.forall_mem_cons.mp hnames.2
      obtain ⟨ht, hafter⟩ := List.forall_mem_cons.mp h.2
      refine .directory ?_ ?_ ?_
      · rwa [List.map_append, List.map_cons]
      · exact List.forall_mem_append.mpr
          ⟨hnames.1, List.forall_mem_cons.mpr ⟨hname, hnamesAfter⟩⟩
      · exact List.forall_mem_append.mpr ⟨h.1, List.forall_mem_cons.mpr ⟨ih ht, hafter⟩⟩
  | trans _ _ ih ih' => exact ih' (ih ht)

theorem Relisted.fileAt_iff (h : Relisted t u) : t.FileAt names ↔ u.FileAt names := by
  induction h generalizing names with
  | same t => rfl
  | listing hperm => simp only [fileAt_directory, hperm.mem_iff]
  | within before name after _ ih =>
    simp only [fileAt_append, fileAt_cons, ih]
  | trans _ _ ih ih' => exact ih.trans ih'

theorem Relisted.directory (h : Relisted t u) (ht : ∃ es, t = .directory es) :
    ∃ fs, u = .directory fs := by
  induction h with
  | same t => exact ht
  | listing _ => exact ⟨_, rfl⟩
  | within _ _ _ _ _ => exact ⟨_, rfl⟩
  | trans _ _ ih ih' => exact ih' (ih ht)

/-- Sorted by their paths, the suite files do not depend on the order in which directories are
listed. -/
theorem sortedSuiteFiles_relisted (h : Relisted t u) (ht : t.WellNamed) :
    u.sortedSuiteFiles path = t.sortedSuiteFiles path := by
  have hu := h.wellNamed ht
  have hmem (f : String) : f ∈ u.suiteFiles path ↔ f ∈ t.suiteFiles path := by
    simp only [mem_suiteFiles hu, mem_suiteFiles ht, h.fileAt_iff]
  have hperm : (u.suiteFiles path).Perm (t.suiteFiles path) :=
    (List.perm_ext_iff_of_nodup (nodup_suiteFiles hu) (nodup_suiteFiles ht)).mpr hmem
  have hsorted : (u.sortedSuiteFiles path).Perm (t.sortedSuiteFiles path) :=
    (List.mergeSort_perm _ _).trans (hperm.trans (List.mergeSort_perm _ _).symm)
  refine hsorted.eq_of_pairwise ?_ (pairwise_sortedSuiteFiles path u)
    (pairwise_sortedSuiteFiles path t)
  -- Paths with the same names are the same path here, since all begin with that of the tree.
  intro a b ha hb hab hba
  obtain ⟨ns, hns, rfl, -⟩ := (mem_suiteFiles hu).mp (List.mem_mergeSort.mp ha)
  obtain ⟨ms, hms, rfl, -⟩ := (mem_suiteFiles ht).mp (List.mem_mergeSort.mp hb)
  have heq := le_antisymm hab hba
  rw [Path.components_place (hns.isName hu), Path.components_place (hms.isName ht)] at heq
  rw [List.append_cancel_left heq]

end Tree

/-- The files that one argument names. -/
def Tree.found (path : String) : Tree → List String
  | .file => [path]
  | t => t.sortedSuiteFiles path

/-- Arguments that exist, all of whose directories can be listed. -/
def AllListed (args : List (String × Option Tree)) : Prop := ∀ a ∈ args, ∃ t ∈ a.2, t.Listed

variable {args : List (String × Option Tree)} {t : Tree}

theorem collectSuiteFiles_some (h : t.Listed) (path : String) (rest : List (String × Option Tree)) :
    collectSuiteFiles ((path, some t) :: rest) =
      (collectSuiteFiles rest).map (t.found path ++ ·) := by
  have hbind (x : Except Error (List String)) (fs : List String) :
      (do let more ← x; pure (fs ++ more)) = x.map (fs ++ ·) := by
    cases x <;> rfl
  cases h with
  | file => exact hbind _ _
  | @directory es h =>
    rw [collectSuiteFiles, Tree.scan_eq (.directory h)]
    exact hbind _ _

theorem collectSuiteFiles_singleton (h : t.Listed) (path : String) :
    collectSuiteFiles [(path, some t)] = .ok (t.found path) := by
  rw [collectSuiteFiles_some h]
  exact congrArg Except.ok (List.append_nil _)

theorem collectSuiteFiles_unlisted (h : ¬ t.Listed) (path : String)
    (rest : List (String × Option Tree)) :
    ∃ reason, collectSuiteFiles ((path, some t) :: rest) = .error (.io reason) := by
  obtain ⟨reason, hscan⟩ : ∃ reason, t.scan path = .error (.io reason) :=
    Tree.scan_of_not_listed h
  refine ⟨reason, ?_⟩
  cases t with
  | file => exact absurd .file h
  | directory | unlisted =>
    rw [collectSuiteFiles, hscan]
    rfl

/-- The files of arguments that can be listed, and then those of the arguments behind them. -/
theorem collectSuiteFiles_append (h : AllListed args) :
    ∃ parts, List.Forall₂ (fun a part => collectSuiteFiles [a] = .ok part) args parts ∧
      ∀ rest, collectSuiteFiles (args ++ rest) =
        (collectSuiteFiles rest).map (parts.flatten ++ ·) := by
  induction args with
  | nil =>
    refine ⟨[], .nil, fun rest => ?_⟩
    cases h : collectSuiteFiles rest <;> simp [h, Except.map]
  | cons a args ih =>
    obtain ⟨path, place⟩ := a
    obtain ⟨⟨t, hplace, ht⟩, hargs⟩ := List.forall_mem_cons.mp h
    obtain rfl : place = some t := hplace
    obtain ⟨parts, hparts, hrest⟩ := ih hargs
    refine ⟨t.found path :: parts, .cons (collectSuiteFiles_singleton ht path) hparts,
      fun rest => ?_⟩
    rw [List.cons_append, collectSuiteFiles_some ht, hrest]
    cases collectSuiteFiles rest <;> simp [Except.map]

/-- A directory stands for the suite files below it at any depth, each once, in the order of their
paths, whatever the order in which directories are listed, and a file for itself. The arguments are
taken in order, up to the first that does not exist, or has a directory that cannot be listed. -/
theorem suite_files_collected :
    (∀ path es, (Tree.directory es).WellNamed →
      ∃ files, collectSuiteFiles [(path, some (.directory es))] = .ok files ∧
        (∀ names, (Tree.directory es).SuiteAt names → files.count (place path names) = 1) ∧
        (∀ f ∈ files, ∃! names, (Tree.directory es).SuiteAt names ∧ place path names = f) ∧
        (files.Pairwise fun a b => components a ≤ components b) ∧
        ∀ t, Tree.Relisted (.directory es) t → collectSuiteFiles [(path, some t)] = .ok files) ∧
    (∀ path, collectSuiteFiles [(path, some .file)] = .ok [path]) ∧
    (∀ args, AllListed args →
      ∃ parts, List.Forall₂ (fun a part => collectSuiteFiles [a] = .ok part) args parts ∧
        collectSuiteFiles args = .ok parts.flatten) ∧
    (∀ before path after, AllListed before →
      collectSuiteFiles (before ++ (path, none) :: after) = .error (.noSuchPath path)) ∧
    ∀ before path t after, AllListed before → ¬ t.Listed →
      ∃ reason, collectSuiteFiles (before ++ (path, some t) :: after) = .error (.io reason) := by
  refine ⟨fun path es h => ?_, fun path => collectSuiteFiles_singleton .file path,
    fun args h => ?_, fun before path after h => ?_, fun before path t after h ht => ?_⟩
  · refine ⟨_, collectSuiteFiles_singleton h.listed path, fun names hat => ?_, fun f hf => ?_,
      Tree.pairwise_sortedSuiteFiles path _, fun t hlisted => ?_⟩
    · exact List.count_eq_one_of_mem (Tree.nodup_sortedSuiteFiles h)
        ((Tree.mem_sortedSuiteFiles h).mpr ⟨names, hat, rfl⟩)
    · obtain ⟨names, hat, rfl⟩ := (Tree.mem_sortedSuiteFiles h).mp hf
      refine ⟨names, ⟨hat, rfl⟩, fun others hothers => ?_⟩
      exact Path.place_injective (hothers.1.1.isName h) (hat.1.isName h) hothers.2
    · obtain ⟨fs, rfl⟩ := hlisted.directory ⟨es, rfl⟩
      rw [collectSuiteFiles_singleton (hlisted.wellNamed h).listed]
      exact congrArg Except.ok (Tree.sortedSuiteFiles_relisted hlisted h)
  · obtain ⟨parts, hparts, hrest⟩ := collectSuiteFiles_append h
    have hfiles := hrest []
    rw [List.append_nil] at hfiles
    exact ⟨parts, hparts, hfiles.trans (congrArg Except.ok (List.append_nil _))⟩
  · obtain ⟨parts, -, hrest⟩ := collectSuiteFiles_append h
    rw [hrest, collectSuiteFiles]
    rfl
  · obtain ⟨parts, -, hrest⟩ := collectSuiteFiles_append h
    obtain ⟨reason, hreason⟩ := collectSuiteFiles_unlisted ht path after
    exact ⟨reason, by rw [hrest, hreason]; rfl⟩

/-- A directory listed in the order of names. -/
def listed : List (String × Tree) :=
  [("a.json", .file), ("b.yaml", .file), ("nested", .directory [("c.YML", .file)]),
    ("notes.md", .file)]

theorem wellNamed_listed : (Tree.directory listed).WellNamed := by
  have hnested : (Tree.directory [("c.YML", .file)]).WellNamed :=
    .directory (by decide) (by decide) (List.forall_mem_singleton.mpr .file)
  refine .directory (by decide) (by decide) ?_
  simp only [listed, List.forall_mem_cons, hnested, true_and]
  exact ⟨.file, .file, .file, List.forall_mem_nil _⟩

/-- The other way round the directory has the same suite files in the same order. What stands behind
a directory that cannot be listed is not looked at. -/
theorem suite_files_collected_reversed :
    (Tree.directory listed).WellNamed ∧
    collectSuiteFiles [("d", some (.directory listed.reverse))] =
      .ok ["d/a.json", "d/b.yaml", "d/nested/c.YML"] ∧
    collectSuiteFiles [("notes.md", some .file), ("gone", none), ("d", some (.directory listed))] =
      .error (.noSuchPath "gone") ∧
    ∃ reason, collectSuiteFiles [("notes.md", some .file),
      ("d", some (.directory [("a.json", .file), ("locked", .unlisted "Permission denied")])),
      ("gone", none)] = .error (.io reason) := by
  obtain ⟨hdirectory, -, -, hmissing, hlocked⟩ := suite_files_collected
  obtain ⟨files, hfiles, -, -, -, hrelisted⟩ := hdirectory "d" listed wellNamed_listed
  have hlisted : (Tree.directory listed).suiteFiles "d" =
      ["d/a.json", "d/b.yaml", "d/nested/c.YML"] := by decide +kernel
  have hsorted : (Tree.directory listed).sortedSuiteFiles "d" =
      ["d/a.json", "d/b.yaml", "d/nested/c.YML"] := by
    rw [Tree.sortedSuiteFiles, hlisted, List.mergeSort_of_pairwise]
    decide +kernel
  rw [collectSuiteFiles_singleton wellNamed_listed.listed] at hfiles
  have heq : files = ["d/a.json", "d/b.yaml", "d/nested/c.YML"] :=
    (Except.ok.inj hfiles).symm.trans hsorted
  have hfirst : AllListed [("notes.md", some .file)] :=
    List.forall_mem_singleton.mpr ⟨.file, rfl, .file⟩
  have hlock :
      ¬ (Tree.directory [("a.json", .file), ("locked", .unlisted "Permission denied")]).Listed := by
    simp [Tree.listed_directory, Tree.not_listed_unlisted]
  refine ⟨wellNamed_listed, ?_, hmissing _ "gone" _ hfirst, hlocked _ "d" _ _ hfirst hlock⟩
  rw [← heq]
  exact hrelisted _ (.listing (List.reverse_perm listed).symm)

end Assay
