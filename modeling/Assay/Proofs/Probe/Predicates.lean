import Assay.Proofs.Probe.Exits
import Assay.Proofs.Probe.Modes
import Assay.Proofs.Probe.Texts

namespace Assay.FileStep

open Check (FailsBy)
open Script (Exchange runs_unique)
open TextChecks (IsJson)

variable {s : FileStep} {a : Answers} {target path : String} {o : ExecOutput}

/-- What can be wanted of a file that is there, in the order in which it is looked at. -/
inductive Property
  | mode
  | owner
  | size
  | contains
  | lacks
  | pattern
  | json

def Property.all : List Property := [.mode, .owner, .size, .contains, .lacks, .pattern, .json]

def contentChecks (s : FileStep) : TextChecks := ⟨s.contains, s.lacks, s.pattern, s.json⟩

/-- How the content goes by in messages. -/
def label (s : FileStep) : String := "File " ++ s.path

/-- What is found of each property. -/
def reported [Libraries] (s : FileStep) (a : Answers) : Property → Except Error (List String)
  | .mode => .ok (messages s.permissions (modeFailures s.path) a.mode)
  | .owner => .ok (messages s.owner (ownerFailures s.path) a.owner)
  | .size => .ok (messages s.size (sizeFailures s.path) a.size)
  | .contains => .ok (TextChecks.containsFailures s.label a.content.stdout s.contains)
  | .lacks => .ok (TextChecks.lacksFailures s.label a.content.stdout s.lacks)
  | .pattern => TextChecks.patternFailures s.label a.content.stdout s.pattern
  | .json => TextChecks.jsonFailures s.label a.content.stdout s.json

/-- A property is as it should be, by what was printed. -/
def Holds [Libraries] (s : FileStep) (a : Answers) : Property → Prop
  | .mode => ∀ mode, s.permissions = some mode → octal (Text.trim a.mode.stdout) = octal mode
  | .owner => ∀ owner, s.owner = some owner → Text.trim a.owner.stdout = owner
  | .size => ∀ c, s.size = some c →
      ∃ size, Double.read? (Text.trimChars a.size.stdout.toList) = some size ∧ c.holds size
  | .contains => ∀ needle, s.contains = some needle → needle.toList <:+: a.content.stdout.toList
  | .lacks => ∀ needle, s.lacks = some needle → ¬ needle.toList <:+: a.content.stdout.toList
  | .pattern => ∀ pattern, s.pattern = some pattern →
      ∃ occurs, Libraries.readPattern pattern = .ok occurs ∧ occurs a.content.stdout
  | .json => ∀ tree, s.json = some tree → IsJson s.label a.content.stdout tree

/-- There is a file just when there should be one, and it is as it should be. -/
def Passes [Libraries] (s : FileStep) (a : Answers) : Prop :=
  found a.existence = s.wanted ∧ (s.wanted → ∀ p, s.Holds a p)

/-- The modes, if they are compared, are texts of octal digits. -/
def OctalModes (s : FileStep) (a : Answers) : Prop :=
  ∀ mode, s.permissions = some mode → IsOctal mode ∧ IsOctal (Text.trim a.mode.stdout)

/-- The commands about properties of which anything is wanted came back with success. -/
structure Succeeded (s : FileStep) (a : Answers) : Prop where
  mode : ∀ mode, s.permissions = some mode → a.mode.success
  owner : ∀ owner, s.owner = some owner → a.owner.success
  content : s.wantsContent → a.content.success

theorem succeeded_of_dialogue (hproceeds : s.proceeds a)
    (h : ∀ command o, asked target command o ∈ s.dialogue target a → o.success) :
    s.Succeeded a := by
  have hinquiries : ∀ command o, asked target command o ∈ s.inquiries target a → o.success := by
    intro command o ho
    refine h command o (List.mem_cons_of_mem _ ?_)
    rwa [if_pos hproceeds]
  simp only [inquiries, List.mem_append, mem_inquiry] at hinquiries
  refine ⟨fun mode hpart => ?_, fun owner hpart => ?_, fun hwants => ?_⟩
  · exact hinquiries _ _ (.inl ⟨mode, hpart, rfl⟩)
  · exact hinquiries _ _ (.inr (.inl ⟨owner, hpart, rfl⟩))
  · exact hinquiries _ _ (.inr (.inr (.inr ⟨(), if_pos hwants, rfl⟩)))

theorem ownerFailures_eq_nil {owner : String} (hsuccess : o.success) :
    ownerFailures path owner o = [] ↔ Text.trim o.stdout = owner := by
  simp [ownerFailures, hsuccess]

theorem reported_eq_ok [Libraries] {p : Property} {found : List String} (hsuccess : s.Succeeded a)
    (hoctal : s.OctalModes a) (h : s.reported a p = .ok found) : found = [] ↔ s.Holds a p := by
  cases p with
  | mode =>
    cases h
    rw [messages_eq_nil]
    refine forall₂_congr fun mode hpart => ?_
    exact modeFailures_eq_nil (hsuccess.mode mode hpart) (hoctal mode hpart).1 (hoctal mode hpart).2
  | owner =>
    cases h
    rw [messages_eq_nil]
    exact forall₂_congr fun owner hpart => ownerFailures_eq_nil (hsuccess.owner owner hpart)
  | size =>
    cases h
    rw [messages_eq_nil]
    exact forall₂_congr fun c _ => sizeFailures_eq_nil
  | contains =>
    cases h
    exact TextChecks.containsFailures_eq_nil
  | lacks =>
    cases h
    exact TextChecks.lacksFailures_eq_nil
  | pattern => exact TextChecks.patternFailures_eq_ok h
  | json => exact TextChecks.jsonFailures_eq_ok h

theorem exists_reported_of_holds [Libraries] {p : Property} (h : s.Holds a p) :
    ∃ found, s.reported a p = .ok found := by
  cases p with
  | mode | owner | size | contains | lacks => exact ⟨_, rfl⟩
  | pattern =>
    unfold reported
    cases hpart : s.pattern with
    | none => exact ⟨[], rfl⟩
    | some pattern =>
      obtain ⟨r, hparse, -⟩ := h pattern hpart
      exact TextChecks.exists_patternFailures hparse
  | json =>
    unfold reported
    cases hpart : s.json with
    | none => exact ⟨[], rfl⟩
    | some tree =>
      obtain ⟨v, hread, ⟨cs, hcs⟩, -⟩ := h tree hpart
      refine ⟨Check.failures cs, ?_⟩
      rw [TextChecks.jsonFailures, hread]
      exact congrArg (Except.map Check.failures) hcs

theorem findings_eq [Libraries] (h : s.wantsContent → a.content.success) :
    s.findings a = (s.contentChecks.failures s.label a.content.stdout).map fun byContent =>
      messages s.permissions (modeFailures s.path) a.mode ++
        (messages s.owner (ownerFailures s.path) a.owner ++
          (messages s.size (sizeFailures s.path) a.size ++ byContent)) := by
  have hcontent : finding (if s.wantsContent then some () else none)
      (fun _ o => s.contentFailures o) a.content =
        s.contentChecks.failures s.label a.content.stdout := by
    cases hwants : s.wantsContent with
    | true => exact if_pos (h hwants)
    | false =>
      simp only [wantsContent, Bool.or_eq_false_iff, Option.isSome_eq_false_iff,
        Option.isNone_iff_eq_none] at hwants
      obtain ⟨⟨⟨hcontains, hlacks⟩, hpattern⟩, hjson⟩ := hwants
      simp only [contentChecks, hcontains, hlacks, hpattern, hjson]
      rfl
  rw [findings, hcontent]

/-- Each property has its messages, whatever is found of those before it. -/
theorem findings_eq_flatMap [Libraries] {failed : List String}
    (h : s.wantsContent → a.content.success) :
    s.findings a = .ok failed ↔ ∃ messages : Property → List String,
      (∀ p, s.reported a p = .ok (messages p)) ∧ failed = Property.all.flatMap messages := by
  simp only [findings_eq h, map_eq_ok, TextChecks.failures_eq_ok]
  constructor
  · rintro ⟨_, ⟨byPattern, byJson, hpattern, hjson, rfl⟩, rfl⟩
    refine ⟨fun
      | .pattern => byPattern
      | .json => byJson
      | p => ((s.reported a p).toOption).getD [], fun p => ?_, ?_⟩
    · cases p with
      | pattern => exact hpattern
      | json => exact hjson
      | mode | owner | size | contains | lacks => rfl
    · simp [Property.all, reported, contentChecks, Except.toOption]
  · rintro ⟨messages, hmessages, rfl⟩
    refine ⟨_, ⟨_, _, hmessages .pattern, hmessages .json, rfl⟩, ?_⟩
    have hmode := Except.ok.inj (hmessages .mode)
    have howner := Except.ok.inj (hmessages .owner)
    have hsize := Except.ok.inj (hmessages .size)
    have hcontains := Except.ok.inj (hmessages .contains)
    have hlacks := Except.ok.inj (hmessages .lacks)
    simp [Property.all, contentChecks, hmode, howner, hsize, hcontains, hlacks]

theorem flatMap_messages_eq_nil {messages : Property → List String} :
    Property.all.flatMap messages = [] ↔ ∀ p, messages p = [] := by
  rw [List.flatMap_eq_nil_iff]
  exact ⟨fun h p => h p (by cases p <;> simp [Property.all]), fun h p _ => h p⟩

theorem findings_eq_nil [Libraries] (hsuccess : s.Succeeded a) (hoctal : s.OctalModes a) :
    s.findings a = .ok [] ↔ ∀ p, s.Holds a p := by
  rw [findings_eq_flatMap hsuccess.content]
  constructor
  · rintro ⟨messages, hmessages, hnil⟩ p
    exact (reported_eq_ok hsuccess hoctal (hmessages p)).mp (flatMap_messages_eq_nil.mp hnil.symm p)
  · intro h
    choose messages hmessages using fun p => exists_reported_of_holds (h p)
    refine ⟨messages, hmessages, (flatMap_messages_eq_nil.mpr fun p => ?_).symm⟩
    exact (reported_eq_ok hsuccess hoctal (hmessages p)).mpr (h p)

theorem findings_failsBy [Libraries] (h : s.wantsContent → a.content.success) :
    FailsBy s.contentChecks.PatternAmong (s.findings a) := by
  rw [findings_eq h]
  exact TextChecks.failures_failsBy.map _

theorem findings_of_invalid [Libraries] {pattern reason : String}
    (h : s.wantsContent → a.content.success)
    (hpart : s.pattern = some pattern) (hread : Libraries.readPattern pattern = .error reason) :
    s.findings a = .error (.invalidPattern pattern reason) := by
  rw [findings_eq h, TextChecks.failures_of_invalid hpart hread]
  rfl

theorem holds_size [Libraries] {n : Nat} (hn : n < 2 ^ 64)
    (hprinted : Text.trim a.size.stdout = toString n) :
    s.Holds a .size ↔ ∀ c, s.size = some c → c.holds (.ofNat n) := by
  have hdigits : Text.trimChars a.size.stdout.toList = Nat.toDigits 10 n := by
    rw [← Text.toList_trim, hprinted, Nat.toString_eq_ofList_toDigits, String.toList_ofList]
  unfold Holds
  rw [hdigits, Double.read?_toDigits hn]
  simp

/-- A step whose commands are all answered asks for nothing but what its dialogue has: whether the
file is there, and, if it is and should be, each property of which anything is wanted. If all of
them succeed, the step passes just when the file is as wanted. Each property has its messages, and
has none just when it is as wanted, whatever is found of the others; only a pattern that is no
regular expression ends the step with an error. A size is compared as the number that is printed. -/
theorem properties_decide [Libraries] (s : FileStep) (settings : StepSettings) {target : String}
    (htarget : settings.target s.container "file" = .ok target) :
    (∀ a, ∃ r, (s.run settings).run.Runs (s.dialogue target a) r) ∧
    (∀ es r, (s.run settings).run.Runs es r → ¬ Lost es → ∃ a, es = s.dialogue target a) ∧
    (∀ a r, (s.run settings).run.Runs (s.dialogue target a) r →
      (∀ command o, asked target command o ∈ s.dialogue target a → o.success) →
      (s.proceeds a → s.OctalModes a) →
      (r = .ok [] ↔ s.Passes a) ∧
      (s.proceeds a → ∀ failed, r = .ok failed → ∃ messages : Property → List String,
        (∀ p, s.reported a p = .ok (messages p) ∧ (messages p = [] ↔ s.Holds a p)) ∧
          failed = Property.all.flatMap messages) ∧
      (∀ e, r = .error e → s.proceeds a ∧
        ∃ v reason, s.contentChecks.PatternAmong v ∧
          Libraries.readPattern v.text = .error reason ∧ e = .invalidPattern v.text reason) ∧
      (s.proceeds a → ∀ pattern reason, s.pattern = some pattern →
        Libraries.readPattern pattern = .error reason →
        r = .error (.invalidPattern pattern reason))) ∧
    ∀ a n, n < 2 ^ 64 → Text.trim a.size.stdout = toString n →
      (s.Holds a .size ↔ ∀ c, s.size = some c → c.holds (.ofNat n)) := by
  refine ⟨fun a => ⟨_, run_runs htarget a⟩, fun es r h hlost => ?_,
    fun a r h hsucceed hoctal => ?_, fun a n => holds_size⟩
  · rcases runs_run htarget h with ⟨e, -, hlost'⟩ | ⟨a, rfl, -⟩
    · exact absurd hlost' hlost
    · exact ⟨a, rfl⟩
  obtain rfl := runs_unique (run_runs htarget a) h
  have hsuccess (hproceeds : s.proceeds a) := succeeded_of_dialogue hproceeds hsucceed
  have hverdict (hproceeds : s.proceeds a) : s.verdict a = s.findings a := if_pos hproceeds
  refine ⟨?_, fun hproceeds failed hfailed => ?_, fun e he => ?_,
    fun hproceeds pattern reason hpart hread => ?_⟩
  · rw [verdict_eq_ok, Passes]
    refine and_congr_right fun hfound => forall_congr' fun hwanted => ?_
    have hproceeds : s.proceeds a := by rw [proceeds, hfound, hwanted, Bool.true_and]
    exact findings_eq_nil (hsuccess hproceeds) (hoctal hproceeds)
  · rw [hverdict hproceeds, findings_eq_flatMap (hsuccess hproceeds).content] at hfailed
    obtain ⟨messages, hmessages, rfl⟩ := hfailed
    refine ⟨messages, fun p => ⟨hmessages p, ?_⟩, rfl⟩
    exact reported_eq_ok (hsuccess hproceeds) (hoctal hproceeds) (hmessages p)
  · cases hproceeds : s.proceeds a with
    | true =>
      rw [hverdict hproceeds] at he
      exact ⟨rfl, findings_failsBy (hsuccess hproceeds).content e he⟩
    | false =>
      unfold verdict at he
      rw [hproceeds, if_neg Bool.false_ne_true] at he
      split at he
      · cases he
      · split at he <;> cases he
  · rw [hverdict hproceeds]
    exact findings_of_invalid (hsuccess hproceeds).content hpart hread

/-- A file of which everything but a pattern is wanted. -/
def configStep : FileStep :=
  ⟨"/etc/app.json", none, none, some "0644", some "root:root", some ⟨.greater, .ofNat 100⟩,
    some "port", some "debug", none, some (.object [("port", .int 80)])⟩

def configAnswers : Answers :=
  ⟨⟨"yes\n", "", 0⟩, ⟨"644\n", "", 0⟩, ⟨"root:root\n", "", 0⟩, ⟨"120\n", "", 0⟩,
    ⟨"\x7b\"port\": 80\x7d\n", "", 0⟩⟩

theorem properties_decide_config :
    appSettings.target configStep.container "file" = .ok "app" ∧
      (∀ command o, asked "app" command o ∈ configStep.dialogue "app" configAnswers → o.success) ∧
      configStep.OctalModes configAnswers ∧ configStep.Passes configAnswers := by
  have hsucceed : ∀ command o,
      asked "app" command o ∈ configStep.dialogue "app" configAnswers → o.success := by
    have hproceeds : configStep.proceeds configAnswers := by decide +kernel
    intro command o ho
    rw [dialogue, if_pos hproceeds] at ho
    simp [inquiries, inquiry, configStep, configAnswers, asked, wantsContent] at ho
    rcases ho with ⟨-, rfl⟩ | ⟨-, rfl⟩ | ⟨-, rfl⟩ | ⟨-, rfl⟩ | ⟨-, rfl⟩ <;> rfl
  have hoctal : configStep.OctalModes configAnswers := by
    intro mode hmode
    cases hmode
    decide +kernel
  have hcontent : (configStep.contentFailures configAnswers.content).toOption = some [] := by
    decide +kernel
  have hpassed : configStep.verdict configAnswers = .ok [] := by
    refine verdict_eq_ok.mpr ⟨by decide +kernel, fun _ => findings_eq_ok.mpr ⟨?_, ?_, ?_, ?_⟩⟩
    · rintro mode ⟨⟩
      decide +kernel
    · rintro owner ⟨⟩
      decide +kernel
    · rintro c ⟨⟩
      decide +kernel
    · intro _
      cases hfailures : configStep.contentFailures configAnswers.content <;>
        rw [hfailures] at hcontent <;> cases hcontent
      rfl
  have htarget : appSettings.target configStep.container "file" = .ok "app" := rfl
  have hrun := run_runs htarget configAnswers
  obtain ⟨-, -, hdecide, -⟩ := properties_decide configStep appSettings htarget
  exact ⟨htarget, hsucceed, hoctal,
    (hdecide configAnswers _ hrun hsucceed fun _ => hoctal).1.mp hpassed⟩

end Assay.FileStep
