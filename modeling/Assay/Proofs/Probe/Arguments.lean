import Assay.Libraries.BuiltIn
import Assay.Proofs.Probe.Questions
import Assay.Proofs.Shell.Words

namespace Assay

open Shell (Follows invocations readWord tokens tokens_append tokens_shellQuote)

namespace FileStep

/-- The programs that look at a file, with the arguments they get before its path. -/
def programs : List (List String) :=
  [["test", "-e"], ["stat", "-c", "%a"], ["stat", "-c", "%U"], ["stat", "-c", "%U:%G"],
    ["stat", "-c", "%s"], ["cat"]]

theorem existsCommand_invocations (path : String) :
    invocations (existsCommand path) =
      some [["test", "-e", path], ["echo", "yes"], ["echo", "no"]] := by
  have hbefore : tokens "test -e".toList = some [.word "test", .word "-e"] := by decide +kernel
  have hafter : tokens "&& echo yes || echo no".toList =
      some
        [.operator "&&", .word "echo", .word "yes", .operator "||", .word "echo", .word "no"] := by
    decide +kernel
  have hline : (existsCommand path).toList =
      "test -e".toList ++ ' ' :: ((shellQuote path).toList ++
        ' ' :: "&& echo yes || echo no".toList) := by
    simp [existsCommand]
  rw [invocations, hline, tokens_append _ hbefore, tokens_append _ (tokens_shellQuote path), hafter]
  rfl

theorem statCommand_invocations {format : String} (h : '\'' ∉ format.toList) (path : String) :
    invocations (statCommand format path) = some [["stat", "-c", format, path]] := by
  have hbefore : tokens "stat -c".toList = some [.word "stat", .word "-c"] := by decide +kernel
  have hline : (statCommand format path).toList =
      "stat -c".toList ++ ' ' :: ((shellQuote format).toList ++
        ' ' :: (shellQuote path).toList) := by
    simp [statCommand, Shell.shellQuote_eq h]
  rw [invocations, hline, tokens_append _ hbefore, tokens_append _ (tokens_shellQuote format),
    tokens_shellQuote]
  rfl

theorem readCommand_invocations (path : String) :
    invocations (readCommand path) = some [["cat", path]] := by
  have hbefore : tokens "cat".toList = some [.word "cat"] := by decide +kernel
  have hline : (readCommand path).toList = "cat".toList ++ ' ' :: (shellQuote path).toList := by
    simp [readCommand]
  rw [invocations, hline, tokens_append _ hbefore, tokens_shellQuote]
  rfl

/-- In each command about a file, the path is the last argument of the program that looks at it,
and what else is run does not depend on it. -/
theorem Inspects.invocations {path command : String} (h : Inspects path command) :
    ∃ program ∈ programs, ∃ others ∈ [[], [["echo", "yes"], ["echo", "no"]]],
      Shell.invocations command = some ((program ++ [path]) :: others) := by
  cases h with
  | existence =>
    exact ⟨["test", "-e"], by decide, _, .tail _ (.head _), existsCommand_invocations path⟩
  | mode =>
    exact ⟨["stat", "-c", "%a"], by decide, _, .head _, statCommand_invocations (by decide) path⟩
  | owner owner =>
    unfold ownerFormat
    split
    · exact ⟨["stat", "-c", "%U:%G"], by decide, _, .head _,
        statCommand_invocations (by decide) path⟩
    · exact ⟨["stat", "-c", "%U"], by decide, _, .head _,
        statCommand_invocations (by decide) path⟩
  | size =>
    exact ⟨["stat", "-c", "%s"], by decide, _, .head _, statCommand_invocations (by decide) path⟩
  | content => exact ⟨["cat"], by decide, _, .head _, readCommand_invocations path⟩

end FileStep

namespace ProcessStep

theorem list_invocations {listing flag : String} (name : String)
    (h : tokens listing.toList =
      some [.word "ps", .word flag, .operator "|", .word "grep", .word "--"]) :
    invocations (listing ++ " " ++ shellQuote name) =
      some [["ps", flag], ["grep", "--", name]] := by
  have hline : (listing ++ " " ++ shellQuote name).toList =
      listing.toList ++ ' ' :: (shellQuote name).toList := by
    simp
  rw [invocations, hline, tokens_append _ h, tokens_shellQuote]
  rfl

theorem Lists.invocations {name command : String} (h : Lists name command) :
    ∃ flag ∈ ["aux", "-ef"],
      Shell.invocations command = some [["ps", flag], ["grep", "--", name]] := by
  cases h with
  | full =>
    have hlisting : "ps aux | grep -- " = "ps aux | grep --" ++ " " := by decide +kernel
    have hcommand : listCommand name = "ps aux | grep --" ++ " " ++ shellQuote name :=
      congrArg (· ++ shellQuote name) hlisting
    rw [hcommand]
    exact ⟨"aux", by decide, list_invocations name (by decide +kernel)⟩
  | plain =>
    have hlisting : "ps -ef | grep -- " = "ps -ef | grep --" ++ " " := by decide +kernel
    have hcommand : plainListCommand name = "ps -ef | grep --" ++ " " ++ shellQuote name :=
      congrArg (· ++ shellQuote name) hlisting
    rw [hcommand]
    exact ⟨"-ef", by decide, list_invocations name (by decide +kernel)⟩

end ProcessStep

/-- A quoted text is one word to a shell, whatever stands in it and whatever follows it. So no two
texts are quoted alike, and the programs that are run for a file or for processes get the path or
the name as one argument, just as it is. -/
theorem quoted_argument [Libraries] :
    (∀ s rest, Follows rest →
      readWord .bare ((shellQuote s).toList ++ rest) = some (s.toList, rest)) ∧
    Function.Injective shellQuote ∧
    (∀ (s : FileStep) settings, Trial.AsksOnly (fun q => ∃ target command,
      q = .exec target command FileStep.limit ∧
      ∃ program ∈ FileStep.programs, ∃ others ∈ [[], [["echo", "yes"], ["echo", "no"]]],
        invocations command = some ((program ++ [s.path]) :: others)) (s.run settings)) ∧
    ∀ (s : ProcessStep) settings, Trial.AsksOnly (fun q => ∃ target command,
      q = .exec target command ProcessStep.limit ∧
      ∃ flag ∈ ["aux", "-ef"], invocations command = some [["ps", flag], ["grep", "--", s.name]])
      (s.run settings) := by
  refine ⟨fun s rest h => Shell.readWord_shellQuote s h, Shell.shellQuote_injective, ?_, ?_⟩
  · intro s settings
    refine (s.run_inspects settings).mono ?_
    rintro q ⟨target, command, hq, h⟩
    exact ⟨target, command, hq, h.invocations⟩
  · intro s settings
    refine (s.run_lists settings).mono ?_
    rintro q ⟨target, command, hq, h⟩
    exact ⟨target, command, hq, h.invocations⟩

/-- A text with a quote in it, before an operator. -/
theorem quoted_argument_apostrophe :
    Follows " && echo yes".toList ∧
      readWord .bare ("'it'\\''s here' && echo yes".toList) =
        some ("it's here".toList, " && echo yes".toList) := by
  have hfollows : Follows " && echo yes".toList := by
    intro c hc
    cases hc
    rfl
  exact ⟨hfollows, quoted_argument.1 "it's here" " && echo yes".toList hfollows⟩

end Assay
