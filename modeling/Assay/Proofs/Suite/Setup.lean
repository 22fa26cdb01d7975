import Assay.Libraries.BuiltIn
import Assay.Proofs.Document.Origins
import Assay.Proofs.Document.Sound
import Assay.Suite.Load

namespace Assay

open Decoder (text_alike bool_alike value_alike fields_alike)
open Record (required_alike optional_alike option_alike)

theorem Duration.decode_alike : decode.Alike := fun _ _ => Iff.rfl

theorem Comparison.decode_alike : decode.Alike := fun _ _ => Iff.rfl

theorem ExpressionList.decode_alike : decode.Alike := fun _ _ => Iff.rfl

theorem Decoder.looseText_alike : looseText.Alike := fun _ _ => Iff.rfl

theorem RequestStep.decode_alike : decode.Alike := by
  refine Record.Alike.decode (.seq (.seq (.seq (.seq (.seq (.map ?_) ?_) ?_) ?_) ?_) ?_) _ _
  · exact optional_alike _ _ text_alike
  · exact option_alike _ text_alike
  · exact option_alike _ text_alike
  · exact optional_alike _ _ fields_alike
  · exact option_alike _ value_alike
  · exact option_alike _ Duration.decode_alike

theorem ExecStep.decode_alike : decode.Alike := by
  refine Record.Alike.decode (.seq (.map ?_) ?_) _ _
  · exact required_alike _ text_alike
  · exact option_alike _ text_alike

theorem FileStep.decode_alike : decode.Alike := by
  refine Record.Alike.decode (.seq (.seq (.seq (.seq (.seq (.seq (.seq (.seq (.seq (.map ?_) ?_)
    ?_) ?_) ?_) ?_) ?_) ?_) ?_) ?_) _ _
  · exact required_alike _ text_alike
  · exact option_alike _ text_alike
  · exact option_alike _ bool_alike
  · exact option_alike _ Decoder.looseText_alike
  · exact option_alike _ text_alike
  · exact option_alike _ Comparison.decode_alike
  · exact option_alike _ text_alike
  · exact option_alike _ text_alike
  · exact option_alike _ text_alike
  · exact option_alike _ value_alike

theorem ProcessStep.decode_alike : decode.Alike := by
  refine Record.Alike.decode (.seq (.seq (.seq (.seq (.map ?_) ?_) ?_) ?_) ?_) _ _
  · exact required_alike _ text_alike
  · exact option_alike _ text_alike
  · exact option_alike _ bool_alike
  · exact option_alike _ Comparison.decode_alike
  · exact option_alike _ text_alike

theorem PortStep.decode_alike : decode.Alike := by
  refine Record.Alike.decode (.seq (.seq (.seq (.seq (.map ?_) ?_) ?_) ?_) ?_) _ _
  · exact required_alike _ (Decoder.unsigned_alike _ _)
  · exact option_alike _ text_alike
  · exact option_alike _ text_alike
  · exact option_alike _ bool_alike
  · exact option_alike _ Duration.decode_alike

theorem OutputExpectation.decode_alike : decode.Alike := by
  refine Record.Alike.decode (.seq (.seq (.seq (.seq (.map ?_) ?_) ?_) ?_) ?_) _ _
  · exact option_alike _ text_alike
  · exact option_alike _ text_alike
  · exact option_alike _ text_alike
  · exact option_alike _ value_alike
  · exact option_alike _ Comparison.decode_alike

theorem Expectation.decode_alike : decode.Alike := by
  refine Record.Alike.decode (.seq (.seq (.seq (.seq (.seq (.seq (.seq (.map ?_) ?_) ?_) ?_) ?_)
    ?_) ?_) ?_) _ _
  · exact option_alike _ value_alike
  · exact option_alike _ fields_alike
  · exact option_alike _ value_alike
  · exact option_alike _ OutputExpectation.decode_alike
  · exact option_alike _ (Decoder.integer_alike _ _ _ _)
  · exact option_alike _ ExpressionList.decode_alike
  · exact option_alike _ value_alike.list
  · exact option_alike _ value_alike.list

theorem RetryPolicy.decode_alike : decode.Alike := by
  refine Record.Alike.decode (.seq (.seq (.seq (.map ?_) ?_) ?_) ?_) _ _
  · exact optional_alike _ _ (Decoder.unsigned_alike _ _)
  · exact optional_alike _ _ Duration.decode_alike
  · exact option_alike _ (Decoder.variant_alike _)
  · exact option_alike _ Decoder.float_alike

theorem Step.decode_alike : decode.Alike := by
  refine (Record.Alike.decode (.seq (.seq (.seq (.seq (.seq (.seq (.seq (.seq (.seq (.seq (.seq
    (.map ?_) ?_) ?_) ?_) ?_) ?_) ?_) ?_) ?_) ?_) ?_) ?_) _ _).map ofWritten
  · exact option_alike _ text_alike
  · exact option_alike _ RequestStep.decode_alike
  · exact option_alike _ ExecStep.decode_alike
  · exact option_alike _ FileStep.decode_alike
  · exact option_alike _ ProcessStep.decode_alike
  · exact option_alike _ PortStep.decode_alike
  · exact option_alike _ Duration.decode_alike
  · exact option_alike _ Expectation.decode_alike
  · exact optional_alike _ _ text_alike.entries
  · exact optional_alike _ _ bool_alike
  · exact option_alike _ RetryPolicy.decode_alike
  · exact optional_alike _ _ bool_alike

namespace SetupEntry

variable {o : Origin} {d : Document} {fields : Fields} {entry : SetupEntry}

/-- No wait is asked for. -/
def IsStepForm (fields : Fields) : Prop :=
  Entries.get? fields "waitForHealth" = none ∧ Entries.get? fields "waitForPort" = none

/-- Without a wait, an entry is the step that its JSON form is among the cases. -/
theorem decode_stepForm (hfields : Decoder.fields o d = .ok fields) (hform : IsStepForm fields) :
    decode o d = .ok entry ↔
      ∃ step, Step.decode .jsonText (.ofValue (.object fields)) = .ok step ∧
        entry = ofStep step := by
  have hof : ofFields fields =
      (Step.decode .jsonValue (.ofValue (.object fields))).map ofStep := by
    unfold ofFields
    rw [hform.1, hform.2]
  have hdecode : decode o d = .ok entry ↔ ofFields fields = .ok entry := by
    unfold decode
    rw [hfields]
    dsimp only [bind, Except.bind]
    cases ofFields fields with
    | ok e => exact Iff.rfl
    | error m => exact ⟨nofun, nofun⟩
  rw [hdecode, hof, map_eq_ok]
  simp only [Step.decode_alike _, eq_comm]

/-- A setup entry without a wait loads just when its JSON form loads as a case, and then it is that
step, or the delay of a step that only waits. In JSON text without repeated keys the entry is its
own JSON form. -/
theorem setup_entry_iff_case (hform : IsStepForm fields) (entry : SetupEntry) :
    (∀ o d, Decoder.fields o d = .ok fields →
      (decode o d = .ok entry ↔
        ∃ step, Step.decode .jsonText (.ofValue (.object fields)) = .ok step ∧
          entry = ofStep step)) ∧
    ((Value.object fields).Settled →
      (decode .jsonText (.ofValue (.object fields)) = .ok entry ↔
        ∃ step, Step.decode .jsonText (.ofValue (.object fields)) = .ok step ∧
          entry = ofStep step)) := by
  constructor
  · intro o d hfields
    exact decode_stepForm hfields hform
  · intro hsettled
    exact decode_stepForm (Decoder.fields_ofValue .jsonText hsettled) hform

/-- A file step with a size, as JSON text and as YAML. -/
theorem setup_entry_iff_case_file :
    let fields : Fields := [("file", .object [("path", .string "/x"), ("size", .nat 3)])]
    let yaml : Document :=
      .mapping [(.text "file", .mapping [(.text "path", .plain "/x"), (.text "size", .plain "3")])]
    IsStepForm fields ∧ (Value.object fields).Settled ∧
      Decoder.fields .yaml yaml = .ok fields ∧
      ∃ step, Step.decode .jsonText (.ofValue (.object fields)) = .ok step ∧
        decode .jsonText (.ofValue (.object fields)) = .ok (ofStep step) ∧
        decode .yaml yaml = .ok (ofStep step) := by
  intro fields yaml
  have hform : IsStepForm fields := ⟨rfl, rfl⟩
  have hsettled : (Value.object fields).Settled := by
    refine .object (by decide) (List.forall_mem_singleton.mpr (.object (by decide) ?_))
    exact List.forall_mem_cons.mpr
      ⟨.string "/x", List.forall_mem_singleton.mpr (.int ⟨by decide, by decide⟩)⟩
  have hyaml : Decoder.fields .yaml yaml = .ok fields := by rfl
  have hsome : (Step.decode .jsonText (.ofValue (.object fields))).toOption.isSome := by decide
  cases hstep : Step.decode .jsonText (.ofValue (.object fields)) with
  | error m =>
    rw [hstep] at hsome
    cases hsome
  | ok step =>
    have hiff := setup_entry_iff_case hform (ofStep step)
    exact ⟨hform, hsettled, hyaml, step, rfl, (hiff.2 hsettled).mpr ⟨step, hstep, rfl⟩,
      (hiff.1 .yaml yaml hyaml).mpr ⟨step, hstep, rfl⟩⟩

end SetupEntry

/-- A plain number where a text is wanted: the setup refuses what the cases take. In JSON, the
setup takes a repeated key that the cases refuse. -/
theorem Suite.setup_unlike_cases :
    let yaml := "  - file: \x7b path: /x, owner: 1000 \x7d\n"
    let json := "\x7b\"name\": \"a\", \"name\": \"b\"\x7d"
    (ofYaml ("name: s\nsetup:\n" ++ yaml ++ "cases: []\n")).toOption.isSome = false ∧
    (ofYaml ("name: s\ncases:\n" ++ yaml)).toOption.isSome = true ∧
    (ofJson ("\x7b\"name\": \"s\", \"cases\": [], \"setup\": [" ++ json ++ "]\x7d")).toOption.isSome
      = true ∧
    (ofJson ("\x7b\"name\": \"s\", \"cases\": [" ++ json ++ "]\x7d")).toOption.isSome = false := by
  decide +kernel

end Assay
