import Assay.Libraries.BuiltIn
import Assay.Proofs.Document.Sound

namespace Assay.Yaml

variable {fuel column : Nat} {parent : Int} {p q : Place} {d : Document}

theorem empty_sound : empty.Sound := .plain ""

theorem sound_map_string {x : Option (String × Place)}
    (h : (x.map fun r => (Document.string r.1, r.2)) = some (d, q)) : d.Sound := by
  obtain ⟨r, -, heq⟩ := Option.map_eq_some_iff.mp h
  cases heq
  exact .string _

theorem sound_map_plain {x : Option (String × Place)}
    (h : (x.map fun r => (Document.plain r.1, r.2)) = some (d, q)) : d.Sound := by
  obtain ⟨r, -, heq⟩ := Option.map_eq_some_iff.mp h
  cases heq
  exact .plain _

theorem sound_map_sequence {x : Option (List Document × Place)}
    (hx : ∀ r ∈ x, ∀ d ∈ r.1, d.Sound)
    (h : (x.map fun r => (Document.sequence r.1, r.2)) = some (d, q)) : d.Sound := by
  obtain ⟨r, hr, heq⟩ := Option.map_eq_some_iff.mp h
  cases heq
  exact .sequence (hx r hr)

theorem sound_map_mapping {x : Option (List (Key × Document) × Place)}
    (hx : ∀ r ∈ x, ∀ e ∈ r.1, e.2.Sound)
    (h : (x.map fun r => (Document.mapping r.1, r.2)) = some (d, q)) : d.Sound := by
  obtain ⟨r, hr, heq⟩ := Option.map_eq_some_iff.mp h
  cases heq
  exact .mapping (hx r hr)

/-- Readers of flow style with so much fuel make sound documents. -/
structure FlowSound (fuel : Nat) : Prop where
  node {p : Place} : ∀ r ∈ readFlow fuel p, r.1.Sound
  value {p : Place} : ∀ r ∈ readFlowValue fuel p, r.1.Sound
  items {p : Place} : ∀ r ∈ readFlowItems fuel p, ∀ d ∈ r.1, d.Sound
  entries {p : Place} : ∀ r ∈ readFlowEntries fuel p, ∀ e ∈ r.1, e.2.Sound

theorem readFlow_sound (ih : FlowSound fuel) : ∀ r ∈ readFlow (fuel + 1) p, r.1.Sound := by
  rintro ⟨d, q⟩ h
  rw [Option.mem_def, readFlow] at h
  split at h
  · exact sound_map_sequence ih.items h
  · exact sound_map_mapping ih.entries h
  · exact sound_map_string h
  · exact sound_map_string h
  · split at h
    · exact sound_map_plain h
    · cases h

theorem readFlowValue_sound (ih : FlowSound fuel) :
    ∀ r ∈ readFlowValue (fuel + 1) p, r.1.Sound := by
  rintro ⟨d, q⟩ h
  rw [Option.mem_def, readFlowValue] at h
  split at h
  · cases h
    exact empty_sound
  · cases h
    exact empty_sound
  · cases h
    exact empty_sound
  · exact ih.node _ h

theorem readFlowItems_sound (ih : FlowSound fuel) :
    ∀ r ∈ readFlowItems (fuel + 1) p, ∀ d ∈ r.1, d.Sound := by
  rintro ⟨items, q⟩ h
  rw [Option.mem_def, readFlowItems] at h
  split at h
  · cases h
    exact List.forall_mem_nil _
  · obtain ⟨⟨d, r⟩, hd, h⟩ := Option.bind_eq_some_iff.mp h
    dsimp -zeta only at h
    extract_lets go at h
    have hgo {item : Document} {s : Place} (hitem : item.Sound)
        (h : go (item, s) = some (items, q)) : ∀ d ∈ items, d.Sound := by
      dsimp only [go] at h
      split at h
      · obtain ⟨rest, hrest, h⟩ := Option.bind_eq_some_iff.mp h
        cases h
        exact List.forall_mem_cons.mpr ⟨hitem, ih.items rest hrest⟩
      · cases h
        exact List.forall_mem_singleton.mpr hitem
      · cases h
    split at h
    · obtain ⟨item, hitem, h⟩ := Option.bind_eq_some_iff.mp h
      obtain ⟨v, hv, rfl⟩ := Option.map_eq_some_iff.mp hitem
      exact hgo (.mapping (List.forall_mem_singleton.mpr (ih.value v hv))) h
    · exact hgo (ih.node _ hd) h

theorem readFlowEntries_sound (ih : FlowSound fuel) :
    ∀ r ∈ readFlowEntries (fuel + 1) p, ∀ e ∈ r.1, e.2.Sound := by
  rintro ⟨entries, q⟩ h
  rw [Option.mem_def, readFlowEntries] at h
  split at h
  · cases h
    exact List.forall_mem_nil _
  · obtain ⟨⟨d, r⟩, hd, h⟩ := Option.bind_eq_some_iff.mp h
    dsimp -zeta only at h
    extract_lets go at h
    have hgo {v : Document} {s : Place} (hv : v.Sound) (h : go (v, s) = some (entries, q)) :
        ∀ e ∈ entries, e.2.Sound := by
      dsimp only [go] at h
      split at h
      · obtain ⟨rest, hrest, h⟩ := Option.bind_eq_some_iff.mp h
        cases h
        exact List.forall_mem_cons.mpr ⟨hv, ih.entries rest hrest⟩
      · cases h
        exact List.forall_mem_singleton.mpr hv
      · cases h
    split at h
    · obtain ⟨v, hv, h⟩ := Option.bind_eq_some_iff.mp h
      exact hgo (ih.value v hv) h
    · exact hgo empty_sound h

theorem flowSound (fuel : Nat) : FlowSound fuel := by
  induction fuel with
  | zero => exact ⟨nofun, nofun, nofun, nofun⟩
  | succ fuel ih => exact ⟨readFlow_sound ih, readFlowValue_sound ih, readFlowItems_sound ih,
    readFlowEntries_sound ih⟩

theorem readInline_sound : ∀ r ∈ readInline parent p, r.1.Sound := by
  rintro ⟨d, q⟩ h
  rw [Option.mem_def, readInline] at h
  split at h
  · exact (flowSound _).node _ h
  · exact (flowSound _).node _ h
  · exact sound_map_string h
  · exact sound_map_string h
  · split at h
    · exact sound_map_plain h
    · cases h

theorem readLeaf_sound : ∀ r ∈ readLeaf parent p, r.1.Sound := by
  rintro ⟨d, q⟩ h
  rw [Option.mem_def, readLeaf] at h
  split at h
  · exact sound_map_string h
  · exact readInline_sound _ h

/-- Readers of block style with so much fuel make sound documents. -/
structure BlockSound (fuel : Nat) : Prop where
  node {parent : Int} {p : Place} : ∀ r ∈ readNode fuel parent p, r.1.Sound
  value {column : Nat} {p : Place} : ∀ r ∈ readEntryValue fuel column p, r.1.Sound
  entries {column : Nat} {key : Key} {p : Place} :
    ∀ r ∈ readEntries fuel column key p, ∀ e ∈ r.1, e.2.Sound
  items {column : Nat} {p : Place} : ∀ r ∈ readItems fuel column p, ∀ d ∈ r.1, d.Sound

theorem readNode_sound (ih : BlockSound fuel) : ∀ r ∈ readNode (fuel + 1) parent p, r.1.Sound := by
  rintro ⟨d, q⟩ h
  rw [Option.mem_def, readNode] at h
  split at h
  · exact sound_map_sequence ih.items h
  · split at h
    · exact readLeaf_sound _ h
    · obtain ⟨⟨e, r⟩, he, h⟩ := Option.bind_eq_some_iff.mp h
      dsimp only at h
      split at h
      · exact sound_map_mapping ih.entries h
      · cases h
        exact readInline_sound _ he

theorem readEntryValue_sound (ih : BlockSound fuel) :
    ∀ r ∈ readEntryValue (fuel + 1) column p, r.1.Sound := by
  rintro ⟨d, q⟩ h
  rw [Option.mem_def, readEntryValue] at h
  split at h
  · split at h
    · cases h
    · exact readLeaf_sound _ h
  · split at h
    · cases h
      exact empty_sound
    · split at h
      · exact sound_map_sequence ih.items h
      · split at h
        · exact ih.node _ h
        · cases h
          exact empty_sound

theorem readEntries_sound {key : Key} (ih : BlockSound fuel) :
    ∀ r ∈ readEntries (fuel + 1) column key p, ∀ e ∈ r.1, e.2.Sound := by
  rintro ⟨entries, q⟩ h
  rw [Option.mem_def, readEntries] at h
  obtain ⟨⟨v, r⟩, hv, h⟩ := Option.bind_eq_some_iff.mp h
  have hsound : v.Sound := ih.value _ hv
  dsimp only at h
  split at h
  · cases h
    exact List.forall_mem_singleton.mpr hsound
  · split at h
    · cases h
    · split at h
      · cases h
        exact List.forall_mem_singleton.mpr hsound
      · split at h
        · cases h
        · obtain ⟨d, -, h⟩ := Option.bind_eq_some_iff.mp h
          obtain ⟨s, -, h⟩ := Option.bind_eq_some_iff.mp h
          obtain ⟨rest, hrest, h⟩ := Option.bind_eq_some_iff.mp h
          cases h
          exact List.forall_mem_cons.mpr ⟨hsound, ih.entries rest hrest⟩

theorem readItems_sound (ih : BlockSound fuel) :
    ∀ r ∈ readItems (fuel + 1) column p, ∀ d ∈ r.1, d.Sound := by
  rintro ⟨items, q⟩ h
  rw [Option.mem_def] at h
  unfold readItems at h
  extract_lets start s go at h
  have hgo {item : Document} {s : Place} (hitem : item.Sound)
      (h : go (item, s) = some (items, q)) : ∀ d ∈ items, d.Sound := by
    dsimp only [go] at h
    split at h
    · cases h
      exact List.forall_mem_singleton.mpr hitem
    · split at h
      · cases h
      · split at h
        · obtain ⟨rest, hrest, h⟩ := Option.bind_eq_some_iff.mp h
          cases h
          exact List.forall_mem_cons.mpr ⟨hitem, ih.items rest hrest⟩
        · split at h
          · cases h
          · cases h
            exact List.forall_mem_singleton.mpr hitem
  split at h
  · exact hgo empty_sound h
  · obtain ⟨d, hd, h⟩ := Option.bind_eq_some_iff.mp h
    exact hgo (ih.node d hd) h

theorem blockSound (fuel : Nat) : BlockSound fuel := by
  induction fuel with
  | zero => exact ⟨nofun, nofun, nofun, nofun⟩
  | succ fuel ih =>
    exact ⟨readNode_sound ih, readEntryValue_sound ih, readEntries_sound ih, readItems_sound ih⟩

theorem read_sound {text : String} (h : read text = some d) : d.Sound := by
  have hrest {r : Document × Place} (hr : r.1.Sound)
      (h : (if nothingFollows r.2 then some r.1 else none) = some d) : d.Sound := by
    split at h
    · cases h
      exact hr
    · cases h
  unfold read at h
  extract_lets all cs fuel place marked start q finish go at h
  split at h
  · cases h
  · unfold go at h
    split at h
    · split at h
      · cases h
        exact empty_sound
      · cases h
    · split at h
      · obtain ⟨r, hr, h⟩ := Option.bind_eq_some_iff.mp h
        exact hrest (readLeaf_sound r hr) h
      · obtain ⟨r, hr, h⟩ := Option.bind_eq_some_iff.mp h
        exact hrest ((blockSound _).node r hr) h

end Assay.Yaml

namespace Assay

theorem orRefuse_eq_ok {α : Type} {x : Option α} {a : α} : orRefuse x = .ok a ↔ x = some a := by
  cases x <;> simp [orRefuse]

instance builtIn_lawful : Libraries.Lawful where
  sound_of_readYaml h := Yaml.read_sound (orRefuse_eq_ok.mp h)

end Assay
