import Assay.Check.Equality
import Assay.Proofs.Document.Sound
import Mathlib.Data.List.Forall2
import Mathlib.Data.List.Perm.Subperm

namespace Assay

/-- Lists that are related item by item are so by whatever follows from that for an item. -/
theorem forall₂_of_mem {α β : Type} {R S : α → β → Prop} {as : List α} {bs : List β}
    (h : List.Forall₂ R as bs) (hmem : ∀ a ∈ as, ∀ b, R a b → S a b) : List.Forall₂ S as bs :=
  ((List.forall₂_and_left as bs).mpr ⟨hmem, h⟩).imp fun _ b hab => hab.1 b hab.2

namespace Double

variable {x y z : Double}

theorem equals_iff : x.equals y ↔ ∃ place, x.rank? = some place ∧ y.rank? = some place := by
  unfold equals compare?
  cases x.rank? with
  | none => exact ⟨nofun, nofun⟩
  | some a =>
    cases y.rank? with
    | none => exact ⟨nofun, nofun⟩
    | some b =>
      have hplace : (some (compare a b) == some Ordering.eq) = true ↔ a = b := by
        rw [beq_iff_eq, Option.some.injEq, compare_eq_iff_eq]
      refine hplace.trans ⟨?_, ?_⟩
      · rintro rfl
        exact ⟨a, rfl, rfl⟩
      · rintro ⟨place, ha, hb⟩
        exact Option.some.inj (ha.trans hb.symm)

theorem equals_symm (h : x.equals y) : y.equals x := by
  obtain ⟨place, hx, hy⟩ := equals_iff.mp h
  exact equals_iff.mpr ⟨place, hy, hx⟩

theorem equals_trans (h : x.equals y) (g : y.equals z) : x.equals z := by
  obtain ⟨place, hx, hy⟩ := equals_iff.mp h
  obtain ⟨other, hy', hz⟩ := equals_iff.mp g
  obtain rfl : place = other := Option.some.inj (hy.symm.trans hy')
  exact equals_iff.mpr ⟨place, hx, hz⟩

theorem equals_self (h : x.isNaN = false) : x.equals x := by
  cases x with
  | finite | infinite => exact equals_iff.mpr ⟨_, rfl, rfl⟩
  | nan => cases h

theorem ofInt_isNaN (n : Int) : (ofInt n).isNaN = false := by
  unfold ofInt ofRatio ofQuanta
  split <;> rfl

theorem isNaN_of_isFinite (h : x.isFinite) : x.isNaN = false := by
  cases x with
  | finite | infinite => rfl
  | nan => cases h

end Double

theorem Entries.mem_of_get? {α : Type} {es : Entries α} {name : String} {a : α}
    (h : es.get? name = some a) : (name, a) ∈ es := by
  obtain ⟨before, after, rfl, -⟩ := List.lookup_eq_some_iff.mp h
  exact List.mem_append_right before List.mem_cons_self

namespace Value

/-- Induction on a value: what holds of an array follows from what holds of its items, and what
holds of an object from what holds of the values of its fields. -/
@[elab_as_elim]
theorem induction {motive : Value → Prop} (null : motive .null) (bool : ∀ b, motive (.bool b))
    (number : ∀ n, motive (.number n)) (string : ∀ s, motive (.string s))
    (array : ∀ items, (∀ v ∈ items, motive v) → motive (.array items))
    (object : ∀ fields : Fields, (∀ f ∈ fields, motive f.2) → motive (.object fields))
    (v : Value) : motive v :=
  @Value.rec motive (fun items => ∀ v ∈ items, motive v) (fun fields => ∀ f ∈ fields, motive f.2)
    (fun f => motive f.2) null bool number string array object (List.forall_mem_nil _)
    (fun _ _ hv hvs => List.forall_mem_cons.mpr ⟨hv, hvs⟩) (List.forall_mem_nil _)
    (fun _ _ hf hfs => List.forall_mem_cons.mpr ⟨hf, hfs⟩) (fun _ _ h => h) v

variable {a b c : Value} {as bs : List Value} {fs gs : Fields}

theorem distinctKeys_array : (array as).DistinctKeys ↔ ∀ v ∈ as, v.DistinctKeys := by
  have hall : DistinctKeysAll as ↔ ∀ v ∈ as, v.DistinctKeys := by
    induction as with
    | nil => simp [DistinctKeysAll]
    | cons v vs ih => rw [DistinctKeysAll, ih, List.forall_mem_cons]
  exact hall

theorem distinctKeys_object :
    (object fs).DistinctKeys ↔ fs.keys.Nodup ∧ ∀ f ∈ fs, f.2.DistinctKeys := by
  have hall : DistinctKeysFields fs ↔ ∀ f ∈ fs, f.2.DistinctKeys := by
    induction fs with
    | nil => simp [DistinctKeysFields]
    | cons f fs ih => rw [DistinctKeysFields, ih, List.forall_mem_cons]
  exact and_congr_right fun _ => hall

theorem equals_array :
    (array as).equals (array bs) ↔ List.Forall₂ (fun a b => a.equals b) as bs := by
  have hall : equalsAll as bs ↔ List.Forall₂ (fun a b => a.equals b) as bs := by
    induction as generalizing bs with
    | nil => cases bs <;> simp [equalsAll]
    | cons a as ih => cases bs <;> simp [equalsAll, ih]
  exact hall

theorem equalsFields_eq_all (fs gs : Fields) :
    equalsFields fs gs = fs.all fun f => (gs.get? f.1).any f.2.equals := by
  induction fs with
  | nil => rfl
  | cons f fs ih => rw [equalsFields, ih, List.all_cons]

theorem equals_object :
    (object fs).equals (object gs) ↔
      fs.length = gs.length ∧ ∀ f ∈ fs, ∃ b, gs.get? f.1 = some b ∧ f.2.equals b := by
  rw [equals, equalsFields_eq_all]
  simp only [Bool.and_eq_true, beq_iff_eq, List.all_eq_true, Option.any_eq_true]

theorem equals_self (h : a.Settled) : a.equals a := by
  induction h with
  | null => rfl
  | bool b => exact beq_self_eq_true b
  | int => exact Double.equals_self (Double.ofInt_isNaN _)
  | float _ hx => exact Double.equals_self (Double.isNaN_of_isFinite hx)
  | string s => exact beq_self_eq_true s
  | array _ ih => exact equals_array.mpr (List.forall₂_same.mpr ih)
  | object hkeys _ ih =>
    refine equals_object.mpr ⟨rfl, fun f hf => ⟨f.2, ?_, ih f hf⟩⟩
    exact (Entries.get?_eq_some_iff hkeys).mpr hf

/-- As many keys, each of them found on the other side, are the same keys if none is repeated. -/
theorem keys_perm (hkeys : fs.keys.Nodup) (hlength : fs.length = gs.length)
    (hfound : ∀ f ∈ fs, ∃ b, gs.get? f.1 = some b) : fs.keys.Perm gs.keys := by
  have hsub : fs.keys ⊆ gs.keys := by
    intro key hkey
    obtain ⟨f, hf, rfl⟩ := List.mem_map.mp hkey
    obtain ⟨b, hb⟩ := hfound f hf
    by_contra hnot
    rw [Entries.get?_eq_none_iff.mpr hnot] at hb
    cases hb
  refine (List.subperm_of_subset hkeys hsub).perm_of_length_le ?_
  simp [Entries.keys, hlength]

theorem equals_symm (h : a.DistinctKeys) (hab : a.equals b) : b.equals a := by
  induction a using Value.induction generalizing b with
  | null | bool | string =>
    cases b <;> simp_all [equals]
  | number m =>
    cases b with
    | number n => exact Double.equals_symm hab
    | _ => cases hab
  | array as ih =>
    cases b with
    | array bs =>
      rw [distinctKeys_array] at h
      rw [equals_array] at hab ⊢
      exact (forall₂_of_mem hab fun v hv b => ih v hv (h v hv)).flip
    | _ => cases hab
  | object fs ih =>
    cases b with
    | object gs =>
      obtain ⟨hkeys, hparts⟩ := distinctKeys_object.mp h
      obtain ⟨hlength, hfound⟩ := equals_object.mp hab
      have hperm := keys_perm hkeys hlength fun f hf => (hfound f hf).imp fun _ hb => hb.1
      refine equals_object.mpr ⟨hlength.symm, fun g hg => ?_⟩
      obtain ⟨f, hf, hfg⟩ : ∃ f ∈ fs, f.1 = g.1 :=
        List.mem_map.mp (hperm.mem_iff.mpr (List.mem_map.mpr ⟨g, hg, rfl⟩))
      obtain ⟨b, hb, hequal⟩ := hfound f hf
      have hg' : Entries.get? gs g.1 = some g.2 :=
        (Entries.get?_eq_some_iff (hperm.nodup_iff.mp hkeys)).mpr hg
      obtain rfl : g.2 = b := Option.some.inj (hg'.symm.trans (hfg ▸ hb))
      refine ⟨f.2, ?_, ih f hf (hparts f hf) hequal⟩
      rw [← hfg]
      exact (Entries.get?_eq_some_iff hkeys).mpr hf
    | _ => cases hab

theorem equals_trans (hab : a.equals b) (hbc : b.equals c) : a.equals c := by
  induction a using Value.induction generalizing b c with
  | null | bool | string =>
    cases b <;> cases c <;> simp_all [equals]
  | number m =>
    cases b with
    | number n =>
      cases c with
      | number k => exact Double.equals_trans hab hbc
      | _ => cases hbc
    | _ => cases hab
  | array as ih =>
    cases b with
    | array bs =>
      cases c with
      | array cs =>
        rw [equals_array] at hab hbc ⊢
        have hitems : List.Forall₂ (fun a b => ∀ c, b.equals c → a.equals c) as bs :=
          forall₂_of_mem hab fun v hv b hvb c => ih v hv hvb
        clear hab ih
        induction hitems generalizing cs with
        | nil => exact hbc
        | cons hv _ ih =>
          cases hbc with
          | cons hb hbs => exact .cons (hv _ hb) (ih _ hbs)
      | _ => cases hbc
    | _ => cases hab
  | object fs ih =>
    cases b with
    | object gs =>
      cases c with
      | object hs =>
        obtain ⟨hlength, hfound⟩ := equals_object.mp hab
        obtain ⟨hlength', hfound'⟩ := equals_object.mp hbc
        refine equals_object.mpr ⟨hlength.trans hlength', fun f hf => ?_⟩
        obtain ⟨b, hb, hfb⟩ := hfound f hf
        obtain ⟨c, hc, hbc⟩ := hfound' (f.1, b) (Entries.mem_of_get? hb)
        exact ⟨c, hc, ih f hf hfb hbc⟩
      | _ => cases hbc
    | _ => cases hab

end Value

end Assay
