import Assay.Proofs.Script.Questions
import Mathlib.Data.List.Perm.Basic

namespace Assay

open Script (Exchange AsksOnly Announces share share_append share_self share_eq_nil)

/-- Steps one after another, with all that they say. -/
inductive Course {S E : Type} (step : S → List E → S → Prop) : S → List E → S → Prop
  | refl (s : S) : Course step s [] s
  | snoc {s t u : S} {es fs : List E} (before : Course step s es t) (last : step t fs u) :
      Course step s (es ++ fs) u

theorem Course.trans {S E : Type} {step : S → List E → S → Prop} {s t u : S} {es fs : List E}
    (h : Course step s es t) (g : Course step t fs u) : Course step s (es ++ fs) u := by
  induction g with
  | refl => rwa [List.append_nil]
  | snoc before last ih =>
    rw [← List.append_assoc]
    exact .snoc ih last

variable {Q : Type} {A : Q → Type} {α : Type}

/-- Where a script of a group stands. -/
inductive Task (A : Q → Type) (α : Type)
  | waiting (s : Script A α)
  | running (s : Script A α)
  | finished (a : α)

namespace Task

/-- A script that has begun. One that has nothing to ask has ended. -/
def ofScript : Script A α → Task A α
  | .done a => finished a
  | .ask q next => running (.ask q next)

def isRunning : Task A α → Bool
  | running _ => true
  | _ => false

def result? : Task A α → Option α
  | finished a => some a
  | _ => none

/-- Where a script stands after exchanges of its own. -/
def Stands (s : Script A α) (es : List (Exchange A)) : Task A α → Prop
  | waiting t => t = s ∧ es = []
  | running t => s.Reaches es t ∧ ∀ a, t ≠ .done a
  | finished a => s.Runs es a

theorem stands_ofScript {s t : Script A α} {es : List (Exchange A)} (h : s.Reaches es t) :
    (ofScript t).Stands s es := by
  cases t with
  | done a => exact h
  | ask q next => exact ⟨h, nofun⟩

end Task

/-- A group of scripts under way, and the results of those that have ended, in the order in which
they did. -/
structure Crew (A : Q → Type) (α : Type) where
  tasks : List (Task A α)
  ended : List α

namespace Crew

def ofScripts (scripts : List (Script A α)) : Crew A α := ⟨scripts.map .waiting, []⟩

/-- How many scripts have begun and not ended. -/
def inFlight (c : Crew A α) : Nat := c.tasks.countP Task.isRunning

def isOver (c : Crew A α) : Bool := c.tasks.all fun t => t.result?.isSome

/-- Let the script at a place go on from where it has come to. -/
def put (c : Crew A α) (i : Nat) (s : Script A α) : Crew A α :=
  ⟨c.tasks.set i (.ofScript s), c.ended ++ (Task.ofScript s).result?.toList⟩

/-- One step of a group of which so many may be in flight. Whichever waits may begin when there is a
free slot, and whichever is in flight may get its answer, whatever it is. Each exchange goes by the
place of its script. -/
inductive Step (slots : Nat) : Crew A α → List (Nat × Exchange A) → Crew A α → Prop
  | begin {c : Crew A α} {i : Nat} {s : Script A α} (task : c.tasks[i]? = some (.waiting s))
      (free : c.inFlight < slots) : Step slots c [] (c.put i s)
  | answer {c : Crew A α} {i : Nat} {q : Q} {next : A q → Script A α}
      (task : c.tasks[i]? = some (.running (.ask q next))) (r : A q) :
      Step slots c [(i, ⟨q, r⟩)] (c.put i (next r))

theorem cons_set_perm {β : Type} {l : List β} {i : Nat} {b : β} (h : l[i]? = some b) (c : β) :
    (b :: l.set i c).Perm (c :: l) := by
  obtain ⟨hi, rfl⟩ := List.getElem?_eq_some_iff.mp h
  have hset : (l[i] :: l.set i c).Perm (l[i] :: c :: l.eraseIdx i) :=
    (List.set_perm_cons_eraseIdx hi c).cons _
  have hback : (c :: l[i] :: l.eraseIdx i).Perm (c :: l) :=
    (List.getElem_cons_eraseIdx_perm hi).cons _
  exact hset.trans ((List.Perm.swap ..).trans hback)

section Put

variable {c : Crew A α} {i : Nat} {t : Task A α} {s : Script A α}

theorem put_perm (h : c.tasks[i]? = some t) :
    (t :: (c.put i s).tasks).Perm (.ofScript s :: c.tasks) := cons_set_perm h _

theorem inFlight_put (h : c.tasks[i]? = some t) :
    (c.put i s).inFlight + (if t.isRunning then 1 else 0) ≤ c.inFlight + 1 := by
  have hperm := (put_perm (s := s) h).countP_eq Task.isRunning
  have hone : (if (Task.ofScript s).isRunning then 1 else 0) ≤ 1 := by split <;> omega
  simp only [List.countP_cons] at hperm
  simp only [inFlight]
  omega

theorem results_put (h : c.tasks[i]? = some t) (hnone : t.result? = none)
    (hc : c.ended.Perm (c.tasks.filterMap Task.result?)) :
    (c.put i s).ended.Perm ((c.put i s).tasks.filterMap Task.result?) := by
  have hperm := (put_perm (s := s) h).filterMap Task.result?
  rw [List.filterMap_cons_none hnone] at hperm
  refine .trans ?_ hperm.symm
  simp only [put]
  cases hr : (Task.ofScript s).result? with
  | none => simpa [List.filterMap_cons_none hr] using hc
  | some a =>
    rw [List.filterMap_cons_some hr]
    exact List.perm_append_singleton a _ |>.trans (hc.cons a)

end Put

/-- What holds of a group after any exchanges: every script stands where its own exchanges have
brought it, no more are in flight than may be, and just the results of those that have ended are
there. -/
structure Sound (slots : Nat) (scripts : List (Script A α)) (es : List (Nat × Exchange A))
    (c : Crew A α) : Prop where
  length : c.tasks.length = scripts.length
  places : ∀ e ∈ es, e.1 < scripts.length
  stands : ∀ (i : Nat) (s : Script A α) (t : Task A α), scripts[i]? = some s →
    c.tasks[i]? = some t → t.Stands s (share i es)
  inFlight : c.inFlight ≤ slots
  results : c.ended.Perm (c.tasks.filterMap Task.result?)

theorem sound_ofScripts (slots : Nat) (scripts : List (Script A α)) :
    Sound slots scripts [] (ofScripts scripts) where
  length := by simp [ofScripts]
  places := by simp
  stands := by
    intro i s t hs ht
    simp only [ofScripts, List.getElem?_map, hs, Option.map_some, Option.some.injEq] at ht
    subst ht
    exact ⟨rfl, rfl⟩
  inFlight := by
    have h : (ofScripts scripts).inFlight = 0 := by
      simp [Crew.inFlight, ofScripts, List.countP_eq_zero, Task.isRunning]
    omega
  results := by simp [ofScripts, Task.result?, List.filterMap_map, Function.comp_def]

section Steps

variable {slots : Nat} {scripts : List (Script A α)} {es fs : List (Nat × Exchange A)}
  {c d : Crew A α}

/-- A script goes on by exchanges of its own; all others stay where they are. -/
theorem Sound.put (h : Sound slots scripts es c) {i : Nat} {t : Task A α} {s' : Script A α}
    (task : c.tasks[i]? = some t) (hnone : t.result? = none)
    (free : t.isRunning ∨ c.inFlight < slots) (own : ∀ e ∈ fs, e.1 = i)
    (goes : ∀ s, scripts[i]? = some s → s.Reaches (share i (es ++ fs)) s') :
    Sound slots scripts (es ++ fs) (c.put i s') where
  length := by simp [Crew.put, h.length]
  places := by
    have hi : i < scripts.length := by
      rw [← h.length]
      exact (List.getElem?_eq_some_iff.mp task).1
    intro e he
    rcases List.mem_append.mp he with he | he
    · exact h.places e he
    · rwa [own e he]
  stands := by
    intro j s u hs hu
    by_cases hij : i = j
    · subst hij
      have hi := (List.getElem?_eq_some_iff.mp task).1
      simp only [Crew.put, List.getElem?_set_self hi, Option.some.injEq] at hu
      subst hu
      exact Task.stands_ofScript (goes s hs)
    · simp only [Crew.put, List.getElem?_set_ne hij] at hu
      have hnil : share j fs = [] := share_eq_nil fun e he => by rwa [own e he]
      rw [share_append, hnil, List.append_nil]
      exact h.stands j s u hs hu
  inFlight := by
    have hput := inFlight_put (s := s') task
    have hle := h.inFlight
    rcases free with hrun | hfree
    · rw [if_pos hrun] at hput
      omega
    · omega
  results := results_put task hnone h.results

theorem Sound.step (h : Sound slots scripts es c) (st : Step slots c fs d) :
    Sound slots scripts (es ++ fs) d := by
  cases st with
  | @begin i t task free =>
    refine h.put task rfl (.inr free) (by simp) fun s hs => ?_
    obtain ⟨rfl, hnil⟩ := h.stands i s _ hs task
    rw [List.append_nil, hnil]
    exact .refl t
  | @answer i q next task r =>
    refine h.put task rfl (.inl rfl) (by simp) fun s hs => ?_
    rw [share_append, share_self]
    exact (h.stands i s _ hs task).1.answer r

theorem sound_of_course (h : Course (Step slots) (ofScripts scripts) es c) :
    Sound slots scripts es c := by
  induction h with
  | refl => exact sound_ofScripts slots scripts
  | snoc before last ih => exact ih.step last

/-- When every script tells its result by its last question, the results come in the order in which
they are told. -/
theorem ended_of_course {told : Q → Option α} (h : Course (Step slots) (ofScripts scripts) es c)
    (htold : ∀ s ∈ scripts, Announces told s) :
    c.ended = es.filterMap fun e => told e.2.1 := by
  induction h with
  | refl => rfl
  | @snoc c d es fs before last ih =>
    have hsound := sound_of_course before
    cases last with
    | @begin i t task free =>
      have hi : i < scripts.length := by
        rw [← hsound.length]
        exact (List.getElem?_eq_some_iff.mp task).1
      obtain ⟨rfl, -⟩ := hsound.stands i _ _ (List.getElem?_eq_getElem hi) task
      -- A script that announces something asks something, so none ends as it begins.
      have ht := htold _ (List.getElem_mem hi)
      generalize scripts[i] = t at ht
      cases ht <;> simpa [put, Task.ofScript, Task.result?] using ih
    | @answer i q next task r =>
      have hi : i < scripts.length := by
        rw [← hsound.length]
        exact (List.getElem?_eq_some_iff.mp task).1
      have hreach := (hsound.stands i _ _ (List.getElem?_eq_getElem hi) task).1
      rw [List.filterMap_append, ← ih]
      rcases (htold _ (List.getElem_mem hi)).of_reaches hreach with ⟨ht, -⟩ | ⟨a, ha, -⟩
      · cases ht with
        | last here ends => simp [put, ends r, Task.ofScript, Task.result?, here]
        | more silent rest =>
          have hr := rest r
          generalize next r = t at hr
          cases hr <;> simp [put, Task.ofScript, Task.result?, silent]
      · cases ha

/-- What is true of the exchanges of scripts only that have begun and not ended, is true of no more
of them than there are slots. -/
theorem Sound.countP_le (h : Sound slots scripts es c) (p : List (Exchange A) → Bool)
    (hbegun : p [] = false)
    (hended : ∀ s ∈ scripts, ∀ fs a, s.Runs fs a → p fs = false) :
    (List.range scripts.length).countP (fun i => p (share i es)) ≤ slots := by
  have hplaces : (List.range scripts.length).countP (fun i => p (share i es)) =
      c.tasks.zipIdx.countP (fun t => p (share t.2 es)) := by
    rw [← h.length, List.range_eq_range', ← List.zipIdx_map_snd 0 c.tasks, List.countP_map]
    rfl
  have htasks : c.inFlight = c.tasks.zipIdx.countP (fun t => t.1.isRunning) := by
    rw [Crew.inFlight, ← List.zipIdx_map_fst 0 c.tasks, List.countP_map, List.zipIdx_map_fst]
    rfl
  rw [hplaces]
  refine Nat.le_trans ?_ h.inFlight
  rw [htasks]
  refine List.countP_mono_left fun t ht hp => ?_
  obtain ⟨u, i⟩ := t
  have hu : c.tasks[i]? = some u := List.mk_mem_zipIdx_iff_getElem?.mp ht
  have hi : i < scripts.length := by
    rw [← h.length]
    exact (List.getElem?_eq_some_iff.mp hu).1
  have hstands := h.stands i _ u (List.getElem?_eq_getElem hi) hu
  cases u with
  | waiting s => rw [hstands.2, hbegun] at hp; cases hp
  | running s => rfl
  | finished a => rw [hended _ (List.getElem_mem hi) _ a hstands] at hp; cases hp

end Steps

end Crew

end Assay
