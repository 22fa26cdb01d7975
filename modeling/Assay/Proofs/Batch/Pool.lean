import Assay.Proofs.Batch.Crew
import Assay.Rehearsal.Pool

namespace Assay

open Script (Exchange)

variable {Q : Type} {A : Q → Type} {α σ ε : Type}

/-- What a world is to keep of the questions that tell it something, and how it is to answer. -/
structure Account (A : Q → Type) (σ ε : Type) where
  told : Q → Option ε
  log : σ → List ε
  good : Exchange A → Prop

/-- A world that keeps an account. To be told something takes it no time. -/
structure Responder.Keeps (respond : Responder A σ) (k : Account A σ ε) : Prop where
  log : ∀ {q now w delay r w'}, respond q now w = some (delay, r, w') →
    k.log w' = k.log w ++ (k.told q).toList
  atOnce : ∀ {q now w delay r w'}, respond q now w = some (delay, r, w') → (k.told q).isSome →
    delay = 0
  good : ∀ {q now w delay r w'}, respond q now w = some (delay, r, w') → k.good ⟨q, r⟩

namespace Account

variable {k : Account A σ ε}

/-- From one state of the world to another just these exchanges have been kept. -/
def Covers (k : Account A σ ε) (w : σ) (es : List (Exchange A)) (w' : σ) : Prop :=
  k.log w' = k.log w ++ es.filterMap (fun e => k.told e.1) ∧ ∀ e ∈ es, k.good e

theorem covers_nil (k : Account A σ ε) (w : σ) : k.Covers w [] w := by
  simp [Covers]

theorem Covers.trans {w w₁ w₂ : σ} {es fs : List (Exchange A)} (h : k.Covers w es w₁)
    (g : k.Covers w₁ fs w₂) : k.Covers w (es ++ fs) w₂ := by
  refine ⟨?_, List.forall_mem_append.mpr ⟨h.2, g.2⟩⟩
  rw [g.1, h.1, List.filterMap_append, List.append_assoc]

theorem covers_of_respond {respond : Responder A σ} (keeps : respond.Keeps k) {q : Q} {now : Nat}
    {w w' : σ} {delay : Nat} {r : A q} (h : respond q now w = some (delay, r, w')) :
    k.Covers w [⟨q, r⟩] w' := by
  refine ⟨?_, List.forall_mem_singleton.mpr (keeps.good h)⟩
  rw [keeps.log h]
  cases htold : k.told q <;> simp [htold]

theorem covers_of_play {respond : Responder A σ} (keeps : respond.Keeps k) {s : Script A α}
    {now later : Nat} {w w' : σ} {a : α} (h : s.play respond now w = some (a, later, w')) :
    k.Covers w (s.exchanges respond now w) w' := by
  induction s generalizing now w with
  | done b =>
    simp only [Script.play, Option.some.injEq, Prod.mk.injEq] at h
    rw [h.2.2]
    exact k.covers_nil w'
  | ask q next ih =>
    simp only [Script.play, Script.exchanges] at h ⊢
    cases hr : respond q now w with
    | none => simp [hr] at h
    | some answer =>
      simp only [hr] at h
      exact (covers_of_respond keeps hr).trans (ih _ h)

end Account

namespace Crew

theorem put_put {c : Crew A α} {i : Nat} {q : Q} {next : A q → Script A α} {s : Script A α} :
    (c.put i (.ask q next)).put i s = c.put i s := by
  simp [put, Task.ofScript, Task.result?]

theorem step_answer {slots : Nat} {c : Crew A α} {i : Nat} {q : Q} {next : A q → Script A α}
    (hi : i < c.tasks.length) (r : A q) :
    Step slots (c.put i (.ask q next)) [(i, ⟨q, r⟩)] (c.put i (next r)) := by
  have htask : (c.put i (.ask q next)).tasks[i]? = some (.running (.ask q next)) := by
    simp [put, Task.ofScript, hi]
  have hstep : Step slots _ _ _ := .answer htask r
  rwa [put_put] at hstep

end Crew

namespace Pool

/-- A task that goes on with a script at its next turn: when it begins, or with a good answer to a
question that tells nothing. -/
inductive Due (k : Account A σ ε) : Script A α → Task A α → Prop
  | begin (s : Script A α) : Due k s (.waiting s)
  | answer {q : Q} (next : A q → Script A α) (r : A q) (silent : k.told q = none)
      (good : k.good ⟨q, r⟩) : Due k (next r) (.running (.ask q next))

theorem Due.result? {k : Account A σ ε} {s : Script A α} {t : Task A α} (h : Due k s t) :
    t.result? = none := by
  cases h <;> rfl

/-- The tasks of a pool that are not under way. -/
def idle (p : Pool A α) : List (Task A α) :=
  p.waiting.map Task.waiting ++ p.finished.map Task.finished

theorem countP_idle (p : Pool A α) : p.idle.countP Task.isRunning = 0 := by
  refine List.countP_eq_zero.mpr fun t ht => ?_
  rcases List.mem_append.mp ht with ht | ht
  · obtain ⟨s, -, rfl⟩ := List.mem_map.mp ht
    exact Bool.false_ne_true
  · obtain ⟨a, -, rfl⟩ := List.mem_map.mp ht
    exact Bool.false_ne_true

/-- What is left of a script when it has to wait. -/
def Leaves (k : Account A σ ε) (t : Script A α) : Script.Slice A α → Prop
  | .finished a => t = .done a
  | .asleep _ rest => Due k rest (.ofScript t)

/-- The crew that a pool stands for. An answer that a sleeper waits for is still to come. -/
structure Mirrors (k : Account A σ ε) (slots : Nat) (p : Pool A α) (c : Crew A α) : Prop where
  tasks : ∃ under, List.Forall₂ (Due k) (p.ready ++ p.asleep.map Prod.snd) under ∧
    c.tasks.Perm (under ++ p.idle)
  ended : c.ended = p.finished.reverse
  inFlight : p.inFlight ≤ slots
  busy : p.waiting = [] ∨ slots ≤ p.inFlight

theorem insert_perm (wake : Nat) (s : Script A α) (ss : List (Nat × Script A α)) :
    (insert wake s ss).Perm ((wake, s) :: ss) := by
  induction ss with
  | nil => exact .refl _
  | cons t ts ih =>
    simp only [insert]
    split
    · exact .refl _
    · exact (ih.cons t).trans (.swap ..)

section Turns

variable {respond : Responder A σ} {k : Account A σ ε} {slots : Nat}

/-- As far as a script gets while no time passes, its task gets by steps of its own. -/
theorem slice_course (keeps : respond.Keeps k) {s : Script A α} {now : Nat} {w w' : σ}
    {result : Script.Slice A α} (h : s.slice respond now w = some (result, w')) (c : Crew A α)
    {i : Nat} (hi : i < c.tasks.length) :
    ∃ es t, Course (Crew.Step slots) (c.put i s) es (c.put i t) ∧
      k.Covers w (es.map Prod.snd) w' ∧ Leaves k t result := by
  induction s generalizing w with
  | done a =>
    simp only [Script.slice, Option.some.injEq, Prod.mk.injEq] at h
    obtain ⟨rfl, rfl⟩ := h
    exact ⟨[], _, .refl _, k.covers_nil w, rfl⟩
  | ask q next ih =>
    simp only [Script.slice] at h
    cases hr : respond q now w with
    | none => simp [hr] at h
    | some answer =>
      obtain ⟨delay, r, w₁⟩ := answer
      cases delay with
      | zero =>
        simp only [hr] at h
        obtain ⟨es, t, hcourse, hcovers, ht⟩ := ih r h
        have hfirst : Course (Crew.Step slots) (c.put i (.ask q next)) [(i, ⟨q, r⟩)]
            (c.put i (next r)) := .snoc (.refl _) (Crew.step_answer hi r)
        exact ⟨_, t, hfirst.trans hcourse, (Account.covers_of_respond keeps hr).trans hcovers, ht⟩
      | succ delay =>
        simp only [hr, Option.some.injEq, Prod.mk.injEq] at h
        obtain ⟨rfl, rfl⟩ := h
        -- The exchange is left for the next turn; the world has its record already, if any.
        have hsilent : k.told q = none := by
          cases htold : k.told q with
          | none => rfl
          | some e => cases keeps.atOnce hr (by rw [htold]; rfl)
        refine ⟨[], _, .refl _, ⟨?_, by simp⟩, .answer next r hsilent (keeps.good hr)⟩
        rw [keeps.log hr, hsilent]
        rfl

theorem Mirrors.fill {p : Pool A α} {c : Crew A α}
    (tasks : ∃ under, List.Forall₂ (Due k) (p.ready ++ p.asleep.map Prod.snd) under ∧
      c.tasks.Perm (under ++ p.idle))
    (ended : c.ended = p.finished.reverse) (inFlight : p.inFlight ≤ slots) :
    Mirrors k slots (fill slots p) c where
  tasks := by
    obtain ⟨under, hdue, hperm⟩ := tasks
    have hbegin : List.Forall₂ (Due k) (p.waiting.take (slots - p.inFlight))
        ((p.waiting.take (slots - p.inFlight)).map .waiting) :=
      List.forall₂_map_right_iff.mpr (List.forall₂_same.mpr fun s _ => .begin s)
    have hmove : (p.ready ++ p.waiting.take (slots - p.inFlight) ++ p.asleep.map Prod.snd).Perm
        (p.waiting.take (slots - p.inFlight) ++ (p.ready ++ p.asleep.map Prod.snd)) := by
      rw [← List.append_assoc]
      exact List.perm_append_comm.append_right _
    obtain ⟨under', hdue', hperm'⟩ := List.perm_comp_forall₂ hmove (List.rel_append hbegin hdue)
    have hidle : p.idle = (p.waiting.take (slots - p.inFlight)).map .waiting ++
        (Pool.fill slots p).idle := by
      simp only [idle, Pool.fill, ← List.append_assoc, ← List.map_append, List.take_append_drop]
    refine ⟨under', hdue', hperm.trans ?_⟩
    rw [hidle, ← List.append_assoc]
    exact (List.perm_append_comm.trans hperm'.symm).append_right _
  ended := ended
  inFlight := by
    simp only [Pool.inFlight] at inFlight
    simp only [Pool.fill, Pool.inFlight, List.length_append, List.length_take]
    omega
  busy := by
    simp only [Pool.inFlight] at inFlight
    by_cases hle : p.waiting.length ≤ slots - p.inFlight
    · exact .inl (List.drop_eq_nil_of_le hle)
    · refine .inr ?_
      simp only [Pool.inFlight] at hle
      simp only [Pool.fill, Pool.inFlight, List.length_append, List.length_take]
      omega

theorem mirrors_start (k : Account A σ ε) (slots : Nat) (scripts : List (Script A α)) :
    Mirrors k slots (start slots scripts) (.ofScripts scripts) :=
  Mirrors.fill ⟨[], .nil, by simp [Crew.ofScripts, idle]⟩ rfl (Nat.zero_le _)

/-- A script that is due begins or gets its answer; it is in flight from then on. -/
theorem Mirrors.exists_step {p : Pool A α} {c : Crew A α} (h : Mirrors k slots p c)
    {s : Script A α} {ready : List (Script A α)} (hready : p.ready = s :: ready) :
    ∃ es i under, i < c.tasks.length ∧ Crew.Step slots c es (c.put i s) ∧
      (∀ w : σ, k.Covers w (es.map Prod.snd) w) ∧
      List.Forall₂ (Due k) (ready ++ p.asleep.map Prod.snd) under ∧
      ∀ t, (c.put i t).tasks.Perm (.ofScript t :: (under ++ p.idle)) := by
  obtain ⟨under, hdue, hperm⟩ := h.tasks
  rw [hready] at hdue
  obtain ⟨task, under, hs, hrest, rfl⟩ := List.forall₂_cons_left_iff.mp hdue
  have hmem : task ∈ c.tasks := hperm.symm.subset (by simp)
  obtain ⟨i, hi, hget⟩ := List.mem_iff_getElem.mp hmem
  have htask : c.tasks[i]? = some task := by rw [List.getElem?_eq_getElem hi, hget]
  have hput (t : Script A α) : (c.put i t).tasks.Perm (.ofScript t :: (under ++ p.idle)) := by
    refine List.Perm.cons_inv (a := task) ((Crew.put_perm htask).trans ?_)
    exact (hperm.cons _).trans (.swap ..)
  cases hs with
  | begin s =>
    have hfree : c.inFlight < slots := by
      have hcount := hperm.countP_eq Task.isRunning
      rw [List.countP_append, countP_idle, List.countP_cons_of_neg Bool.false_ne_true] at hcount
      have hunder : (ready ++ p.asleep.map Prod.snd).length = under.length := hrest.length_eq
      have hle := List.countP_le_length (p := Task.isRunning) (l := under)
      have hflight := h.inFlight
      simp only [Pool.inFlight, hready, List.length_append, List.length_map, List.length_cons]
        at hflight hunder
      simp only [Crew.inFlight]
      omega
    exact ⟨_, i, under, hi, .begin htask hfree, k.covers_nil, hrest, hput⟩
  | @answer q next r silent good =>
    have hcovers (w : σ) : k.Covers w [⟨q, r⟩] w := by
      simp [Account.Covers, silent, good]
    exact ⟨_, i, under, hi, .answer htask r, hcovers, hrest, hput⟩

section Moves

variable {p : Pool A α} {c : Crew A α} {s : Script A α} {ready : List (Script A α)}
  {under : List (Task A α)} {i : Nat}

theorem Mirrors.finish (h : Mirrors k slots p c) (hready : p.ready = s :: ready)
    (hdue : List.Forall₂ (Due k) (ready ++ p.asleep.map Prod.snd) under) {a : α}
    (hput : (c.put i (.done a)).tasks.Perm (.ofScript (.done a) :: (under ++ p.idle))) :
    Mirrors k slots (Pool.fill slots { p with ready, finished := a :: p.finished })
      (c.put i (.done a)) := by
  refine Mirrors.fill ⟨under, hdue, hput.trans ?_⟩ ?_ ?_
  · simp only [idle, List.map_cons, ← List.append_assoc]
    exact List.perm_middle.symm
  · simp [Crew.put, Task.ofScript, Task.result?, h.ended]
  · have hflight := h.inFlight
    simp only [Pool.inFlight, hready, List.length_cons] at hflight ⊢
    omega

theorem Mirrors.sleep (h : Mirrors k slots p c) (hready : p.ready = s :: ready)
    (hdue : List.Forall₂ (Due k) (ready ++ p.asleep.map Prod.snd) under) {rest t : Script A α}
    (hrest : Due k rest (.ofScript t)) (wake : Nat)
    (hput : (c.put i t).tasks.Perm (.ofScript t :: (under ++ p.idle))) :
    Mirrors k slots { p with ready, asleep := insert wake rest p.asleep } (c.put i t) := by
  have hmove : (ready ++ (insert wake rest p.asleep).map Prod.snd).Perm
      (rest :: (ready ++ p.asleep.map Prod.snd)) :=
    (((insert_perm ..).map Prod.snd).append_left ready).trans List.perm_middle
  obtain ⟨under', hdue', hperm'⟩ := List.perm_comp_forall₂ hmove (.cons hrest hdue)
  have hflight : Pool.inFlight { p with ready, asleep := insert wake rest p.asleep } =
      p.inFlight := by
    simp only [Pool.inFlight, hready, (insert_perm wake rest p.asleep).length_eq,
      List.length_cons]
    omega
  refine ⟨⟨under', hdue', ?_⟩, ?_, ?_, ?_⟩
  · exact hput.trans (hperm'.symm.append_right _)
  · simp [Crew.put, hrest.result?, h.ended]
  · exact Nat.le_trans (Nat.le_of_eq hflight) h.inFlight
  · exact h.busy.imp_right fun h => Nat.le_trans h (Nat.le_of_eq hflight.symm)

theorem Mirrors.wake (h : Mirrors k slots p c) (hready : p.ready = []) {time : Nat}
    {asleep : List (Nat × Script A α)} (hasleep : p.asleep = (time, s) :: asleep) :
    Mirrors k slots { p with ready := [s], asleep } c := by
  obtain ⟨tasks, ended, inFlight, busy⟩ := h
  simp only [Pool.inFlight, hready, hasleep] at tasks inFlight busy
  exact ⟨tasks, ended, by simpa [Pool.inFlight, Nat.add_comm] using inFlight,
    by simpa [Pool.inFlight, Nat.add_comm] using busy⟩

end Moves

theorem turn_course (keeps : respond.Keeps k) {p p' : Pool A α} {now later : Nat}
    {w w' : σ} (h : p.turn respond slots now w = some (p', later, w')) {c : Crew A α}
    (hm : Mirrors k slots p c) :
    ∃ es d, Course (Crew.Step slots) c es d ∧ Mirrors k slots p' d ∧
      k.Covers w (es.map Prod.snd) w' := by
  unfold turn at h
  cases hready : p.ready with
  | nil =>
    simp only [hready] at h
    cases hasleep : p.asleep with
    | nil =>
      simp only [hasleep, Option.some.injEq, Prod.mk.injEq] at h
      obtain ⟨rfl, rfl, rfl⟩ := h
      exact ⟨[], c, .refl c, hm, k.covers_nil w⟩
    | cons first asleep =>
      simp only [hasleep, Option.some.injEq, Prod.mk.injEq] at h
      obtain ⟨rfl, rfl, rfl⟩ := h
      exact ⟨[], c, .refl c, hm.wake hready hasleep, k.covers_nil w⟩
  | cons s ready =>
    simp only [hready] at h
    obtain ⟨es, i, under, hi, hstep, hquiet, hdue, hput⟩ := hm.exists_step hready
    cases hslice : s.slice respond now w with
    | none => simp [hslice] at h
    | some sliced =>
      obtain ⟨result, w₁⟩ := sliced
      obtain ⟨fs, t, hcourse, hcovers, hleft⟩ := slice_course keeps hslice c hi
      have hall : Course (Crew.Step slots) c (es ++ fs) (c.put i t) :=
        Course.trans (.snoc (.refl c) hstep) hcourse
      have hkept : k.Covers w ((es ++ fs).map Prod.snd) w₁ := by
        rw [List.map_append]
        exact (hquiet w).trans hcovers
      cases result with
      | finished a =>
        simp only [hslice, Option.some.injEq, Prod.mk.injEq] at h
        obtain ⟨rfl, rfl, rfl⟩ := h
        obtain rfl : t = .done a := hleft
        exact ⟨_, _, hall, hm.finish hready hdue (hput _), hkept⟩
      | asleep wake rest =>
        simp only [hslice, Option.some.injEq, Prod.mk.injEq] at h
        obtain ⟨rfl, rfl, rfl⟩ := h
        exact ⟨_, _, hall, hm.sleep hready hdue hleft wake (hput t), hkept⟩

theorem Mirrors.isOver {p : Pool A α} {c : Crew A α} (h : Mirrors k slots p c)
    (hover : p.isOver) (hslots : 0 < slots) : c.isOver := by
  simp only [Pool.isOver, Bool.and_eq_true, List.isEmpty_iff] at hover
  have hwaiting : p.waiting = [] := by
    refine h.busy.resolve_right ?_
    simp only [Pool.inFlight, hover.1, hover.2, List.length_nil]
    omega
  obtain ⟨under, hdue, hperm⟩ := h.tasks
  rw [hover.1, hover.2] at hdue
  cases hdue
  rw [Crew.isOver, hperm.all_eq]
  simp [idle, hwaiting, Task.result?]

/-- A pool that is played to its end has gone one of the ways that its crew may go. -/
theorem play_course (keeps : respond.Keeps k) {turns : Nat} {p : Pool A α}
    {now later : Nat} {w w' : σ} {results : List α}
    (h : p.play respond slots turns now w = some (results, later, w')) {c : Crew A α}
    (hm : Mirrors k slots p c) :
    ∃ es d, Course (Crew.Step slots) c es d ∧ (0 < slots → d.isOver) ∧ d.ended = results ∧
      k.Covers w (es.map Prod.snd) w' := by
  induction turns generalizing p now w c with
  | zero => cases h
  | succ turns ih =>
    simp only [play] at h
    split at h
    next hover =>
      simp only [Option.some.injEq, Prod.mk.injEq] at h
      obtain ⟨rfl, rfl, rfl⟩ := h
      exact ⟨[], c, .refl c, hm.isOver hover, hm.ended, k.covers_nil w⟩
    next =>
      cases hturn : p.turn respond slots now w with
      | none => simp [hturn] at h
      | some turned =>
        obtain ⟨p₁, now₁, w₁⟩ := turned
        simp only [hturn] at h
        obtain ⟨es, d, hfirst, hm₁, hcovers₁⟩ := turn_course keeps hturn hm
        obtain ⟨fs, d', hrest, hover, hended, hcovers⟩ := ih h hm₁
        refine ⟨es ++ fs, d', hfirst.trans hrest, hover, hended, ?_⟩
        rw [List.map_append]
        exact hcovers₁.trans hcovers

end Turns

end Pool

end Assay
