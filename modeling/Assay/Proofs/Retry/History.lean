import Assay.Proofs.Runner.Suite
import Mathlib.Order.Bounds.Basic

namespace Assay

open Script (AsksOnly Exchange asksOnly_bind runs_bind runs_done runs_query)

/-- One round of trying: what was exchanged in it between two looks at the clock, and its error. -/
structure Round where
  start : Nat
  own : List (Exchange Query.Answer)
  error : Option String
  stop : Nat

namespace Round

def exchanges (r : Round) : List (Exchange Query.Answer) :=
  ⟨.clock, r.start⟩ :: (r.own ++ [⟨.clock, r.stop⟩])

/-- The record of a round that was the attempt of that number. -/
def record (r : Round) (number : Nat) : Attempt :=
  ⟨number, r.error.isNone, r.error, r.stop - r.start, r.start⟩

end Round

/-- Just as many errors as there are attempts when one stops at the first that passes, and after
`limit` of them anyway. -/
def StopsInTime (limit : Nat) (errors : List (Option String)) : Prop :=
  ∀ outcome : Nat → Option String, (∀ i e, errors[i]? = some e → outcome (i + 1) = e) →
    IsLeast {n | n = limit ∨ 1 ≤ n ∧ outcome n = none} errors.length

theorem stopsInTime_pass (limit : Nat) : StopsInTime (limit + 1) [none] := by
  intro outcome h
  have hpass : outcome 1 = none := h 0 none rfl
  constructor
  · exact .inr ⟨le_rfl, hpass⟩
  · intro n hn
    have hlength : [none (α := String)].length = 1 := rfl
    rcases hn with rfl | ⟨hn, -⟩ <;> omega

theorem stopsInTime_last (error : Option String) : StopsInTime 1 [error] := by
  intro outcome _
  constructor
  · exact .inl rfl
  · intro n hn
    have hlength : [error].length = 1 := rfl
    rcases hn with rfl | ⟨hn, -⟩ <;> omega

theorem stopsInTime_cons {limit : Nat} {errors : List (Option String)} (error : String)
    (h : StopsInTime limit errors) : StopsInTime (limit + 1) (some error :: errors) := by
  intro outcome hall
  have hfirst : outcome 1 = some error := hall 0 _ rfl
  have hrest := h (fun n => outcome (n + 1)) fun i e he => hall (i + 1) e he
  obtain ⟨hmem, hleast⟩ := hrest
  have hlength : (some error :: errors).length = errors.length + 1 := rfl
  constructor
  · rcases hmem with hlimit | ⟨hpos, hpass⟩
    · exact .inl (by omega)
    · exact .inr ⟨by omega, hpass⟩
  · intro n hn
    rcases hn with rfl | ⟨hpos, hpass⟩
    · have hle := hleast (.inl rfl)
      omega
    · -- The first attempt has failed, so the one that passes is among the others.
      have hne : n ≠ 1 := by
        rintro rfl
        rw [hfirst] at hpass
        cases hpass
      obtain ⟨m, rfl⟩ : ∃ m, n = m + 1 := ⟨n - 1, by omega⟩
      have hle := hleast (.inr ⟨by omega, hpass⟩)
      omega

namespace RetryPolicy

variable {σ : Type} {p : RetryPolicy} {once : σ → Run (Option String × σ)} {s t : σ}
  {es : List (Exchange Query.Answer)} {outcome : Outcome} {rounds : List Round}

theorem calm_of_linear (h : p.backoff ≠ some .exponential) : p.Calm := by
  intro n _ _
  unfold delayAfter?
  cases hbackoff : p.backoff with
  | none => rfl
  | some b =>
    cases b with
    | linear => rfl
    | exponential => exact absurd hbackoff h

/-- Rounds one after another, each from the state that the one before it left. -/
inductive Calls (once : σ → Run (Option String × σ)) : σ → List Round → σ → Prop
  | nil (s : σ) : Calls once s [] s
  | cons {s t u : σ} {r : Round} {rounds : List Round} (first : (once s).Runs r.own (r.error, t))
      (rest : Calls once t rounds u) : Calls once s (r :: rounds) u

/-- What is waited after attempt `number` when the attempts end before number `stop`: one delay,
and none after the last attempt. -/
def rest (p : RetryPolicy) (number stop : Nat) : List (Exchange Query.Answer) :=
  if number + 1 < stop then (p.delayAfter? number).toList.map fun nanos => ⟨.sleep nanos, ()⟩
  else []

def exchangesOf (p : RetryPolicy) (first : Nat) (rounds : List Round) :
    List (Exchange Query.Answer) :=
  (rounds.zipIdx first).flatMap fun x => x.1.exchanges ++ p.rest x.2 (first + rounds.length)

/-- How at most `limit` attempts went, of which the first has the number `first`. -/
structure History (p : RetryPolicy) (once : σ → Run (Option String × σ)) (first limit : Nat) (s : σ)
    (rounds : List Round) (es : List (Exchange Query.Answer)) (outcome : Outcome) (t : σ) :
    Prop where
  calls : Calls once s rounds t
  count : StopsInTime limit (rounds.map (·.error))
  failed : ∀ r ∈ rounds.dropLast, r.error.isSome
  attempts : outcome.attempts = (rounds.zipIdx first).map fun x => x.1.record x.2
  passed : outcome.passed = true ↔ ∃ r, rounds.getLast? = some r ∧ r.error = none
  finalError : outcome.finalError = rounds.getLast?.bind (·.error)
  waits : ∀ n, first ≤ n → n + 1 < first + rounds.length → (p.delayAfter? n).isSome
  exchanges : es = p.exchangesOf first rounds

theorem runs_attempt {number : Nat} {a : Attempt}
    (h : (attempt once number s).Runs es (a, t)) :
    ∃ r : Round, (once s).Runs r.own (r.error, t) ∧ a = r.record number ∧ es = r.exchanges := by
  obtain ⟨first, more, start, hstart, hmore, rfl⟩ := runs_bind h
  obtain ⟨own, last, ⟨error, u⟩, hown, hlast, rfl⟩ := runs_bind hmore
  obtain ⟨second, done, stop, hstop, hdone, rfl⟩ := runs_bind hlast
  obtain ⟨rfl, hpair⟩ := runs_done hdone
  obtain ⟨rfl, rfl⟩ := Prod.mk.inj hpair
  have hfirst := runs_query hstart
  have hsecond := runs_query hstop
  refine ⟨⟨start, own, error, stop⟩, hown, rfl, ?_⟩
  simp [Round.exchanges, hfirst, hsecond]

theorem runs_pause {number : Nat} (h : (p.pause number).Runs es ()) :
    ∃ nanos, p.delayAfter? number = some nanos ∧ es = [⟨.sleep nanos, ()⟩] := by
  unfold pause at h
  cases hdelay : p.delayAfter? number with
  | none =>
    simp only [hdelay] at h
    cases h with
    | @ask q next never es t more => exact Empty.elim never
  | some nanos =>
    simp only [hdelay] at h
    exact ⟨nanos, rfl, runs_query h⟩

theorem History.single {first limit : Nat} {r : Round} (hcall : (once s).Runs r.own (r.error, t))
    (hcount : StopsInTime limit [r.error]) :
    History p once first limit s [r] r.exchanges ⟨r.error.isNone, [r.record first], r.error⟩ t where
  calls := .cons hcall (.nil t)
  count := hcount
  failed := by simp
  attempts := rfl
  passed := by simp
  finalError := rfl
  waits n hn hlast := by
    have hlength : [r].length = 1 := rfl
    omega
  exchanges := by simp [exchangesOf, rest]

theorem exchangesOf_cons (first : Nat) (r : Round) (rounds : List Round) :
    p.exchangesOf first (r :: rounds) =
      r.exchanges ++ p.rest first (first + rounds.length + 1) ++
        p.exchangesOf (first + 1) rounds := by
  have hstop : first + (rounds.length + 1) = first + 1 + rounds.length := by omega
  have hstop' : first + rounds.length + 1 = first + 1 + rounds.length := by omega
  simp only [exchangesOf, List.zipIdx_cons, List.flatMap_cons, List.length_cons, hstop, hstop']

theorem History.nonempty {first limit : Nat}
    (h : History p once first limit s rounds es outcome t) (hlimit : limit ≠ 0) :
    rounds ≠ [] := by
  rintro rfl
  have hcount := h.count (fun n => none) (by simp)
  rcases hcount.1 with hzero | ⟨hpos, -⟩
  · exact hlimit hzero.symm
  · exact absurd hpos (by simp)

theorem History.attempts_error {first limit : Nat}
    (h : History p once first limit s rounds es outcome t) :
    outcome.attempts.map Attempt.error = rounds.map (·.error) := by
  have hrecord : Attempt.error ∘ (fun x : Round × Nat => x.1.record x.2) =
      Round.error ∘ Prod.fst := rfl
  rw [h.attempts, List.map_map, hrecord, ← List.map_map, List.zipIdx_map_fst]

theorem History.cons {first limit nanos : Nat} {r : Round} {error : String} {middle : σ}
    (hcall : (once s).Runs r.own (r.error, middle)) (herror : r.error = some error)
    (hdelay : p.delayAfter? first = some nanos) (hlimit : limit ≠ 0)
    (h : History p once (first + 1) limit middle rounds es outcome t) :
    History p once first (limit + 1) s (r :: rounds)
      (r.exchanges ++ (⟨.sleep nanos, ()⟩ :: es))
      { outcome with attempts := r.record first :: outcome.attempts } t := by
  obtain ⟨next, others, rfl⟩ := List.exists_cons_of_ne_nil (h.nonempty hlimit)
  refine ⟨.cons hcall h.calls, ?_, ?_, ?_, ?_, ?_, ?_, ?_⟩
  · have hcount := stopsInTime_cons error h.count
    simpa [herror] using hcount
  · intro round hround
    rw [List.dropLast_cons_cons] at hround
    rcases List.mem_cons.mp hround with rfl | hround
    · rw [herror]
      rfl
    · exact h.failed round hround
  · simp only [h.attempts, List.zipIdx_cons, List.map_cons]
  · rw [List.getLast?_cons_cons]
    exact h.passed
  · rw [List.getLast?_cons_cons]
    exact h.finalError
  · intro n hn hlast
    by_cases hfirst : n = first
    · rw [hfirst, hdelay]
      rfl
    · have hlength : (r :: next :: others).length = (next :: others).length + 1 := rfl
      exact h.waits n (by omega) (by omega)
  · have hbefore : first + 1 < first + (next :: others).length + 1 := by simp
    have hrest : p.rest first (first + (next :: others).length + 1) = [⟨.sleep nanos, ()⟩] := by
      rw [rest, if_pos hbefore, hdelay]
      rfl
    rw [exchangesOf_cons, hrest, h.exchanges]
    simp

theorem tryFrom_cases {number left : Nat}
    (h : (p.tryFrom once number (left + 1) s).Runs es (outcome, t)) :
    ∃ (r : Round) (middle : σ), (once s).Runs r.own (r.error, middle) ∧
      ((r.error = none ∨ left = 0) ∧ es = r.exchanges ∧
          outcome = ⟨r.error.isNone, [r.record number], r.error⟩ ∧ t = middle ∨
        ∃ error nanos more later, r.error = some error ∧ left ≠ 0 ∧
          p.delayAfter? number = some nanos ∧
          (p.tryFrom once (number + 1) left middle).Runs more (later, t) ∧
          es = r.exchanges ++ (⟨.sleep nanos, ()⟩ :: more) ∧
          outcome = { later with attempts := r.record number :: later.attempts }) := by
  obtain ⟨first, own, ⟨a, middle⟩, hattempt, hown, rfl⟩ := runs_bind h
  obtain ⟨r, hcall, rfl, rfl⟩ := runs_attempt hattempt
  refine ⟨r, middle, hcall, ?_⟩
  cases herror : r.error with
  | none =>
    have hpassed : (r.record number).passed = true := by simp [Round.record, herror]
    simp only [hpassed, if_true] at hown
    obtain ⟨rfl, hpair⟩ := runs_done hown
    obtain ⟨rfl, rfl⟩ := Prod.mk.inj hpair
    exact .inl ⟨.inl rfl, List.append_nil _, rfl, rfl⟩
  | some error =>
    have hpassed : (r.record number).passed = false := by simp [Round.record, herror]
    have hkept : (r.record number).error = some error := herror
    simp only [hpassed, Bool.false_eq_true, if_false, hkept] at hown
    by_cases hleft : left = 0
    · simp only [hleft, if_true] at hown
      obtain ⟨rfl, hpair⟩ := runs_done hown
      obtain ⟨rfl, rfl⟩ := Prod.mk.inj hpair
      exact .inl ⟨.inr hleft, List.append_nil _, rfl, rfl⟩
    · simp only [hleft, if_false] at hown
      obtain ⟨paused, others, ⟨⟩, hpause, hothers, rfl⟩ := runs_bind hown
      obtain ⟨nanos, hdelay, rfl⟩ := runs_pause hpause
      obtain ⟨more, done, ⟨later, u⟩, hmore, hdone, rfl⟩ := runs_bind hothers
      obtain ⟨rfl, hpair⟩ := runs_done hdone
      obtain ⟨rfl, rfl⟩ := Prod.mk.inj hpair
      refine .inr ⟨error, nanos, more, later, rfl, hleft, hdelay, hmore, ?_, rfl⟩
      simp

theorem runs_tryFrom {number left : Nat}
    (h : (p.tryFrom once number (left + 1) s).Runs es (outcome, t)) :
    ∃ rounds, History p once number (left + 1) s rounds es outcome t := by
  -- The last attempt makes a history of one round; each one before it goes in front of the rest.
  induction left generalizing number s es outcome with
  | zero =>
    obtain ⟨r, middle, hcall, ⟨-, rfl, rfl, rfl⟩ | ⟨_, _, _, _, _, hleft, _⟩⟩ := tryFrom_cases h
    · exact ⟨[r], .single hcall (stopsInTime_last r.error)⟩
    · exact absurd rfl hleft
  | succ left ih =>
    obtain ⟨r, middle, hcall, ⟨hpass | hleft, rfl, rfl, rfl⟩ |
      ⟨error, nanos, more, later, herror, hleft, hdelay, hmore, rfl, rfl⟩⟩ := tryFrom_cases h
    · refine ⟨[r], .single hcall ?_⟩
      rw [hpass]
      exact stopsInTime_pass (left + 1)
    · omega
    · obtain ⟨rounds, hrounds⟩ := ih hmore
      exact ⟨r :: rounds, hrounds.cons hcall herror hdelay hleft⟩

theorem runs_tryAll (h : (p.tryAll once s).Runs es (outcome, t)) :
    ∃ rounds, History p once 1 (max p.maxAttempts 1) s rounds es outcome t := by
  obtain ⟨limit, hlimit⟩ : ∃ limit, max p.maxAttempts 1 = limit + 1 :=
    ⟨max p.maxAttempts 1 - 1, by omega⟩
  unfold tryAll at h
  rw [hlimit] at h ⊢
  exact runs_tryFrom h

/-- Every run of attempts has the history that the policy says, and in a world that answers, a
policy whose delays can be waited gets to the end of one. -/
theorem tryAll_history (p : RetryPolicy) (once : σ → Run (Option String × σ)) (s : σ) :
    (∀ es outcome t, (p.tryAll once s).Runs es (outcome, t) →
      ∃ rounds, History p once 1 (max p.maxAttempts 1) s rounds es outcome t) ∧
    (p.Calm → (∀ s, AsksOnly Query.HasAnswer (once s)) →
      ∀ (τ : Type) (respond : Responder Query.Answer τ), respond.Answers → ∀ now w,
        ∃ outcome t later w' rounds,
          (p.tryAll once s).play respond now w = some ((outcome, t), later, w') ∧
          History p once 1 (max p.maxAttempts 1) s rounds
            ((p.tryAll once s).exchanges respond now w) outcome t) := by
  refine ⟨fun es outcome t h => runs_tryAll h, fun calm honce τ respond answers now w => ?_⟩
  have hanswer : AsksOnly Query.HasAnswer (p.tryAll once s) :=
    p.tryFrom_asksOnly trivial honce 1 _
      (fun n hn hlast => calm.pause_hasAnswer hn (by omega)) s
  have hplay := Script.play_isSome hanswer answers now w
  obtain ⟨⟨⟨outcome, t⟩, later, w'⟩, h⟩ := Option.isSome_iff_exists.mp hplay
  obtain ⟨rounds, hrounds⟩ := runs_tryAll (Script.runs_of_play h)
  exact ⟨outcome, t, later, w', rounds, h, hrounds⟩

/-- Attempts that come out as a sequence says, the next one being number `number`. -/
def recite (outcomes : Nat → Option String) (number : Nat) : Run (Option String × Nat) :=
  pure (outcomes number, number + 1)

theorem Calls.of_recite {outcomes : Nat → Option String} {number later : Nat}
    (h : Calls (recite outcomes) number rounds later) :
    ∀ i r, rounds[i]? = some r → r.error = outcomes (number + i) := by
  induction rounds generalizing number with
  | nil => simp
  | cons first rounds ih =>
    cases h with
    | cons hfirst hrest =>
      obtain ⟨-, hpair⟩ := runs_done hfirst
      obtain ⟨herror, rfl⟩ := Prod.mk.inj hpair
      intro i r hi
      cases i with
      | zero =>
        cases hi
        exact herror
      | succ i =>
        have hr := ih hrest i r hi
        rwa [Nat.add_assoc, Nat.add_comm 1 i] at hr

theorem History.length_of_recite {outcomes : Nat → Option String} {limit later : Nat}
    (h : History p (recite outcomes) 1 limit 1 rounds es outcome later) :
    IsLeast {n | n = limit ∨ 1 ≤ n ∧ outcomes n = none} rounds.length := by
  have hcount := h.count outcomes fun i e he => by
    rw [List.getElem?_map, Option.map_eq_some_iff] at he
    obtain ⟨r, hr, rfl⟩ := he
    rw [h.calls.of_recite i r hr, Nat.add_comm]
  simpa using hcount

end RetryPolicy

namespace Rehearsal

def flakyPolicy : RetryPolicy := ⟨3, ⟨10⟩, some .linear, none⟩

/-- The first attempt fails, and all others pass. -/
def flaky (number : Nat) : Option String := if number = 1 then some "down" else none

theorem tryAll_history_flaky :
    flakyPolicy.Calm ∧ (∀ n, AsksOnly Query.HasAnswer (RetryPolicy.recite flaky n)) ∧
    Responder.Answers World.respond ∧
    ∃ outcome t later w' rounds,
      (flakyPolicy.tryAll (RetryPolicy.recite flaky) 1).play World.respond 0 idleWorld =
        some ((outcome, t), later, w') ∧
      RetryPolicy.History flakyPolicy (RetryPolicy.recite flaky) 1 3 1 rounds
        ((flakyPolicy.tryAll (RetryPolicy.recite flaky) 1).exchanges World.respond 0 idleWorld)
        outcome t ∧
      rounds.length = 2 := by
  have calm : flakyPolicy.Calm := fun n _ _ => rfl
  have hanswer : ∀ n, AsksOnly Query.HasAnswer (RetryPolicy.recite flaky n) :=
    fun n => Script.asksOnly_pure _
  obtain ⟨outcome, t, later, w', rounds, hplay, history⟩ :=
    (flakyPolicy.tryAll_history (RetryPolicy.recite flaky) 1).2 calm hanswer _ _
      World.respond_answers 0 idleWorld
  have hlength : IsLeast {n | n = 3 ∨ 1 ≤ n ∧ flaky n = none} 2 := by
    constructor
    · exact .inr ⟨by omega, rfl⟩
    · intro n hn
      by_cases hone : n = 1
      · subst hone
        rcases hn with hn | ⟨-, hn⟩
        · omega
        · cases hn
      · rcases hn with rfl | ⟨hn, -⟩ <;> omega
  exact ⟨calm, hanswer, World.respond_answers, outcome, t, later, w', rounds, hplay, history,
    history.length_of_recite.unique hlength⟩

end Rehearsal

end Assay
