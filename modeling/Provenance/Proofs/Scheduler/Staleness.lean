import Provenance.Proofs.Scheduler.Accounting

/-!
# Outcomes out of order

Outcomes may be presented to a scheduler in any order, once each and not before their jobs were
submitted. The scheduler accepts the outcome of the greatest number so far and no other, so the
accepted numbers increase, and the last of them is the greatest of all.

## Implementation notes

In `Presenting` outcomes do not come from the worker, which would hand them over in order. Whatever
else may happen to a scheduler happens as in its own runs. An outcome that no job was submitted for
does not occur in a history: by `accept_eq_of_notMem` it changes nothing and may be put in anywhere.
-/

namespace Provenance.Scheduler

/-- A job was submitted, or the outcome of one was presented and accepted or not. -/
inductive Exchange
  | submitted (sequence : Nat)
  | presented (o : Outcome) (verdict : Option Outcome)

namespace Exchange

/-- The numbers of the submitted jobs. -/
def submissions (history : List Exchange) : List Nat :=
  history.filterMap fun
    | .submitted n => some n
    | .presented _ _ => none

/-- The numbers of the jobs whose outcomes were presented. -/
def presentations (history : List Exchange) : List Nat :=
  history.filterMap fun
    | .submitted _ => none
    | .presented o _ => some o.sequence

/-- The numbers of the accepted outcomes. -/
def acceptances (history : List Exchange) : List Nat :=
  history.filterMap fun
    | .submitted _ => none
    | .presented _ verdict => verdict.map Outcome.sequence

variable (history : List Exchange) (n : Nat) (o : Outcome) (verdict : Option Outcome)

@[simp] theorem submissions_submitted :
    submissions (history ++ [.submitted n]) = submissions history ++ [n] :=
  List.filterMap_append

@[simp] theorem submissions_presented :
    submissions (history ++ [.presented o verdict]) = submissions history := by
  simp [submissions]

@[simp] theorem presentations_submitted :
    presentations (history ++ [.submitted n]) = presentations history := by
  simp [presentations]

@[simp] theorem presentations_presented :
    presentations (history ++ [.presented o verdict]) = presentations history ++ [o.sequence] :=
  List.filterMap_append

@[simp] theorem acceptances_submitted :
    acceptances (history ++ [.submitted n]) = acceptances history := by
  simp [acceptances]

@[simp] theorem acceptances_presented :
    acceptances (history ++ [.presented o verdict]) =
      acceptances history ++ (verdict.map Outcome.sequence).toList := by
  cases verdict <;> simp [acceptances]

end Exchange

open Exchange

/-- A run with its history, in which the outcome of each job is presented at most once and after the
job was submitted. -/
inductive Presenting (t : Transformer) (settings : Settings) : List Exchange → Scheduler → Prop
  | begin : Presenting t settings [] (ofSettings settings)
  | step {history s o s'} (run : Presenting t settings history s) (step : Step t s o s')
      (unheard : o.event? = none) :
      Presenting t settings
        (history ++ (o.job?.map fun j => Exchange.submitted j.sequence).toList) s'
  | present {history s} (run : Presenting t settings history s) (o : Outcome)
      (submitted : o.sequence ∈ submissions history)
      (unpresented : o.sequence ∉ presentations history) :
      Presenting t settings (history ++ [.presented o (s.accept o).1]) (s.accept o).2

variable {t : Transformer} {settings : Settings} {history : List Exchange} {s s' : Scheduler}
  {o : Occurrence}

/-- An accepted outcome is the latest one. -/
theorem accept_eq_some_iff (s : Scheduler) (o : Outcome) :
    (s.accept o).1 = some o ↔ s.latest = some o.sequence := by
  rw [accept]
  split
  next h => exact iff_of_true rfl h
  next h => exact iff_of_false (Option.some_ne_none o).symm h

/-- A rejected outcome leaves no trace. -/
theorem accept_of_latest_ne {o : Outcome} (h : s.latest ≠ some o.sequence) :
    s.accept o = (none, s) := if_neg h

theorem accept_of_latest {o : Outcome} (h : s.latest = some o.sequence) :
    s.accept o = (some o, { s with awaiting := false }) := if_pos h

/-- What a history says of its scheduler. The latest number is the greatest one submitted. It is
awaited until an outcome is presented for it, which then is the last one accepted. -/
structure Matches (history : List Exchange) (s : Scheduler) : Prop where
  latest : s.latest = (submissions history).max?
  lt_next : ∀ n ∈ submissions history, n < s.next
  submitted : ∀ n ∈ presentations history, n ∈ submissions history
  presented : ∀ n ∈ acceptances history, n ∈ presentations history
  increasing : (acceptances history).Pairwise (· < ·)
  awaiting : s.awaiting = true ↔ ∃ n, s.latest = some n ∧ n ∉ presentations history
  last : ∀ n, s.latest = some n → n ∈ presentations history →
    (acceptances history).getLast? = some n

namespace Matches

theorem begin (settings : Settings) : Matches [] (ofSettings settings) where
  latest := rfl
  lt_next := nofun
  submitted := nofun
  presented := nofun
  increasing := .nil
  awaiting := by simp [ofSettings]
  last := nofun

/-- A change that leaves waiting alone and at most uses up numbers is not seen in the history. -/
theorem frame (h : Matches history s) (hnext : s.next ≤ s'.next) (hlatest : s'.latest = s.latest)
    (hawaiting : s'.awaiting = s.awaiting) : Matches history s' where
  latest := hlatest.trans h.latest
  lt_next n hn := Nat.lt_of_lt_of_le (h.lt_next n hn) hnext
  submitted := h.submitted
  presented := h.presented
  increasing := h.increasing
  awaiting := by rw [hawaiting, hlatest, h.awaiting]
  last := hlatest ▸ h.last

/-- A new job has the greatest number, and no outcome was presented for it. -/
theorem enqueued (h : Matches history s) :
    Matches (history ++ [.submitted s.next]) s.enqueued := by
  have hnew : s.next ∉ presentations history := fun hin =>
    Nat.lt_irrefl _ (h.lt_next _ (h.submitted _ hin))
  have hle : ∀ n ∈ submissions history ++ [s.next], n ≤ s.next := by
    intro n hn
    rcases List.mem_append.mp hn with hn | hn
    · exact Nat.le_of_lt (h.lt_next n hn)
    · exact Nat.le_of_eq (List.mem_singleton.mp hn)
  constructor
  · rw [submissions_submitted]
    exact (List.max?_eq_some_iff.mpr ⟨by simp, hle⟩).symm
  · rw [submissions_submitted]
    exact fun n hn => Nat.lt_succ_of_le (hle n hn)
  · intro n hn
    rw [presentations_submitted] at hn
    rw [submissions_submitted]
    exact List.mem_append_left _ (h.submitted n hn)
  · simpa using h.presented
  · simpa using h.increasing
  · rw [presentations_submitted]
    exact iff_of_true rfl ⟨s.next, rfl, hnew⟩
  · rintro n ⟨⟩ hn
    rw [presentations_submitted] at hn
    exact absurd hn hnew

/-- A presented outcome is accepted if its number is the greatest so far, and then it comes after
the outcomes that were accepted before. -/
theorem present (h : Matches history s) {o : Outcome}
    (hsubmitted : o.sequence ∈ submissions history)
    (hunpresented : o.sequence ∉ presentations history) :
    Matches (history ++ [.presented o (s.accept o).1]) (s.accept o).2 := by
  have hall : ∀ n ∈ presentations history ++ [o.sequence], n ∈ submissions history := by
    simp only [List.mem_append, List.mem_singleton]
    rintro n (hn | rfl)
    · exact h.submitted n hn
    · exact hsubmitted
  by_cases hlatest : s.latest = some o.sequence
  · rw [accept_of_latest hlatest]
    constructor
    · simpa using h.latest
    · simpa using h.lt_next
    · simpa using hall
    · simp only [presentations_presented, acceptances_presented, Option.map_some,
        Option.toList_some, List.mem_append]
      rintro n (hn | hn)
      · exact Or.inl (h.presented n hn)
      · exact Or.inr hn
    · rw [acceptances_presented, List.pairwise_append]
      refine ⟨h.increasing, List.pairwise_singleton _ _, ?_⟩
      intro n hn m hm
      obtain rfl := List.mem_singleton.mp hm
      -- Only new outcomes are presented, so the number differs from those accepted before.
      have hpresented := h.presented n hn
      have hle : n ≤ o.sequence :=
        (List.max?_eq_some_iff.mp (h.latest.symm.trans hlatest)).2 n (h.submitted n hpresented)
      exact Nat.lt_of_le_of_ne hle fun heq => hunpresented (heq ▸ hpresented)
    · refine iff_of_false Bool.noConfusion ?_
      rintro ⟨n, hn, hnotin⟩
      obtain rfl := Option.some.inj (hlatest.symm.trans hn)
      simp at hnotin
    · intro n hn _
      obtain rfl := Option.some.inj (hlatest.symm.trans hn)
      simp
  · rw [accept_of_latest_ne hlatest]
    -- The latest number is not that of the outcome, so it was presented before or not at all.
    have hmem : ∀ n, s.latest = some n →
        (n ∈ presentations history ++ [o.sequence] ↔ n ∈ presentations history) := by
      intro n hn
      have hne : n ≠ o.sequence := fun heq => hlatest (heq ▸ hn)
      simp [hne]
    constructor
    · simpa using h.latest
    · simpa using h.lt_next
    · simpa using hall
    · simp only [presentations_presented, acceptances_presented, Option.map_none,
        Option.toList_none, List.append_nil, List.mem_append]
      exact fun n hn => Or.inl (h.presented n hn)
    · simpa using h.increasing
    · rw [presentations_presented, h.awaiting]
      exact exists_congr fun n => and_congr_right fun hn => not_congr (hmem n hn).symm
    · intro n hn hin
      rw [presentations_presented] at hin
      rw [acceptances_presented, Option.map_none, Option.toList_none, List.append_nil]
      exact h.last n hn ((hmem n hn).mp hin)

/-- An outcome is accepted exactly if its number is the greatest one submitted. -/
theorem accept_iff (h : Matches history s) (o : Outcome) :
    (s.accept o).1 = some o ↔ (submissions history).max? = some o.sequence := by
  rw [accept_eq_some_iff, h.latest]

/-- An outcome that no job was submitted for leaves no trace. -/
theorem accept_eq_of_notMem (h : Matches history s) {o : Outcome}
    (hnew : o.sequence ∉ submissions history) : s.accept o = (none, s) := by
  refine accept_of_latest_ne ?_
  rw [h.latest]
  exact fun hmax => hnew (List.max?_eq_some_iff.mp hmax).1

/-- The outcome of the greatest number ends the waiting and is the last one accepted. -/
theorem presented_latest (h : Matches history s) {n : Nat}
    (hmax : (submissions history).max? = some n) (hn : n ∈ presentations history) :
    (acceptances history).getLast? = some n ∧ s.awaiting = false := by
  have hlatest := h.latest.trans hmax
  refine ⟨h.last n hlatest hn, ?_⟩
  rw [← Bool.not_eq_true, h.awaiting]
  rintro ⟨m, hm, hnotin⟩
  obtain rfl := Option.some.inj (hlatest.symm.trans hm)
  exact hnotin hn

/-- When every outcome was presented, the last one accepted is the greatest of all. -/
theorem complete (h : Matches history s)
    (hall : ∀ n ∈ submissions history, n ∈ presentations history) :
    (acceptances history).getLast? = (submissions history).max? ∧ s.awaiting = false := by
  cases hmax : (submissions history).max? with
  | none =>
      have hempty := List.max?_eq_none_iff.mp hmax
      have hnone : acceptances history = [] := by
        refine List.eq_nil_iff_forall_not_mem.mpr fun n hn => ?_
        have hin := h.submitted n (h.presented n hn)
        rw [hempty] at hin
        exact List.not_mem_nil hin
      refine ⟨congrArg List.getLast? hnone, ?_⟩
      rw [← Bool.not_eq_true, h.awaiting, h.latest, hmax]
      rintro ⟨n, ⟨⟩, -⟩
  | some n => exact h.presented_latest hmax (hall n (List.max?_eq_some_iff.mp hmax).1)

/-- No step but the presentation of an outcome is seen in the history, except for a submission. -/
theorem step (h : Matches history s) (hstep : Step t s o s') (unheard : o.event? = none) :
    Matches (history ++ (o.job?.map fun j => Exchange.submitted j.sequence).toList) s' := by
  have hdoes := hstep.does
  cases o with
  | edited | renamed | configured | passed =>
      subst hdoes
      simp only [Occurrence.job?, Option.map_none, Option.toList_none, List.append_nil]
      exact h.frame (Nat.le_refl _) rfl rfl
  | submitted byTimer j =>
      obtain ⟨-, rfl, -, rfl⟩ := hdoes
      exact h.enqueued
  | refused =>
      obtain ⟨-, rfl⟩ := hdoes
      simp only [Occurrence.job?, Option.map_none, Option.toList_none, List.append_nil]
      exact h.frame (Nat.le_succ _) rfl rfl
  | arrived e => cases unheard

end Matches

/-- Every history matches its scheduler. -/
theorem Presenting.matches (run : Presenting t settings history s) : Matches history s := by
  induction run with
  | begin => exact .begin settings
  | step run step unheard ih => exact ih.step step unheard
  | present run o submitted unpresented ih => exact ih.present submitted unpresented

/-- Outcomes may be presented in any order, each once and after its job was submitted. The scheduler
accepts one exactly if its number is the greatest submitted so far, and any other outcome, one that
no job was submitted for included, leaves it as it is. The accepted numbers increase. Once the
outcome of the greatest number was presented it is the last one accepted and nothing is awaited, so
that is how it ends when every outcome was presented. -/
theorem accepts_only_greatest (run : Presenting t settings history s) :
    (∀ o, (s.accept o).1 = some o ↔ (submissions history).max? = some o.sequence) ∧
      (∀ o, (submissions history).max? ≠ some o.sequence → s.accept o = (none, s)) ∧
      (∀ o, o.sequence ∉ submissions history → s.accept o = (none, s)) ∧
      (acceptances history).Pairwise (· < ·) ∧
      (∀ n, (submissions history).max? = some n → n ∈ presentations history →
        (acceptances history).getLast? = some n ∧ s.awaiting = false) ∧
      ((∀ n ∈ submissions history, n ∈ presentations history) →
        (acceptances history).getLast? = (submissions history).max? ∧ s.awaiting = false) := by
  have h := run.matches
  refine ⟨h.accept_iff, ?_, fun o => h.accept_eq_of_notMem, h.increasing,
    fun n => h.presented_latest, h.complete⟩
  intro o hmax
  rw [← h.latest] at hmax
  exact accept_of_latest_ne hmax

/-- The outcome of a job with the given number. -/
def plain (sequence : Nat) : Outcome := ⟨some "a", none, none, .zero, sequence⟩

/-- The outcome of the second job overtakes that of the first one, and a third job is submitted by
the timer afterwards. -/
def overtaking : List Exchange :=
  [.submitted 1, .submitted 2, .presented (plain 2) (some (plain 2)), .presented (plain 1) none,
    .submitted 3, .presented (plain 3) (some (plain 3))]

theorem accepts_only_greatest_overtaking :
    ∃ s, Presenting echo .default overtaking s ∧ (acceptances overtaking).getLast? = some 3 ∧
      s.awaiting = false ∧ s.accept (plain 1) = (none, s) ∧ s.accept (plain 4) = (none, s) := by
  have first : Presenting echo .default _ _ := .step .begin (.compile rfl) rfl
  have second := first.step (.compile rfl) rfl
  have accepted := second.present (plain 2) (by decide) (by decide)
  have rejected := accepted.present (plain 1) (by decide) (by decide)
  have due := (rejected.step (.edit "b") rfl).step (.advance 500) rfl
  have third := due.step (.event (.fired rfl)) rfl
  have run : Presenting echo .default overtaking _ :=
    third.present (plain 3) (by decide) (by decide)
  obtain ⟨-, hrejects, hnever, -, -, hcomplete⟩ := accepts_only_greatest run
  obtain ⟨hlast, hawaiting⟩ := hcomplete (by decide)
  exact ⟨_, run, hlast, hawaiting, hrejects (plain 1) (by decide), hnever (plain 4) (by decide)⟩

end Provenance.Scheduler
