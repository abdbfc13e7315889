import Mathlib.Tactic.Linarith
import VmOperator.Proofs.Number.Exact
import VmOperator.Proofs.Queue.Calls

/-! What the delays of a key come to over any calls. With integer settings they double with every failure in a row, exactly
and up to the maximum, and no other key has a say (`failures_back_off`). With a double for the base they are delays as long
as the factor is a double, and after `doublingLimit` failures in a row there is none (`delays_until_too_large`). -/

namespace VmOperator.Queue

variable {s : Settings} {past : List Call} {q : Queue} {call : Call}

/-- the call ended in a request to be made again after the delay, with the key and what was described -/
def Call.Again (call : Call) (delay : Number) : Prop :=
  ∃ text, call.outcome.describe = .ok text ∧ call.verdict = .ok (.again (call.key.text ++ ": " ++ text) delay)

def Call.delay? (call : Call) : Option Number :=
  match call.verdict with
  | .ok (.again _ delay) => some delay
  | _ => none

theorem Call.Again.unique {d d' : Number} (again : call.Again d) (again' : call.Again d') : d = d' := by
  obtain ⟨_, -, verdict⟩ := again
  obtain ⟨_, -, verdict'⟩ := again'
  exact (Verdict.again.inj (Except.ok.inj (verdict.symm.trans verdict'))).2

section Verdict

variable {k : Key} {n : Nat} {f : Fault} {d : Number} {e : Failure} {v : Except Failure Verdict}

theorem again_of_failed (delay : delay s n = .ok d) : Call.Again ⟨k, .failed f, verdictOn s k n (.failed f)⟩ d := by
  refine ⟨_, rfl, ?_⟩
  simp only [verdictOn, verdictMessage, Outcome.describe, delay]
  rfl

theorem verdictOn_of_no_delay (delay : delay s n = .error e) : verdictOn s k n (.failed f) = .error e := by
  simp only [verdictOn, delay]
  rfl

theorem again_of_requeue (held : d.general? ≠ none) : Call.Again ⟨k, .requeue d, verdictOn s k n (.requeue d)⟩ d := by
  obtain ⟨text, general⟩ := Option.ne_none_iff_exists'.1 held
  refine ⟨"requeue after " ++ text ++ "s", by simp only [Outcome.describe, general], ?_⟩
  simp only [verdictOn, verdictMessage, Outcome.describe, general]
  rfl

/-- the failures in a row that a verdict on a failure is about end with that one -/
theorem Run.failed_eq (run : Run s past q) {before after : List Call} (split : past = before ++ call :: after)
    (failed : call.outcome.isFailed = true) :
    ∃ f, call.outcome = .failed f ∧
      call.verdict = verdictOn s call.key (streak (outcomesOf call.key (before ++ [call]))) (.failed f) := by
  have verdict := run.verdict_eq _ _ _ split
  rw [outcomesOf_snoc_self, streak_snoc, if_pos failed]
  cases outcome : call.outcome with
  | failed f => exact ⟨f, rfl, by rw [verdict, outcome]⟩
  | done | requeue => simp [outcome, Outcome.isFailed] at failed

end Verdict

section Integers

variable {b m : Int}

def exactDelay (b m : Int) (failures : Nat) : Int := min (b * 2 ^ (failures - 1)) m

theorem delay_eq (base : s.backoffBase = .int b) (most : s.backoffMax = .int m) (n : Nat) :
    delay s n = .ok (.int (exactDelay b m n)) := by
  have power : ((Nat.pow 2 (n - 1) : Nat) : Int) = 2 ^ (n - 1) := by
    rw [Nat.pow_eq, Nat.cast_pow, Nat.cast_ofNat]
  simp only [delay, base, most, doubled, power]
  exact congrArg Except.ok (Number.least_int ..)

theorem exactDelay_mono (nonneg : 0 ≤ b) {n n' : Nat} (longer : n ≤ n') : exactDelay b m n ≤ exactDelay b m n' :=
  min_le_min_right m <| mul_le_mul_of_nonneg_left
    (pow_le_pow_right₀ one_le_two (Nat.sub_le_sub_right longer 1)) nonneg

/-- what the calls so far ended in under integer settings, and what is kept of them -/
structure BacksOff (b m : Int) (past : List Call) (q : Queue) : Prop where
  failed : ∀ before call after, past = before ++ call :: after → call.outcome.isFailed = true →
    call.Again (.int (min (b * 2 ^ (streak (outcomesOf call.key (before ++ [call])) - 1)) m))
  requeued : ∀ call ∈ past, ∀ d, call.outcome = .requeue d → d.general? ≠ none → call.Again d
  settled : ∀ call ∈ past, call.outcome = .done → call.verdict = .ok (.settled .done)
  steady : ∀ before first between second after, past = before ++ first :: (between ++ second :: after) →
    second.key = first.key → (∀ call ∈ first :: (between ++ [second]), call.key = first.key → call.outcome.isFailed = true) →
    ∀ d d', first.Again (.int d) → second.Again (.int d') → d ≤ d'
  distinct : (q.failures.map (·.1)).Nodup
  listed : ∀ k, k ∈ q.failures.map (·.1) ↔ ∃ f, (outcomesOf k past).getLast? = some (.failed f)

theorem Run.failed_again (run : Run s past q) (base : s.backoffBase = .int b) (most : s.backoffMax = .int m)
    {before after : List Call} (split : past = before ++ call :: after) (failed : call.outcome.isFailed = true) :
    call.Again (.int (exactDelay b m (streak (outcomesOf call.key (before ++ [call]))))) := by
  obtain ⟨f, outcome, verdict⟩ := run.failed_eq split failed
  obtain ⟨text, described, again⟩ := again_of_failed (k := call.key) (f := f) (delay_eq base most
    (streak (outcomesOf call.key (before ++ [call]))))
  exact ⟨text, outcome ▸ described, verdict.trans again⟩

/-- the failures in a row only become more while no other outcome of the key comes in between -/
theorem streak_le_of_failed {before between : List Call} {first second : Call} (same : second.key = first.key)
    (failed : ∀ call ∈ first :: (between ++ [second]), call.key = first.key → call.outcome.isFailed = true) :
    streak (outcomesOf first.key (before ++ [first])) ≤
      streak (outcomesOf second.key (before ++ first :: (between ++ [second]))) := by
  have grown : outcomesOf second.key (before ++ first :: (between ++ [second])) =
      outcomesOf first.key (before ++ [first]) ++ outcomesOf first.key (between ++ [second]) := by
    rw [same, List.append_cons before]
    simp [outcomesOf]
  rw [grown, streak_append]
  · exact Nat.le_add_right ..
  · intro o mem
    obtain ⟨call, kept, rfl⟩ := List.mem_map.1 mem
    obtain ⟨called, key⟩ := List.mem_filter.1 kept
    exact failed call (List.mem_cons_of_mem _ called) (of_decide_eq_true key)

theorem Run.backsOff (run : Run s past q) (base : s.backoffBase = .int b) (most : s.backoffMax = .int m) (nonneg : 0 ≤ b) :
    BacksOff b m past q where
  failed before call after split failed := run.failed_again base most split failed
  requeued call mem d outcome held := by
    obtain ⟨before, after, split⟩ := List.append_of_mem mem
    have verdict := run.verdict_eq _ _ _ split
    rw [outcome] at verdict
    obtain ⟨text, described, again⟩ := again_of_requeue (s := s) (k := call.key)
      (n := streak (outcomesOf call.key before) + 1) held
    exact ⟨text, outcome ▸ described, verdict.trans again⟩
  settled call mem outcome := by
    obtain ⟨before, after, split⟩ := List.append_of_mem mem
    rw [run.verdict_eq _ _ _ split, outcome]
    rfl
  steady before first between second after split same failed d d' again again' := by
    have split' : past = (before ++ first :: between) ++ second :: after := by rw [split, List.append_assoc, List.cons_append]
    have told := run.failed_again base most split (failed first (List.mem_cons_self ..) rfl)
    have told' := run.failed_again base most split' (failed second (by simp) same)
    rw [List.append_assoc, List.cons_append] at told'
    cases again.unique told
    cases again'.unique told'
    exact exactDelay_mono nonneg (streak_le_of_failed same failed)
  distinct := run.tallied.distinct
  listed k := by
    rw [← streak_pos_iff, List.mem_map]
    constructor
    · rintro ⟨⟨k', n⟩, mem, rfl⟩
      obtain ⟨positive, rfl⟩ := (run.tallied.entries k' n).1 mem
      exact positive
    · exact fun positive => ⟨(k, _), (run.tallied.entries k _).2 ⟨positive, rfl⟩, rfl⟩

/-- Failures of a key back off on their own. Over any calls for any keys, in any order and whatever is answered to their
invocations: a failure has its key called again after the base doubled with every failure before it since the key last came
to something else, up to the maximum, exactly; a requeue after its own delay, which is declared to be a double (an integer is
given as far as there is a double for it); and one that is done is settled. The delays do not shrink while a key keeps failing,
and the table holds, once each, the keys whose last outcome was a failure. What the calls of a key end in is told by its own
outcomes, whatever calls for others are made in between. -/
theorem failures_back_off (base : s.backoffBase = .int b) (most : s.backoffMax = .int m) (nonneg : 0 ≤ b)
    (run : Run s past q) :
    BacksOff b m past q ∧
    ∀ k past' q', Run s past' q' → outcomesOf k past' = outcomesOf k past → verdictsOf k past' = verdictsOf k past :=
  ⟨run.backsOff base most nonneg, fun k past' q' run' same => by rw [run'.verdictsOf_eq, run.verdictsOf_eq, same]⟩

def twins : Key × Key := (⟨Key.machineKind, "default", "worker"⟩, ⟨Key.clusterKind, "default", "worker"⟩)

/-- the machine fails twice, with the cluster in between, comes to a requeue and fails again -/
theorem failures_back_off_twins :
    ∃ past q, Run { backoffBase := .int 3, backoffMax := .int 5 } past q ∧
      past.map (fun call => (call.key, call.delay?)) = [(twins.1, some (.int 3)), (twins.2, some (.int 3)),
        (twins.1, some (.int 5)), (twins.1, some (.ofNat 10)), (twins.1, some (.int 3))] ∧
      BacksOff 3 5 past q ∧
      ∀ k past' q', Run { backoffBase := .int 3, backoffMax := .int 5 } past' q' →
        outcomesOf k past' = outcomesOf k past → verdictsOf k past' = verdictsOf k past := by
  let c : Context := { Sample.context with settings := { backoffBase := .int 3, backoffMax := .int 5 } }
  let refused : Cue := .refusal (.int 500) .null
  obtain ⟨past, q, run, seen⟩ := exists_run Sample.alone c Sample.held [(twins.1, [refused]), (twins.2, [refused]),
      (twins.1, [refused]), (twins.1, [.gives, .numbered 7, .takes "2"]), (twins.1, [refused])]
    (fun (past, _) => decide (past.map (fun call => (call.key, call.delay?)) = [(twins.1, some (.int 3)),
      (twins.2, some (.int 3)), (twins.1, some (.int 5)), (twins.1, some (.ofNat 10)), (twins.1, some (.int 3))]))
    (by decide +kernel)
  obtain ⟨alone, apart⟩ := failures_back_off rfl rfl (by decide) run
  exact ⟨past, q, run, of_decide_eq_true seen, alone, apart⟩

end Integers

section Doubles

variable {x y : ℚ} {b : Binary64}

/-- a base that is not negative is doubled to a double, which is finite or infinity, and this is cut down to the maximum -/
theorem delay_of_few {n : Nat} (base : s.backoffBase = .double b) (value : s.backoffBase.value? = some x) (nonneg : 0 ≤ x)
    (most : s.backoffMax.value? = some y) (few : n ≤ 1024) :
    ∃ d z, delay s n = .ok d ∧ d.value? = some z ∧ z ≤ y := by
  have shifted : delay s n = .ok ((Number.double (b.shift (n - 1))).least s.backoffMax) := by
    have below : n - 1 < doublingLimit := by unfold doublingLimit; omega
    simp only [delay, base, doubled, if_pos below]
    rfl
  rw [base] at value
  cases b with
  | nan | infinity => cases value
  | finite negative m e =>
    rcases Binary64.shift_eq negative m e (n - 1) with ⟨m', e', finite⟩ | ⟨nonzero, infinite⟩
    · obtain ⟨z, found⟩ : ∃ z, (Number.double (.finite negative m' e')).value? = some z := ⟨_, rfl⟩
      rw [finite] at shifted
      exact ⟨_, _, shifted, Number.least_value found most, min_le_right ..⟩
    · -- a mantissa that is not zero has the sign of the base
      have positive : negative = false := by
        by_contra below
        rw [Bool.not_eq_false] at below
        subst below
        have sign : -(m : ℚ) * 2 ^ e = x := by simpa [Number.value?, Number.scaled?, Binary64.signed?] using value
        have size : 0 < (m : ℚ) * 2 ^ e := mul_pos (Nat.cast_pos.2 (Nat.pos_of_ne_zero nonzero)) (zpow_pos two_pos _)
        linarith
      rw [infinite, positive, Number.least_infinity most] at shifted
      exact ⟨_, _, shifted, most, le_rfl⟩

theorem delay_of_many {n : Nat} (base : s.backoffBase = .double b) (many : 1024 < n) : delay s n = .error .outOfRange := by
  have beyond : ¬n - 1 < doublingLimit := by unfold doublingLimit; omega
  simp only [delay, base, doubled, if_neg beyond]
  rfl

theorem delay_of_integer {i : Int} (base : s.backoffBase = .int i) (most : s.backoffMax.value? = some y) (n : Nat) :
    ∃ d z, delay s n = .ok d ∧ d.value? = some z ∧ z ≤ y := by
  have exact : delay s n = .ok ((Number.int (i * (Nat.pow 2 (n - 1) : Nat))).least s.backoffMax) := by
    simp only [delay, base, doubled]
    rfl
  exact ⟨_, _, exact, Number.least_value (Number.value?_int _) most, min_le_right ..⟩

/-- there is a delay up to the maximum after so many failures in a row, or the factor is beyond the doubles -/
structure DelaysUntilTooLarge (s : Settings) (y : ℚ) (failures : Nat) (gives : Number → Prop) (overflows : Prop) : Prop where
  given : (∃ i, s.backoffBase = .int i) ∨ failures ≤ 1024 → ∃ d z, gives d ∧ d.value? = some z ∧ z ≤ y
  refused : (∃ b, s.backoffBase = .double b) → 1024 < failures → overflows

theorem delay_until_too_large (value : s.backoffBase.value? = some x) (nonneg : 0 ≤ x) (most : s.backoffMax.value? = some y)
    (n : Nat) : DelaysUntilTooLarge s y n (delay s n = .ok ·) (delay s n = .error .outOfRange) where
  given few := by
    cases base : s.backoffBase with
    | int i => exact delay_of_integer base most n
    | double b =>
      have few : n ≤ 1024 := few.resolve_left fun ⟨i, int⟩ => by cases base.symm.trans int
      exact delay_of_few base value nonneg most few
  refused := fun ⟨_, base⟩ many => delay_of_many base many

/-- Every failure of a key has a delay, up to the maximum, as long as its factor is a double. With settings that are finite, and
a base that is not negative, a failure in any calls is called again after a delay that is no longer than the maximum where
the base is an integer or the failures in a row are 1024 at most; with a double for the base, the failures after these leave the
call with a failure of its own in place of a delay. The same holds of the delay that is asked for by itself. -/
theorem delays_until_too_large (value : s.backoffBase.value? = some x) (nonneg : 0 ≤ x) (most : s.backoffMax.value? = some y)
    (run : Run s past q) :
    (∀ k, DelaysUntilTooLarge s y (streak (outcomesOf k past) + 1) ((q.backoff s k).2 = .ok ·)
      ((q.backoff s k).2 = .error .outOfRange)) ∧
    ∀ before call after, past = before ++ call :: after → call.outcome.isFailed = true →
      DelaysUntilTooLarge s y (streak (outcomesOf call.key (before ++ [call]))) call.Again
        (call.verdict = .error .outOfRange) := by
  constructor
  · intro k
    have counted : (q.backoff s k).2 = delay s (streak (outcomesOf k past) + 1) := by
      rw [← run.tallied.count, ← count_countUp]
      rfl
    rw [counted]
    exact delay_until_too_large value nonneg most _
  · intro before call after split failed
    obtain ⟨f, outcome, verdict⟩ := run.failed_eq split failed
    obtain ⟨given, refused⟩ := delay_until_too_large value nonneg most (streak (outcomesOf call.key (before ++ [call])))
    refine ⟨fun few => ?_, fun base many => ?_⟩
    · obtain ⟨d, z, delay, bounded⟩ := given few
      obtain ⟨text, described, again⟩ := again_of_failed (k := call.key) (f := f) delay
      exact ⟨d, z, ⟨text, outcome ▸ described, verdict.trans again⟩, bounded⟩
    · rw [verdict, verdictOn_of_no_delay (refused base many)]

/-- the settings as they are without any given -/
theorem default_values : ({} : Settings).backoffBase.value? = some 1 ∧ ({} : Settings).backoffMax.value? = some 300 := by
  have base : ({} : Settings).backoffBase = .double (.finite false (2 ^ 52) (-52)) := by decide +kernel
  have most : ({} : Settings).backoffMax = .double (.finite false (300 * 2 ^ 44) (-44)) := by decide +kernel
  rw [base, most]
  constructor <;> simp [Number.value?, Number.scaled?, Binary64.signed?] <;> norm_num

/-- a machine that the store does not answer for, as often as it is called -/
theorem exists_run_failing (n : Nat) :
    ∃ before call q, Run {} (before ++ [call]) q ∧ call.outcome.isFailed = true ∧ call.key = twins.1 ∧
      streak (outcomesOf call.key (before ++ [call])) = n + 1 := by
  obtain ⟨es, r, h', plays, seen⟩ := Sample.alone.exists_plays (reconcile Sample.context twins.1).run Sample.held
    [.refusal (.int 500) .null] (fun x => x.2.1.toOption.any Outcome.isFailed) (by decide +kernel)
  cases r with
  | error => cases seen
  | ok o =>
    have returned := plays.inWorld.anywhere
    have failed : o.isFailed = true := seen
    induction n with
    | zero =>
      refine ⟨[], _, _, Run.judged .nil rfl returned, failed, rfl, ?_⟩
      rw [outcomesOf_snoc_self, streak_snoc, if_pos failed]
      rfl
    | succ n ih =>
      obtain ⟨before, call, q, run, -, key, counted⟩ := ih
      refine ⟨_, _, _, run.judged rfl returned, failed, rfl, ?_⟩
      rw [outcomesOf_snoc_self, streak_snoc, if_pos failed, ← counted, key]

/-- the 1024th failure is called again in time, and the delay after it is none -/
theorem delays_until_too_large_last :
    ∃ before call q, Run {} (before ++ [call]) q ∧ call.key = twins.1 ∧
      streak (outcomesOf call.key (before ++ [call])) = 1024 ∧ (∃ d z, call.Again d ∧ d.value? = some z ∧ z ≤ 300) ∧
      (q.backoff {} twins.1).2 = .error .outOfRange := by
  obtain ⟨before, call, q, run, failed, key, counted⟩ := exists_run_failing 1023
  obtain ⟨asked, called⟩ := delays_until_too_large default_values.1 zero_le_one default_values.2 run
  refine ⟨before, call, q, run, key, counted, ?_, ?_⟩
  · exact (called before call [] rfl failed).given (.inr counted.le)
  · refine (asked twins.1).refused ⟨_, rfl⟩ ?_
    rw [← key, counted]
    decide

/-- under the default settings the 1025th failure in a row leaves its call with a failure, and no delay -/
theorem not_always_delayed :
    ∃ before call q, Run {} (before ++ [call]) q ∧ call.outcome.isFailed = true ∧
      streak (outcomesOf call.key (before ++ [call])) = 1025 ∧ call.verdict = .error .outOfRange ∧ ¬∃ d, call.Again d := by
  obtain ⟨before, call, q, run, failed, key, counted⟩ := exists_run_failing 1024
  obtain ⟨f, outcome, verdict⟩ := run.failed_eq rfl failed
  have none := delay_of_many (s := {}) (n := 1025) rfl (by decide)
  rw [counted, verdictOn_of_no_delay none] at verdict
  refine ⟨before, call, q, run, failed, counted, verdict, ?_⟩
  rintro ⟨d, text, -, again⟩
  cases verdict.symm.trans again

end Doubles

end VmOperator.Queue
