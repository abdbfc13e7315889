import VmOperator.Proofs.Rehearsal
import VmOperator.Proofs.Store.Yields
import VmOperator.Queue

/-! Calls of the queue, one after the other. A call carries out one invocation and judges its outcome (`process_judged`).
The table of failures holds the keys whose last outcome was one, each with its failures in a row (`Run.tallied`), so the
verdict on a call is told by the outcomes of its own key (`Run.verdict_eq`). -/

namespace VmOperator

namespace World

variable {W W' : World} {α β : Type} {h h' h'' h₁ h₂ : Held} {es es' : List Event} {a b : α}

theorem Plays.bind {p : Program α} {f : α → Program β} {b : β} (plays : W.Plays h p es a h')
    (rest : W.Plays h' (f a) es' b h'') : W.Plays h (p >>= f) (es ++ es') b h'' := by
  induction plays with
  | done => exact rest
  | send said happens _ ih => exact .send said happens (ih rest)
  | call said happens _ ih => exact .call said happens (ih rest)

/-- the answers tell what a program comes to -/
theorem Plays.result_eq {p : Program α} (plays : W.Plays h p es a h') (again : W'.Plays h₁ p es b h₂) : a = b := by
  induction plays generalizing h₁ with
  | done =>
    cases again
    rfl
  | send said _ _ ih =>
    cases again with
    | send said' _ rest =>
      cases said.symm.trans said'
      exact ih rest
  | call said _ _ ih =>
    cases again with
    | call said' _ rest =>
      cases said.symm.trans said'
      exact ih rest

end World

namespace Queue

/-- a call for a key: what its invocation came to, and the verdict on that -/
structure Call where
  key : Key
  outcome : Outcome
  verdict : Except Failure Verdict

/-- the calls so far, whatever was answered to their invocations, and the queue after them -/
inductive Run (s : Settings) : List Call → Queue → Prop
  | nil : Run s [] {}
  | snoc {past : List Call} {q q' : Queue} {c : Context} {k : Key} {h h' : Held} {es : List VmOperator.Event} {o : Outcome}
      {v : Except Failure Verdict} (run : Run s past q) (settings : c.settings = s)
      (returned : World.any.Plays h (reconcile c k).run es (.ok o) h')
      (processed : World.any.Plays h (process c q k) es (q', v) h') : Run s (past ++ [⟨k, o, v⟩]) q'

def outcomesOf (k : Key) (past : List Call) : List Outcome := (past.filter (·.key = k)).map (·.outcome)

def verdictsOf (k : Key) (past : List Call) : List (Except Failure Verdict) := (past.filter (·.key = k)).map (·.verdict)

/-- how many outcomes at the end are failures, in a row -/
def streak (os : List Outcome) : Nat := (os.reverse.takeWhile Outcome.isFailed).length

section Streak

variable {os os' : List Outcome} {o : Outcome} {k : Key} {past : List Call} {call : Call}

theorem streak_snoc (os : List Outcome) (o : Outcome) : streak (os ++ [o]) = if o.isFailed then streak os + 1 else 0 := by
  rw [streak, List.reverse_append, List.reverse_singleton, List.singleton_append, List.takeWhile_cons]
  split <;> rfl

theorem streak_append (failed : ∀ o ∈ os', o.isFailed = true) : streak (os ++ os') = streak os + os'.length := by
  have all : ∀ o ∈ os'.reverse, o.isFailed = true := fun o mem => failed o (List.mem_reverse.1 mem)
  rw [streak, List.reverse_append, List.takeWhile_append_of_pos all, List.length_append, List.length_reverse, Nat.add_comm]
  rfl

theorem streak_pos_iff : 0 < streak os ↔ ∃ f, os.getLast? = some (.failed f) := by
  rcases List.eq_nil_or_concat os with rfl | ⟨os, o, rfl⟩
  · simp [streak]
  · rw [List.concat_eq_append, streak_snoc, List.getLast?_concat]
    cases o <;> simp [Outcome.isFailed]

theorem outcomesOf_snoc_self (past : List Call) (call : Call) :
    outcomesOf call.key (past ++ [call]) = outcomesOf call.key past ++ [call.outcome] := by
  simp [outcomesOf]

theorem outcomesOf_snoc_of_ne (other : call.key ≠ k) : outcomesOf k (past ++ [call]) = outcomesOf k past := by
  simp [outcomesOf, other]

theorem verdictsOf_snoc_self (past : List Call) (call : Call) :
    verdictsOf call.key (past ++ [call]) = verdictsOf call.key past ++ [call.verdict] := by
  simp [verdictsOf]

theorem verdictsOf_snoc_of_ne (other : call.key ≠ k) : verdictsOf k (past ++ [call]) = verdictsOf k past := by
  simp [verdictsOf, other]

end Streak

section Table

variable {q : Queue} {k k' : Key} {n : Nat}

theorem mem_forget : (k', n) ∈ (q.forget k).failures ↔ (k', n) ∈ q.failures ∧ k' ≠ k := by
  simp [forget]

theorem mem_countUp : (k', n) ∈ (q.countUp k).failures ↔ (k', n) ∈ (q.forget k).failures ∨ k' = k ∧ n = q.count k + 1 := by
  simp [countUp]

theorem count_countUp (q : Queue) (k : Key) : (q.countUp k).count k = q.count k + 1 := by
  have gone : (q.forget k).failures.find? (fun f => f.1 = k) = none := by
    refine List.find?_eq_none.2 fun f mem => ?_
    simp only [forget, List.mem_filter, decide_eq_true_eq] at mem ⊢
    exact mem.2
  rw [countUp, count, List.find?_append, gone, Option.none_or, List.find?_singleton, if_pos (decide_eq_true rfl)]
  rfl

/-- the table holds the keys whose last outcome was a failure, with the failures in a row -/
structure Tallied (past : List Call) (q : Queue) : Prop where
  distinct : (q.failures.map (·.1)).Nodup
  entries : ∀ k n, (k, n) ∈ q.failures ↔ 0 < n ∧ n = streak (outcomesOf k past)

variable {past : List Call}

theorem Tallied.count (tallied : Tallied past q) (k : Key) : q.count k = streak (outcomesOf k past) := by
  unfold Queue.count
  cases found : q.failures.find? fun f => f.1 = k with
  | some f =>
    obtain ⟨k', n⟩ := f
    have same := List.find?_some found
    obtain rfl : k' = k := of_decide_eq_true same
    exact ((tallied.entries k' n).1 (List.mem_of_find?_eq_some found)).2
  | none =>
    refine (Nat.eq_zero_of_not_pos fun some => ?_).symm
    have listed := (tallied.entries k _).2 ⟨some, rfl⟩
    simpa using List.find?_eq_none.1 found _ listed

theorem Tallied.forget (tallied : Tallied past q) (call : Call) (other : call.outcome.isFailed = false) :
    Tallied (past ++ [call]) (q.forget call.key) := by
  refine ⟨tallied.distinct.sublist (List.filter_sublist.map _), fun k n => ?_⟩
  rw [mem_forget, tallied.entries]
  by_cases same : call.key = k
  · subst same
    rw [outcomesOf_snoc_self, streak_snoc, other]
    simp only [ne_eq, not_true_eq_false, and_false, Bool.false_eq_true, reduceIte, false_iff]
    omega
  · rw [outcomesOf_snoc_of_ne same]
    exact and_iff_left (Ne.symm same)

theorem Tallied.countUp (tallied : Tallied past q) (call : Call) (failed : call.outcome.isFailed = true) :
    Tallied (past ++ [call]) (q.countUp call.key) := by
  constructor
  · have gone : call.key ∉ (q.forget call.key).failures.map (·.1) := by
      rintro mem
      obtain ⟨⟨k, n⟩, listed, rfl⟩ := List.mem_map.1 mem
      exact (mem_forget.1 listed).2 rfl
    have kept : ((q.forget call.key).failures.map (·.1)).Nodup := tallied.distinct.sublist (List.filter_sublist.map _)
    rw [Queue.countUp, List.map_append]
    refine List.nodup_append.2 ⟨kept, List.nodup_cons.2 ⟨List.not_mem_nil, List.nodup_nil⟩, fun k mem k' single => ?_⟩
    obtain rfl := List.mem_singleton.1 single
    rintro rfl
    exact gone mem
  · intro k n
    rw [mem_countUp, mem_forget, tallied.entries, tallied.count]
    by_cases same : call.key = k
    · subst same
      rw [outcomesOf_snoc_self, streak_snoc, failed]
      simp only [ne_eq, not_true_eq_false, and_false, reduceIte, true_and, false_or]
      omega
    · rw [outcomesOf_snoc_of_ne same]
      have other : k ≠ call.key := Ne.symm same
      simp [other]

end Table

section Verdict

variable {s : Settings} {c : Context} {q q' : Queue} {k : Key} {o : Outcome} {v : Except Failure Verdict} {past : List Call}

def verdictOn (s : Settings) (k : Key) (failures : Nat) (o : Outcome) : Except Failure Verdict :=
  match o with
  | .failed _ => do return .again (← verdictMessage k o) (← delay s failures)
  | .requeue after => do return .again (← verdictMessage k o) after
  | .done => .ok (.settled .done)

theorem judge_eq (s : Settings) (q : Queue) (k : Key) (o : Outcome) : q.judge s k o =
    (if o.isFailed then q.countUp k else q.forget k, verdictOn s k (q.count k + 1) o) := by
  cases o with
  | failed f =>
    rw [← count_countUp]
    rfl
  | done | requeue => rfl

variable {W : World} {h h' : Held} {es : List VmOperator.Event}

theorem process_plays (returned : W.Plays h (reconcile c k).run es (.ok o) h') :
    W.Plays h (process c q k) es (q.judge c.settings k o) h' := by
  have judged : W.Plays h (process c q k) (es ++ []) (q.judge c.settings k o) h' := returned.bind (.done ..)
  rwa [List.append_nil] at judged

/-- a call comes to what is judged of its outcome -/
theorem process_judged (returned : W.Plays h (reconcile c k).run es (.ok o) h')
    (processed : W.Plays h (process c q k) es (q', v) h') : (q', v) = q.judge c.settings k o :=
  processed.result_eq (process_plays returned)

/-- a call that was judged is one of the run -/
theorem Run.judged (run : Run s past q) (settings : c.settings = s)
    (returned : World.any.Plays h (reconcile c k).run es (.ok o) h') :
    Run s (past ++ [⟨k, o, (q.judge s k o).2⟩]) (q.judge s k o).1 := by
  subst settings
  exact .snoc run rfl returned (process_plays returned)

theorem Run.tallied (run : Run s past q) : Tallied past q := by
  induction run with
  | nil => exact ⟨List.nodup_nil, fun k n => by simp [outcomesOf, streak]; omega⟩
  | @snoc past q q' c k h h' es o v run settings returned processed ih =>
    have judged := process_judged returned processed
    rw [judge_eq] at judged
    obtain ⟨rfl, rfl⟩ := Prod.mk.inj judged
    cases failed : o.isFailed with
    | true =>
      rw [if_pos rfl]
      exact ih.countUp ⟨k, o, _⟩ failed
    | false =>
      rw [if_neg Bool.false_ne_true]
      exact ih.forget ⟨k, o, _⟩ failed

/-- a verdict is told by the outcomes that its key had before -/
theorem Run.verdict_eq (run : Run s past q) : ∀ before call after, past = before ++ call :: after →
    call.verdict = verdictOn s call.key (streak (outcomesOf call.key before) + 1) call.outcome := by
  induction run with
  | nil => simp
  | snoc run settings returned processed ih =>
    refine Reconcile.forall_split_snoc ih ?_
    have judged := process_judged returned processed
    rw [judge_eq, run.tallied.count, settings] at judged
    exact congrArg Prod.snd judged

def verdictsOn (s : Settings) (k : Key) : List Outcome → List (Except Failure Verdict)
  | [] => []
  | o :: earlier => verdictOn s k (streak earlier.reverse + 1) o :: verdictsOn s k earlier

theorem Run.verdictsOf_eq (run : Run s past q) (k : Key) :
    verdictsOf k past = (verdictsOn s k (outcomesOf k past).reverse).reverse := by
  induction run with
  | nil => rfl
  | @snoc past q q' c k' h h' es o v run settings returned processed ih =>
    have last := (run.snoc settings returned processed).verdict_eq past _ [] rfl
    by_cases same : k' = k
    · subst same
      rw [verdictsOf_snoc_self past ⟨k', o, v⟩, outcomesOf_snoc_self past ⟨k', o, v⟩, ih, last, List.reverse_append,
        List.reverse_singleton, List.singleton_append, verdictsOn, List.reverse_cons, List.reverse_reverse]
    · have other : (⟨k', o, v⟩ : Call).key ≠ k := same
      rw [verdictsOf_snoc_of_ne other, outcomesOf_snoc_of_ne other, ih]

end Verdict

section Rehearsal

variable {S : Scene} {c : Context} {h : Held} {before past : List Call} {q q' : Queue}

def rehearse (S : Scene) (c : Context) (h : Held) (past : List Call) (q : Queue) : List (Key × List Cue) → Option (List Call × Queue)
  | [] => some (past, q)
  | (k, cues) :: rest =>
    match S.rehearse (reconcile c k).run h cues with
    | some (_, .ok o, _) =>
      let (q, v) := q.judge c.settings k o
      rehearse S c h (past ++ [⟨k, o, v⟩]) q rest
    | _ => none

theorem Run.of_rehearse {cues : List (Key × List Cue)} (run : Run c.settings before q)
    (played : rehearse S c h before q cues = some (past, q')) : Run c.settings past q' := by
  induction cues generalizing before q with
  | nil =>
    cases played
    exact run
  | cons cue cues ih =>
    obtain ⟨k, cues'⟩ := cue
    unfold rehearse at played
    split at played
    next es o h' rehearsed =>
      have returned := (Scene.plays_of_rehearse rehearsed).inWorld.anywhere
      exact ih (run.judged rfl returned) played
    next => cases played

theorem exists_run (S : Scene) (c : Context) (h : Held) (cues : List (Key × List Cue)) (p : List Call × Queue → Bool)
    (played : (rehearse S c h [] {} cues).any p = true) : ∃ past q, Run c.settings past q ∧ p (past, q) = true := by
  obtain ⟨⟨past, q⟩, rehearsed, holds⟩ := (Option.any_eq_true ..).1 played
  exact ⟨past, q, Run.of_rehearse .nil rehearsed, holds⟩

end Rehearsal

end Queue

end VmOperator
