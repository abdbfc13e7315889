import Mathlib.Data.List.DropRight
import VmOperator.Proofs.Resource.Conditions

/-! Conditions after any sequence of settings. One setting is a step; of another type's settings a condition knows
nothing (`find?_settle`), so what is found of a type is told by its own settings alone, one after another
(`settled_own`). Where the entries stand follows from the types alone (`types_settle`, `getElem?_settle`). -/

namespace VmOperator

/-- one setting of a condition, by the clock's value at the time -/
structure Setting where
  now : String
  type : String
  status : ConditionStatus
  reason : Value
  message : Value
  generation : Value

namespace Setting

def apply (cs : List Condition) (s : Setting) : List Condition :=
  Condition.assign s.now (.string s.type) s.status s.reason s.message s.generation cs

/-- what is found of a type once it was set, by what was found of it before -/
def result (s : Setting) : Option Condition → Condition
  | some c => c.renew s.status s.reason s.message s.generation s.now
  | none => .fresh (.string s.type) s.status s.reason s.message s.generation s.now

def own (type : String) (ss : List Setting) : List Setting := ss.filter fun s => s.type = type

/-- the settings in a row at the end whose status is the last one's -/
def lastRun (ss : List Setting) : List Setting :=
  ss.rtakeWhile fun s => ss.getLast?.any fun last => decide (s.status = last.status)

theorem lastRun_concat (ss : List Setting) (s : Setting) :
    lastRun (ss ++ [s]) = ss.rtakeWhile (fun r => decide (r.status = s.status)) ++ [s] := by
  rw [lastRun, List.getLast?_concat]
  exact List.rtakeWhile_concat_pos _ _ _ (decide_eq_true rfl)

theorem lastRun_singleton (s : Setting) : lastRun [s] = [s] := lastRun_concat [] s

theorem lastRun_concat_of_eq {ss : List Setting} {last s : Setting} (ends : ss.getLast? = some last)
    (same : last.status = s.status) : lastRun (ss ++ [s]) = lastRun ss ++ [s] := by
  rw [lastRun_concat, lastRun, ends, ← same]
  rfl

theorem lastRun_concat_of_ne {ss : List Setting} {last s : Setting} (ends : ss.getLast? = some last)
    (differs : last.status ≠ s.status) : lastRun (ss ++ [s]) = [s] := by
  obtain ⟨ss, rfl⟩ := List.getLast?_eq_some_iff.1 ends
  rw [lastRun_concat, List.rtakeWhile_concat_neg _ _ _ (by simpa using differs), List.nil_append]

end Setting

open Setting (own lastRun)

theorem ConditionStatus.text_inj {status other : ConditionStatus} (same : status.text = other.text) : status = other := by
  cases status <;> cases other <;> first | rfl | exact absurd same (by decide)

structure Condition.Settled (found : Option Condition) (ss : List Setting) (c : Condition) : Prop where
  told : ∃ last, ss.getLast? = some last ∧ c.status = .string last.status.text ∧ c.reason = last.reason ∧
    c.message = last.message ∧ c.observedGeneration = last.generation
  kept : ∀ c₀, found = some c₀ → (∀ s ∈ ss, c₀.status = .string s.status.text) → c.lastTransition = c₀.lastTransition
  moved : (∀ c₀, found = some c₀ → ∃ s ∈ ss, c₀.status ≠ .string s.status.text) →
    ∃ first, (lastRun ss).head? = some first ∧ c.lastTransition = .string first.now

namespace Condition

variable {found : Option Condition} {ss : List Setting} {c : Condition} {cs cs' : List Condition}

theorem settled_result (found : Option Condition) (s : Setting) : Settled found [s] (s.result found) := by
  cases found with
  | none => exact ⟨⟨s, rfl, rfl, rfl, rfl, rfl⟩, nofun, fun _ => ⟨s, by rw [Setting.lastRun_singleton]; rfl, rfl⟩⟩
  | some c =>
    refine ⟨⟨s, rfl, rfl, rfl, rfl, rfl⟩, fun c₀ here same => ?_, fun changes => ?_⟩
    · cases here
      exact if_pos (same s (List.mem_singleton_self s))
    · obtain ⟨s', mem, changes⟩ := changes c rfl
      cases List.mem_singleton.1 mem
      exact ⟨s, by rw [Setting.lastRun_singleton]; rfl, if_neg changes⟩

/-- a further setting with the last status continues the run, and one with another begins a new one -/
theorem Settled.snoc (settled : Settled found ss c) (s : Setting) : Settled found (ss ++ [s]) (s.result (some c)) := by
  obtain ⟨last, ends, status, -⟩ := settled.told
  have mem : last ∈ ss := List.mem_of_getLast? ends
  refine ⟨⟨s, List.getLast?_concat, rfl, rfl, rfl, rfl⟩, ?_, ?_⟩
  all_goals by_cases same : last.status = s.status
  · intro c₀ here all
    have kept := settled.kept c₀ here fun s' mem' => all s' (List.mem_append_left _ mem')
    rw [← kept]
    exact if_pos (by rw [status, same])
  · intro c₀ here all
    have was := all last (List.mem_append_left _ mem)
    have is := all s List.mem_concat_self
    exact absurd (ConditionStatus.text_inj (Value.string.inj (was.symm.trans is))) same
  · intro changes
    obtain ⟨first, head, time⟩ := settled.moved fun c₀ here => by
      obtain ⟨s', mem', differs⟩ := changes c₀ here
      rcases List.mem_append.1 mem' with mem' | mem'
      · exact ⟨s', mem', differs⟩
      · cases List.mem_singleton.1 mem'
        exact ⟨last, mem, same ▸ differs⟩
    refine ⟨first, ?_, ?_⟩
    · rw [Setting.lastRun_concat_of_eq ends same, List.head?_append, head]
      rfl
    · rw [← time]
      exact if_pos (by rw [status, same])
  · intro _
    refine ⟨s, by rw [Setting.lastRun_concat_of_ne ends same]; rfl, if_neg fun text => ?_⟩
    rw [status] at text
    exact same (ConditionStatus.text_inj (Value.string.inj text))

/-- settings of one type, one after another -/
theorem settled_own (found : Option Condition) (nonempty : ss ≠ []) :
    ∃ c, ss.foldl (fun found s => some (s.result found)) found = some c ∧ Settled found ss c := by
  induction ss using List.reverseRecOn with
  | nil => exact absurd rfl nonempty
  | append_singleton ss s ih =>
    rw [List.foldl_concat]
    rcases List.eq_nil_or_concat ss with rfl | ⟨_, _, rfl⟩
    · exact ⟨_, rfl, settled_result found s⟩
    · obtain ⟨c, reached, settled⟩ := ih (by simp)
      rw [reached]
      exact ⟨_, rfl, settled.snoc s⟩

/-- what one setting does: the first entry of its type is renewed where it stands, or a new one comes last -/
inductive Applied (s : Setting) : List Condition → List Condition → Prop
  | renewed {before after : List Condition} {c : Condition} (first : ∀ b ∈ before, ¬b.hasType s.type = true)
      (here : c.hasType s.type = true) : Applied s (before ++ c :: after) (before ++ s.result (some c) :: after)
  | added {cs : List Condition} (new : ∀ c ∈ cs, ¬c.hasType s.type = true) : Applied s cs (cs ++ [s.result none])

theorem apply_cases (s : Setting) (cs : List Condition) : Applied s cs (s.apply cs) := by
  induction cs with
  | nil => exact .added (List.forall_mem_nil _)
  | cons c cs ih =>
    rw [Setting.apply, assign_cons]
    by_cases same : c.hasType s.type = true
    · rw [if_pos same]
      exact @Applied.renewed s [] cs c (List.forall_mem_nil _) same
    · rw [if_neg same]
      rw [Setting.apply] at ih
      generalize assign s.now (.string s.type) s.status s.reason s.message s.generation cs = cs' at ih ⊢
      cases ih with
      | @renewed before after d first here =>
        exact @Applied.renewed s (c :: before) after d (List.forall_mem_cons.2 ⟨same, first⟩) here
      | added new => exact .added (List.forall_mem_cons.2 ⟨same, new⟩)

theorem Applied.find?_self {s : Setting} (applied : Applied s cs cs') :
    find? cs' (.string s.type) = some (s.result (find? cs (.string s.type))) := by
  have find?_eq (cs : List Condition) : find? cs (.string s.type) = cs.find? (hasType s.type) := rfl
  rw [find?_eq, find?_eq]
  cases applied with
  | @renewed before after c first here =>
    have here' : (s.result (some c)).hasType s.type = true := here
    rw [List.find?_append, List.find?_append, List.find?_eq_none.2 first, List.find?_cons_of_pos here,
      List.find?_cons_of_pos here']
    rfl
  | added new =>
    rw [List.find?_append, List.find?_eq_none.2 new]
    simp [Setting.result, fresh, hasType]

def settle (ss : List Setting) (cs : List Condition) : List Condition := ss.foldl Setting.apply cs

/-- what is found of a type follows its own settings alone -/
theorem find?_settle (type : String) (ss : List Setting) (cs : List Condition) : find? (settle ss cs) (.string type) =
    (own type ss).foldl (fun found s => some (s.result found)) (find? cs (.string type)) := by
  induction ss generalizing cs with
  | nil => rfl
  | cons s ss ih =>
    rw [settle, List.foldl_cons]
    refine (ih _).trans ?_
    by_cases same : s.type = type
    · rw [own, own, List.filter_cons_of_pos (by simpa using same), List.foldl_cons, ← same, (apply_cases s cs).find?_self]
    · rw [own, own, List.filter_cons_of_neg (by simpa using same), Setting.apply, find?_assign_of_ne _ _ _ _ _ same]

/-! Where the entries stand. A type is known where an entry has it, and only unknown types are added. -/

def known (cs : List Condition) (type : String) : Bool := cs.any (hasType type)

theorem known_eq (cs : List Condition) (type : String) :
    known cs type = (cs.map (·.type)).any fun v => v.same (.string type) := by
  rw [List.any_map]
  rfl

theorem Applied.types {s : Setting} (applied : Applied s cs cs') :
    cs'.map (·.type) = cs.map (·.type) ++ if known cs s.type then [] else [.string s.type] := by
  cases applied with
  | @renewed before after c first here =>
    have there : known (before ++ c :: after) s.type = true := by
      rw [known, List.any_append, List.any_cons, here, Bool.true_or, Bool.or_true]
    rw [there, if_pos rfl, List.append_nil, List.map_append, List.map_append]
    rfl
  | added new =>
    have unknown : known cs s.type = false := List.any_eq_false.2 new
    rw [unknown, List.map_append]
    rfl

/-- the types that settings add, in the order in which they are first set -/
def added (cs : List Condition) (ss : List Setting) : List String :=
  ((ss.map (·.type)).filter fun type => !known cs type).eraseDups

theorem types_settle (ss : List Setting) (cs : List Condition) :
    (settle ss cs).map (·.type) = cs.map (·.type) ++ (added cs ss).map .string := by
  induction ss generalizing cs with
  | nil => exact (List.append_nil _).symm
  | cons s ss ih =>
    have step := (apply_cases s cs).types
    rw [settle, List.foldl_cons]
    refine (ih _).trans ?_
    rw [step, added, added, List.map_cons]
    by_cases there : known cs s.type = true
    · have same : known (s.apply cs) = known cs := by
        funext type
        rw [known_eq, known_eq, step, if_pos there, List.append_nil]
      rw [if_pos there, List.append_nil, same, List.filter_cons_of_neg (by simpa using there)]
    · have unknown : (fun type => !known (s.apply cs) type) = fun type => (!type == s.type) && !known cs type := by
        funext type
        rw [known_eq, step, if_neg there, List.any_append, ← known_eq, List.any_cons, List.any_nil, Bool.or_false,
          Value.same_string, Bool.not_or, Bool.and_comm, beq_eq_decide]
        simp only [Value.string.injEq, eq_comm]
      rw [if_neg there, List.append_assoc, unknown, List.filter_cons_of_pos (by simpa using there), List.eraseDups_cons,
        List.filter_filter, List.map_cons, List.singleton_append]

def Distinct (cs : List Condition) : Prop := (cs.map (·.type)).Pairwise fun v w => v.same w = false

theorem Distinct.apply (distinct : Distinct cs) (s : Setting) : Distinct (s.apply cs) := by
  rw [Distinct, (apply_cases s cs).types]
  split
  · rwa [List.append_nil]
  · rename_i new
    rw [Bool.not_eq_true, known_eq, List.any_eq_false] at new
    refine List.pairwise_append.2 ⟨distinct, List.pairwise_singleton .., fun v mem w here => ?_⟩
    cases List.mem_singleton.1 here
    exact Bool.eq_false_iff.2 (new v mem)

theorem Distinct.settle (distinct : Distinct cs) (ss : List Setting) : Distinct (settle ss cs) := by
  induction ss generalizing cs with
  | nil => exact distinct
  | cons s ss ih => exact ih (distinct.apply s)

/-- what settings of one type leave out of sight -/
theorem Applied.filter {p : Condition → Bool} {s : Setting} (applied : Applied s cs cs')
    (apart : ∀ c : Condition, c.hasType s.type = true → ¬p c = true) : cs'.filter p = cs.filter p := by
  cases applied with
  | renewed _ here =>
    rw [List.filter_append, List.filter_append, List.filter_cons_of_neg (apart _ here),
      List.filter_cons_of_neg (apart (s.result (some _)) here)]
  | added =>
    have fresh : (s.result none).hasType s.type = true := by simp [Setting.result, Condition.fresh, hasType]
    rw [List.filter_append, List.filter_cons_of_neg (apart _ fresh), List.filter_nil, List.append_nil]

def unset (ss : List Setting) (c : Condition) : Bool := ss.all fun s => !c.hasType s.type

theorem filter_settle {p : Condition → Bool} {ss : List Setting}
    (apart : ∀ s ∈ ss, ∀ c : Condition, c.hasType s.type = true → ¬p c = true) (cs : List Condition) :
    (settle ss cs).filter p = cs.filter p := by
  induction ss generalizing cs with
  | nil => rfl
  | cons s ss ih =>
    rw [List.forall_mem_cons] at apart
    exact (ih apart.2 _).trans ((apply_cases s cs).filter apart.1)

/-- an entry stays as it is unless it is the first of the type that is set -/
theorem getElem?_apply {i : Nat} (s : Setting) (here : cs[i]? = some c) :
    (s.apply cs)[i]? = some c ∨ cs.findIdx? (hasType s.type) = some i := by
  induction cs generalizing i with
  | nil => cases here
  | cons first cs ih =>
    rw [Setting.apply, assign_cons, List.findIdx?_cons]
    by_cases same : first.hasType s.type = true
    · rw [if_pos same, if_pos same]
      cases i with
      | zero => exact .inr rfl
      | succ i => exact .inl here
    · rw [if_neg same, if_neg same]
      cases i with
      | zero => exact .inl here
      | succ i => exact (ih here).imp_right fun at_i => by rw [at_i]; rfl

theorem findIdx?_eq (cs : List Condition) (type : String) :
    cs.findIdx? (hasType type) = (cs.map (·.type)).findIdx? fun v => v.same (.string type) := by
  rw [List.findIdx?_map]
  rfl

/-- what is added comes after all that there was -/
theorem findIdx?_of_apply {i : Nat} {type : String} {s : Setting} (inside : i < cs.length)
    (first : (s.apply cs).findIdx? (hasType type) = some i) : cs.findIdx? (hasType type) = some i := by
  rw [findIdx?_eq, (apply_cases s cs).types, List.findIdx?_append, ← findIdx?_eq] at first
  cases here : cs.findIdx? (hasType type) with
  | some j => rwa [here] at first
  | none =>
    rw [here, Option.none_or, Option.map_eq_some_iff] at first
    obtain ⟨j, -, rfl⟩ := first
    rw [List.length_map] at inside
    omega

theorem getElem?_settle {i : Nat} (ss : List Setting) (here : cs[i]? = some c) :
    (settle ss cs)[i]? = some c ∨ ∃ s ∈ ss, cs.findIdx? (hasType s.type) = some i := by
  induction ss generalizing cs with
  | nil => exact .inl here
  | cons s ss ih =>
    rcases getElem?_apply s here with stays | first
    · refine (ih stays).imp_right fun ⟨s', mem, first⟩ => ⟨s', List.mem_cons_of_mem _ mem, ?_⟩
      exact findIdx?_of_apply (List.getElem?_eq_some_iff.1 here).1 first
    · exact .inr ⟨s, List.mem_cons_self .., first⟩

structure History (ss : List Setting) (cs cs' : List Condition) : Prop where
  unset : cs'.filter (unset ss) = cs.filter (unset ss)
  stands : ∀ i c, cs[i]? = some c → cs'[i]? = some c ∨ ∃ s ∈ ss, cs.findIdx? (hasType s.type) = some i
  types : cs'.map (·.type) = cs.map (·.type) ++ (added cs ss).map .string
  distinct : Distinct cs → Distinct cs'
  settled : ∀ type, own type ss ≠ [] →
    ∃ c, find? cs' (.string type) = some c ∧ Settled (find? cs (.string type)) (own type ss) c

/-- Whatever is set and in whatever order, conditions of other types are unchanged and in their order, every entry keeps its
place and its type, and new types come last, in the order in which they were first set. What is found of a type says what
was last set; its time is when the last run of settings with that status began, unless that status is the one that was
found and no setting ever changed it. -/
theorem settle_history (ss : List Setting) (cs : List Condition) : History ss cs (settle ss cs) where
  unset := filter_settle (fun s mem c same => by
    rw [Condition.unset, Bool.not_eq_true, List.all_eq_false]
    exact ⟨s, mem, by rw [same]; exact Bool.false_ne_true⟩) cs
  stands _ _ here := getElem?_settle ss here
  types := types_settle ss cs
  distinct distinct := distinct.settle ss
  settled type nonempty := by
    rw [find?_settle]
    exact settled_own _ nonempty

/-- a status that is set again keeps the time, also where other types are set in between -/
example : (settle [⟨"1", "Ready", .no, .null, .null, .null⟩, ⟨"2", "Ready", .yes, .null, .null, .null⟩,
      ⟨"3", "ImageReady", .no, .null, .null, .null⟩, ⟨"4", "Ready", .yes, .null, .null, .null⟩] []).map
    (fun c => (c.type, c.status, c.lastTransition)) =
      [(.string "Ready", .string "True", .string "2"), (.string "ImageReady", .string "False", .string "3")] := by
  decide +kernel

end Condition
end VmOperator
