import VmOperator.Resource.Machine

/-! Setting a condition: it is found as it was set (`find?_assign_self`), those of other types as they were
(`find?_assign_of_ne`), and whatever stands beside the first of its type stays (`beside_assign`). -/

namespace VmOperator

namespace Condition

variable {now type other : String} (status : ConditionStatus) (reason message generation : Value) (cs : List Condition)

theorem find?_assign_self : ∃ c, find? (assign now (.string type) status reason message generation cs) (.string type) = some c ∧
    c.status = .string status.text ∧ c.reason = reason := by
  induction cs with
  | nil => exact ⟨fresh (.string type) status reason message generation now, by simp [assign, find?, fresh], rfl, rfl⟩
  | cons c cs ih =>
    unfold assign
    split
    · rename_i same
      exact ⟨renew c status reason message generation now, List.find?_cons_of_pos same, rfl, rfl⟩
    · rename_i differs
      obtain ⟨found, here, set⟩ := ih
      refine ⟨found, ?_, set⟩
      rw [find?, List.find?_cons_of_neg]
      · exact here
      · exact differs

theorem same_of_ne (apart : type ≠ other) {v : Value} (same : v.same (.string type) = true) : v.same (.string other) = false := by
  simp only [Value.same_string, decide_eq_true_eq, decide_eq_false_iff_not] at same ⊢
  rw [same]
  exact fun h => apart (Value.string.inj h)

/-- a condition is set without a change of those of another type -/
theorem find?_assign_of_ne (apart : type ≠ other) :
    find? (assign now (.string type) status reason message generation cs) (.string other) = find? cs (.string other) := by
  have differs {v : Value} := same_of_ne (v := v) apart
  induction cs with
  | nil => simp [assign, find?, fresh, apart]
  | cons c cs ih =>
    unfold assign
    split
    · rename_i same
      simp only [find?, List.find?_cons, renew, differs same]
    · simp only [find?, List.find?_cons] at ih ⊢
      rw [ih]

def hasType (type : String) (c : Condition) : Bool := c.type.same (.string type)

/-- what there is beside the first condition of each of these types -/
def beside : List ConditionType → List Condition → List Condition
  | [], cs => cs
  | type :: types, cs => beside types (cs.eraseP (hasType type.text))

theorem assign_cons (c : Condition) : assign now (.string type) status reason message generation (c :: cs) =
    if c.hasType type then renew c status reason message generation now :: cs
    else c :: assign now (.string type) status reason message generation cs := rfl

theorem eraseP_assign_self : (assign now (.string type) status reason message generation cs).eraseP (hasType type) =
    cs.eraseP (hasType type) := by
  induction cs with
  | nil => simp [assign, fresh, hasType]
  | cons c cs ih =>
    rw [assign_cons]
    by_cases same : c.hasType type = true
    · rw [if_pos same, List.eraseP_cons_of_pos same]
      exact List.eraseP_cons_of_pos same
    · rw [if_neg same, List.eraseP_cons_of_neg same, List.eraseP_cons_of_neg same, ih]

theorem eraseP_assign_of_ne (apart : type ≠ other) :
    (assign now (.string type) status reason message generation cs).eraseP (hasType other) =
      assign now (.string type) status reason message generation (cs.eraseP (hasType other)) := by
  induction cs with
  | nil => simp [assign, fresh, hasType, apart]
  | cons c cs ih =>
    rw [assign_cons]
    by_cases same : c.hasType type = true
    · have differs : ¬c.hasType other = true := by
        rw [hasType, same_of_ne apart same]
        exact Bool.false_ne_true
      rw [if_pos same, List.eraseP_cons_of_neg differs, assign_cons, if_pos same]
      exact List.eraseP_cons_of_neg differs
    · rw [if_neg same]
      by_cases there : c.hasType other = true
      · rw [List.eraseP_cons_of_pos there, List.eraseP_cons_of_pos there]
      · rw [List.eraseP_cons_of_neg there, List.eraseP_cons_of_neg there, assign_cons, if_neg same, ih]

end Condition

theorem ConditionStatus.no_ne_yes : Value.string ConditionStatus.no.text ≠ .string ConditionStatus.yes.text := by
  rw [ne_eq, Value.string.injEq]
  decide

theorem ConditionType.text_inj {type other : ConditionType} (same : type.text = other.text) : type = other := by
  cases type <;> cases other <;> first | rfl | exact absurd same (by decide)

/-- setting a condition of one of the types changes nothing beside them -/
theorem Condition.beside_assign {type : ConditionType} {types : List ConditionType} (mem : type ∈ types) (now : String)
    (status : ConditionStatus) (reason message generation : Value) (cs : List Condition) :
    beside types (assign now (.string type.text) status reason message generation cs) = beside types cs := by
  induction types generalizing cs with
  | nil => cases mem
  | cons first types ih =>
    unfold beside
    by_cases same : type = first
    · rw [same, eraseP_assign_self]
    · rw [eraseP_assign_of_ne _ _ _ _ _ fun text => same (ConditionType.text_inj text)]
      exact ih ((List.mem_cons.1 mem).resolve_left same) _

namespace MachineStatus

def condition? (s : MachineStatus) (type : ConditionType) : Option Condition :=
  Condition.find? s.conditions (.string type.text)

def Meets (s : MachineStatus) (type : ConditionType) : Prop :=
  ∃ c, s.condition? type = some c ∧ c.status = .string ConditionStatus.yes.text

theorem Meets.congr {s s' : MachineStatus} {type : ConditionType} (same : s'.condition? type = s.condition? type) :
    s'.Meets type ↔ s.Meets type := by
  rw [Meets, Meets, same]

end MachineStatus

namespace Machine

variable (m : Machine) (now : String)

theorem condition?_setCondition_self (type : ConditionType) (status : ConditionStatus) (reason message : String) :
    ∃ c, (m.setCondition now type status reason message).status.condition? type = some c ∧
      c.status = .string status.text ∧ c.reason = .string reason :=
  Condition.find?_assign_self ..

theorem condition?_setCondition_of_ne {type other : ConditionType} (apart : type ≠ other) (status : ConditionStatus)
    (reason message : String) :
    (m.setCondition now type status reason message).status.condition? other = m.status.condition? other :=
  Condition.find?_assign_of_ne _ _ _ _ _ fun same => apart (ConditionType.text_inj same)

/-- what is met once a condition was said to be -/
theorem meets_setCondition_iff {set type : ConditionType} (reason message : String) :
    (m.setCondition now set .yes reason message).status.Meets type ↔ type = set ∨ m.status.Meets type := by
  by_cases same : type = set
  · subst same
    obtain ⟨c, found, yes, -⟩ := m.condition?_setCondition_self now type .yes reason message
    exact iff_of_true ⟨c, found, yes⟩ (.inl rfl)
  · rw [or_iff_right same]
    exact MachineStatus.Meets.congr (m.condition?_setCondition_of_ne now (Ne.symm same) .yes reason message)

theorem imageReady_iff : m.imageReady = true ↔ m.status.Meets .imageReady := by
  rw [imageReady, Option.any_eq_true]
  simp only [decide_eq_true_eq]
  rfl

theorem imageCondition?_setCondition {type : ConditionType} (other : type.text ≠ ConditionType.imageReady.text)
    (status : ConditionStatus) (reason message : String) :
    (m.setCondition now type status reason message).imageCondition? = m.imageCondition? :=
  Condition.find?_assign_of_ne _ _ _ _ _ other

/-- the image is ready just after it was said to be -/
theorem imageReady_setCondition (status : ConditionStatus) (reason message : String) :
    (m.setCondition now .imageReady status reason message).imageReady = decide (status = .yes) := by
  obtain ⟨c, found, set, -⟩ : ∃ c, (m.setCondition now .imageReady status reason message).imageCondition? = some c ∧
      c.status = .string status.text ∧ c.reason = .string reason := Condition.find?_assign_self ..
  rw [imageReady, found, Option.any_some, set]
  cases status <;> simp [ConditionStatus.text]

/-- an image that is ready has not failed -/
theorem unfailed_of_ready (ready : m.status.Meets .imageReady) : m.failedImageReason? = .ok none := by
  obtain ⟨c, found, yes⟩ := ready
  have here : m.imageCondition? = some c := found
  rw [failedImageReason?, here]
  dsimp only
  rw [yes, if_pos ConditionStatus.no_ne_yes.symm]

/-- that a step of the image failed is found just after it was said -/
theorem failedImageReason?_setCondition {reason : String} (failed : "Failed".toList.isSuffixOf reason.toList = true)
    (message : String) :
    (m.setCondition now .imageReady .no reason message).failedImageReason? = .ok (some reason) := by
  obtain ⟨c, found, status, told⟩ := m.condition?_setCondition_self now .imageReady .no reason message
  have here : (m.setCondition now .imageReady .no reason message).imageCondition? = some c := found
  rw [failedImageReason?, here]
  dsimp only
  rw [status, told, if_neg (not_not_intro rfl)]
  exact congrArg Except.ok (if_pos failed)

end Machine
end VmOperator
