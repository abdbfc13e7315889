import VmOperator.Proofs.Value.Reading

/-! Shapes of values, told by what may stand in which field. A field that is absent has every shape, for a reader takes
its default then; whatever is not told of may be anything. A reader succeeds on the shapes that it needs (`Gives`). -/

namespace VmOperator

/-- the reader succeeds, with a result as `P` says -/
def Gives {α : Type} (x : Except Failure α) (P : α → Prop) : Prop := ∃ a, x = .ok a ∧ P a

namespace Gives

variable {α β : Type} {x : Except Failure α} {P : α → Prop}

theorem ok {a : α} (hP : P a) : Gives (.ok a) P := ⟨a, rfl, hP⟩

theorem mono {P' : α → Prop} (gives : Gives x P) (hP : ∀ a, P a → P' a) : Gives x P' := by
  obtain ⟨a, same, holds⟩ := gives
  exact ⟨a, same, hP a holds⟩

theorem bind {f : α → Except Failure β} {P : β → Prop} (gives : Gives x fun a => Gives (f a) P) :
    Gives (x >>= f) P := by
  obtain ⟨a, rfl, next⟩ := gives
  exact next

/-- two ways to what is needed next -/
theorem branch {c : Prop} [Decidable c] {y : Except Failure α} {f : α → Except Failure β} {P : β → Prop}
    (gives : Gives (if c then x else y) fun a => Gives (f a) P) : Gives (if c then x >>= f else y >>= f) P := by
  split at gives
  · rw [if_pos (by assumption)]
    exact bind gives
  · rw [if_neg (by assumption)]
    exact bind gives

theorem mapM {f : α → Except Failure β} {P : β → Prop} {as : List α} (each : ∀ a ∈ as, Gives (f a) P) :
    Gives (as.mapM f) fun bs => ∀ b ∈ bs, P b := by
  induction as with
  | nil => exact ok (List.forall_mem_nil _)
  | cons a as ih =>
    obtain ⟨first, rest⟩ := List.forall_mem_cons.1 each
    rw [List.mapM_cons]
    exact bind (first.mono fun b hb => bind ((ih rest).mono fun bs hbs => ok (List.forall_mem_cons.2 ⟨hb, hbs⟩)))

end Gives

namespace Value

def isText : Value → Bool
  | .string _ => true
  | _ => false

def isInteger : Value → Bool
  | .number (.int _) => true
  | _ => false

def listOf (p : Value → Bool) : Value → Bool
  | .array vs => vs.all p
  | _ => false

def record (shapes : List (String × (Value → Bool))) : Value → Bool
  | .object fs => shapes.all fun s => (Fields.get? fs s.1).all s.2
  | _ => false

def requires (key : String) (p : Value → Bool) : Value → Bool
  | .object fs => (Fields.get? fs key).any p
  | _ => false

def orNull (p : Value → Bool) : Value → Bool
  | .null => true
  | v => p v

variable {v : Value} {key : String} {p : Value → Bool} {shapes : List (String × (Value → Bool))}

theorem eq_of_isText (text : v.isText = true) : ∃ s, v = .string s := by
  cases v <;> first | exact ⟨_, rfl⟩ | cases text

theorem toText_gives (text : v.isText = true) : Gives v.toText fun s => v = .string s := by
  obtain ⟨s, rfl⟩ := eq_of_isText text
  exact .ok rfl

theorem toInt_gives (integer : v.isInteger = true) : Gives v.toInt fun n => v = .int n := by
  unfold isInteger at integer
  split at integer
  · exact .ok rfl
  · cases integer

theorem items_gives (list : listOf p v = true) : Gives v.items fun vs => ∀ w ∈ vs, p w = true := by
  unfold listOf at list
  split at list
  · exact .ok (List.all_eq_true.1 list)
  · cases list

theorem of_orNull (shape : orNull p v = true) (set : v ≠ .null) : p v = true := by
  unfold orNull at shape
  split at shape
  · exact absurd rfl set
  · exact shape

theorem orElse_of_orNull {alternative : Value} (shape : orNull p v = true) (unset : p alternative = true) :
    p (v.orElse alternative) = true := by
  unfold orNull at shape
  split at shape
  · exact unset
  · unfold orElse
    split
    · exact shape
    · exact unset

theorem object_of_record (shape : record shapes v = true) :
    ∃ fs, v = .object fs ∧ ∀ s ∈ shapes, ∀ w, Fields.get? fs s.1 = some w → s.2 w = true := by
  unfold record at shape
  split at shape
  · rename_i fs
    refine ⟨fs, rfl, fun s mem w found => ?_⟩
    have there := List.all_eq_true.1 shape s mem
    rwa [found] at there
  · cases shape

theorem record_of_requires (shape : requires key p v = true) : record [] v = true := by
  unfold requires at shape
  split at shape
  · rfl
  · cases shape

theorem member_gives (shape : requires key p v = true) : Gives (v.member key) fun w => p w = true := by
  unfold requires at shape
  split at shape
  · obtain ⟨w, found, holds⟩ := (Option.any_eq_true ..).1 shape
    rw [member_object _ _ _ found]
    exact .ok holds
  · cases shape

/-- an object in a field, the empty one where the field is absent -/
theorem exists_fields {fs : Fields} (shape : record shapes (.object fs) = true) {inner : List (String × (Value → Bool))}
    (mem : (key, record inner) ∈ shapes) : ∃ gs, ((Fields.get? fs key).getD (.object [])).fields = .ok gs := by
  obtain ⟨fs', same, there⟩ := object_of_record shape
  cases same
  cases found : Fields.get? fs key with
  | none => exact ⟨[], rfl⟩
  | some w =>
    obtain ⟨gs, rfl, -⟩ := object_of_record (there _ mem w found)
    exact ⟨gs, rfl⟩

theorem getAny_gives (shape : record shapes v = true) (key : String) (default : Value) :
    Gives (v.get key default) fun _ => True := by
  obtain ⟨fs, rfl, -⟩ := object_of_record shape
  exact .ok trivial

theorem get_gives (shape : record shapes v = true) (mem : (key, p) ∈ shapes) {default : Value} (unset : p default = true) :
    Gives (v.get key default) fun w => p w = true := by
  obtain ⟨fs, rfl, there⟩ := object_of_record shape
  rw [get_object]
  refine .ok ?_
  cases found : Fields.get? fs key with
  | none => exact unset
  | some w => exact there _ mem w found

/-- a field that is as told where it is set, with what stands for it otherwise -/
theorem getOrElse_gives (shape : record shapes v = true) (mem : (key, p) ∈ shapes) {alternative : Value}
    (unset : p alternative = true) :
    Gives (v.get key) fun w => p (w.orElse alternative) = true := by
  obtain ⟨fs, rfl, there⟩ := object_of_record shape
  rw [get_object]
  refine .ok ?_
  cases found : Fields.get? fs key with
  | none => exact unset
  | some w =>
    by_cases set : w.isTruthy = true
    · rw [Option.getD_some, orElse_eq_self set]
      exact there _ mem w found
    · rw [Option.getD_some, orElse_of_unset (Bool.eq_false_iff.2 set)]
      exact unset

theorem section?_gives (shape : record shapes v = true) (mem : (key, p) ∈ shapes) (unset : p (.object []) = true) :
    Gives (v.section? key) fun w => p w = true :=
  .bind ((getOrElse_gives shape mem unset).mono fun _ holds => .ok holds)

theorem itemsOf_gives (shape : record shapes v = true) (mem : (key, listOf p) ∈ shapes) :
    Gives (v.itemsOf key) fun vs => ∀ w ∈ vs, p w = true :=
  .bind ((getOrElse_gives shape mem rfl).mono fun _ holds => items_gives holds)

theorem intOf_gives (shape : record shapes v = true) (mem : (key, isInteger) ∈ shapes) :
    Gives (v.intOf key) fun _ => True :=
  .bind ((getOrElse_gives shape mem rfl).mono fun _ holds => (toInt_gives holds).mono fun _ _ => trivial)

end Value

end VmOperator
