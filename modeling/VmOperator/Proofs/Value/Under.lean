import VmOperator.Proofs.Value.Reading

/-! The value under some keys, each inside the one before. It is there no matter whether a reader goes in by fields or by
sections (`under?_of_section?`), for what counts as unset has nothing inside (`under?_of_unset`). -/

namespace VmOperator

namespace Value

/-- the value under these keys, each inside the one before -/
def under? (v : Value) : List String → Option Value
  | [] => some v
  | key :: keys => v.fields.toOption.bind fun fs => (fs.get? key).bind (·.under? keys)

variable {v w x : Value} {fs : Fields} {key inner : String} {keys : List String}

theorem get_of_fields (read : v.fields = .ok fs) (default : Value) : v.get key default = .ok ((fs.get? key).getD default) := by
  rw [get, get?, read]
  rfl

theorem exists_fields_of_get {default : Value} (read : v.get key default = .ok x) :
    ∃ fs, v.fields = .ok fs ∧ (fs.get? key).getD default = x := by
  obtain ⟨found, read, same⟩ := bind_eq_ok.1 read
  obtain ⟨fs, fields, rfl⟩ := map_eq_ok.1 read
  exact ⟨fs, fields, Except.ok.inj same⟩

theorem section?_of_fields (read : v.fields = .ok fs) :
    v.section? key = .ok (((fs.get? key).getD .null).orElse (.object [])) := by
  rw [section?, get_of_fields read]
  rfl

theorem exists_fields_of_section? (read : v.section? key = .ok x) :
    ∃ fs, v.fields = .ok fs ∧ ((fs.get? key).getD .null).orElse (.object []) = x := by
  obtain ⟨_, read, same⟩ := bind_eq_ok.1 read
  obtain ⟨fs, fields, rfl⟩ := exists_fields_of_get read
  exact ⟨fs, fields, Except.ok.inj same⟩

theorem under?_of_fields (read : v.fields = .ok fs) : v.under? (key :: keys) = (fs.get? key).bind (·.under? keys) := by
  rw [under?, read]
  rfl

theorem under?_of_unset (unset : v.isTruthy = false) : v.under? (key :: keys) = none := by
  cases v with
  | object fs | pairs fs =>
    cases fs with
    | nil => rfl
    | cons => simp [isTruthy] at unset
  | _ => rfl

theorem exists_fields_of_under? (found : v.under? (key :: keys) = some x) :
    ∃ fs w, v.fields = .ok fs ∧ fs.get? key = some w ∧ w.under? keys = some x := by
  rw [under?] at found
  obtain ⟨fs, read, found⟩ := Option.bind_eq_some_iff.1 found
  obtain ⟨w, inside, found⟩ := Option.bind_eq_some_iff.1 found
  exact ⟨fs, w, ok_of_toOption read, inside, found⟩

/-- what counts as unset is as good as an object without fields -/
theorem fields_orElse (read : v.fields = .ok fs) : (v.orElse (.object [])).fields = .ok fs := by
  cases set : v.isTruthy with
  | true => rwa [orElse_eq_self set]
  | false =>
    rw [orElse_of_unset set, ← read]
    cases v with
    | object fs | pairs fs =>
      cases fs with
      | nil => rfl
      | cons => simp [isTruthy] at set
    | _ => cases read

/-- what is further inside is inside the section -/
theorem under?_of_section? (read : v.section? key = .ok w) : v.under? (key :: inner :: keys) = w.under? (inner :: keys) := by
  obtain ⟨fs, fields, rfl⟩ := exists_fields_of_section? read
  rw [under?_of_fields fields]
  cases fs.get? key with
  | none => rfl
  | some v' =>
    rw [Option.bind_some, Option.getD_some]
    cases set : v'.isTruthy with
    | true => rw [orElse_eq_self set]
    | false => rw [orElse_of_unset set, under?_of_unset set, under?_of_unset rfl]

theorem exists_section?_of_under? (found : v.under? (key :: inner :: keys) = some x) :
    ∃ w, v.section? key = .ok w ∧ w.under? (inner :: keys) = some x := by
  obtain ⟨fs, _, fields, -⟩ := exists_fields_of_under? found
  have read : v.section? key = .ok _ := section?_of_fields fields
  exact ⟨_, read, (under?_of_section? read).symm.trans found⟩

end Value

end VmOperator
