import VmOperator.Value.Access

/-! Reading a field of an object, one equation for each accessor of `Value`. A reader that succeeds
succeeded in every part (`bind_eq_ok`), and what it cannot read is never a fault (`Plain`). -/

namespace VmOperator

theorem bind_eq_ok {ε α β : Type} {x : Except ε α} {f : α → Except ε β} {b : β} :
    (x >>= f) = .ok b ↔ ∃ a, x = .ok a ∧ f a = .ok b := by
  cases x <;> simp [bind, Except.bind]

theorem map_eq_ok {ε α β : Type} {x : Except ε α} {f : α → β} {b : β} :
    f <$> x = .ok b ↔ ∃ a, x = .ok a ∧ f a = b := by
  cases x <;> simp [Functor.map, Except.map]

@[simp] theorem ok_bind {ε α β : Type} (a : α) (f : α → Except ε β) : ((Except.ok a : Except ε α) >>= f) = f a := rfl

@[simp] theorem error_bind {ε α β : Type} (e : ε) (f : α → Except ε β) :
    ((Except.error e : Except ε α) >>= f) = .error e := rfl

theorem forall_of_mapM_eq_ok {ε α β : Type} {f : α → Except ε β} {P : β → Prop} (hf : ∀ a b, f a = .ok b → P b)
    {as : List α} : ∀ {bs : List β}, as.mapM f = .ok bs → ∀ b ∈ bs, P b := by
  induction as with
  | nil =>
    intro bs h
    cases h
    nofun
  | cons a as ih =>
    intro bs h
    rw [List.mapM_cons] at h
    obtain ⟨b, hb, h⟩ := bind_eq_ok.1 h
    obtain ⟨bs', hbs, h⟩ := bind_eq_ok.1 h
    cases h
    exact List.forall_mem_cons.2 ⟨hf a b hb, ih hbs⟩

theorem ok_of_toOption {ε α : Type} {x : Except ε α} {a : α} (h : x.toOption = some a) : x = .ok a := by
  cases x with
  | ok => exact congrArg _ (Option.some.inj h)
  | error => cases h

theorem exists_of_isOk {ε α : Type} {x : Except ε α} (ok : x.isOk = true) : ∃ a, x = .ok a := by
  cases x with
  | ok a => exact ⟨a, rfl⟩
  | error => cases ok

theorem exists_of_any {ε α : Type} {x : Except ε α} {p : α → Bool} (any : x.toOption.any p = true) :
    ∃ a, x = .ok a ∧ p a = true := by
  obtain ⟨a, found, holds⟩ := (Option.any_eq_true ..).1 any
  exact ⟨a, ok_of_toOption found, holds⟩

/-- a reader that reports no trouble with the appliance or the store -/
def Plain {α : Type} (x : Except Failure α) : Prop := ∀ f, x ≠ .error (.fault f)

namespace Plain

variable {α β : Type}

theorem ok (a : α) : Plain (.ok a) := nofun

theorem bind {x : Except Failure α} {f : α → Except Failure β} (hx : Plain x) (hf : ∀ a, Plain (f a)) :
    Plain (x >>= f) := by
  cases x with
  | ok a => exact hf a
  | error e => exact fun fault h => hx fault (by cases h; rfl)

theorem map {x : Except Failure α} (f : α → β) (hx : Plain x) : Plain (f <$> x) := by
  cases x with
  | ok a => exact ok _
  | error e => exact fun fault h => hx fault (by cases h; rfl)

theorem mapM {f : α → Except Failure β} (hf : ∀ a, Plain (f a)) (as : List α) : Plain (as.mapM f) := by
  induction as with
  | nil => exact ok _
  | cons a as ih =>
    rw [List.mapM_cons]
    exact bind (hf a) fun b => bind ih fun bs => ok _

theorem foldlM {f : β → α → Except Failure β} (hf : ∀ b a, Plain (f b a)) (as : List α) :
    ∀ b, Plain (as.foldlM f b) := by
  induction as with
  | nil => exact fun b => ok b
  | cons a as ih =>
    intro b
    rw [List.foldlM_cons]
    exact bind (hf b a) ih

end Plain

namespace Value

theorem plain_fields (v : Value) : Plain v.fields := by
  cases v <;> nofun

theorem plain_get (v : Value) (key : String) (default : Value) : Plain (v.get key default) :=
  .bind (.bind (plain_fields v) fun _ => .ok _) fun _ => .ok _

theorem plain_field {α : Type} (v : Value) (key : String) (default : Value) {f : Value → Except Failure α}
    (hf : ∀ x, Plain (f x)) : Plain (v.get key default >>= f) := .bind (plain_get _ _ _) hf

theorem plain_section? (v : Value) (key : String) : Plain (v.section? key) := plain_field _ _ _ fun _ => .ok _

theorem plain_member (v : Value) (key : String) : Plain (v.member key) := by
  refine .bind (.bind (plain_fields v) fun _ => .ok _) fun found => ?_
  cases found <;> nofun

theorem plain_toText (v : Value) : Plain v.toText := by
  cases v <;> nofun

theorem eq_string_of_toText {v : Value} {s : String} (h : v.toText = .ok s) : v = .string s := by
  cases v <;> cases h
  rfl

theorem plain_items (v : Value) : Plain v.items := by
  cases v <;> nofun

theorem plain_itemsOf (v : Value) (key : String) : Plain (v.itemsOf key) := plain_field _ _ _ fun _ => plain_items _

theorem plain_toInt (v : Value) : Plain v.toInt := by
  unfold toInt
  split
  case h_6 => split <;> nofun
  all_goals nofun

theorem plain_intOf (v : Value) (key : String) : Plain (v.intOf key) := plain_field _ _ _ fun _ => plain_toInt _

theorem plain_toObject (v : Value) : Plain v.toObject := by
  unfold toObject
  split
  · exact .ok _
  · exact .ok _
  · refine .bind (plain_items v) fun _ => .bind (.foldlM (fun entries p => ?_) _ _) fun _ => .ok _
    dsimp only
    split
    · nofun
    · rename_i key _ _
      refine .bind ?_ fun _ => .ok _
      cases key <;> nofun
    · nofun

@[simp] theorem fields_object (fs : Fields) : (object fs).fields = .ok fs := rfl

@[simp] theorem get?_object (fs : Fields) (key : String) : (object fs).get? key = .ok (fs.get? key) := rfl

@[simp] theorem get_object (fs : Fields) (key : String) (default : Value) :
    (object fs).get key default = .ok ((fs.get? key).getD default) := rfl

@[simp] theorem section?_object (fs : Fields) (key : String) :
    (object fs).section? key = .ok (((fs.get? key).getD .null).orElse (.object [])) := rfl

@[simp] theorem itemsOf_object (fs : Fields) (key : String) :
    (object fs).itemsOf key = (((fs.get? key).getD .null).orElse (.array [])).items := rfl

@[simp] theorem member_object (fs : Fields) (key : String) (v : Value) (h : fs.get? key = some v) :
    (object fs).member key = .ok v := by
  simp [member, h]; rfl

@[simp] theorem toInt_int (n : Int) : (int n).toInt = .ok n := rfl

@[simp] theorem items_array (vs : List Value) : (array vs).items = .ok vs := rfl

/-- an object as a section is itself, even where it has no fields -/
@[simp] theorem orElse_object (fs : Fields) : (object fs).orElse (.object []) = .object fs := by
  cases fs <;> rfl

@[simp] theorem orElse_array (vs : List Value) : (array vs).orElse (.array []) = .array vs := by
  cases vs <;> rfl

theorem orElse_eq_self {v alternative : Value} (h : v.isTruthy = true) : v.orElse alternative = v := by
  simp [orElse, h]

theorem orElse_of_unset {v alternative : Value} (h : v.isTruthy = false) : v.orElse alternative = alternative := by
  simp [orElse, h]

end Value
end VmOperator
