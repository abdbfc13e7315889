import VmOperator.Proofs.Value.Reading
import VmOperator.Resource.Machine

/-! What is written of a status is what is read again (`MachineStatus.ofValue_toValue`): parts that
count as unset come back as their defaults, all others as they were. A machine is read out of an
object part by part (`Machine.read_of_ofValue`) and laid over it part by part (`Machine.laid_of_toValue`);
what cannot be read or written is never a fault (`Machine.plain_ofValue`, `Machine.plain_toValue`). -/

namespace VmOperator

namespace Fields

theorem get?_append (fs gs : Fields) (key : String) :
    get? (fs ++ gs) key = (fs.get? key).or (gs.get? key) := by
  simp [get?, List.find?_append, Option.map_or]

theorem get?_ite (c : Prop) [Decidable c] (fs gs : Fields) (key : String) :
    get? (if c then fs else gs) key = if c then fs.get? key else gs.get? key := by
  split <;> rfl

theorem get?_setDefault_of_ne (fs : Fields) {key key' : String} (v : Value) (h : key ≠ key') :
    (fs.setDefault key v).get? key' = fs.get? key' := by
  unfold setDefault
  split
  · rfl
  · rw [get?_set, if_neg h]

end Fields

namespace Value

/-- the values that a progress can be -/
def IsObject : Value → Prop
  | .object _ | .pairs _ => True
  | _ => False

theorem IsObject.toObject_eq {v : Value} (h : v.IsObject) : v.toObject = .ok v := by
  cases v <;> first | rfl | exact h.elim

theorem IsObject.orElse {v : Value} (h : v.IsObject) : (v.orElse (.object [])).IsObject := by
  unfold Value.orElse
  split
  · exact h
  · trivial

theorem isObject_of_toObject {v w : Value} (h : v.toObject = .ok w) : w.IsObject := by
  cases v <;> try (cases h; trivial)
  all_goals
    obtain ⟨pairs, -, h⟩ := bind_eq_ok.1 h
    obtain ⟨entries, -, h⟩ := bind_eq_ok.1 h
    cases h
    unfold ofEntries
    cases entries.mapM textEntry? <;> trivial

theorem getD_unset (v default : Value) : (if v.isTruthy then some v else none).getD default = v.orElse default := by
  unfold Value.orElse
  split <;> rfl

theorem orElse_null_orElse (v alternative : Value) : (v.orElse .null).orElse alternative = v.orElse alternative := by
  cases h : v.isTruthy
  · rw [orElse_of_unset h, orElse_of_unset h]; rfl
  · rw [orElse_eq_self h]

theorem items_unless_empty {α : Type} (as : List α) (f : α → Value) :
    ((if as = [] then none else some (array (as.map f))).getD .null).orElse (.array []) = .array (as.map f) := by
  cases as <;> rfl

end Value

namespace Condition

theorem ofValue_toValue (c : Condition) : ofValue c.toValue = .ok c := by
  obtain ⟨_, _, _, _, _, generation⟩ := c
  by_cases unset : generation = .null
  · rw [toValue, if_pos unset, unset]
    rfl
  · rw [toValue, if_neg unset]
    rfl

theorem mapM_ofValue_toValue (cs : List Condition) : cs.mapM (ofValue ∘ toValue) = .ok cs := by
  induction cs with
  | nil => rfl
  | cons c cs ih => rw [List.mapM_cons, Function.comp_apply, ofValue_toValue, ih]; rfl

end Condition

namespace MachineStatus

open Value

/-- what the status is read as once it was written -/
def rendered (s : MachineStatus) : MachineStatus :=
  { s with
    progress := s.progress.orElse (.object [])
    diskPath := s.diskPath.orElse (.string "")
    addresses := s.addresses.filter fun a => a.address.isTruthy
    providerId := s.providerId.orElse (.string "") }

theorem addressesOf_cons (a : Address) (items : List Value) :
    addressesOf (a.toValue :: items) = (do
      let rest ← addressesOf items
      return (if a.address.isTruthy then [a] else []) ++ rest) := by
  unfold addressesOf
  rw [List.mapM_cons]
  by_cases h : a.address.isTruthy <;> simp [Address.toValue, Fields.get?_cons, h]

theorem addressesOf_map_toValue (as : List Address) :
    addressesOf (as.map Address.toValue) = .ok (as.filter fun a => a.address.isTruthy) := by
  induction as with
  | nil => rfl
  | cons a as ih =>
    rw [List.map_cons, addressesOf_cons, ih, ok_bind, List.filter_cons]
    split <;> rfl

theorem provisionedOf_toFields (s : MachineStatus) : provisionedOf (.object s.toFields) = .ok s.provisioned := by
  cases hv : s.vmId <;> simp [provisionedOf, toFields, Fields.get?_cons, hv] <;> rfl

theorem ofValue_toValue (s : MachineStatus) (h : s.progress.IsObject) : ofValue s.toValue = .ok s.rendered := by
  have hp := (IsObject.orElse h).toObject_eq
  unfold ofValue toValue
  simp only [get_object, section?_object, itemsOf_object, ok_bind, provisionedOf_toFields]
  unfold toFields
  by_cases ha : s.stopAttempts = 0 <;> cases hv : s.vmId <;>
    simp [Fields.get?_append, Fields.get?_cons, Fields.get?_ite, getD_unset, orElse_null_orElse,
      items_unless_empty, hp, addressesOf_map_toValue, Condition.mapM_ofValue_toValue, ha] <;>
    (simp [rendered, hv, ha]; rfl)

theorem toValue_orElse (s : MachineStatus) : s.toValue.orElse (.object []) = s.toValue := orElse_object _

/-- a status that was read has its progress and its addresses from what they are read from -/
theorem parts_of_ofValue {v : Value} {s : MachineStatus} (h : ofValue v = .ok s) :
    (∃ part, Value.toObject part = .ok s.progress) ∧ ∃ items, addressesOf items = .ok s.addresses := by
  simp only [ofValue, bind_eq_ok] at h
  obtain ⟨_, -, part, -, progress, hp, h⟩ := h
  split at h <;> simp only [bind_eq_ok, pure, Except.pure, Except.ok.injEq] at h <;>
    (obtain ⟨_, -, _, -, items, -, addresses, ha, _, -, _, -, _, -, _, -, _, -, _, -, _, -, _, -, rfl⟩ := h
     exact ⟨⟨part, hp⟩, items, ha⟩)

/-- a progress that was read is an object -/
theorem isObject_of_ofValue {v : Value} {s : MachineStatus} (h : ofValue v = .ok s) : s.progress.IsObject := by
  obtain ⟨⟨_, hp⟩, -⟩ := parts_of_ofValue h
  exact Value.isObject_of_toObject hp

theorem isTruthy_of_addressesOf {items : List Value} {found : List Address} (h : addressesOf items = .ok found) :
    ∀ a ∈ found, a.address.isTruthy = true := by
  obtain ⟨entries, read, same⟩ := bind_eq_ok.1 h
  obtain rfl := Except.ok.inj same
  refine fun a mem => ?_
  obtain ⟨entry, there, mem⟩ := List.mem_flatten.1 mem
  refine forall_of_mapM_eq_ok (P := fun entry => ∀ a ∈ entry, a.address.isTruthy = true) ?_ read entry there a mem
  intro item entry read
  obtain ⟨address, -, read⟩ := bind_eq_ok.1 read
  split at read
  · rename_i set
    obtain ⟨type, -, read⟩ := bind_eq_ok.1 read
    cases read
    simpa using set
  · cases read
    nofun

end MachineStatus

namespace Machine

open Value

/-- the machine as it stands in an object with these fields and this metadata -/
structure ReadFrom (fs ms : Fields) (m : Machine) : Prop where
  name : m.name = (ms.get? "name").getD (.string "")
  ns : m.ns = (ms.get? "namespace").getD (.string "")
  spec : MachineSpec.ofValue (((fs.get? "spec").getD .null).orElse (.object [])) = .ok m.spec
  status : MachineStatus.ofValue (((fs.get? "status").getD .null).orElse (.object [])) = .ok m.status
  finalizers : (Value.object ms).itemsOf "finalizers" = .ok m.finalizers
  resourceVersion : m.resourceVersion = (ms.get? "resourceVersion").getD (.string "")
  deletionTimestamp : m.deletionTimestamp = (ms.get? "deletionTimestamp").getD .null
  stored : m.stored = fs

theorem read_of_ofValue {fs ms : Fields} {m : Machine} (hm : fs.get? "metadata" = some (.object ms))
    (h : ofValue (.object fs) = .ok m) : ReadFrom fs ms m := by
  simp only [ofValue, bind_eq_ok, section?_object, hm, Option.getD_some, orElse_object, get_object,
    Except.ok.injEq, exists_eq_left', fields_object] at h
  obtain ⟨spec, hspec, status, hstatus, finalizers, hf, _, -, _, -, h⟩ := h
  cases h
  exact ⟨rfl, rfl, hspec, hstatus, hf, rfl, rfl, rfl⟩

/-- the fields of what is written of the machine, laid over an object with this metadata -/
structure LaidOver (m : Machine) (ms gs : Fields) : Prop where
  metadata : gs.get? "metadata" = some (.object (m.metadataOver ms))
  status : gs.get? "status" = some m.status.toValue
  spec : ∃ sp, ((m.stored.get? "spec").getD (.object [])).fields = .ok sp ∧
    gs.get? "spec" = some (.object (sp.update m.spec.toFields))

theorem laid_of_toValue {m : Machine} {ms : Fields} {x : Value}
    (hm : m.stored.get? "metadata" = some (.object ms)) (h : m.toValue = .ok x) :
    ∃ gs, x = .object gs ∧ LaidOver m ms gs := by
  simp only [toValue, bind_eq_ok, Fields.get?_setDefault_of_ne, Fields.get?_set, reduceIte, ne_eq,
    not_false_eq_true, hm, String.reduceEq, Option.getD_some, fields_object, Except.ok.injEq,
    exists_eq_left'] at h
  obtain ⟨sp, hsp, h⟩ := h
  cases h
  refine ⟨_, rfl, ?_, ?_, sp, hsp, ?_⟩ <;> simp [Fields.get?_set]

/-- a machine can be laid over an object that has places for its parts -/
theorem exists_toValue {m : Machine} {ms sp : Fields}
    (metadata : ((m.stored.get? "metadata").getD (.object [])).fields = .ok ms)
    (spec : ((m.stored.get? "spec").getD (.object [])).fields = .ok sp) : ∃ x, m.toValue = .ok x := by
  simp only [toValue, Fields.get?_setDefault_of_ne, Fields.get?_set, reduceIte, ne_eq, not_false_eq_true,
    String.reduceEq, metadata, ok_bind, spec]
  exact ⟨_, rfl⟩

end Machine

section Plain

open Value

theorem Condition.plain_ofValue (data : Value) : Plain (Condition.ofValue data) := by
  iterate 6 refine plain_field _ _ _ fun _ => ?_
  exact .ok _

theorem OwnerReference.plain_ofValue (data : Value) : Plain (OwnerReference.ofValue data) := by
  iterate 4 refine plain_field _ _ _ fun _ => ?_
  exact .ok _

theorem MachineSpec.plain_ofValue (data : Value) : Plain (MachineSpec.ofValue data) := by
  refine plain_field _ _ _ fun _ => ?_
  iterate 3 refine .bind (plain_intOf _ _) fun _ => ?_
  iterate 2 refine plain_field _ _ _ fun _ => ?_
  exact .ok _

theorem MachineStatus.plain_addressesOf (items : List Value) : Plain (MachineStatus.addressesOf items) := by
  refine .bind (.mapM (fun item => plain_field _ _ _ fun _ => ?_) _) fun _ => .ok _
  split
  · exact plain_field _ _ _ fun _ => .ok _
  · exact .ok _

theorem MachineStatus.plain_provisionedOf (data : Value) : Plain (MachineStatus.provisionedOf data) :=
  .bind (plain_section? _ _) fun _ => plain_field _ _ _ fun _ => .ok _

theorem MachineStatus.plain_ofValue (data : Value) : Plain (MachineStatus.ofValue data) := by
  refine plain_field _ _ _ fun vmId => .bind (plain_section? _ _) fun _ => .bind (plain_toObject _) fun _ => ?_
  split <;> refine .bind ?_ fun _ => ?_
  case isTrue.refine_1 => exact .ok _
  case isFalse.refine_1 => exact .map _ (plain_toInt _)
  all_goals
    refine plain_field _ _ _ fun _ => .bind (plain_itemsOf _ _) fun _ => .bind (plain_addressesOf _) fun _ => ?_
    refine plain_field _ _ _ fun _ => plain_field _ _ _ fun _ => .bind (plain_provisionedOf _) fun _ => ?_
    refine .bind (plain_itemsOf _ _) fun _ => .bind (.mapM Condition.plain_ofValue _) fun _ => ?_
    exact .bind (plain_section? _ _) fun _ => plain_field _ _ _ fun _ => .bind (plain_toInt _) fun _ => .ok _

theorem Machine.plain_ofValue (object : Value) : Plain (Machine.ofValue object) := by
  refine .bind (plain_section? _ _) fun _ => plain_field _ _ _ fun _ => plain_field _ _ _ fun _ => ?_
  refine .bind (plain_section? _ _) fun _ => .bind (MachineSpec.plain_ofValue _) fun _ => ?_
  refine .bind (plain_section? _ _) fun _ => .bind (MachineStatus.plain_ofValue _) fun _ => ?_
  refine .bind (plain_itemsOf _ _) fun _ => ?_
  iterate 3 refine plain_field _ _ _ fun _ => ?_
  refine .bind (plain_itemsOf _ _) fun _ => .bind (.mapM OwnerReference.plain_ofValue _) fun _ => ?_
  exact .bind (plain_fields _) fun _ => .ok _

theorem Machine.plain_toValue (m : Machine) : Plain m.toValue :=
  .bind (plain_fields _) fun _ => .bind (plain_fields _) fun _ => .ok _

end Plain

end VmOperator
