import VmOperator.Proofs.Store.Stored
import VmOperator.Proofs.Value.Under

/-! A cluster is read out of an object part by part (`Cluster.read_of_ofValue`), and can always be written over an object as
the store keeps it (`Cluster.exists_written`). What is written of its status is what is read again (`Cluster.ofValue_of_status`),
and others see in the object what the operator sees (`Cluster.ReadFrom.provisioned_iff`). -/

namespace VmOperator

open Stored (Shaped metadataOf)
open Bench (fieldsOf)

def conditionsOf (o : Value) : Except Failure (List Condition) := do
  (← (← o.section? "status").itemsOf "conditions").mapM Condition.ofValue

def SaysProvisioned (o : Value) : Prop :=
  ∃ v, o.under? ["status", "initialization", "provisioned"] = some v ∧ v.isTruthy = true

theorem Fields.setDefault_of_get? {fs : Fields} {key : String} {v : Value} (found : fs.get? key = some v) (default : Value) :
    fs.setDefault key default = fs := by
  refine if_pos ?_
  obtain ⟨f, here, -⟩ := Option.map_eq_some_iff.1 found
  exact List.any_eq_true.2 ⟨f, List.mem_of_find?_eq_some here, (List.find?_eq_some_iff_append.1 here).1⟩

namespace Cluster

variable {o : Value} {k : Cluster} {ns name : String}

structure ReadFrom (o : Value) (k : Cluster) : Prop where
  ns : k.ns = ((metadataOf o).get? "namespace").getD (.string "")
  name : k.name = ((metadataOf o).get? "name").getD (.string "")
  provisioned : (o.section? "status" >>= MachineStatus.provisionedOf) = .ok k.provisioned
  conditions : conditionsOf o = .ok k.conditions
  resourceVersion : k.resourceVersion = ((metadataOf o).get? "resourceVersion").getD (.string "")
  stored : k.stored = fieldsOf o

theorem read_of_ofValue (shaped : Shaped ns name o) (read : ofValue o = .ok k) : ReadFrom o k := by
  obtain ⟨fs, rfl⟩ : ∃ fs : Fields, o = .object fs := ⟨_, shaped.isObject⟩
  have metadata : fs.get? "metadata" = some (.object (metadataOf (.object fs))) := shaped.metadata
  simp only [ofValue, Value.section?_object, metadata, Option.getD_some, Value.orElse_object, bind_eq_ok, Except.ok.injEq,
    exists_eq_left', Value.get_object, Value.fields_object] at read
  obtain ⟨ready, -, provisioned, flag, items, listed, conditions, each, same⟩ := read
  cases same
  refine ⟨rfl, rfl, flag, ?_, rfl, rfl⟩
  rw [conditionsOf, Value.section?_object, ok_bind, listed]
  exact each

/-- a cluster goes by its place in the store, and by the version that is stored -/
theorem ReadFrom.place (read : ReadFrom o k) (shaped : Shaped ns name o) :
    k.ns = .string ns ∧ k.name = .string name ∧ k.resourceVersion = Stored.version o := by
  refine ⟨by rw [read.ns, shaped.ns]; rfl, by rw [read.name, shaped.name]; rfl, ?_⟩
  have versioned := shaped.version
  rw [read.resourceVersion]
  rw [Stored.version] at versioned ⊢
  cases found : (metadataOf o).get? "resourceVersion" with
  | some v => rfl
  | none =>
    rw [found] at versioned
    cases versioned

/-- what others see of the flag is what the operator reads -/
theorem ReadFrom.provisioned_iff (read : ReadFrom o k) : SaysProvisioned o ↔ k.provisioned = true := by
  obtain ⟨status, inside, flag⟩ := bind_eq_ok.1 read.provisioned
  obtain ⟨initialization, inside', flag⟩ := bind_eq_ok.1 flag
  obtain ⟨v, found, same⟩ := bind_eq_ok.1 flag
  obtain ⟨fs, fields, rfl⟩ := Value.exists_fields_of_get found
  rw [SaysProvisioned, Value.under?_of_section? inside, Value.under?_of_section? inside', Value.under?_of_fields fields,
    ← Except.ok.inj same]
  cases fs.get? "provisioned" with
  | none => exact iff_of_false (fun ⟨_, absent, _⟩ => by cases absent) Bool.false_ne_true
  | some v => exact ⟨fun ⟨_, same, set⟩ => by cases same; exact set, fun set => ⟨v, rfl, set⟩⟩

/-- what is written of the cluster, laid over an object: nothing is another but the status -/
structure WrittenOver (k : Cluster) (o x : Value) : Prop where
  isObject : x = .object (fieldsOf x)
  status : Stored.statusField x = some k.statusValue
  version : Stored.version x = Stored.version o
  fields : ∀ key, key ≠ "metadata" → key ≠ "status" → (fieldsOf x).get? key = (fieldsOf o).get? key
  metadata : ∀ key, key ≠ "resourceVersion" → (metadataOf x).get? key = (metadataOf o).get? key

/-- a cluster can always be written over an object as the store keeps it -/
theorem exists_written (shaped : Shaped ns name o) (stored : k.stored = fieldsOf o)
    (version : k.resourceVersion = Stored.version o) : ∃ x, k.toValue = .ok x ∧ WrittenOver k o x := by
  have metadata : k.stored.get? "metadata" = some (.object (metadataOf o)) := stored ▸ shaped.metadata
  have versioned : k.resourceVersion.isTruthy = true := version ▸ shaped.version
  refine ⟨.object ((k.stored.set "metadata" (.object ((metadataOf o).set "resourceVersion" k.resourceVersion))).set "status"
    k.statusValue), ?_, ?_⟩
  · rw [toValue]
    dsimp only
    rw [Fields.setDefault_of_get? metadata, if_pos versioned, metadata]
    rfl
  · have inside : metadataOf (.object ((k.stored.set "metadata" (.object ((metadataOf o).set "resourceVersion"
        k.resourceVersion))).set "status" k.statusValue)) = (metadataOf o).set "resourceVersion" k.resourceVersion :=
      Stored.metadataOf_of_get? (by rw [Fields.get?_set, if_neg (by decide), Fields.get?_set, if_pos rfl])
    refine ⟨rfl, ?_, ?_, fun key other other' => ?_, fun key other => ?_⟩
    · rw [Stored.statusField, Stored.fieldsOf_object, Fields.get?_set, if_pos rfl]
    · rw [Stored.version, inside, Fields.get?_set, if_pos rfl, Option.getD_some, version]
    · rw [Stored.fieldsOf_object, Fields.get?_set, if_neg other'.symm, Fields.get?_set, if_neg other.symm, stored]
    · rw [inside, Fields.get?_set, if_neg other.symm]

/-- the conditions of a status that was written are read again -/
theorem conditionsOf_of_status (inside : o.fields = .ok (fieldsOf o)) (status : Stored.statusField o = some k.statusValue) :
    conditionsOf o = .ok k.conditions := by
  rw [conditionsOf, Value.section?_of_fields inside, ← Stored.statusField, status]
  simp only [statusValue, Option.getD_some, Value.orElse_object, ok_bind, Value.itemsOf_object, Fields.get?_cons,
    String.reduceEq, reduceIte, Value.orElse_array, Value.items_array, List.mapM_map, Condition.mapM_ofValue_toValue]

/-- a status that was written is read again -/
theorem ofValue_of_status (shaped : Shaped ns name o) (status : Stored.statusField o = some k.statusValue) :
    ∃ k', ofValue o = .ok k' ∧ k'.ready = k.ready ∧ k'.provisioned = k.provisioned ∧ k'.conditions = k.conditions := by
  obtain ⟨fs, rfl⟩ : ∃ fs : Fields, o = .object fs := ⟨_, shaped.isObject⟩
  have metadata : fs.get? "metadata" = some (.object (metadataOf (.object fs))) := shaped.metadata
  have status : fs.get? "status" = some k.statusValue := status
  simp only [ofValue, Value.section?_object, metadata, status, Option.getD_some, Value.orElse_object, statusValue,
    MachineStatus.provisionedOf, Value.itemsOf_object, Fields.get?_cons, String.reduceEq, reduceIte, ok_bind, Value.get_object,
    Value.fields_object, Value.orElse_array, Value.items_array, List.mapM_map, Condition.mapM_ofValue_toValue,
    bind_pure_comp, bind_map_left]
  exact ⟨_, rfl, rfl, rfl, rfl⟩

theorem plain_ofValue (o : Value) : Plain (ofValue o) := by
  refine .bind (Value.plain_section? _ _) fun _ => .bind (Value.plain_section? _ _) fun _ => ?_
  iterate 3 refine Value.plain_field _ _ _ fun _ => ?_
  refine .bind (MachineStatus.plain_provisionedOf _) fun _ => .bind (Value.plain_itemsOf _ _) fun _ => ?_
  refine .bind (.mapM Condition.plain_ofValue _) fun _ => Value.plain_field _ _ _ fun _ => ?_
  exact .bind (Value.plain_fields _) fun _ => .ok _

theorem plain_toValue (k : Cluster) : Plain k.toValue := by
  unfold toValue
  split
  · exact .bind (Value.plain_fields _) fun _ => .ok _
  · exact .ok _

end Cluster
end VmOperator
