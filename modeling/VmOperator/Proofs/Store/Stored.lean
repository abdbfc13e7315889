import VmOperator.Bench.Table
import VmOperator.Proofs.Resource.Rendering

/-! A machine's object as the store keeps it: its parts, and what the two kinds of replacement make of
it. A replaced object keeps the stored status and takes everything else from the writer; a restated one
takes the status alone. -/

namespace VmOperator

namespace Fields

theorem get?_erase (fs : Fields) (key key' : String) :
    (fs.erase key).get? key' = if key = key' then none else fs.get? key' := by
  induction fs with
  | nil => simp [erase]
  | cons f fs ih =>
    obtain ⟨k, v⟩ := f
    unfold erase at ih ⊢
    by_cases h : k = key
    · subst h
      rw [List.filter_cons_of_neg (by simp), ih, get?_cons]
      split <;> rfl
    · rw [List.filter_cons_of_pos (by simpa using h), get?_cons, get?_cons, ih]
      grind

end Fields

namespace Stored

open Bench (fieldsOf)
open Bench.Table (withStatusOf isReleased)

def metadataOf (o : Value) : Fields := fieldsOf (((fieldsOf o).get? "metadata").getD .null)

def statusField (o : Value) : Option Value := (fieldsOf o).get? "status"

def version (o : Value) : Value := ((metadataOf o).get? "resourceVersion").getD .null

def deletion (o : Value) : Value := ((metadataOf o).get? "deletionTimestamp").getD .null

def specOf (o : Value) : Fields :=
  match ((((fieldsOf o).get? "spec").getD .null).orElse (.object [])).fields with
  | .ok fs => fs
  | .error _ => []

def wish (o : Value) (key : String) : Option Value := (specOf o).get? key

def finalizers (o : Value) : Except Failure (List Value) := (Value.object (metadataOf o)).itemsOf "finalizers"

def status (o : Value) : Except Failure MachineStatus :=
  MachineStatus.ofValue (((statusField o).getD .null).orElse (.object []))

/-- an object with metadata, under its own name and with a version -/
structure Shaped (ns name : String) (o : Value) : Prop where
  isObject : o = .object (fieldsOf o)
  metadata : (fieldsOf o).get? "metadata" = some (.object (metadataOf o))
  ns : (metadataOf o).get? "namespace" = some (.string ns)
  name : (metadataOf o).get? "name" = some (.string name)
  version : (version o).isTruthy = true

def stamp (v o : Value) : Value :=
  let inside := fieldsOf (((fieldsOf o).get? "metadata").getD (.object []))
  .object ((fieldsOf o).set "metadata" (.object (inside.set "resourceVersion" v)))

def replaced (v incoming stored : Value) : Value := stamp v (withStatusOf stored incoming)

def restated (v incoming stored : Value) : Value := stamp v (withStatusOf incoming stored)

@[simp] theorem fieldsOf_object (fs : Fields) : fieldsOf (.object fs) = fs := rfl

theorem metadataOf_of_get? {fs ms : Fields} (h : fs.get? "metadata" = some (.object ms)) :
    metadataOf (.object fs) = ms := by
  simp [metadataOf, fieldsOf, h]

theorem metadata_eq {o : Value} {ns name : String} (h : Shaped ns name o) (key : String) :
    Bench.metadata o key = ((metadataOf o).get? key).getD .null := by
  obtain ⟨fs, ho⟩ : ∃ fs : Fields, o = .object fs := ⟨_, h.isObject⟩
  have hm : fs.get? "metadata" = some (.object (metadataOf o)) := by simpa [ho] using h.metadata
  simp only [Bench.metadata, Bench.inner, ho, hm]

theorem fieldsOf_withStatusOf (source o : Value) (key : String) :
    (fieldsOf (withStatusOf source o)).get? key =
      if key = "status" then statusField source else (fieldsOf o).get? key := by
  unfold withStatusOf statusField
  cases h : (fieldsOf source).get? "status" with
  | some s => simp only [fieldsOf, Fields.get?_set]; grind
  | none => simp only [fieldsOf, Fields.get?_erase]; grind

theorem fieldsOf_stamp (v o : Value) {key : String} (h : key ≠ "metadata") :
    (fieldsOf (stamp v o)).get? key = (fieldsOf o).get? key := by
  simp [stamp, fieldsOf, Fields.get?_set, Ne.symm h]

@[simp] theorem metadataOf_withStatusOf (source o : Value) : metadataOf (withStatusOf source o) = metadataOf o := by
  simp [metadataOf, fieldsOf_withStatusOf]

theorem metadataOf_stamp (v o : Value) : metadataOf (stamp v o) = (metadataOf o).set "resourceVersion" v := by
  simp only [metadataOf, stamp, fieldsOf_object, Fields.get?_set, reduceIte, Option.getD_some]
  cases h : (fieldsOf o).get? "metadata" <;> rfl

section Writing

variable {ns name : String} {v x o : Value}

theorem Shaped.withStatusOf (h : Shaped ns name o) (source : Value) : Shaped ns name (withStatusOf source o) := by
  have hm := metadataOf_withStatusOf source o
  refine ⟨?_, ?_, ?_, ?_, ?_⟩
  · unfold Bench.Table.withStatusOf
    split <;> rfl
  · rw [hm, fieldsOf_withStatusOf, if_neg (by decide), h.metadata]
  · rw [hm, h.ns]
  · rw [hm, h.name]
  · rw [Stored.version, hm]; exact h.version

theorem Shaped.stamp (h : Shaped ns name o) (hv : v.isTruthy = true) : Shaped ns name (stamp v o) := by
  have hm := metadataOf_stamp v o
  refine ⟨rfl, ?_, ?_, ?_, ?_⟩
  · rw [hm, Stored.stamp]; simp [Fields.get?_set, h.metadata]
  · rw [hm, Fields.get?_set, if_neg (by decide), h.ns]
  · rw [hm, Fields.get?_set, if_neg (by decide), h.name]
  · simp [Stored.version, hm, Fields.get?_set, hv]

theorem version_stamp (v o : Value) : version (stamp v o) = v := by
  simp [version, metadataOf_stamp, Fields.get?_set]

theorem deletion_stamp (v o : Value) : deletion (stamp v o) = deletion o := by
  simp [deletion, metadataOf_stamp, Fields.get?_set]

theorem finalizers_stamp (v o : Value) : finalizers (stamp v o) = finalizers o := by
  simp [finalizers, metadataOf_stamp, Fields.get?_set]

theorem specOf_congr {o' : Value} (h : (fieldsOf o').get? "spec" = (fieldsOf o).get? "spec") : specOf o' = specOf o := by
  unfold specOf
  rw [h]

theorem status_congr {o' : Value} (h : statusField o' = statusField o) : status o' = status o := by
  unfold status
  rw [h]

theorem statusField_replaced (v x o : Value) : statusField (replaced v x o) = statusField o := by
  rw [statusField, replaced, fieldsOf_stamp _ _ (by decide), fieldsOf_withStatusOf, if_pos rfl]

theorem version_replaced (v x o : Value) : version (replaced v x o) = v := version_stamp ..

theorem deletion_replaced (v x o : Value) : deletion (replaced v x o) = deletion x := by
  rw [replaced, deletion_stamp, deletion, metadataOf_withStatusOf, deletion]

theorem finalizers_replaced (v x o : Value) : finalizers (replaced v x o) = finalizers x := by
  rw [replaced, finalizers_stamp, finalizers, metadataOf_withStatusOf, finalizers]

theorem specOf_replaced (v x o : Value) : specOf (replaced v x o) = specOf x :=
  specOf_congr (by rw [replaced, fieldsOf_stamp _ _ (by decide), fieldsOf_withStatusOf, if_neg (by decide)])

theorem shaped_replaced (hx : Shaped ns name x) (hv : v.isTruthy = true) (o : Value) :
    Shaped ns name (replaced v x o) :=
  (hx.withStatusOf o).stamp hv

theorem statusField_restated (v x o : Value) : statusField (restated v x o) = statusField x := by
  rw [statusField, restated, fieldsOf_stamp _ _ (by decide), fieldsOf_withStatusOf, if_pos rfl]

theorem version_restated (v x o : Value) : version (restated v x o) = v := version_stamp ..

theorem deletion_restated (v x o : Value) : deletion (restated v x o) = deletion o := by
  rw [restated, deletion_stamp, deletion, metadataOf_withStatusOf, deletion]

theorem finalizers_restated (v x o : Value) : finalizers (restated v x o) = finalizers o := by
  rw [restated, finalizers_stamp, finalizers, metadataOf_withStatusOf, finalizers]

theorem specOf_restated (v x o : Value) : specOf (restated v x o) = specOf o :=
  specOf_congr (by rw [restated, fieldsOf_stamp _ _ (by decide), fieldsOf_withStatusOf, if_neg (by decide)])

theorem fieldsOf_restated (v x o : Value) {key : String} (h : key ≠ "metadata") (h' : key ≠ "status") :
    (fieldsOf (restated v x o)).get? key = (fieldsOf o).get? key := by
  rw [restated, fieldsOf_stamp _ _ h, fieldsOf_withStatusOf, if_neg h']

theorem metadataOf_restated (v x o : Value) : metadataOf (restated v x o) = (metadataOf o).set "resourceVersion" v := by
  rw [restated, metadataOf_stamp, metadataOf_withStatusOf]

theorem shaped_restated (ho : Shaped ns name o) (hv : v.isTruthy = true) (x : Value) :
    Shaped ns name (restated v x o) :=
  (ho.withStatusOf x).stamp hv

end Writing

end Stored
end VmOperator
