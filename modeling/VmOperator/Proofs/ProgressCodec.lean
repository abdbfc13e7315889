import VmOperator.Proofs.Image.Phase

/-! The progress says exactly as much as the phase. What is written of a phase is read as that phase, so two phases that
are written alike are one (`encode_inj`). Which fields are read as a phase is said by `Legible`; of any others the reader
reports a fault of the progress, unless the task is an infinite number (`decode_error`). -/

namespace VmOperator.Phase

def tags : List String := ["NotStarted", "Downloading", "Extracting", "Copying", "Renaming", "Resizing"]

def movingTags : List String := ["Extracting", "Copying", "Renaming"]

def told (fs : Fields) (key : String) : Value := (fs.get? key).getD .null

structure Legible (fs : Fields) : Prop where
  tag : ∃ tag ∈ tags, told fs "phase" = .string tag
  task : told fs "taskId" = .null ∨ ∃ n, (told fs "taskId").toInt = .ok n
  download : told fs "phase" = .string "Downloading" → told fs "taskId" ≠ .null
  paths : ∀ tag ∈ movingTags, told fs "phase" = .string tag →
    (told fs "src").isTruthy = true ∧ (told fs "dst").isTruthy = true

section Parts

variable {tag : String} {v : Value} {kind : Kind} {progress : Value} {fs gs : Fields} {task : Option Int} {p : Phase}
  {e : Failure}

theorem exists_kind_iff : (∃ kind, kind? tag = some kind) ↔ tag ∈ tags := by
  unfold kind?
  split <;> simp_all [tags]

theorem decodeTask_eq_ok_iff :
    decodeTask tag v = .ok task ↔ v = .null ∧ task = none ∨ ∃ n, v.toInt = .ok n ∧ task = some n := by
  unfold decodeTask
  by_cases unset : v = .null
  · subst unset
    simp [Value.toInt, eq_comm]
  · rw [if_neg unset]
    cases read : v.toInt with
    | ok n => simp [unset, eq_comm]
    | error e => cases e <;> simp [unset]

theorem infinite_of_toInt (h : v.toInt = .error .outOfRange) : ∃ negative, v = .double (.infinity negative) := by
  unfold Value.toInt at h
  split at h <;> try (cases h; done)
  · exact ⟨_, rfl⟩
  · split at h <;> cases h

theorem decodeTask_error (h : decodeTask tag v = .error e) :
    (∃ f, e = fault f) ∨ e = .outOfRange ∧ ∃ negative, v = .double (.infinity negative) := by
  unfold decodeTask at h
  split at h
  · cases h
  · split at h
    · cases h
    · rename_i infinite
      cases h
      exact .inr ⟨rfl, infinite_of_toInt infinite⟩
    · cases h
      exact .inl ⟨_, rfl⟩

theorem task_eq_none_iff (h : decodeTask tag v = .ok task) : task = none ↔ v = .null := by
  rcases decodeTask_eq_ok_iff.1 h with ⟨null, none⟩ | ⟨n, integer, some⟩
  · exact iff_of_true none null
  · refine iff_of_false (by simp [some]) ?_
    rintro rfl
    cases integer

/-- the phases that do not move a file have tags of their own, the others one of three -/
theorem kind_cases (known : kind? tag = some kind) : tag = "NotStarted" ∧ kind = .notStarted ∨
    tag = "Downloading" ∧ kind = .downloading ∨ tag = "Resizing" ∧ kind = .resizing ∨
      tag ∈ movingTags ∧ ∃ make, kind = .moving make := by
  unfold kind? at known
  split at known <;> cases known <;> simp [movingTags]

/-- what a phase needs beside its tag -/
theorem exists_decodeKind_iff (known : kind? tag = some kind) :
    (∃ p, decodeKind kind tag progress fs task = .ok p) ↔ (tag = "Downloading" → task ≠ none) ∧
      (tag ∈ movingTags → (told fs "src").isTruthy = true ∧ (told fs "dst").isTruthy = true) := by
  rcases kind_cases known with ⟨rfl, rfl⟩ | ⟨rfl, rfl⟩ | ⟨rfl, rfl⟩ | ⟨moves, make, rfl⟩
  · simp [decodeKind, movingTags]
  · cases task <;> simp [decodeKind, movingTags]
  · simp [decodeKind, movingTags]
  · have other : tag ≠ "Downloading" := by
      rintro rfl
      exact absurd moves (by decide)
    have read : decodeKind (.moving make) tag progress fs task =
        if (told fs "src").isTruthy && (told fs "dst").isTruthy then .ok (make (told fs "src") (told fs "dst") task)
        else .error (fault (.missingPaths tag progress)) := rfl
    rw [read]
    split
    · rename_i set
      exact iff_of_true ⟨_, rfl⟩ ⟨fun here => absurd here other, fun _ => Bool.and_eq_true_iff.1 set⟩
    · rename_i unset
      refine iff_of_false ?_ fun needs => unset (Bool.and_eq_true_iff.2 (needs.2 moves))
      rintro ⟨p, none⟩
      cases none

theorem decodeKind_error (h : decodeKind kind tag progress fs task = .error e) : ∃ f, e = fault f := by
  unfold decodeKind at h
  split at h
  · cases h
  · cases h
    exact ⟨_, rfl⟩
  · cases h
  · cases h
  · dsimp only at h
    split at h <;> cases h
    exact ⟨_, rfl⟩

/-- the paths that a phase is read with are set -/
theorem placed_of_decodeKind (known : kind? tag = some kind) (h : decodeKind kind tag progress fs task = .ok p) :
    p.Placed := by
  unfold decodeKind at h
  split at h
  · cases h
    nofun
  · cases h
  · cases h
    nofun
  · cases h
    nofun
  · dsimp only at h
    split at h
    · rename_i set
      cases h
      intro src dst same
      rw [paths_of_kind known] at same
      cases same
      exact Bool.and_eq_true_iff.1 set
    · cases h

/-- a phase is read from two fields besides the tag and the task -/
theorem decodeKind_congr (src : told fs "src" = told gs "src") (dst : told fs "dst" = told gs "dst") (progress' : Value)
    (h : decodeKind kind tag progress fs task = .ok p) : decodeKind kind tag progress' gs task = .ok p := by
  unfold decodeKind at h ⊢
  unfold told at src dst
  rw [← src, ← dst]
  split at h <;> try exact h
  dsimp only at h ⊢
  split at h
  · rename_i set
    rw [if_pos set]
    exact h
  · cases h

end Parts

section Whole

variable {fs gs : Fields} {p q : Phase} {e : Failure}

/-- fields that are read go by their tag, and then by the task and the paths -/
theorem decode_object (set : fs ≠ []) : decode (.object fs) =
    match told fs "phase" with
    | .string tag =>
      match kind? tag with
      | none => .error (fault (.unknownPhase (told fs "phase") (.object fs)))
      | some kind => decodeTask tag (told fs "taskId") >>= decodeKind kind tag (.object fs) fs
    | _ => .error (fault (.unknownPhase (told fs "phase") (.object fs))) := by
  have truthy : (Value.object fs).isTruthy = true := by simpa [Value.isTruthy] using set
  unfold decode
  rw [truthy]
  rfl

theorem decode_object_eq_ok_iff (set : fs ≠ []) : decode (.object fs) = .ok p ↔
    ∃ tag kind task, told fs "phase" = .string tag ∧ kind? tag = some kind ∧
      decodeTask tag (told fs "taskId") = .ok task ∧ decodeKind kind tag (.object fs) fs task = .ok p := by
  rw [decode_object set]
  split
  · rename_i tag phase
    split
    · rename_i unknown
      simp [phase, unknown]
    · rename_i kind known
      refine bind_eq_ok.trans ⟨fun ⟨task, read, whole⟩ => ⟨tag, kind, task, phase, known, read, whole⟩, ?_⟩
      rintro ⟨tag', kind', task, phase', known', read, whole⟩
      obtain rfl := Value.string.inj (phase.symm.trans phase')
      obtain rfl := Option.some.inj (known.symm.trans known')
      exact ⟨task, read, whole⟩
  · rename_i other
    simp only [reduceCtorEq, false_iff]
    rintro ⟨tag, -, -, phase, -⟩
    exact other tag phase

theorem exists_decode_iff : (∃ p, decode (.object fs) = .ok p) ↔ fs = [] ∨ Legible fs := by
  by_cases empty : fs = []
  · subst empty
    exact iff_of_true ⟨.notStarted, rfl⟩ (.inl rfl)
  rw [or_iff_right empty]
  constructor
  · rintro ⟨p, read⟩
    obtain ⟨tag, kind, task, phase, known, numbered, whole⟩ := (decode_object_eq_ok_iff empty).1 read
    obtain ⟨download, paths⟩ := (exists_decodeKind_iff known).1 ⟨p, whole⟩
    have same {tag' : String} (phase' : told fs "phase" = .string tag') : tag = tag' :=
      Value.string.inj (phase.symm.trans phase')
    exact {
      tag := ⟨tag, exists_kind_iff.1 ⟨kind, known⟩, phase⟩
      task := (decodeTask_eq_ok_iff.1 numbered).imp And.left fun ⟨n, integer, _⟩ => ⟨n, integer⟩
      download := fun phase' null => download (same phase') ((task_eq_none_iff numbered).2 null)
      paths := fun tag' moves phase' => paths (same phase' ▸ moves) }
  · intro legible
    obtain ⟨tag, mem, phase⟩ := legible.tag
    obtain ⟨kind, known⟩ := exists_kind_iff.2 mem
    obtain ⟨task, numbered⟩ : ∃ task, decodeTask tag (told fs "taskId") = .ok task := by
      rcases legible.task with null | ⟨n, integer⟩
      · exact ⟨none, decodeTask_eq_ok_iff.2 (.inl ⟨null, rfl⟩)⟩
      · exact ⟨some n, decodeTask_eq_ok_iff.2 (.inr ⟨n, integer, rfl⟩)⟩
    obtain ⟨p, whole⟩ : ∃ p, decodeKind kind tag (.object fs) fs task = .ok p := by
      refine (exists_decodeKind_iff known).2 ⟨?_, fun moves => legible.paths tag moves phase⟩
      rintro rfl none
      exact legible.download phase ((task_eq_none_iff numbered).1 none)
    exact ⟨p, (decode_object_eq_ok_iff empty).2 ⟨tag, kind, task, phase, known, numbered, whole⟩⟩

theorem decode_error (h : decode (.object fs) = .error e) :
    (∃ f, e = fault f) ∨ e = .outOfRange ∧ ∃ negative, told fs "taskId" = .double (.infinity negative) := by
  have set : fs ≠ [] := by
    rintro rfl
    cases h
  rw [decode_object set] at h
  split at h
  · split at h
    · cases h
      exact .inl ⟨_, rfl⟩
    · rename_i kind known
      cases read : decodeTask _ (told fs "taskId") with
      | error =>
        rw [read] at h
        cases h
        exact decodeTask_error read
      | ok task =>
        rw [read] at h
        exact .inl (decodeKind_error h)
  · cases h
    exact .inl ⟨_, rfl⟩

theorem placed_of_decode (h : decode (.object fs) = .ok p) : p.Placed := by
  by_cases empty : fs = []
  · subst empty
    cases h
    nofun
  · obtain ⟨tag, kind, task, -, known, -, whole⟩ := (decode_object_eq_ok_iff empty).1 h
    exact placed_of_decodeKind known whole

/-- fields with the same values under their keys are read alike -/
theorem decode_congr (same : ∀ key, fs.get? key = gs.get? key) (h : decode (.object fs) = .ok p) :
    decode (.object gs) = .ok p := by
  have told_same (key : String) : told fs key = told gs key := by rw [told, same, told]
  cases gs with
  | nil =>
    cases fs with
    | nil => exact h
    | cons f fs =>
      have first := same f.1
      rw [Fields.get?_cons, if_pos rfl] at first
      cases first
  | cons g gs =>
    have set : fs ≠ [] := by
      rintro rfl
      have first := same g.1
      rw [Fields.get?_cons, if_pos rfl] at first
      cases first
    obtain ⟨tag, kind, task, phase, known, numbered, whole⟩ := (decode_object_eq_ok_iff set).1 h
    rw [told_same] at phase numbered
    exact (decode_object_eq_ok_iff (List.cons_ne_nil g gs)).2
      ⟨tag, kind, task, phase, known, numbered, decodeKind_congr (told_same "src") (told_same "dst") _ whole⟩

/-- no two phases are written alike -/
theorem encode_inj (hp : p.Placed) (hq : q.Placed) (same : ∀ key, p.encode.get? key = q.encode.get? key) : p = q := by
  have read := decode_congr same (decode_encode hp)
  exact Except.ok.inj (read.symm.trans (decode_encode hq))

/-- a submitted step has the task, and all else as it was -/
theorem exists_withTask (n : Int) (waits : ∀ task, p ≠ .downloading task) : ∃ q, p.withTask n = .ok q ∧
    q.task? = some n ∧ q.paths? = p.paths? ∧ q.tag = if p = .notStarted then "Downloading" else p.tag := by
  cases p with
  | downloading task => exact absurd rfl (waits task)
  | _ => exact ⟨_, rfl, rfl, rfl, by simp [tag]⟩

end Whole

/-- The progress of a phase is read as that phase, no two phases have the same progress, and a submitted step is read with
its task. An object is read as a phase exactly where its fields stand for one, and then the progress of this phase is
read as it again; any other object is a fault of the progress, whatever else it holds. -/
theorem progress_codec_exact :
    (∀ p : Phase, p.Placed → decode (.object p.encode) = .ok p) ∧
    (∀ p q : Phase, p.Placed → q.Placed → (∀ key, p.encode.get? key = q.encode.get? key) → p = q) ∧
    (∀ (p : Phase) (n : Int), p.Placed → (∀ task, p ≠ .downloading task) →
      ∃ q, p.withTask n = .ok q ∧ decode (.object q.encode) = .ok q ∧ q.task? = some n ∧ q.paths? = p.paths? ∧
        q.tag = if p = .notStarted then "Downloading" else p.tag) ∧
    ∀ fs : Fields, (∀ negative, told fs "taskId" ≠ .double (.infinity negative)) →
      ((∃ p, decode (.object fs) = .ok p) ↔ fs = [] ∨ Legible fs) ∧
      (¬(fs = [] ∨ Legible fs) → ∃ f, decode (.object fs) = .error (fault f)) ∧
      ∀ p, decode (.object fs) = .ok p → decode (.object p.encode) = .ok p := by
  refine ⟨fun p placed => decode_encode placed, fun p q hp hq same => encode_inj hp hq same, ?_, ?_⟩
  · intro p n placed waits
    obtain ⟨q, submitted, task, paths, tag⟩ := exists_withTask n waits
    have kept : q.Placed := by
      intro src dst same
      exact placed src dst (paths.symm.trans same)
    exact ⟨q, submitted, decode_encode kept, task, paths, tag⟩
  · intro fs finite
    refine ⟨exists_decode_iff, ?_, fun p read => decode_encode (placed_of_decode read)⟩
    intro illegible
    cases read : decode (.object fs) with
    | ok p => exact absurd (exists_decode_iff.1 ⟨p, read⟩) illegible
    | error e =>
      rcases decode_error read with ⟨f, rfl⟩ | ⟨-, negative, infinite⟩
      · exact ⟨f, rfl⟩
      · exact absurd infinite (finite negative)

/-- a progress with its task as text and a field of no phase -/
def spelledOut : Fields :=
  [("dst", .string "/disks/worker-0.raw"), ("note", .null), ("phase", .string "Renaming"),
    ("src", .string "/disks/disk.raw"), ("taskId", .string " 1_0 ")]

def spelledPhase : Phase := .renaming (.string "/disks/disk.raw") (.string "/disks/worker-0.raw") (some 10)

/-- a task may be written in full, be zero, and be missed -/
theorem progress_codec_exact_renaming :
    decode (.object spelledOut) = .ok spelledPhase ∧ decode (.object spelledPhase.encode) = .ok spelledPhase ∧
      (∃ q, spelledPhase.withTask 0 = .ok q ∧ decode (.object q.encode) = .ok q ∧ q.task? = some 0) ∧
      ∃ f, decode (.object [("phase", .string "Downloading"), ("taskId", .null)]) = .error (fault f) := by
  obtain ⟨-, -, submits, reads⟩ := progress_codec_exact
  have read : decode (.object spelledOut) = .ok spelledPhase := ok_of_toOption (by decide +kernel)
  have placed : spelledPhase.Placed := placed_of_decode read
  obtain ⟨-, -, again⟩ := reads spelledOut (by simp [told, spelledOut, Fields.get?_cons])
  obtain ⟨q, submitted, kept, task, -⟩ := submits spelledPhase 0 placed nofun
  obtain ⟨-, refused, -⟩ := reads [("phase", .string "Downloading"), ("taskId", .null)] (by simp [told, Fields.get?_cons])
  have illegible : ¬Legible [("phase", .string "Downloading"), ("taskId", .null)] := fun legible => legible.download rfl rfl
  exact ⟨read, again _ read, ⟨q, submitted, kept, task⟩, refused (by simp [illegible])⟩

end VmOperator.Phase
