import VmOperator.Image.Phase
import VmOperator.Proofs.Value.Reading

/-! The order of the phases. `Leads` has one edge for every step of the pipeline, each to a later phase
(`Leads.rank_lt`). A phase is read back from its progress (`decode_encode`), unless one of its paths counts
as unset, and then nothing is (`eq_of_decode_encode`). -/

namespace VmOperator.Phase

def rank : Phase → Nat
  | .notStarted => 0
  | .downloading _ => 1
  | .extracting _ _ none | .copying _ _ none => 2
  | .extracting _ _ (some _) | .copying _ _ (some _) => 3
  | .renaming _ _ none => 4
  | .renaming _ _ (some _) => 5
  | .resizing none => 6
  | .resizing (some _) => 7

/-- the files are where an extraction or a copy leaves them -/
inductive Transfers : Phase → Prop
  | extracting (src dst : Value) (task : Int) : Transfers (.extracting src dst (some task))
  | copying (src dst : Value) (task : Int) : Transfers (.copying src dst (some task))

inductive Leads : Phase → Phase → Prop
  | download (task : Int) : Leads .notStarted (.downloading task)
  | archive (task : Int) (src dst : Value) : Leads (.downloading task) (.extracting src dst none)
  | image (task : Int) (src dst : Value) : Leads (.downloading task) (.copying src dst none)
  | extract (src dst : Value) (task : Int) : Leads (.extracting src dst none) (.extracting src dst (some task))
  | copy (src dst : Value) (task : Int) : Leads (.copying src dst none) (.copying src dst (some task))
  | rename {p : Phase} (moved : p.Transfers) (src dst : Value) : Leads p (.renaming src dst none)
  | skip {p : Phase} (moved : p.Transfers) : Leads p (.resizing none)
  | move (src dst : Value) (task : Int) : Leads (.renaming src dst none) (.renaming src dst (some task))
  | renamed (src dst : Value) (task : Int) : Leads (.renaming src dst (some task)) (.resizing none)
  | resize (task : Int) : Leads (.resizing none) (.resizing (some task))

theorem Transfers.rank_eq {p : Phase} (h : p.Transfers) : p.rank = 3 := by
  cases h <;> rfl

theorem Leads.rank_lt {p q : Phase} (h : p.Leads q) : p.rank < q.rank := by
  cases h with
  | rename moved | skip moved =>
    rw [moved.rank_eq]
    simp [rank]
  | _ => simp [rank]

theorem afterDownload_leads (task : Int) (name downloads : String) (storage : Value) :
    Leads (.downloading task) (afterDownload name downloads storage) := by
  unfold afterDownload
  dsimp only
  split
  · exact .archive ..
  · exact .image ..

theorem afterTransfer_leads {p : Phase} (h : p.Transfers) (name storage machine : String) :
    p.Leads (p.afterTransfer name storage machine) := by
  unfold afterTransfer
  dsimp only
  split
  · exact .rename h ..
  · exact .skip h

def extracts : Phase → Bool
  | .extracting .. => true
  | _ => false

/-- only a compressed image is extracted -/
theorem compressed_of_afterDownload {name downloads : String} {dst : Value}
    (extracted : (afterDownload name downloads dst).extracts = true) : Image.isCompressed name = true := by
  refine Decidable.byContradiction fun plain => ?_
  rw [afterDownload, if_neg plain] at extracted
  exact Bool.false_ne_true extracted

/-- the name under which a transfer leaves an image -/
def transferred (p : Phase) (name : String) : String := if p.extracts then Image.stripCompression name else name

theorem transferOutput_eq (p : Phase) (name storage : String) :
    p.transferOutput name storage = Path.join storage (p.transferred name) := by
  cases p <;> rfl

/-- either the image is left where it belongs, or it is renamed -/
theorem afterTransfer_cases (p : Phase) (name storage machine : String) :
    (p.transferOutput name storage = Image.finalPath storage machine name ∧
        p.afterTransfer name storage machine = .resizing none) ∨
      p.afterTransfer name storage machine =
        .renaming (.string (p.transferOutput name storage)) (.string (Image.finalPath storage machine name)) none := by
  unfold afterTransfer
  dsimp only
  split
  · exact .inr rfl
  · rename_i same
    exact .inl ⟨Decidable.not_not.1 same, rfl⟩

theorem paths_of_kind {tag : String} {make : Value → Value → Option Int → Phase} (kind : kind? tag = some (.moving make))
    (src dst : Value) (task : Option Int) : (make src dst task).paths? = some (src, dst) := by
  unfold kind? at kind
  split at kind <;> cases kind <;> rfl

/-- paths that a phase can be read back with -/
def Placed (p : Phase) : Prop :=
  ∀ src dst, p.paths? = some (src, dst) → src.isTruthy = true ∧ dst.isTruthy = true

@[simp] theorem isTruthy_object_cons (f : String × Value) (fs : Fields) : (Value.object (f :: fs)).isTruthy = true :=
  rfl

theorem decodeTask_some (tag : String) (task : Int) : decodeTask tag (.int task) = .ok (some task) := by
  simp [decodeTask]

theorem decodeTask_none (tag : String) : decodeTask tag .null = .ok none := by
  simp [decodeTask]

theorem decode_encode {p : Phase} (h : p.Placed) : decode (.object p.encode) = .ok p := by
  have paths := fun src dst (hp : p.paths? = some (src, dst)) => h src dst hp
  rcases p with _ | task | ⟨src, dst, _ | task⟩ | ⟨src, dst, _ | task⟩ | ⟨src, dst, _ | task⟩ | _ | task
  case notStarted => rfl
  all_goals
    simp_all [decode, encode, encodeBy, tag, task?, paths?, Fields.get?_cons, kind?, decodeKind, decodeTask_some,
      decodeTask_none]

theorem placed_of_decode_encode {p q : Phase} (h : decode (.object p.encode) = .ok q) : p.Placed := by
  intro src dst hp
  apply Decidable.byContradiction
  intro unset
  rcases p with _ | _ | ⟨_, _, _ | _⟩ | ⟨_, _, _ | _⟩ | ⟨_, _, _ | _⟩ | _ | _ <;> cases hp <;>
    simp [decode, encode, encodeBy, tag, task?, paths?, Fields.get?_cons, kind?, decodeKind, decodeTask_some,
      decodeTask_none, unset] at h

/-- what is read of a written phase is that phase -/
theorem eq_of_decode_encode {p q : Phase} (h : decode (.object p.encode) = .ok q) : q = p := by
  have written := decode_encode (placed_of_decode_encode h)
  rw [h] at written
  exact Except.ok.inj written

end VmOperator.Phase
