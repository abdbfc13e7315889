import VmOperator.Proofs.Appliance.Service
import VmOperator.Proofs.Value.Shape

/-! Results of the appliance as they are documented, request by request, as far as the operator looks at them. A query
that is answered so is read, or its refusal is a fault of the appliance (`query_answered`). -/

namespace VmOperator.Appliance

open Value

def hostShape : Value → Bool := record [("l2ident", record [("id", isText)]), ("l3connectivities", listOf (record []))]

def Matter.documents : Matter → Value → Bool
  | .download, v | .files, v | .resize, v | .moving, v => requires "id" isInteger v
  | .order, v | .looking, v => requires "id" isInteger v && record [("mac", isText)] v
  | .downloading, v => record [("id", isInteger), ("rx_bytes", isInteger), ("size", isInteger)] v
  | .resizing, v => record [("id", isInteger)] v
  | .listing, v => orNull (listOf hostShape) v
  | .other, _ => true

/-- the same for a request; the removal of files is a task too -/
def documents (method : Method) (path : String) (v : Value) : Bool :=
  if method = .post ∧ path = "/fs/rm/" then requires "id" isInteger v else (matter method path).documents v

def codeOf (reply : Reply) : Value := (refusal "" "" reply).errorCode

/-- a result as it is documented, or a refusal whose code can be looked up where that is done -/
def answers (method : Method) (path : String) (reply : Reply) : Bool :=
  match resultOf reply with
  | some v => documents method path v
  | none => matter method path != .looking || orNull isText (codeOf reply)

section Results

variable {v : Value}

theorem number_gives (documented : requires "id" isInteger v = true) :
    Gives (v.member "id" >>= Value.toInt) fun _ => True :=
  .bind ((member_gives documented).mono fun _ integer => (toInt_gives integer).mono fun _ _ => trivial)

theorem FileTask.ofResult_gives (documented : requires "id" isInteger v = true) : Gives (ofResult v) fun _ => True := by
  have shape := record_of_requires documented
  refine .bind ((member_gives documented).mono fun _ integer => .bind ((toInt_gives integer).mono fun _ _ => ?_))
  refine .bind ((getAny_gives shape ..).mono fun _ _ => .bind ((getAny_gives shape ..).mono fun _ _ => ?_))
  exact .bind ((getAny_gives shape ..).mono fun _ _ => .ok trivial)

theorem DownloadTask.ofResult_gives (task : Int) (documented : Matter.downloading.documents v = true) :
    Gives (ofResult (.int task) v) fun _ => True := by
  refine .bind ((get_gives (p := isInteger) documented (by simp) rfl).mono fun _ integer => ?_)
  refine .bind ((toInt_gives integer).mono fun _ _ => .bind ((getAny_gives documented ..).mono fun _ _ => ?_))
  refine .bind ((intOf_gives documented (by simp)).mono fun _ _ => ?_)
  exact .bind ((intOf_gives documented (by simp)).mono fun _ _ => .ok trivial)

theorem DiskTask.ofResult_gives (task : Int) (documented : Matter.resizing.documents v = true) :
    Gives (ofResult (.int task) v) fun _ => True := by
  refine .bind ((get_gives (p := isInteger) documented (by simp) rfl).mono fun _ integer => ?_)
  refine .bind ((toInt_gives integer).mono fun _ _ => .bind ((getAny_gives documented ..).mono fun _ _ => ?_))
  exact .bind ((getAny_gives documented ..).mono fun _ _ => .ok trivial)

theorem KnownVm.ofResult_gives (documented : Matter.looking.documents v = true) :
    Gives (ofResult v) fun known => known.vm.mac.isText = true := by
  obtain ⟨number, shape⟩ := Bool.and_eq_true_iff.1 documented
  refine .bind ((member_gives number).mono fun _ integer => .bind ((toInt_gives integer).mono fun _ _ => ?_))
  refine .bind ((getAny_gives shape ..).mono fun _ _ => ?_)
  refine .bind ((get_gives (p := isText) shape (by simp) rfl).mono fun _ mac => ?_)
  exact .bind ((getAny_gives shape ..).mono fun _ _ => .ok mac)

theorem LanHost.ofResult_gives (documented : hostShape v = true) : Gives (ofResult v) fun host => host.mac.isText = true := by
  have address {entry : Value} (shape : record [] entry = true) : Gives (addressOf entry) fun _ => True := by
    refine .bind ((getAny_gives shape ..).mono fun _ _ => ?_)
    split
    · exact .bind ((getAny_gives shape ..).mono fun _ _ => .ok trivial)
    · exact .ok trivial
  refine .bind ((section?_gives (p := record [("id", isText)]) documented (by simp) rfl).mono fun link shape => ?_)
  refine .bind ((itemsOf_gives (p := record []) documented (by simp)).mono fun entries each => ?_)
  refine .bind ((Gives.mapM fun entry mem => address (each entry mem)).mono fun _ _ => ?_)
  refine .bind ((get_gives (p := isText) shape (by simp) rfl).mono fun _ mac => ?_)
  exact .bind ((getAny_gives documented ..).mono fun _ _ => .ok mac)

theorem hosts_gives (documented : Matter.listing.documents v = true) :
    Gives (do (← (v.orElse (.array [])).items).mapM LanHost.ofResult) fun hosts =>
      ∀ host ∈ hosts, host.mac.isText = true := by
  have list : listOf hostShape (v.orElse (.array [])) = true := orElse_of_orNull (p := listOf hostShape) documented rfl
  exact .bind ((items_gives list).mono fun _ each => .mapM fun host mem => LanHost.ofResult_gives (each host mem))

end Results

variable {α : Type} {s : Settings} {operation path : String} {method : Method} {content : Except Failure Content}
  {read : Value → Except Failure α} {P : α → Prop} {reply : Reply}

/-- a query that is answered as documented is read, or was refused -/
theorem query_answered (gives : ∀ v, documents method path v = true → Gives (read v) P)
    (answered : answers method path reply = true) :
    (resultOf reply).isSome = true ∧ Gives ((query s operation method path content read).read reply) P ∨
      resultOf reply = none ∧ (query s operation method path content read).read reply =
        .error (.fault (.appliance (refusal operation (s.applianceUrl ++ path) reply))) := by
  unfold answers at answered
  unfold query judged
  dsimp only
  cases result : resultOf reply with
  | none => exact .inr ⟨rfl, rfl⟩
  | some v =>
    rw [result] at answered
    exact .inl ⟨rfl, gives v answered⟩

end VmOperator.Appliance
