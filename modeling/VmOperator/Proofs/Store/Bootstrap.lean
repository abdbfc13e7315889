import Mathlib.Data.List.TakeWhile
import VmOperator.Proofs.Value.Under
import VmOperator.Store.Client

/-! What the bootstrap data of a machine is made of, and how it is read: the first machine among its owners
(`Machine.first_of_ownerName_go`), the name of the secret inside that owner (`Store.bootstrapSecret_of_under?`), and the entry
of the secret (`Store.entryOf_eq_ok`). -/

namespace VmOperator

/-! The owner -/

namespace OwnerReference

/-- a machine of the cluster's own group, in whatever version of it -/
def IsMachine (o : OwnerReference) : Prop :=
  o.kind = .string "Machine" ∧ ∃ version, o.apiVersion = .string ("cluster.x-k8s.io/" ++ version)

/-- of another kind, or of another group that can be told -/
def IsOther (o : OwnerReference) : Prop :=
  o.kind = .string "Machine" → ∃ group, o.group = .ok group ∧ group ≠ "cluster.x-k8s.io"

inductive First : List OwnerReference → OwnerReference → Prop
  | here {o : OwnerReference} (rest : List OwnerReference) (machine : o.IsMachine) : First (o :: rest) o
  | there {o p : OwnerReference} {rest : List OwnerReference} (other : p.IsOther) (first : First rest o) : First (p :: rest) o

variable {o : OwnerReference} {owners : List OwnerReference} {name : Value}

theorem group_of_text {group version : String} (whole : '/' ∉ group.toList)
    (text : o.apiVersion = .string (group ++ "/" ++ version)) : o.group = .ok group := by
  have chars : (group ++ "/" ++ version).toList = group.toList ++ '/' :: version.toList := by
    rw [String.toList_append, String.toList_append, List.append_assoc]
    rfl
  have front : (group.toList ++ '/' :: version.toList).takeWhile (· != '/') = group.toList := by
    have before : ∀ c ∈ group.toList, (c != '/') = true := by
      intro c mem
      rw [bne_iff_ne]
      rintro rfl
      exact whole mem
    rw [List.takeWhile_append_of_pos before]
    simp
  rw [OwnerReference.group, text]
  dsimp only
  rw [chars, front, String.ofList_toList, if_pos (by simp)]

theorem text_of_group {group : String} (set : group ≠ "") (read : o.group = .ok group) :
    ∃ version, o.apiVersion = .string (group ++ "/" ++ version) := by
  unfold OwnerReference.group at read
  split at read
  next s text =>
    split at read
    next slashed =>
      have front := Except.ok.inj read
      cases rest : s.toList.dropWhile (· != '/') with
      | nil =>
        have all := List.dropWhile_eq_nil_iff.1 rest '/' (List.contains_iff_mem.1 slashed)
        simp at all
      | cons c version =>
        have slash : c = '/' := by
          have stops := List.head?_dropWhile_not (· != '/') s.toList
          rw [rest] at stops
          simpa using stops
        have chars : s.toList = group.toList ++ '/' :: version := calc
          s.toList = s.toList.takeWhile (· != '/') ++ s.toList.dropWhile (· != '/') := List.takeWhile_append_dropWhile.symm
          _ = group.toList ++ '/' :: version := by rw [rest, slash, ← front, String.toList_ofList]
        refine ⟨String.ofList version, text.trans (congrArg Value.string (String.toList_inj.1 ?_))⟩
        simp [chars]
    next => exact absurd (Except.ok.inj read).symm set
  next =>
    split at read
    next => cases read
    next => exact absurd (Except.ok.inj read).symm set
  next =>
    split at read
    next => cases read
    next => exact absurd (Except.ok.inj read).symm set
  next => cases read

theorem isMachine_iff : o.IsMachine ↔ o.kind = .string "Machine" ∧ o.group = .ok "cluster.x-k8s.io" :=
  and_congr_right fun _ => ⟨fun ⟨_, text⟩ => group_of_text (by decide) text, text_of_group (by decide)⟩

end OwnerReference

namespace Machine

open OwnerReference (First isMachine_iff)

section OwnerName

variable {o : OwnerReference} {rest : List OwnerReference}

theorem ownerName_go_cons (o : OwnerReference) (rest : List OwnerReference) : ownerName.go (o :: rest) =
    if o.kind = .string "Machine" then o.group >>= fun group =>
      if group == "cluster.x-k8s.io" then .ok o.name else ownerName.go rest
    else ownerName.go rest := rfl

theorem ownerName_go_of_machine (machine : o.IsMachine) : ownerName.go (o :: rest) = .ok o.name := by
  obtain ⟨kind, read⟩ := isMachine_iff.1 machine
  rw [ownerName_go_cons, if_pos kind, read]
  rfl

theorem ownerName_go_of_other (other : o.IsOther) : ownerName.go (o :: rest) = ownerName.go rest := by
  rw [ownerName_go_cons]
  split
  next kind =>
    obtain ⟨group, read, ne⟩ := other kind
    rw [read, ok_bind, beq_eq_false_iff_ne.2 ne, if_neg Bool.false_ne_true]
  next => rfl

/-- an owner is a machine, or another, or a machine of no group that can be told -/
theorem isMachine_or_isOther_of_go {name : Value} (read : ownerName.go (o :: rest) = .ok name) : o.IsMachine ∨ o.IsOther := by
  by_cases kind : o.kind = .string "Machine"
  · rw [ownerName_go_cons, if_pos kind] at read
    obtain ⟨group, told, -⟩ := bind_eq_ok.1 read
    by_cases own : group = "cluster.x-k8s.io"
    · exact .inl (isMachine_iff.2 ⟨kind, own ▸ told⟩)
    · exact .inr fun _ => ⟨group, told, own⟩
  · exact .inr fun same => absurd same kind

theorem ownerName_go_of_first {owners : List OwnerReference} (first : First owners o) : ownerName.go owners = .ok o.name := by
  induction first with
  | here rest machine => exact ownerName_go_of_machine machine
  | there other _ ih => rwa [ownerName_go_of_other other]

theorem ownerName_go_of_unowned {owners : List OwnerReference} (others : ∀ o ∈ owners, o.IsOther) :
    ownerName.go owners = .ok .null := by
  induction owners with
  | nil => rfl
  | cons o rest ih =>
    obtain ⟨other, others⟩ := List.forall_mem_cons.1 others
    rw [ownerName_go_of_other other]
    exact ih others

theorem first_of_ownerName_go {owners : List OwnerReference} {name : Value} (read : ownerName.go owners = .ok name)
    (named : name ≠ .null) : ∃ o, First owners o ∧ o.name = name := by
  induction owners with
  | nil => exact absurd (Except.ok.inj read).symm named
  | cons o rest ih =>
    rcases isMachine_or_isOther_of_go read with machine | other
    · rw [ownerName_go_of_machine machine] at read
      exact ⟨o, .here rest machine, Except.ok.inj read⟩
    · rw [ownerName_go_of_other other] at read
      obtain ⟨o, first, same⟩ := ih read
      exact ⟨o, .there other first, same⟩

end OwnerName

end Machine

/-! The name of the secret, and its entry -/

/-- some key on the way is missing or counts as unset -/
def Value.Lacks (v : Value) : List String → Prop
  | [] => v.isTruthy = false
  | key :: keys => v.isTruthy = false ∨ ∃ fs, v.fields = .ok fs ∧ ((fs.get? key).getD .null).Lacks keys

namespace Store

variable {owner secret : Value}

def secretKeys : List String := ["spec", "bootstrap", "dataSecretName"]

theorem bootstrapSecret_eq (owner : Value) : bootstrapSecret owner = owner.section? "spec" >>= fun spec =>
    spec.section? "bootstrap" >>= fun bootstrap => bootstrap.get "dataSecretName" >>= fun name => .ok (name.orElse .null) := rfl

theorem under?_of_bootstrapSecret (read : bootstrapSecret owner = .ok secret) (named : secret ≠ .null) :
    owner.under? secretKeys = some secret ∧ secret.isTruthy = true := by
  rw [bootstrapSecret_eq] at read
  obtain ⟨spec, inOwner, read⟩ := bind_eq_ok.1 read
  obtain ⟨bootstrap, inSpec, read⟩ := bind_eq_ok.1 read
  obtain ⟨name, inBootstrap, read⟩ := bind_eq_ok.1 read
  obtain ⟨fs, fields, rfl⟩ := Value.exists_fields_of_get inBootstrap
  rw [secretKeys, Value.under?_of_section? inOwner, Value.under?_of_section? inSpec, Value.under?_of_fields fields]
  cases set : ((fs.get? "dataSecretName").getD .null).isTruthy with
  | false =>
    rw [Value.orElse_of_unset set] at read
    exact absurd (Except.ok.inj read).symm named
  | true =>
    rw [Value.orElse_eq_self set] at read
    obtain rfl := Except.ok.inj read
    cases found : fs.get? "dataSecretName" with
    | none =>
      rw [found] at set
      cases set
    | some name =>
      rw [found] at set
      exact ⟨rfl, set⟩

theorem bootstrapSecret_of_under? (found : owner.under? secretKeys = some secret) (set : secret.isTruthy = true) :
    bootstrapSecret owner = .ok secret := by
  obtain ⟨spec, inOwner, found⟩ := Value.exists_section?_of_under? found
  obtain ⟨bootstrap, inSpec, found⟩ := Value.exists_section?_of_under? found
  obtain ⟨fs, name, fields, inBootstrap, same⟩ := Value.exists_fields_of_under? found
  obtain rfl := Option.some.inj same
  rw [bootstrapSecret_eq, inOwner, ok_bind, inSpec, ok_bind, Value.get_of_fields fields, inBootstrap, ok_bind, Option.getD_some,
    Value.orElse_eq_self set]

theorem bootstrapSecret_of_lacks {fs : Fields} (read : owner.fields = .ok fs)
    (lacks : ((fs.get? "spec").getD .null).Lacks ["bootstrap", "dataSecretName"]) : bootstrapSecret owner = .ok .null := by
  rw [bootstrapSecret_eq, Value.section?_of_fields read, ok_bind]
  rcases lacks with unset | ⟨fs', fields, lacks⟩
  · rw [Value.orElse_of_unset unset]
    rfl
  · rw [Value.section?_of_fields (Value.fields_orElse fields), ok_bind]
    rcases lacks with unset | ⟨fs'', fields, unset⟩
    · rw [Value.orElse_of_unset unset]
      rfl
    · rw [Value.get_of_fields (Value.fields_orElse fields), ok_bind, Value.orElse_of_unset unset]

def Keeps (secret entry : Value) : Prop :=
  ∃ fs entries, secret.fields = .ok fs ∧ fs.get? "data" = some (.object entries) ∧ Fields.get? entries "value" = some entry

/-- the data of a secret is unset, or an object without the entry -/
def Misses (secret : Value) : Prop :=
  ∃ fs, secret.fields = .ok fs ∧ (((fs.get? "data").getD .null).isTruthy = false ∨
    ∃ entries, fs.get? "data" = some (.object entries) ∧ Fields.get? entries "value" = none)

def entryOf (key : String) (secret : Value) : Except Failure Value := secret.get "data" >>= bootstrapEntry key

variable {key : String} {data entry : Value} {fs : Fields}

theorem bootstrapEntry_object (key : String) (fs : Fields) : bootstrapEntry key (.object fs) =
    (Fields.get? fs "value").elim (.error (.fault (.bootstrap (.noValue key)))) .ok := by
  unfold bootstrapEntry
  rw [Value.orElse_object]

theorem object_of_bootstrapEntry (read : bootstrapEntry key data = .ok entry) :
    ∃ fs, data = .object fs ∧ Fields.get? fs "value" = some entry := by
  cases set : data.isTruthy with
  | false =>
    unfold bootstrapEntry at read
    rw [Value.orElse_of_unset set] at read
    cases read
  | true =>
    cases data with
    | object fs =>
      rw [bootstrapEntry_object] at read
      cases found : Fields.get? fs "value" with
      | none =>
        rw [found] at read
        cases read
      | some v =>
        rw [found] at read
        exact ⟨fs, rfl, found.trans (congrArg some (Except.ok.inj read))⟩
    | _ =>
      unfold bootstrapEntry at read
      rw [Value.orElse_eq_self set] at read
      cases read

theorem entryOf_eq_ok : entryOf key secret = .ok entry ↔ Keeps secret entry := by
  unfold entryOf Keeps
  rw [bind_eq_ok]
  constructor
  · rintro ⟨data, inSecret, read⟩
    obtain ⟨fs, fields, same⟩ := Value.exists_fields_of_get inSecret
    obtain ⟨entries, rfl, found⟩ := object_of_bootstrapEntry read
    refine ⟨fs, entries, fields, ?_, found⟩
    cases there : fs.get? "data" with
    | none => rw [there] at same; cases same
    | some v => rw [there] at same; exact congrArg some same
  · rintro ⟨fs, entries, fields, there, found⟩
    refine ⟨.object entries, ?_, ?_⟩
    · rw [Value.get_of_fields fields, there, Option.getD_some]
    · rw [bootstrapEntry_object, found]
      rfl

theorem entryOf_of_misses (misses : Misses secret) : entryOf key secret = .error (.fault (.bootstrap (.noValue key))) := by
  obtain ⟨fs, fields, unset | ⟨entries, there, missing⟩⟩ := misses
  · rw [entryOf, Value.get_of_fields fields, ok_bind, bootstrapEntry, Value.orElse_of_unset unset]
    rfl
  · rw [entryOf, Value.get_of_fields fields, ok_bind, there, Option.getD_some, bootstrapEntry_object, missing]
    rfl

end Store

end VmOperator
