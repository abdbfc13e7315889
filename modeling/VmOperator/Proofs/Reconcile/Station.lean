import VmOperator.Proofs.Coherence
import VmOperator.Proofs.Reconcile.Service

/-! The stations of a machine that comes up: the phases of its image, then the search for its addresses, then the end.
Each has its level, the number of invocations that it takes to get there without waiting, and the submissions before it
(`level_enters`, `sofar_succ`); `At` says what is stored of the machine there. -/

namespace VmOperator

open ImagePipeline (route)

/-- where a machine stands between two invocations -/
inductive Station where
  | imaging (p : Phase)
  | looking
  | there

structure MachineStatus.Reached (mac : String) (all : List Event) (s : MachineStatus) : Prop where
  addresses : ∃ addresses, addresses ≠ [] ∧ (∃ e ∈ all, e.Lists mac addresses) ∧
    s.addresses = addresses.map fun address => { address }
  ready : s.ready = true
  provisioned : s.provisioned = true
  conditions : ∀ type, s.Meets type

theorem MachineStatus.Reached.append {mac : String} {all : List Event} {s : MachineStatus} (reached : s.Reached mac all)
    (more : List Event) : s.Reached mac (all ++ more) := by
  obtain ⟨addresses, some, ⟨e, mem, lists⟩, same⟩ := reached.addresses
  exact { reached with addresses := ⟨addresses, some, ⟨e, List.mem_append_left _ mem, lists⟩, same⟩ }

namespace Plan

/-- how many invocations bring a machine up where nothing has to be waited for -/
def rounds (P : Plan) : Nat := if P.output = P.final then 6 else 8

/-- how many of them are over at a station -/
def level (P : Plan) : Station → Nat
  | .imaging p => if P.output = P.final ∧ 6 ≤ p.rank then p.rank - 2 else p.rank
  | .looking => P.rounds - 1
  | .there => P.rounds

def submissions (P : Plan) : List String :=
  ["/downloads/add", if Image.isCompressed P.image then "/fs/extract/" else "/fs/cp/"] ++
    (if P.output = P.final then [] else ["/fs/mv/"]) ++ ["/vm/disk/resize/", "/vm/"]

/-- what was submitted before a station; a submission and a poll take turns -/
def sofar (P : Plan) : Station → List String
  | .imaging p => P.submissions.take ((P.level (.imaging p) + 1) / 2)
  | .looking | .there => P.submissions

end Plan

namespace ImagePipeline

def submits (p : Phase) : List String :=
  match route p with
  | (.post, path) => [path]
  | _ => []

variable {c : Context} {m : Machine} {name : Option String} {p next : Phase} {mac : String} {v : Value} {P : Plan}

/-- only a poll asks for patience -/
theorem submits_of_pends (pends : (topic p).pends mac v = true) : submits p = [] := by
  rcases p with _ | task | ⟨src, dst, _ | task⟩ | ⟨src, dst, _ | task⟩ | ⟨src, dst, _ | task⟩ | _ | task
  case notStarted | extracting.none | copying.none | renaming.none | resizing.none => cases pends
  all_goals rfl

theorem tally_query {e : Event} {r : Appliance.Request} {reply : Appliance.Reply}
    (written : (query c m name p).request = .ok r) (said : e.said = .sent r reply) :
    Tally mac [e] (submits p) (e.pends mac).toNat := by
  have routed := query_route c m written
  rcases route_cases p with ⟨path, mem, target⟩ | ⟨path, -, task, target⟩
  · obtain ⟨post, same⟩ := Prod.mk.inj (routed.trans target)
    have tally : Tally mac [e] [r.path] (e.pends mac).toNat := .submit said post (List.mem_append_left _ (same ▸ mem))
    rwa [same, show [path] = submits p by rw [submits, target]] at tally
  · have tally : Tally mac [e] [] (e.pends mac).toNat := .send said (.inl (Prod.mk.inj (routed.trans target)).1)
    rwa [show [] = submits p by rw [submits, target]] at tally

end ImagePipeline

namespace Plan

open ImagePipeline (submits)

variable {P : Plan} {p next : Phase} {c : Context} {m : Machine}

theorem level_imaging (p : Phase) :
    P.level (.imaging p) = if P.output = P.final ∧ 6 ≤ p.rank then p.rank - 2 else p.rank := rfl

theorem rounds_pos (P : Plan) : 0 < P.rounds := by
  rw [rounds]
  split <;> decide

theorem level_looking (P : Plan) : P.level .looking + 1 = P.rounds := Nat.sub_add_cancel P.rounds_pos

theorem level_there (P : Plan) : P.level .there = P.rounds := rfl

theorem level_lt_rounds (fits : P.Fits p) : P.level (.imaging p) < P.rounds := by
  rw [level_imaging, rounds]
  rcases p with _ | task | ⟨src, dst, _ | task⟩ | ⟨src, dst, _ | task⟩ | ⟨src, dst, _ | task⟩ | _ | task <;>
    cases fits <;> by_cases same : P.output = P.final <;> simp_all [Phase.rank]

theorem level_notStarted (P : Plan) : P.level (.imaging .notStarted) = 0 := by
  rw [level_imaging]
  simp [Phase.rank]

theorem level_last (P : Plan) (task : Int) : P.level (.imaging (.resizing (some task))) + 1 = P.rounds := by
  rw [level_imaging, rounds]
  by_cases same : P.output = P.final <;> simp [Phase.rank, same]

/-- all but the virtual machine is submitted when the resize is -/
theorem sofar_last (P : Plan) (task : Int) :
    P.submissions = P.sofar (.imaging (.resizing (some task))) ++ ["/vm/"] := by
  rw [sofar, level_imaging, submissions]
  by_cases same : P.output = P.final <;> simp [Phase.rank, same]

theorem afterTransfer_eq (moved : p.Transfers) (fits : P.Fits p) : p.afterTransfer P.image P.layout.storage P.vm =
    if P.output = P.final then .resizing none else .renaming (.string P.output) (.string P.final) none := by
  rw [Phase.afterTransfer, fits.transferOutput moved]
  exact ite_not ..

/-- a phase is one station after the one before -/
theorem level_enters (fits : P.Fits p) (wanted : P.Wanted m) (layout : c.layout = P.layout)
    (enters : ImagePipeline.Enters c m (some P.image) p next) : P.level (.imaging next) = P.level (.imaging p) + 1 := by
  rw [level_imaging, level_imaging]
  cases enters with
  | transferred moved after =>
    rw [wanted.afterTransfer layout] at after
    obtain rfl := Except.ok.inj after
    have third : (if P.output = P.final ∧ 6 ≤ 3 then 3 - 2 else 3) = 3 := if_neg (by simp)
    rw [moved.rank_eq, third, afterTransfer_eq moved fits]
    by_cases same : P.output = P.final
    · rw [if_pos same]
      exact if_pos ⟨same, Nat.le_refl 6⟩
    · rw [if_neg same]
      exact if_neg fun both => same both.1
  | renamed src dst task =>
    cases fits
    simp_all [Phase.rank]
  | downloaded task =>
    unfold Phase.afterDownload
    dsimp only
    split <;> simp [Phase.rank]
  | resize task => by_cases same : P.output = P.final <;> simp [Phase.rank, same]
  | _ => simp [Phase.rank]

/-- what is submitted at a phase comes after what was before -/
theorem sofar_succ (fits : P.Fits p) :
    P.submissions.take ((P.level (.imaging p) + 2) / 2) = P.sofar (.imaging p) ++ submits p := by
  rw [sofar, level_imaging, submissions]
  rcases p with _ | task | ⟨src, dst, _ | task⟩ | ⟨src, dst, _ | task⟩ | ⟨src, dst, _ | task⟩ | _ | task <;>
    cases fits <;> by_cases same : P.output = P.final <;> simp_all [Phase.rank, submits, route]

attribute [irreducible] rounds level

structure Brings (P : Plan) (m : Machine) : Prop where
  wanted : P.Wanted m
  asked : m.spec.imageUrl.isTruthy = true
  kept : m.isBeingDeleted = false
  owned : ∃ owner, m.ownerName = .ok owner ∧ owner ≠ .null

namespace Brings

variable {saved : Machine}

theorem restated (brings : P.Brings m) (s : MachineStatus) : P.Brings { m with status := s } :=
  ⟨⟨brings.wanted.image, brings.wanted.vm⟩, brings.asked, brings.kept, brings.owned⟩

theorem amended (brings : P.Brings m) (finalizers : List Value) (id : Value) : P.Brings (m.amended finalizers id) :=
  ⟨⟨brings.wanted.image, brings.wanted.vm⟩, brings.asked, brings.kept, brings.owned⟩

theorem stamps (brings : P.Brings m) (stamps : m.Stamps saved) : P.Brings saved := by
  cases stamps
  exact ⟨⟨brings.wanted.image, brings.wanted.vm⟩, brings.asked, brings.kept, brings.owned⟩

end Brings

/-- no virtual machine is recorded, and the provider id is the one that was asked for -/
structure Blank (first : Value) (s : MachineStatus) (id : Value) : Prop where
  unnumbered : s.vmId = none
  unreached : s.addresses = []
  unnamed : s.providerId = .string ""
  providerId : id = first

structure Imaging (P : Plan) (first : Value) (p : Phase) (s : MachineStatus) (id : Value) :
    Prop extends Blank first s id where
  progress : s.progress = .object p.encode
  fits : P.Fits p
  told : ∀ c, s.condition? .imageReady = some c → c.status = .string ConditionStatus.no.text ∧
    ∃ q : Phase, c.reason = .string q.tag

structure Numbered (P : Plan) (first : Value) (all : List Event) (number : Int) (s : MachineStatus)
    (id : Value) : Prop where
  given : ∃ e ∈ all, e.created? = some number
  vmId : s.vmId = some number
  disk : s.diskPath = .string P.final
  image : s.Meets .imageReady
  mirror : s.providerId = .string (Boot.providerId (.int number))
  providerId : id = first.orElse (.string (Boot.providerId (.int number)))

def At (P : Plan) (first : Value) (mac : String) (all : List Event) (s : MachineStatus) (id : Value) : Station → Prop
  | .imaging p => P.Imaging first p s id
  | .looking => (∃ number, P.Numbered first all number s id) ∧ s.addresses = []
  | .there => (∃ number, P.Numbered first all number s id) ∧ s.Reached mac all

variable {first id : Value} {s : MachineStatus} {all : List Event} {number : Int}

theorem Numbered.append (numbered : P.Numbered first all number s id) (more : List Event) :
    P.Numbered first (all ++ more) number s id := by
  obtain ⟨e, mem, created⟩ := numbered.given
  exact { numbered with given := ⟨e, List.mem_append_left _ mem, created⟩ }

theorem At.append {mac : String} {σ : Station} (here : P.At first mac all s id σ) (more : List Event) :
    P.At first mac (all ++ more) s id σ := by
  cases σ with
  | imaging => exact here
  | looking => exact ⟨here.1.imp fun _ numbered => numbered.append more, here.2⟩
  | there => exact ⟨here.1.imp fun _ numbered => numbered.append more, here.2.append more⟩

theorem At.level_le {mac : String} {σ : Station} (here : P.At first mac all s id σ) : P.level σ ≤ P.rounds := by
  cases σ with
  | imaging => exact Nat.le_of_lt (level_lt_rounds here.fits)
  | looking => exact P.level_looking ▸ Nat.le_succ _
  | there => exact Nat.le_of_eq P.level_there

theorem At.eq_there {mac : String} {σ : Station} (here : P.At first mac all s id σ) (last : P.level σ = P.rounds) :
    σ = .there := by
  cases σ with
  | imaging => exact absurd last (Nat.ne_of_lt (level_lt_rounds here.fits))
  | looking => exact absurd (P.level_looking.trans last.symm) (Nat.succ_ne_self _)
  | there => rfl

section Image

theorem Blank.rendered (blank : Blank first s id) : Blank first s.rendered id where
  unnumbered := blank.unnumbered
  unreached := by rw [MachineStatus.rendered, blank.unreached]; rfl
  unnamed := by rw [MachineStatus.rendered, blank.unnamed]; rfl
  providerId := blank.providerId

/-- neither ready nor failed -/
theorem Imaging.pending (imaging : P.Imaging first p m.status id) :
    m.imageReady = false ∧ m.failedImageReason? = .ok none := by
  rw [Machine.imageReady, Machine.failedImageReason?]
  cases found : m.imageCondition? with
  | none => exact ⟨rfl, rfl⟩
  | some c =>
    obtain ⟨no, q, reason⟩ := imaging.told c found
    have sound : ¬"Failed".toList.isSuffixOf q.tag.toList = true := by cases q <;> simp only [Phase.tag] <;> decide
    dsimp only [Option.any_some]
    rw [no, reason, if_neg (not_not_intro rfl)]
    exact ⟨decide_eq_false ConditionStatus.no_ne_yes, congrArg Except.ok (if_neg sound)⟩

/-- the phase that is entered is stored -/
theorem Imaging.entering (imaging : P.Imaging first p m.status id) (fits : P.Fits next) (message : String) :
    P.Imaging first next (ImagePipeline.entering c next message m).status.rendered id := by
  have blank : Blank first (ImagePipeline.entering c next message m).status id :=
    ⟨imaging.unnumbered, imaging.unreached, imaging.unnamed, imaging.providerId⟩
  refine ⟨blank.rendered, Reconcile.progress_rendered rfl, fits, fun c' found => ?_⟩
  obtain ⟨told, found', status, reason⟩ := Machine.condition?_setCondition_self
    { m with status.progress := .object next.encode } c.now .imageReady .no next.tag message
  obtain rfl : c' = told := Option.some.inj (found.symm.trans found')
  exact ⟨status, next, reason⟩

/-- the image that is ready is stored as such -/
theorem Blank.finishing (blank : Blank first m.status id) :
    Blank first (ImagePipeline.finishing c m).status.rendered id ∧
      (ImagePipeline.finishing c m).status.rendered.Meets .imageReady := by
  have after : Blank first (ImagePipeline.finishing c m).status id :=
    ⟨blank.unnumbered, blank.unreached, blank.unnamed, blank.providerId⟩
  obtain ⟨told, found, status, -⟩ := Machine.condition?_setCondition_self m c.now .imageReady .yes "ImageReady"
    "Image downloaded, extracted, renamed, and resized"
  exact ⟨after.rendered, told, found, status⟩

end Image

section Recorded

theorem final_set (P : Plan) : (Value.string P.final).isTruthy = true := by
  simp [Value.isTruthy, final, Image.finalPath_ne_empty]

/-- the number that was given is recorded with the disk of the plan -/
theorem Blank.record (blank : Blank first m.status id) (ready : m.status.Meets .imageReady) (number : Int) :
    let recorded := (Boot.record c number P.final m).status.rendered
    recorded.vmId = some number ∧ recorded.diskPath = .string P.final ∧ recorded.Meets .imageReady ∧
      recorded.providerId = .string (Boot.providerId (.int number)) ∧ recorded.addresses = [] := by
  have image : (Boot.record c number P.final m).status.condition? .imageReady = m.status.condition? .imageReady :=
    Machine.condition?_setCondition_of_ne _ _ (by decide) ..
  refine ⟨rfl, Value.orElse_eq_self P.final_set, (MachineStatus.Meets.congr image).2 ready, ?_, ?_⟩
  · show (m.status.providerId.orElse (.string (Boot.providerId (.int number)))).orElse (.string "") = _
    rw [blank.unnamed, Value.orElse_of_unset (v := .string "") rfl]
    exact Value.orElse_eq_self (Reconcile.providerId_set _)
  · show m.status.addresses.filter _ = []
    rw [blank.unreached]
    rfl

/-- a machine that is ready meets every condition -/
theorem meets_all {addresses : List Value} (ready : m.status.Meets .imageReady) (type : ConditionType) :
    (Discovery.markReady c m addresses).status.Meets type := by
  cases type with
  | imageReady => exact (MachineStatus.Meets.congr (Reconcile.imageCondition?_markReady m addresses)).2 ready
  | ready => exact Reconcile.meets_markReady m addresses
  | infrastructureReady =>
    rw [Discovery.markReady, MachineStatus.Meets.congr (Machine.condition?_setCondition_of_ne _ _ (by decide) ..)]
    obtain ⟨told, found, status, -⟩ := Machine.condition?_setCondition_self _ _ _ _ _ _
    exact ⟨told, found, status⟩
  | vmProvisioned =>
    obtain ⟨told, found, status, -⟩ := Machine.condition?_setCondition_self _ _ _ _ _ _
    exact ⟨told, found, status⟩

theorem set_of_lists {e : Event} {mac : String} {addresses : List Value} (lists : e.Lists mac addresses) :
    ∀ a ∈ addresses, a.isTruthy = true := by
  obtain ⟨r, reply, v, -, -, -, listed⟩ := lists
  obtain ⟨items, -, rest⟩ := bind_eq_ok.1 listed
  obtain ⟨hosts, read, found⟩ := bind_eq_ok.1 rest
  exact Reconcile.addressesIn_set (forall_of_mapM_eq_ok (fun _ _ => Appliance.LanHost.allSet_of_ofResult) read) found

/-- the machine is there once it is ready under what was listed -/
theorem Numbered.found {mac : String} {addresses : List Value} (numbered : P.Numbered first all number m.status id)
    {e : Event} (mem : e ∈ all) (lists : e.Lists mac addresses) (some : addresses ≠ []) :
    P.At first mac all (Discovery.markReady c m addresses).status.rendered id .there := by
  refine ⟨⟨number,
    { numbered with vmId := numbered.vmId, disk := ?_, image := meets_all numbered.image .imageReady, mirror := ?_ }⟩,
    ⟨addresses, some, ⟨e, mem, lists⟩, ?_⟩, rfl, rfl, meets_all numbered.image⟩
  · show m.status.diskPath.orElse (.string "") = _
    rw [numbered.disk]
    exact Value.orElse_eq_self P.final_set
  · show m.status.providerId.orElse (.string "") = _
    rw [numbered.mirror]
    exact Value.orElse_eq_self (Reconcile.providerId_set _)
  · show (addresses.map _).filter _ = _
    exact List.filter_eq_self.2 (List.forall_mem_map.2 (set_of_lists lists))

end Recorded

structure Stands (P : Plan) (S : Scene) (first : Value) (mac : String) (all : List Event) (σ : Station) (h : Held)
    (m : Machine) :
    Prop where
  inHand : InHand S h m
  brings : P.Brings m
  here : P.At first mac all m.status m.spec.providerId σ

end Plan

end VmOperator
