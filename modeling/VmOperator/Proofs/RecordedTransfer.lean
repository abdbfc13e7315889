import VmOperator.Proofs.SharedStorage

/-! What becomes of a recorded transfer. The transfer leaves a file that its recorded paths tell; the phase after it is
computed from the image that is wished for when its task is found done. The two are about one file exactly when
that image has the name of the recorded one (`recorded_transfer_followed`); after a change of the image they are not
(`not_recorded_transfer_followed`). -/

namespace VmOperator

namespace Phase

/-- the file that a transfer of `src` into the directory `dst` leaves -/
def produced (p : Phase) (src dst : String) : String := Path.join dst (p.transferred (Path.baseName src))

structure Follows (file final : String) (next : Phase) : Prop where
  renamed : ∀ src dst task, next = .renaming src dst task → src = .string file
  placed : ∀ task, next = .resizing task → file = final

theorem single_transferred {name : String} (single : Path.Single name) (p : Phase) : Path.Single (p.transferred name) :=
  Image.single_ite_stripCompression _ single

/-- the phase after a transfer is about the file that is computed for it -/
theorem follows_afterTransfer_iff (p : Phase) (file name storage machine : String) :
    Follows file (Image.finalPath storage machine name) (p.afterTransfer name storage machine) ↔
      file = p.transferOutput name storage := by
  rcases p.afterTransfer_cases name storage machine with ⟨final, same⟩ | same <;> rw [same]
  · rw [final]
    constructor
    · exact fun follows => follows.placed none rfl
    · exact fun same => ⟨nofun, fun _ _ => same⟩
  · constructor
    · exact fun follows => (Value.string.inj (follows.renamed _ _ _ rfl)).symm
    · rintro rfl
      exact ⟨by rintro _ _ _ ⟨⟩; rfl, nofun⟩

end Phase

theorem Stored.single_of_imageName? {o : Value} {name : String} (named : imageName? o = some name) : Path.Single name := by
  unfold imageName? at named
  split at named
  · exact Image.single_of_nameOfUrl (ok_of_toOption named)
  · cases named

namespace Reconcile

variable {S : Scene} {c : Context} {st st' : Stage} {e : Event} {es : List Event} {m : Machine} {start h : Held}
  {past : List Invocation} {p next : Phase}

/-- an accepted status is made from the stored object -/
theorem Deed.object_of_acceptsStatus (deed : Deed S c st e st') (copy : st.copy? = some m)
    (accepted : e.acceptsStatus = true) : e.before.object = some (.object m.stored) ∧ m.CopyOf S (.object m.stored) := by
  cases deed with
  | sent | fetched | reread | replaced => cases accepted
  | vain _ idle => rw [Event.acceptsStatus_of_idle idle] at accepted; cases accepted
  | restated _ copy' copied object =>
    obtain rfl := Option.some.inj (copy'.symm.trans copy)
    exact ⟨object, copied.copy⟩

/-- an event that changes the recorded phase enters the one that the image wished for leads to -/
theorem Deed.transfers (deed : Deed S c st e st') (founded : Founded c es e.before st) (encoded : Encoded e.before)
    (before : e.before.phase? = some p) (moved : p.Transfers) (after : e.after.phase? = some next) (other : next ≠ p) :
    ∃ o name vm, e.before.object = some o ∧ Stored.imageName? o = some name ∧ Stored.vmName S.name o = .string vm ∧
      next = p.afterTransfer name c.layout.storage vm := by
  cases deed.advances encoded with
  | same progress =>
    obtain ⟨s', status', decoded'⟩ := Option.bind_eq_some_iff.1 after
    obtain ⟨s, status, same⟩ := progress s' status'
    rw [same] at decoded'
    have unchanged := (Held.phase?_of_decode status (ok_of_toOption decoded')).symm.trans before
    exact absurd (Option.some.inj unchanged) other
  | moved m entered message outcome stage status written accepted =>
    -- what is entered was judged on the poll of the phase that is stored still
    subst stage
    obtain ⟨-, name, p', r, reply, ⟨_, -, asks⟩, read⟩ := founded
    obtain rfl := Option.some.inj ((Held.phase?_of_decode status asks.decoded).symm.trans before)
    obtain ⟨s, status', progress⟩ := written
    obtain rfl := Held.phase?_of_encode status' progress after
    obtain ⟨object, copy⟩ := deed.object_of_acceptsStatus rfl accepted
    have enters := ImagePipeline.query_enters read
    cases enters with
    | transferred _ computed =>
      obtain ⟨name', found, computed⟩ := bind_eq_ok.1 computed
      obtain ⟨vm, text, computed⟩ := bind_eq_ok.1 computed
      cases computed
      cases name with
      | none => cases found
      | some name =>
        cases found
        exact ⟨_, _, vm, object, copy.imageName? asks.named, copy.vmName.symm.trans (Value.eq_string_of_toText text), rfl⟩
    | _ => cases moved

def Entered (S : Scene) (c : Context) (e : Event) : Prop :=
  ∀ p next src, e.before.phase? = some p → p.Transfers → p.paths? = some (.string src, .string c.layout.storage) →
    e.after.phase? = some next → next ≠ p →
    ∃ o name vm, e.before.object = some o ∧ Stored.imageName? o = some name ∧ Stored.vmName S.name o = .string vm ∧
      next = p.afterTransfer name c.layout.storage vm ∧
      (Phase.Follows (p.produced src c.layout.storage) (Image.finalPath c.layout.storage vm name) next ↔
        p.transferred name = p.transferred (Path.baseName src))

theorem Deed.entered (deed : Deed S c st e st') (founded : Founded c es e.before st) (encoded : Encoded e.before) :
    Entered S c e := by
  intro p next src before moved paths after other
  obtain ⟨o, name, vm, object, named, machine, rfl⟩ := deed.transfers founded encoded before moved after other
  refine ⟨o, name, vm, object, named, machine, rfl, ?_⟩
  rw [Phase.follows_afterTransfer_iff, Phase.transferOutput_eq, Phase.produced]
  constructor
  · intro same
    exact (Path.join_inj (Phase.single_transferred (Path.single_baseName src) p)
      (Phase.single_transferred (Stored.single_of_imageName? named) p) same).symm
  · intro same
    rw [same]

/-- In every run, whatever the appliance and the store answer and whatever others change: where a transfer was recorded
into the storage directory, the phase that is recorded after it is the one for the image that is wished for at that
time, and it is about the file that the transfer left exactly when that image has the name of the recorded one, both
without the suffix that an extraction takes off. -/
theorem recorded_transfer_followed (sound : start.Sound S) (encoded : Encoded start) (run : Run S start past h) :
    ∀ i ∈ past, ∀ e ∈ i.events, Entered S i.context e := by
  have each := run.each (I := fun c es _ _ => ∀ e ∈ es, Entered S c e) sound encoded (by simp)
    fun c es st h e st' entered _ _ founded encoded deed => forall_snoc entered (deed.entered founded encoded)
  intro i hi
  obtain ⟨-, -, entered⟩ := each i hi
  exact entered

/-- in a whole run of the sample the copy is followed by a rename of the file that it left -/
theorem recorded_transfer_followed_copying : Sample.held.Sound steadfast ∧ Encoded Sample.held ∧
    ∃ past h, Run steadfast Sample.held past h ∧ ∃ i ∈ past, ∃ e ∈ i.events,
      e.before.phase? = some (.copying (.string "/downloads/disk.raw") (.string "/disks") (some 8)) ∧
      e.after.phase? = some (.renaming (.string "/disks/disk.raw") (.string "/disks/worker.raw") none) ∧
      Phase.Follows "/disks/disk.raw" "/disks/worker.raw"
        (.renaming (.string "/disks/disk.raw") (.string "/disks/worker.raw") none) := by
  have sound : Sample.held.Sound steadfast := Sample.sound _
  have encoded : Encoded Sample.held := encoded_of_empty (by decide +kernel)
  refine ⟨sound, encoded, ?_⟩
  obtain ⟨past, h, run, seen⟩ := steadfast.exists_run Sample.held Sample.provisioning
    (fun r => r.1.any fun i => decide (i.context.layout.storage = "/disks") && i.events.any fun e =>
      decide (e.before.phase? = some (.copying (.string "/downloads/disk.raw") (.string "/disks") (some 8)) ∧
        e.after.phase? = some (.renaming (.string "/disks/disk.raw") (.string "/disks/worker.raw") none) ∧
        e.before.object.bind Stored.imageName? = some "disk.raw" ∧
        e.before.object.map (Stored.vmName "worker") = some (.string "worker"))) (by decide +kernel)
  simp only [List.any_eq_true, Bool.and_eq_true, decide_eq_true_eq] at seen
  obtain ⟨i, hi, storage, e, he, before, after, image, machine⟩ := seen
  refine ⟨past, h, run, i, hi, e, he, before, after, ?_⟩
  obtain ⟨o, name, vm, object, named, called, -, follows⟩ := recorded_transfer_followed sound encoded run i hi e he _ _
    "/downloads/disk.raw" before (.copying ..) (by rw [storage]; rfl) after nofun
  rw [object] at image machine
  obtain rfl := Option.some.inj (named.symm.trans image)
  obtain rfl := Value.string.inj (called.symm.trans (Option.some.inj machine))
  rw [storage] at follows
  have produced : (Phase.copying (.string "/downloads/disk.raw") (.string "/disks") (some 8)).produced
      "/downloads/disk.raw" "/disks" = "/disks/disk.raw" := by decide +kernel
  have final : Image.finalPath "/disks" "worker" "disk.raw" = "/disks/worker.raw" := by decide +kernel
  rw [produced, final] at follows
  exact follows.2 (by decide +kernel)

def redirected : Value := .object [
  ("metadata", .object [("namespace", .string "default"), ("name", .string "worker"), ("resourceVersion", .string "1"),
    ("finalizers", .array [Machine.finalizerValue])]),
  ("spec", .object [("imageURL", .string "http://images/other.raw"), ("vcpus", .int 1), ("memoryMB", .int 1024),
    ("diskSizeGB", .int 10)]),
  ("status", .object [("progress", .object (Phase.encode
    (.copying (.string "/downloads/disk.raw") (.string "/disks") (some 8))))])]

/-- another file is renamed than the one that was copied -/
theorem not_recorded_transfer_followed : ¬∀ (S : Scene) (start h : Held) (past : List Invocation), start.Sound S →
    Encoded start → Run S start past h → ∀ i ∈ past, ∀ e ∈ i.events, ∀ p next name src dst,
      e.before.phase? = some p → p.Transfers →
      p.paths? = (Phase.afterDownload name i.context.layout.downloads (.string i.context.layout.storage)).paths? →
      p.paths? = some (.string src, .string dst) → e.after.phase? = some next → next ≠ p →
      ∃ final, Phase.Follows (p.produced src dst) final next := by
  intro followed
  obtain ⟨past, h, run, seen⟩ := steadfast.exists_run ⟨some redirected, [.string "1"]⟩
    [(Sample.context, [.gives, .numbered 8 [("state", .string "done")], .takes "2"])]
    (fun r => r.1.any fun i => decide (i.context.layout = ⟨"/downloads", "/disks"⟩) && i.events.any fun e =>
      decide (e.before.phase? = some (.copying (.string "/downloads/disk.raw") (.string "/disks") (some 8)) ∧
        e.after.phase? = some (.renaming (.string "/disks/other.raw") (.string "/disks/worker.raw") none)))
    (by decide +kernel)
  simp only [List.any_eq_true, Bool.and_eq_true, decide_eq_true_eq] at seen
  obtain ⟨i, hi, layout, e, he, before, after⟩ := seen
  have sound : Held.Sound steadfast ⟨some redirected, [.string "1"]⟩ := Held.sound_single ⟨rfl, rfl, rfl, rfl, rfl⟩
  have encoded : Encoded ⟨some redirected, [.string "1"]⟩ := by
    intro s status
    have read : Held.status ⟨some redirected, [.string "1"]⟩ = some { ({} : MachineStatus) with
        progress := .object (Phase.encode (.copying (.string "/downloads/disk.raw") (.string "/disks") (some 8))) } := by
      decide +kernel
    obtain rfl := Option.some.inj (read.symm.trans status)
    exact ⟨_, rfl⟩
  obtain ⟨final, follows⟩ := followed steadfast _ h past sound encoded run i hi e he _ _ "disk.raw" "/downloads/disk.raw"
    "/disks" before (.copying ..) (by rw [layout]; decide +kernel) rfl after nofun
  exact absurd (follows.renamed _ _ _ rfl) (by decide +kernel)

end Reconcile

end VmOperator
