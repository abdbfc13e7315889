import VmOperator.Proofs.Bytes.Wire
import VmOperator.Proofs.DiskPath
import VmOperator.Proofs.Image.Name

/-! Machines that share a storage directory. What a run's requests write or take away is the transfer output of its
plan, and what they move it to or resize is the disk (`Planned.goesBy`). The output is named by the image alone, so
machines are kept apart by the names of their disks only (`disks_apart`), and an image with the name of another
machine's disk overwrites that (`not_disks_apart`). -/

namespace VmOperator

namespace Event

def field? (e : Event) (key : String) : Option Value :=
  match e.said with
  | .sent ⟨_, _, .json fs⟩ _ => fs.get? key
  | _ => none

def wire (path : String) : Value := .string (Appliance.encodePath path)

/-- what a transfer writes, and a move takes away; an archive is left under its name without one compressed suffix, and a
copy under the name of its source -/
inductive Leaves (e : Event) : String → Prop
  | extracted {src dst : String} (route : e.route? = some (.post, "/fs/extract/")) (source : e.field? "src" = some (wire src))
      (into : e.field? "dst" = some (wire dst)) : Leaves e (Image.extractedPath dst (Path.baseName src))
  | copied {src dst : String} (route : e.route? = some (.post, "/fs/cp/")) (source : e.field? "files" = some (.array [wire src]))
      (into : e.field? "dst" = some (wire dst)) : Leaves e (Image.copiedPath dst (Path.baseName src))
  | taken {src : String} (route : e.route? = some (.post, "/fs/mv/")) (source : e.field? "files" = some (.array [wire src])) :
      Leaves e src

/-- where a move goes, and what is resized -/
inductive Places (e : Event) : String → Prop
  | moved {dst : String} (route : e.route? = some (.post, "/fs/mv/")) (into : e.field? "dst" = some (wire dst)) : Places e dst
  | resized {path : String} (route : e.route? = some (.post, "/vm/disk/resize/"))
      (disk : e.field? "disk_path" = some (wire path)) : Places e path

/-- what a request of the pipeline writes, moves away or resizes -/
def Touches (e : Event) (path : String) : Prop := e.Leaves path ∨ e.Places path

def leavingPaths : List String := ["/fs/extract/", "/fs/cp/", "/fs/mv/"]

def placingPaths : List String := ["/fs/mv/", "/vm/disk/resize/"]

def Posts (e : Event) (paths : List String) : Prop := ∃ path ∈ paths, e.route? = some (.post, path)

theorem Leaves.posts {e : Event} {path : String} (leaves : e.Leaves path) : e.Posts leavingPaths := by
  cases leaves with
  | extracted route | copied route | taken route => exact ⟨_, by decide, route⟩

theorem Places.posts {e : Event} {path : String} (places : e.Places path) : e.Posts placingPaths := by
  cases places with
  | moved route | resized route => exact ⟨_, by decide, route⟩

theorem Posts.pipelined {e : Event} {paths : List String} (posts : e.Posts paths)
    (submits : ∀ path ∈ paths, path ∈ leavingPaths ++ placingPaths) : e.Pipelined := by
  obtain ⟨path, mem, route⟩ := posts
  have jobs := submits path mem
  simp only [leavingPaths, placingPaths, List.cons_append, List.nil_append, List.mem_cons, List.not_mem_nil, or_false] at jobs
  rcases jobs with rfl | rfl | rfl | rfl | rfl
  · exact ⟨.extracting .null .null none, route⟩
  · exact ⟨.copying .null .null none, route⟩
  · exact ⟨.renaming .null .null none, route⟩
  · exact ⟨.renaming .null .null none, route⟩
  · exact ⟨.resizing none, route⟩

theorem wire_inj {p q : String} (same : some (wire p) = some (wire q)) : p = q :=
  Appliance.encodePath_inj (Value.string.inj (Option.some.inj same))

theorem wires_inj {p q : String} (same : some (Value.array [wire p]) = some (Value.array [wire q])) : p = q := by
  simp only [Option.some.injEq, Value.array.injEq, List.cons.injEq, and_true] at same
  exact wire_inj (congrArg some same)

theorem field?_of_content {e : Event} {r : Appliance.Request} {reply : Appliance.Reply} {fs : Fields}
    (said : e.said = .sent r reply) (content : r.content = .json fs) (key : String) : e.field? key = fs.get? key := by
  obtain ⟨method, target, _⟩ := r
  obtain rfl : _ = Appliance.Content.json fs := content
  rw [field?, said]

end Event

/-- the transfer output that a recorded phase depends on -/
def Phase.needs? (name : String) : Phase → Option String
  | .extracting _ (.string dst) _ => some (Image.extractedPath dst name)
  | .copying _ (.string dst) _ => some (Image.copiedPath dst name)
  | .renaming (.string src) _ _ => some src
  | _ => none

namespace Plan

variable {P : Plan} {c : Context} {m : Machine} {p : Phase}

/-- the name of the image after its extraction or copy -/
def transferred (P : Plan) : String := if Image.isCompressed P.image then Image.stripCompression P.image else P.image

def disk (P : Plan) : String := P.vm ++ Image.diskExtension P.image

theorem output_eq : P.output = Path.join P.layout.storage P.transferred := by
  unfold output transferred
  split <;> rfl

theorem final_eq : P.final = Path.join P.layout.storage P.disk := rfl

theorem Wished.single {S : Scene} {wanted : Option Value × Option Value} (wished : P.Wished S wanted) :
    Path.Single P.image := by
  obtain ⟨url, -, named⟩ := wished.image
  exact Image.single_of_nameOfUrl named

theorem single_transferred (single : Path.Single P.image) : Path.Single P.transferred :=
  Image.single_ite_stripCompression _ single

theorem baseName_source (single : Path.Single P.image) : Path.baseName P.source = P.image := Path.baseName_append single _

theorem Fits.needs (fits : P.Fits p) {path : String} (needs : p.needs? P.image = some path) : path = P.output := by
  cases fits with
  | extracting _ compressed =>
    rw [output, if_pos compressed]
    exact (Option.some.inj needs).symm
  | copying _ plain =>
    rw [output, plain]
    exact (Option.some.inj needs).symm
  | notStarted | downloading | resizing => cases needs
  | _ => exact (Option.some.inj needs).symm

section Requests

variable {e : Event} {r : Appliance.Request} {reply : Appliance.Reply} {s : Settings} {src dst path : String}

theorem leaves_by_extraction (written : (Appliance.extractQuery s (.string src) (.string dst)).request = .ok r)
    (said : e.said = .sent r reply) : e.Leaves path ↔ path = Image.extractedPath dst (Path.baseName src) := by
  obtain rfl := Except.ok.inj written
  have route : e.route? = some (.post, "/fs/extract/") := by rw [Event.route?, said]
  have archive : e.field? "src" = some (Event.wire src) := Event.field?_of_content said rfl "src"
  have target : e.field? "dst" = some (Event.wire dst) := Event.field?_of_content said rfl "dst"
  constructor
  · intro leaves
    cases leaves with
    | extracted _ source into =>
      rw [Event.wire_inj (source.symm.trans archive), Event.wire_inj (into.symm.trans target)]
    | copied other | taken other => exact absurd (route.symm.trans other) (by decide)
  · intro same
    rw [same]
    exact .extracted route archive target

theorem leaves_by_copy
    (written : (Appliance.transferQuery s "copy files" "/fs/cp/" [.string src] (.string dst) Appliance.overwrite).request = .ok r)
    (said : e.said = .sent r reply) : e.Leaves path ↔ path = Image.copiedPath dst (Path.baseName src) := by
  obtain rfl := Except.ok.inj written
  have route : e.route? = some (.post, "/fs/cp/") := by rw [Event.route?, said]
  have files : e.field? "files" = some (.array [Event.wire src]) := Event.field?_of_content said rfl "files"
  have target : e.field? "dst" = some (Event.wire dst) := Event.field?_of_content said rfl "dst"
  constructor
  · intro leaves
    cases leaves with
    | copied _ source into =>
      rw [Event.wires_inj (source.symm.trans files), Event.wire_inj (into.symm.trans target)]
    | extracted other | taken other => exact absurd (route.symm.trans other) (by decide)
  · rintro rfl
    exact .copied route files target

section Move

variable (written : (Appliance.transferQuery s "move files" "/fs/mv/" [.string src] (.string dst) Appliance.overwrite).request = .ok r)
  (said : e.said = .sent r reply)

include written said

theorem leaves_by_move : e.Leaves path ↔ path = src := by
  obtain rfl := Except.ok.inj written
  have route : e.route? = some (.post, "/fs/mv/") := by rw [Event.route?, said]
  have files : e.field? "files" = some (.array [Event.wire src]) := Event.field?_of_content said rfl "files"
  constructor
  · intro leaves
    cases leaves with
    | taken _ source => exact Event.wires_inj (source.symm.trans files)
    | extracted other | copied other => exact absurd (route.symm.trans other) (by decide)
  · rintro rfl
    exact .taken route files

theorem places_by_move : e.Places path ↔ path = dst := by
  obtain rfl := Except.ok.inj written
  have route : e.route? = some (.post, "/fs/mv/") := by rw [Event.route?, said]
  have target : e.field? "dst" = some (Event.wire dst) := Event.field?_of_content said rfl "dst"
  constructor
  · intro places
    cases places with
    | moved _ into => exact Event.wire_inj (into.symm.trans target)
    | resized other => exact absurd (route.symm.trans other) (by decide)
  · rintro rfl
    exact .moved route target

end Move

theorem places_by_resize {c : Context} {m : Machine} {final : String} (known : ImagePipeline.finalPath c m = .ok final)
    (written : (ImagePipeline.growQuery c m).request = .ok r) (said : e.said = .sent r reply) :
    e.Places path ↔ path = final := by
  rw [ImagePipeline.growQuery, known] at written
  obtain rfl := Except.ok.inj written
  have route : e.route? = some (.post, "/vm/disk/resize/") := by rw [Event.route?, said]
  have grown : e.field? "disk_path" = some (Event.wire final) := Event.field?_of_content said rfl "disk_path"
  constructor
  · intro places
    cases places with
    | resized _ disk => exact Event.wire_inj (disk.symm.trans grown)
    | moved other => exact absurd (route.symm.trans other) (by decide)
  · rintro rfl
    exact .resized route grown

end Requests

section Asked

variable {e : Event} {r : Appliance.Request} {reply : Appliance.Reply} {path : String} (fits : P.Fits p)
  (asks : Reconcile.Asks c m (some P.image) p e r reply)

include fits asks

theorem Fits.leaves_iff (single : Path.Single P.image) (posts : e.Posts Event.leavingPaths) :
    e.Leaves path ↔ path = P.output := by
  rw [Event.Posts, asks.route] at posts
  cases fits with
  | notStarted | downloading => simp [ImagePipeline.route, Event.leavingPaths] at posts
  | extracting task compressed =>
    cases task with
    | some => simp [ImagePipeline.route] at posts
    | none =>
      rw [leaves_by_extraction (s := c.settings) asks.written asks.said, P.baseName_source single, output, if_pos compressed]
  | copying task plain =>
    cases task with
    | some => simp [ImagePipeline.route] at posts
    | none =>
      rw [leaves_by_copy (s := c.settings) asks.written asks.said, P.baseName_source single, output, plain]
      rfl
  | resizing task => cases task <;> simp [ImagePipeline.route, Event.leavingPaths] at posts
  | _ task =>
    cases task with
    | some => simp [ImagePipeline.route] at posts
    | none => exact leaves_by_move (s := c.settings) asks.written asks.said

theorem Fits.places_iff (wanted : P.Wanted m) (layout : c.layout = P.layout) (posts : e.Posts Event.placingPaths) :
    e.Places path ↔ path = P.final := by
  rw [Event.Posts, asks.route] at posts
  cases fits with
  | notStarted | downloading => simp [ImagePipeline.route, Event.placingPaths] at posts
  | extracting task | copying task => cases task <;> simp [ImagePipeline.route, Event.placingPaths] at posts
  | resizing task =>
    cases task with
    | some => simp [ImagePipeline.route] at posts
    | none => exact places_by_resize (wanted.finalPath layout) asks.written asks.said
  | _ task =>
    cases task with
    | some => simp [ImagePipeline.route] at posts
    | none => exact places_by_move (s := c.settings) asks.written asks.said

end Asked

/-- the recorded progress, where there is one, goes by the plan -/
def Traced (P : Plan) (h : Held) : Prop := ∀ s, h.status = some s → ∃ p : Phase, s.progress = .object p.encode ∧ P.Fits p

theorem Traced.drift {S : Scene} {h h' : Held} (traced : P.Traced h) (drift : S.Drifts h h') : P.Traced h' := by
  intro s status
  exact traced s (Held.status_drift drift ▸ status)

theorem Traced.fits {h : Held} (traced : P.Traced h) (phase : h.phase? = some p) : P.Fits p := by
  obtain ⟨s, status, decoded⟩ := Option.bind_eq_some_iff.1 phase
  obtain ⟨p', written, fits⟩ := traced s status
  rw [written] at decoded
  rwa [Phase.eq_of_decode_encode (ok_of_toOption decoded)]

theorem traced_of_empty {h : Held} (empty : h.status = some {}) : P.Traced h := by
  intro s status
  obtain rfl := Option.some.inj (empty.symm.trans status)
  exact ⟨.notStarted, rfl, .notStarted⟩

end Plan

namespace Reconcile

variable {P P' : Plan} {S S' : Scene} {c : Context} {st st' : Stage} {e : Event} {es : List Event}
  {past past' : List Invocation} {start start' h h' : Held} {m : Machine}

theorem Deed.traced (deed : Deed S c st e st') (founded : Founded c es e.before st) (encoded : Encoded e.before)
    (wanted : ∀ m, st.copy? = some m → P.Wanted m) (layout : c.layout = P.layout) (traced : P.Traced e.before) :
    P.Traced e.after := by
  intro s' status'
  cases deed.advances encoded with
  | same progress =>
    obtain ⟨s, status, same⟩ := progress s' status'
    rw [same]
    exact traced s status
  | moved m next message outcome stage before after =>
    subst stage
    obtain ⟨status, name, p, r, reply, ⟨_, -, asks⟩, read⟩ := founded
    obtain ⟨s, after, progress⟩ := after
    obtain rfl := Option.some.inj (after.symm.trans status')
    have known := wanted m rfl
    obtain rfl := Except.ok.inj (known.imageName.symm.trans asks.named)
    have fits := traced.fits (Held.phase?_of_decode status asks.decoded)
    exact ⟨next, progress, fits.enters known layout (ImagePipeline.query_enters read)⟩

structure GoesBy (P : Plan) (e : Event) : Prop where
  before : P.Traced e.before
  after : P.Traced e.after
  leaves : ∀ path, e.Leaves path ↔ e.Posts Event.leavingPaths ∧ path = P.output
  places : ∀ path, e.Places path ↔ e.Posts Event.placingPaths ∧ path = P.final

theorem GoesBy.touches (goesBy : GoesBy P e) {path : String} (touches : e.Touches path) : path = P.output ∨ path = P.final :=
  touches.imp (fun leaves => ((goesBy.leaves path).1 leaves).2) fun places => ((goesBy.places path).1 places).2

theorem Deed.goesBy (deed : Deed S c st e st') (tracks : Tracks S e.before st) (founded : Founded c es e.before st)
    (encoded : Encoded e.before) (wanted : ∀ m, st.copy? = some m → P.Wanted m) (layout : c.layout = P.layout)
    (traced : P.Traced e.before) (single : Path.Single P.image) : GoesBy P e := by
  have asked (pipelined : e.Pipelined) : ∃ m p r reply, P.Fits p ∧ P.Wanted m ∧ Asks c m (some P.image) p e r reply := by
    obtain ⟨m, name, p, r, reply, rfl, status, asks, -⟩ := deed.pipelined tracks founded pipelined
    have known := wanted m rfl
    obtain rfl := Except.ok.inj (known.imageName.symm.trans asks.named)
    exact ⟨m, p, r, reply, traced.fits (Held.phase?_of_decode status asks.decoded), known, asks⟩
  refine ⟨traced, deed.traced founded encoded wanted layout traced, fun path => ?_, fun path => ?_⟩
  · have named (posts : e.Posts Event.leavingPaths) : e.Leaves path ↔ path = P.output := by
      obtain ⟨m, p, r, reply, fits, -, asks⟩ := asked (posts.pipelined (by decide))
      exact fits.leaves_iff asks single posts
    exact ⟨fun leaves => ⟨leaves.posts, (named leaves.posts).1 leaves⟩, fun ⟨posts, same⟩ => (named posts).2 same⟩
  · have named (posts : e.Posts Event.placingPaths) : e.Places path ↔ path = P.final := by
      obtain ⟨m, p, r, reply, fits, known, asks⟩ := asked (posts.pipelined (by decide))
      exact fits.places_iff asks known layout posts
    exact ⟨fun places => ⟨places.posts, (named places.posts).1 places⟩, fun ⟨posts, same⟩ => (named posts).2 same⟩

/-- a run from an empty status in which nobody changes what is wished for -/
structure Planned (P : Plan) (S : Scene) (start : Held) (past : List Invocation) (h : Held) : Prop where
  steady : S.Steady
  sound : start.Sound S
  empty : start.status = some {}
  wished : ∀ o, start.object = some o → P.Wished S (Stored.wishes o)
  layouts : ∀ i ∈ past, i.context.layout = P.layout
  run : Run S start past h

theorem Planned.goesBy (planned : Planned P S start past h) : P.Traced h ∧ ∀ e ∈ events past, GoesBy P e := by
  obtain ⟨o, object, -⟩ := Option.bind_eq_some_iff.1 planned.empty
  have wished := planned.wished o object
  have kept := planned.run.keeps_founded (P := fun c => c.layout = P.layout)
    (J := fun past h => (P.Traced h ∧ ∀ e ∈ events past, GoesBy P e) ∧ Wishing (Stored.wishes o) h .start)
    (I := fun past _ es st h => (P.Traced h ∧ ∀ e ∈ events past ++ es, GoesBy P e) ∧ Wishing (Stored.wishes o) h st)
    planned.sound (encoded_of_empty planned.empty)
    ⟨⟨Plan.traced_of_empty planned.empty, by simp [events]⟩,
      fun o' object' => by rw [Option.some.inj (object'.symm.trans object)], fun _ copy => by cases copy⟩
    (fun past c h _ kept => by rwa [List.append_nil]) ?step ?ends planned.layouts
  case step =>
    rintro past c es st h e st' layout ⟨⟨traced, goesBy⟩, wishing⟩ drift tracks founded encoded deed
    have wishing := wishing.drift planned.steady drift
    have traced := traced.drift drift
    have wanted : ∀ m, st.copy? = some m → P.Wanted m := by
      intro m copy
      refine Plan.Wished.wanted ?_ (tracks.copied m copy).copy
      rwa [wishing.copied m copy]
    have now := deed.goesBy tracks founded encoded wanted layout traced wished.single
    refine ⟨⟨now.after, ?_⟩, deed.wishes wishing⟩
    rw [← List.append_assoc]
    exact forall_snoc goesBy now
  case ends =>
    rintro past c es st h r _ ⟨kept, wishing⟩
    rw [events_snoc]
    exact ⟨kept, wishing.stored, fun _ copy => by cases copy⟩
  exact kept.1

def Seen (past : List Invocation) (h held : Held) : Prop :=
  held = h ∨ ∃ e ∈ events past, held = e.before ∨ held = e.after

theorem Planned.fits (planned : Planned P S start past h) {held : Held} (seen : Seen past h held) {p : Phase}
    (phase : held.phase? = some p) : P.Fits p := by
  obtain ⟨last, each⟩ := planned.goesBy
  rcases seen with rfl | ⟨e, mem, rfl | rfl⟩
  · exact last.fits phase
  · exact (each e mem).before.fits phase
  · exact (each e mem).after.fits phase

theorem Planned.single (planned : Planned P S start past h) : Path.Single P.image := by
  obtain ⟨o, object, -⟩ := Option.bind_eq_some_iff.1 planned.empty
  exact (planned.wished o object).single

/-- However the invocations of two machines with different names and the same directories are interleaved, what the one
extracts, copies or takes away is its own transfer output, and what it moves its image to or resizes is its own disk and
never that of the other. A path that it touches is the disk of the other only where its own transfer leaves an image
that is named like that disk; and it is a transfer output that the other needs only where the transfers leave images of
one name, or its own disk is named like that image. -/
theorem disks_apart (one : Planned P S start past h) (other : Planned P' S' start' past' h')
    (shared : P'.layout = P.layout) (single : Path.Single P.vm) (single' : Path.Single P'.vm) (apart : P.vm ≠ P'.vm) :
    P'.final ≠ P.final ∧ ∀ e ∈ events past',
      (∀ path, e.Leaves path ↔ e.Posts Event.leavingPaths ∧ path = P'.output) ∧
      (∀ path, e.Places path ↔ e.Posts Event.placingPaths ∧ path = P'.final) ∧
      ∀ path, e.Touches path →
        (path = P.final → path = P'.output ∧ path ≠ P'.final ∧ P'.transferred = P.disk) ∧
        ∀ held, Seen past h held → ∀ p, held.phase? = some p → p.needs? P.image = some path →
          path = P'.output ∧ P'.transferred = P.transferred ∨ path = P'.final ∧ P'.disk = P.transferred := by
  have disks : P'.final ≠ P.final := by
    rw [Plan.final_eq, Plan.final_eq, shared]
    intro same
    exact apart (Image.disk_inj (Path.join_inj (Image.single_disk single' _) (Image.single_disk single _) same)).symm
  refine ⟨disks, fun e mem => ?_⟩
  have goesBy := other.goesBy.2 e mem
  refine ⟨goesBy.leaves, goesBy.places, fun path touches => ⟨?_, ?_⟩⟩
  · rintro rfl
    have output := (goesBy.touches touches).resolve_right fun same => disks same.symm
    refine ⟨output, fun same => disks same.symm, ?_⟩
    rw [Plan.output_eq, Plan.final_eq, shared] at output
    exact (Path.join_inj (Image.single_disk single _) (Plan.single_transferred other.single) output).symm
  · intro held seen p phase needs
    have needed := (one.fits seen phase).needs needs
    refine (goesBy.touches touches).imp (fun output => ⟨output, ?_⟩) fun final => ⟨final, ?_⟩
    · rw [needed, Plan.output_eq, Plan.output_eq, shared] at output
      exact (Path.join_inj (Plan.single_transferred one.single) (Plan.single_transferred other.single) output).symm
    · rw [needed, Plan.output_eq, Plan.final_eq, shared] at final
      exact (Path.join_inj (Plan.single_transferred one.single) (Image.single_disk single' _) final).symm

/-- a second machine, whose image is named like the disk of the sample -/
def second : Value := .object [
  ("metadata", .object [("namespace", .string "default"), ("name", .string "second"), ("resourceVersion", .string "1"),
    ("finalizers", .array [Machine.finalizerValue])]),
  ("spec", .object [("imageURL", .string "http://images/worker.raw"), ("vcpus", .int 1), ("memoryMB", .int 1024),
    ("diskSizeGB", .int 10)])]

def secondPlan : Plan := ⟨"worker.raw", "second", ⟨"/downloads", "/disks"⟩⟩

def secondScene : Scene := { steadfast with name := "second" }

theorem planned_sample : ∃ past h, Planned placed steadfast Sample.held past h := by
  obtain ⟨past, h, run, seen⟩ := steadfast.exists_run Sample.held Sample.provisioning
    (fun r => decide (∀ i ∈ r.1, i.context.layout = placed.layout)) (by decide +kernel)
  refine ⟨past, h, fun _ _ same => same, Sample.sound _, by decide +kernel, ?_, of_decide_eq_true seen, run⟩
  intro o object
  obtain rfl := Option.some.inj object
  exact ⟨⟨"http://images/disk.raw", by decide +kernel, by rfl⟩, by decide +kernel⟩

/-- its copy lands on the disk of the sample -/
theorem planned_second : ∃ past h, Planned secondPlan secondScene ⟨some second, [.string "1"]⟩ past h ∧
    ∃ e ∈ events past, e.Touches placed.final := by
  have copies : placed.final = Image.copiedPath "/disks" (Path.baseName "/downloads/worker.raw") := by decide +kernel
  obtain ⟨past, h, run, seen⟩ := secondScene.exists_run ⟨some second, [.string "1"]⟩ ((Sample.imaging []).take 3)
    (fun r => decide (∀ i ∈ r.1, i.context.layout = secondPlan.layout) && (events r.1).any fun e =>
      decide (e.route? = some (.post, "/fs/cp/") ∧ e.field? "files" = some (.array [Event.wire "/downloads/worker.raw"]) ∧
        e.field? "dst" = some (Event.wire "/disks"))) (by decide +kernel)
  simp only [Bool.and_eq_true, decide_eq_true_eq, List.any_eq_true] at seen
  obtain ⟨layouts, e, mem, route, files, into⟩ := seen
  refine ⟨past, h, ⟨fun _ _ same => same, ?_, by decide +kernel, ?_, layouts, run⟩, e, mem, copies ▸ .inl (.copied route files into)⟩
  · exact Held.sound_single ⟨rfl, rfl, rfl, rfl, rfl⟩
  · intro o object
    obtain rfl := Option.some.inj object
    exact ⟨⟨"http://images/worker.raw", by decide +kernel, by rfl⟩, by decide +kernel⟩

/-- the copy of the one lands on the disk of the other, for its image is named so -/
theorem disks_apart_copying : ∃ past h past' h', Planned placed steadfast Sample.held past h ∧
    Planned secondPlan secondScene ⟨some second, [.string "1"]⟩ past' h' ∧
    ∃ e ∈ events past', e.Touches placed.final ∧ placed.final = secondPlan.output ∧ secondPlan.transferred = placed.disk := by
  obtain ⟨past, h, one⟩ := planned_sample
  obtain ⟨past', h', other, e, mem, touches⟩ := planned_second
  obtain ⟨-, -, touched⟩ := (disks_apart one other rfl (by decide) (by decide) (by decide)).2 e mem
  obtain ⟨output, -, named⟩ := (touched _ touches).1 rfl
  exact ⟨past, h, past', h', one, other, e, mem, touches, output, named⟩

/-- machines do touch each other's disks -/
theorem not_disks_apart : ¬∀ (P P' : Plan) (S S' : Scene) (start start' h h' : Held) (past past' : List Invocation),
    Planned P S start past h → Planned P' S' start' past' h' → P'.layout = P.layout → Path.Single P.vm →
    Path.Single P'.vm → P.vm ≠ P'.vm → P.image ≠ "" → P'.image ≠ "" → ∀ e ∈ events past', ∀ path, e.Touches path →
      path ≠ P.final ∧ ∀ held, Seen past h held → ∀ p, held.phase? = some p → p.needs? P.image ≠ some path := by
  intro separate
  obtain ⟨past, h, one⟩ := planned_sample
  obtain ⟨past', h', other, e, mem, touches⟩ := planned_second
  exact (separate _ _ _ _ _ _ _ _ _ _ one other rfl (by decide) (by decide) (by decide) (by decide) (by decide) e mem _
    touches).1 rfl

end Reconcile

end VmOperator
