import VmOperator.Proofs.Image.File
import VmOperator.Proofs.SharedStorage

/-! Where the files of the pipeline lie. As long as the image and the disk of a machine are named as files, every
file that the pipeline or an order names is an entry of the download directory or of the storage directory, whatever
others do to the object meanwhile (`files_contained`). Nothing checks these names: of an image URL that ends in a slash
the whole download directory is copied (`not_files_contained`). -/

namespace VmOperator

open VmOperator.Path (IsFile Inside IsDir Single)

namespace Image.Layout

structure Plain (L : Layout) : Prop where
  downloads : IsDir L.downloads
  storage : IsDir L.storage

open Event (wire) in
structure Contains (L : Layout) (e : Event) : Prop where
  extracted : e.route? = some (.post, "/fs/extract/") →
    ∃ src, e.field? "src" = some (wire src) ∧ Inside L.downloads src
  copied : e.route? = some (.post, "/fs/cp/") →
    ∃ src, e.field? "files" = some (.array [wire src]) ∧ Inside L.downloads src
  moved : e.route? = some (.post, "/fs/mv/") → ∃ src dst, e.field? "files" = some (.array [wire src]) ∧
    e.field? "dst" = some (wire dst) ∧ Inside L.storage src ∧ Inside L.storage dst
  grown : e.route? = some (.post, "/vm/disk/resize/") →
    ∃ path, e.field? "disk_path" = some (wire path) ∧ Inside L.storage path
  ordered : e.route? = some (.post, "/vm/") →
    ∃ path, e.field? "disk_path" = some (wire path) ∧ Inside L.storage path

end Image.Layout

open Image (Layout)

structure Stored.Tidy (name : String) (o : Value) : Prop where
  image : ∀ file, imageName? o = some file → IsFile file
  disk : ∀ file vm, imageName? o = some file → vmName name o = .string vm → IsFile (vm ++ Image.diskExtension file)

/-- others go on naming images and disks as files; an image that they put in another's place is named as one without
a compressed suffix, too -/
structure Scene.Tidies (S : Scene) : Prop where
  tidy : ∀ o o', S.allows o o' → Stored.Tidy S.name o → Stored.Tidy S.name o'
  stripped : ∀ o o', S.allows o o' → Stored.imageName? o' = Stored.imageName? o ∨
    ∀ file, Stored.imageName? o' = some file → IsFile (Image.stripCompression file)

namespace Phase

variable {L : Layout} {p next : Phase}

inductive Within (L : Layout) : Phase → Prop
  | notStarted : Within L .notStarted
  | downloading (task : Int) : Within L (.downloading task)
  | extracting {src : String} (source : Inside L.downloads src) (dst : Value) (task : Option Int) :
      Within L (.extracting (.string src) dst task)
  | copying {src : String} (source : Inside L.downloads src) (dst : Value) (task : Option Int) :
      Within L (.copying (.string src) dst task)
  | renaming {src dst : String} (source : Inside L.storage src) (target : Inside L.storage dst) (task : Option Int) :
      Within L (.renaming (.string src) (.string dst) task)
  | resizing (task : Option Int) : Within L (.resizing task)

theorem within_afterDownload (plain : L.Plain) {name : String} (file : IsFile name) (dst : Value) :
    (afterDownload name L.downloads dst).Within L := by
  have source : Inside L.downloads (Path.trimSlashes L.downloads ++ "/" ++ name) :=
    ⟨name, file, by rw [Path.trimSlashes_of_isDir plain.downloads]⟩
  unfold afterDownload
  dsimp only
  split
  · exact .extracting source dst none
  · exact .copying source dst none

theorem within_afterTransfer (plain : L.Plain) {name vm : String} (file : IsFile (p.transferred name))
    (disk : IsFile (vm ++ Image.diskExtension name)) : (p.afterTransfer name L.storage vm).Within L := by
  rcases p.afterTransfer_cases name L.storage vm with ⟨-, same⟩ | same <;> rw [same]
  · exact .resizing none
  · rw [transferOutput_eq]
    exact .renaming (Path.inside_join plain.storage file) (Path.inside_join plain.storage disk) none

theorem extracts_afterTransfer (name storage machine : String) :
    (p.afterTransfer name storage machine).extracts = false := by
  rcases p.afterTransfer_cases name storage machine with ⟨-, same⟩ | same <;> rw [same] <;> rfl

end Phase

namespace Appliance

variable {s : Settings} {r : Request} {src dst : String} {into mode : Value} {path : String}

theorem extract_content (written : (extractQuery s (.string src) into).request = .ok r) :
    ∃ fs : Fields, r.content = .json fs ∧ fs.get? "src" = some (Event.wire src) := by
  cases into with
  | string dst =>
    obtain rfl := Except.ok.inj written
    exact ⟨_, rfl, rfl⟩
  | _ => cases written

theorem transfer_content (operation : String)
    (written : (transferQuery s operation path [.string src] into mode).request = .ok r) :
    ∃ fs : Fields, r.content = .json fs ∧ fs.get? "files" = some (.array [Event.wire src]) ∧
      ∀ dst, into = .string dst → fs.get? "dst" = some (Event.wire dst) := by
  cases into with
  | string dst =>
    obtain rfl := Except.ok.inj written
    exact ⟨_, rfl, rfl, by rintro _ ⟨⟩; rfl⟩
  | _ => cases written

end Appliance

namespace ImagePipeline

variable {p : Phase}

theorem extracting_of_route (routed : route p = (.post, "/fs/extract/")) : ∃ src dst, p = .extracting src dst none := by
  rcases p with _ | task | ⟨src, dst, _ | task⟩ | ⟨src, dst, _ | task⟩ | ⟨src, dst, _ | task⟩ | _ | task <;>
    first | exact ⟨_, _, rfl⟩ | simp [route] at routed

theorem copying_of_route (routed : route p = (.post, "/fs/cp/")) : ∃ src dst, p = .copying src dst none := by
  rcases p with _ | task | ⟨src, dst, _ | task⟩ | ⟨src, dst, _ | task⟩ | ⟨src, dst, _ | task⟩ | _ | task <;>
    first | exact ⟨_, _, rfl⟩ | simp [route] at routed

theorem renaming_of_route (routed : route p = (.post, "/fs/mv/")) : ∃ src dst, p = .renaming src dst none := by
  rcases p with _ | task | ⟨src, dst, _ | task⟩ | ⟨src, dst, _ | task⟩ | ⟨src, dst, _ | task⟩ | _ | task <;>
    first | exact ⟨_, _, rfl⟩ | simp [route] at routed

end ImagePipeline

namespace Reconcile

variable {L : Layout} {S : Scene} {c : Context} {st st' : Stage} {e : Event} {es : List Event} {m : Machine} {o o' v x : Value}
  {start h h' : Held} {past : List Invocation} {p next : Phase} {name : Option String}

/-- the recorded phase names files, and so will the one after an extraction -/
structure Filed (L : Layout) (S : Scene) (o : Value) (p : Phase) : Prop where
  within : p.Within L
  stripped : p.extracts = true → ∀ file, Stored.imageName? o = some file → IsFile (Image.stripCompression file)

structure Orderly (L : Layout) (S : Scene) (o : Value) : Prop where
  tidy : Stored.Tidy S.name o
  filed : ∀ s, Stored.status o = .ok s → ∃ p : Phase, s.progress = .object p.encode ∧ Filed L S o p

theorem Filed.congr (filed : Filed L S o p) (same : Stored.wishes o' = Stored.wishes o) : Filed L S o' p := by
  refine ⟨filed.within, fun extracts file named => filed.stripped extracts file ?_⟩
  rwa [← Stored.imageName?_congr same]

theorem tidy_congr (tidy : Stored.Tidy S.name o) (same : Stored.wishes o' = Stored.wishes o) : Stored.Tidy S.name o' := by
  constructor
  · rw [Stored.imageName?_congr same]
    exact tidy.image
  · rw [Stored.imageName?_congr same, Stored.vmName_congr same]
    exact tidy.disk

theorem Orderly.edited (tidies : S.Tidies) (edit : S.Edits o o') (orderly : Orderly L S o) : Orderly L S o' := by
  refine ⟨tidies.tidy o o' edit.allowed orderly.tidy, fun s status => ?_⟩
  rw [Stored.status_congr edit.status] at status
  obtain ⟨p, written, filed⟩ := orderly.filed s status
  refine ⟨p, written, filed.within, fun extracts file named => ?_⟩
  rcases tidies.stripped o o' edit.allowed with same | stripped
  · exact filed.stripped extracts file (same ▸ named)
  · exact stripped file named

/-- the phase that is entered names files where the one before did -/
theorem Filed.enters (filed : Filed L S o p) (plain : L.Plain) (tidy : Stored.Tidy S.name o) (copy : m.CopyOf S o)
    (layout : c.layout = L) (named : ImagePipeline.imageName? m = .ok name)
    (enters : ImagePipeline.Enters c m name p next) : Filed L S o next := by
  have wanted := copy.imageName? named
  cases enters with
  | download task => exact ⟨.downloading task, nofun⟩
  | downloaded =>
    subst layout
    cases name with
    | none => exact ⟨Phase.within_afterDownload plain (by decide) _, fun _ _ named => by cases wanted.symm.trans named⟩
    | some name =>
      have file := tidy.image name wanted
      refine ⟨Phase.within_afterDownload plain file _, fun extracts file' named => ?_⟩
      obtain rfl := Option.some.inj (wanted.symm.trans named)
      exact Image.isFile_stripCompression file.1 (Phase.compressed_of_afterDownload extracts)
  | extract src dst task =>
    refine ⟨?_, fun _ => filed.stripped rfl⟩
    cases filed.within with
    | extracting source => exact .extracting source dst _
  | copy src dst task =>
    refine ⟨?_, nofun⟩
    cases filed.within with
    | copying source => exact .copying source dst _
  | move src dst task =>
    refine ⟨?_, nofun⟩
    cases filed.within
    exact .renaming (by assumption) (by assumption) _
  | renamed | resize => exact ⟨.resizing _, nofun⟩
  | transferred moved after =>
    -- the recorded paths are not looked at: the next ones come from the image and the name that are wished for now
    subst layout
    cases name with
    | none => cases after
    | some name =>
      obtain ⟨_, same, after⟩ := bind_eq_ok.1 after
      cases same
      obtain ⟨vm, text, after⟩ := bind_eq_ok.1 after
      cases after
      have disk := tidy.disk name vm wanted (copy.vmName.symm.trans (Value.eq_string_of_toText text))
      refine ⟨Phase.within_afterTransfer plain ?_ disk, fun extracts => ?_⟩
      · unfold Phase.transferred
        split
        · exact filed.stripped (by assumption) name wanted
        · exact tidy.image name wanted
      · rw [Phase.extracts_afterTransfer] at extracts
        cases extracts

/-- what the copy in hand records is the phase that the pipeline goes on from -/
theorem Orderly.of_asks {r : Appliance.Request} {reply : Appliance.Reply} (orderly : Orderly L S (.object m.stored))
    (copy : m.CopyOf S (.object m.stored)) (asks : Asks c m name p e r reply) : Filed L S (.object m.stored) p := by
  obtain ⟨p', written, filed⟩ := orderly.filed m.status copy.status
  have decoded := asks.decoded
  rw [written] at decoded
  rwa [Phase.eq_of_decode_encode decoded]

theorem Deed.orderly (deed : Deed S c st e st') (plain : L.Plain) (layout : c.layout = L)
    (founded : Founded c es e.before st) (keeping : Keeping (Orderly L S) e.before st) :
    Keeping (Orderly L S) e.after st' := by
  refine deed.keeping keeping (fun change kept refused m x v table copy copied written orderly => ?_)
    fun change kept refused m x v table copied written orderly => ?_
  · have same := wishes_restated v x (.object m.stored)
    refine ⟨tidy_congr orderly.tidy same, fun s status => ?_⟩
    obtain rfl := Except.ok.inj ((status_restated table copied written).symm.trans status)
    rcases table.progress copy with kept | ⟨next, message, outcome, rfl, entered⟩
    · obtain ⟨p, progress, filed⟩ := orderly.filed m.status copied.copy.status
      exact ⟨p, progress_rendered (kept.trans progress), filed.congr same⟩
    · obtain ⟨-, name, p, r, reply, ⟨_, -, asks⟩, read⟩ := founded
      have filed := (orderly.of_asks copied.copy asks).enters plain orderly.tidy copied.copy layout asks.named
        (ImagePipeline.query_enters read)
      exact ⟨next, progress_rendered entered, filed.congr same⟩
  · have same := wishes_replaced (v := v) table copied written
    refine ⟨tidy_congr orderly.tidy same, fun s status => ?_⟩
    rw [status_replaced] at status
    obtain ⟨p, progress, filed⟩ := orderly.filed s status
    exact ⟨p, progress, filed.congr same⟩

theorem inside_finalPath (plain : L.Plain) (tidy : Stored.Tidy S.name o) (copy : m.CopyOf S o) (layout : c.layout = L)
    {path : String} (final : ImagePipeline.finalPath c m = .ok path) : Inside L.storage path := by
  subst layout
  obtain ⟨name, named, final⟩ := bind_eq_ok.1 final
  obtain ⟨file, found, final⟩ := bind_eq_ok.1 final
  obtain ⟨vm, text, final⟩ := bind_eq_ok.1 final
  cases final
  cases name with
  | none => cases found
  | some name =>
    cases found
    exact Path.inside_join plain.storage
      (tidy.disk _ vm (copy.imageName? named) (copy.vmName.symm.trans (Value.eq_string_of_toText text)))

theorem Deed.contains (deed : Deed S c st e st') (plain : L.Plain) (layout : c.layout = L) (tracks : Tracks S e.before st)
    (founded : Founded c es e.before st) (keeping : Keeping (Orderly L S) e.before st) : L.Contains e := by
  have filed {m : Machine} {name : Option String} {p : Phase} {r : Appliance.Request} {reply : Appliance.Reply}
      (stage : st = .imaging m) (asks : Asks c m name p e r reply) : p.Within L := by
    have copy : st.copy? = some m := by rw [stage]; rfl
    exact ((keeping.copied m copy).of_asks (tracks.copied m copy).copy asks).within
  -- the route of a request tells the phase that it was made for, and that phase is recorded in the copy in hand
  constructor
  case extracted =>
    intro route
    obtain ⟨m, name, p, r, reply, stage, -, asks, -⟩ := deed.pipelined tracks founded ⟨.extracting .null .null none, route⟩
    obtain ⟨src, dst, rfl⟩ := ImagePipeline.extracting_of_route (Option.some.inj (asks.route.symm.trans route))
    cases filed stage asks with
    | extracting source =>
      obtain ⟨fs, content, sent⟩ := Appliance.extract_content (s := c.settings) asks.written
      exact ⟨_, (Event.field?_of_content asks.said content _).trans sent, source⟩
  case copied =>
    intro route
    obtain ⟨m, name, p, r, reply, stage, -, asks, -⟩ := deed.pipelined tracks founded ⟨.copying .null .null none, route⟩
    obtain ⟨src, dst, rfl⟩ := ImagePipeline.copying_of_route (Option.some.inj (asks.route.symm.trans route))
    cases filed stage asks with
    | copying source =>
      obtain ⟨fs, content, sent, -⟩ := Appliance.transfer_content "copy files" (s := c.settings) asks.written
      exact ⟨_, (Event.field?_of_content asks.said content _).trans sent, source⟩
  case moved =>
    intro route
    obtain ⟨m, name, p, r, reply, stage, -, asks, -⟩ := deed.pipelined tracks founded ⟨.renaming .null .null none, route⟩
    obtain ⟨src, dst, rfl⟩ := ImagePipeline.renaming_of_route (Option.some.inj (asks.route.symm.trans route))
    generalize shape : Phase.renaming src dst none = p at asks
    cases filed stage asks <;> cases shape
    obtain ⟨fs, content, sent, into⟩ := Appliance.transfer_content "move files" (s := c.settings) asks.written
    exact ⟨_, _, (Event.field?_of_content asks.said content _).trans sent,
      (Event.field?_of_content asks.said content _).trans (into _ rfl), by assumption, by assumption⟩
  case grown =>
    intro route
    obtain ⟨m, name, p, r, reply, rfl, -, asks, -⟩ := deed.pipelined tracks founded ⟨.resizing none, route⟩
    obtain rfl := ImagePipeline.resizing_of_route (Option.some.inj (asks.route.symm.trans route))
    obtain ⟨path, final, -⟩ := bind_eq_ok.1 (show (ImagePipeline.growQuery c m).request = .ok r from asks.written)
    obtain ⟨fs, content, sent⟩ := ImagePipeline.growQuery_content final asks.written
    have copy := (tracks.copied m rfl).copy
    exact ⟨path, (Event.field?_of_content asks.said content _).trans sent,
      inside_finalPath plain (keeping.copied m rfl).tidy copy layout final⟩
  case ordered =>
    intro route
    obtain ⟨m, path, text, r, reply, rfl, orders, -⟩ := deed.ordering (decide_eq_true route)
    obtain ⟨fs, content, sent⟩ := ImagePipeline.order_content orders.written
    have copy := (tracks.copied m rfl).copy
    exact ⟨path, (Event.field?_of_content orders.said content _).trans sent,
      inside_finalPath plain (keeping.copied m rfl).tidy copy layout orders.final⟩

/-- from an empty status, whatever the appliance and the store answer and whatever others change, as long as the
image and the disk are named as files: every file that a request names is an entry of the download directory or of the
storage directory, and so is every file that is recorded -/
theorem files_contained (plain : L.Plain) (tidies : S.Tidies) (sound : start.Sound S) (empty : start.status = some {})
    (tidy : ∀ o, start.object = some o → Stored.Tidy S.name o) (run : Run S start past h)
    (layouts : ∀ i ∈ past, i.context.layout = L) :
    (∀ e ∈ events past, L.Contains e) ∧ ∀ p, h.phase? = some p → p.Within L := by
  have first : ∀ o, start.object = some o → Orderly L S o := by
    intro o object
    refine ⟨tidy o object, fun s status => ?_⟩
    have stored : start.status = some s := by
      rw [Held.status, object, Option.bind_some, status]
      rfl
    obtain rfl := Option.some.inj (stored.symm.trans empty)
    exact ⟨.notStarted, rfl, .notStarted, fun extracts => by cases extracts⟩
  -- by induction on the run: what is stored and what is in hand stay orderly, whoever writes
  have kept := run.keeps_founded (P := fun c => c.layout = L)
    (J := fun past h => Keeping (Orderly L S) h .start ∧ ∀ e ∈ events past, L.Contains e)
    (I := fun past _ es st h => Keeping (Orderly L S) h st ∧ ∀ e ∈ events past ++ es, L.Contains e) sound
    (encoded_of_empty empty) ⟨⟨first, fun m copy => by cases copy⟩, by simp [events]⟩
    (fun past c h _ kept => by rwa [List.append_nil]) ?step ?ends layouts
  case step =>
    rintro past c es st h e st' layout ⟨keeping, contained⟩ drift tracks founded encoded deed
    have keeping := keeping.drift (fun o o' edit => Orderly.edited tidies edit) drift
    refine ⟨deed.orderly plain layout founded keeping, ?_⟩
    rw [← List.append_assoc]
    exact forall_snoc contained (deed.contains plain layout tracks founded keeping)
  case ends =>
    rintro past c es st h r _ ⟨keeping, contained⟩
    rw [events_snoc]
    exact ⟨⟨keeping.stored, fun m copy => by cases copy⟩, contained⟩
  refine ⟨kept.2, fun p phase => ?_⟩
  obtain ⟨s, status, decoded⟩ := Option.bind_eq_some_iff.1 phase
  obtain ⟨o, object, read⟩ := Option.bind_eq_some_iff.1 status
  obtain ⟨p', written, filed⟩ := (kept.1.stored o object).filed s (ok_of_toOption read)
  rw [written] at decoded
  rw [Phase.eq_of_decode_encode (ok_of_toOption decoded)]
  exact filed.within

theorem tidies_of_steady (steady : S.Steady) : S.Tidies where
  tidy o o' allowed tidy := tidy_congr tidy (steady o o' allowed)
  stripped o o' allowed := .inl (Stored.imageName?_congr (steady o o' allowed))

/-- a whole run of the sample, with two orders -/
theorem files_contained_provisioning : placed.layout.Plain ∧ steadfast.Tidies ∧ Stored.Tidy "worker" Sample.object ∧
    ∃ past h, Run steadfast Sample.held past h ∧ (events past).countP Event.orders = 2 ∧
      (∀ e ∈ events past, placed.layout.Contains e) ∧ ∀ p, h.phase? = some p → p.Within placed.layout := by
  have plain : placed.layout.Plain := ⟨by decide, by decide⟩
  have tidies : steadfast.Tidies := tidies_of_steady fun _ _ same => same
  have tidy : Stored.Tidy "worker" Sample.object := by
    have image : Stored.imageName? Sample.object = some "disk.raw" := by decide +kernel
    have name : Stored.vmName "worker" Sample.object = .string "worker" := by decide +kernel
    constructor
    · intro file named
      obtain rfl := Option.some.inj (image.symm.trans named)
      decide
    · intro file vm named machine
      obtain rfl := Option.some.inj (image.symm.trans named)
      obtain rfl := Value.string.inj (name.symm.trans machine)
      decide
  refine ⟨plain, tidies, tidy, ?_⟩
  obtain ⟨past, h, run, seen⟩ := steadfast.exists_run Sample.held Sample.provisioning
    (fun r => decide ((events r.1).countP Event.orders = 2 ∧ ∀ i ∈ r.1, i.context.layout = placed.layout))
    (by decide +kernel)
  obtain ⟨orders, layouts⟩ := of_decide_eq_true seen
  refine ⟨past, h, run, orders, ?_⟩
  exact files_contained plain tidies (Sample.sound _) (by decide +kernel)
    (fun o object => by obtain rfl := Option.some.inj object; exact tidy) run layouts

def wanting (url name : String) : Value := .object [
  ("metadata", .object [("namespace", .string "default"), ("name", .string "worker"), ("resourceVersion", .string "1"),
    ("finalizers", .array [Machine.finalizerValue])]),
  ("spec", .object [("imageURL", .string url), ("name", .string name), ("vcpus", .int 1), ("memoryMB", .int 1024),
    ("diskSizeGB", .int 10)])]

/-- of an image that is named by nothing, the whole download directory is copied -/
theorem not_files_contained : ¬∀ (L : Layout) (S : Scene) (start h : Held) (past : List Invocation), L.Plain → S.Steady →
    start.Sound S → start.status = some {} → (∀ o, start.object = some o → ∃ url name vm, url ≠ "" ∧
      Stored.wish o "imageURL" = some (.string url) ∧ Image.nameOfUrl url = .ok name ∧
      Stored.vmName S.name o = .string vm) →
    Run S start past h → (∀ i ∈ past, i.context.layout = L) → ∀ e ∈ events past, L.Contains e := by
  intro contained
  obtain ⟨past, h, run, seen⟩ := steadfast.exists_run ⟨some (wanting "http://images/" "worker"), [.string "1"]⟩
    ((Sample.imaging []).take 3)
    (fun r => decide (∀ i ∈ r.1, i.context.layout = placed.layout) && (events r.1).any fun e =>
      decide (e.route? = some (.post, "/fs/cp/") ∧
        e.field? "files" = some (.array [Event.wire ("/downloads" ++ "/" ++ "")]))) (by decide +kernel)
  simp only [Bool.and_eq_true, decide_eq_true_eq, List.any_eq_true] at seen
  obtain ⟨layouts, e, mem, route, files⟩ := seen
  have inside := contained placed.layout steadfast _ h past ⟨by decide, by decide⟩ (fun _ _ same => same)
    (Held.sound_single ⟨rfl, rfl, rfl, rfl, rfl⟩) (by decide +kernel) (fun o object => ?_) run layouts e mem
  · obtain ⟨src, sent, inside⟩ := inside.copied route
    obtain rfl := Event.wires_inj (sent.symm.trans files)
    exact absurd (Path.isFile_of_inside "/downloads" inside) (by decide)
  · obtain rfl := Option.some.inj object
    exact ⟨"http://images/", "", "worker", by decide, by decide +kernel, by rfl, by decide +kernel⟩

end Reconcile

end VmOperator
