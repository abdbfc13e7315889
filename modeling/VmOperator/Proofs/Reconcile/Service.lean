import VmOperator.Proofs.DiskPath
import VmOperator.Proofs.Store.Service
import VmOperator.Proofs.VmIdentity

/-! The steps of an invocation where all goes well: every phase that goes by a plan has its request, and its reply
is a verdict that waits just as long as the appliance asks for it (`query_granted`). -/

namespace VmOperator

namespace ImagePipeline

variable {c : Context} {m : Machine} {name : Option String}

/-- a verdict on a granted reply; it waits where the reply asks for that -/
inductive Verdict.Granted : Verdict → Bool → Prop
  | wait : Granted .wait true
  | enter (next : Phase) (message : String) (after : Number) : Granted (.enter next message (.requeue after)) false
  | finish : Granted .finish false

theorem judgeDownload_granted {polled : Appliance.DownloadTask} (sound : polled.isError = false) :
    (judgeDownload c name polled).Granted !polled.isDone := by
  unfold judgeDownload
  rw [sound]
  cases polled.isDone with
  | true => exact .enter ..
  | false => exact .wait

theorem judgeFiles_granted {step reason message : String} {after : Except Failure Phase} {next : Phase}
    {polled : Appliance.FileTask} (known : after = .ok next) (sound : polled.isError = false) :
    ∃ verdict, judgeFiles c step reason message after polled = .ok verdict ∧ verdict.Granted !polled.isDone := by
  unfold judgeFiles
  rw [sound, known]
  cases polled.isDone with
  | true => exact ⟨_, rfl, .enter ..⟩
  | false => exact ⟨_, rfl, .wait⟩

theorem judgeResize_granted {polled : Appliance.DiskTask} (sound : (polled.done && polled.error) = false) :
    (judgeResize polled).Granted !polled.done := by
  unfold judgeResize
  cases done : polled.done with
  | false => exact .wait
  | true =>
    rw [done, Bool.true_and] at sound
    rw [sound]
    exact .finish

def topic : Phase → Appliance.Matter
  | .notStarted => .download
  | .downloading _ => .downloading
  | .extracting _ _ none | .copying _ _ none | .renaming _ _ none => .files
  | .extracting _ _ (some _) | .copying _ _ (some _) | .renaming _ _ (some _) => .moving
  | .resizing none => .resize
  | .resizing (some _) => .resizing

theorem matter_route (p : Phase) : Appliance.matter (route p).1 (route p).2 = topic p := by
  rcases p with _ | task | ⟨src, dst, _ | task⟩ | ⟨src, dst, _ | task⟩ | ⟨src, dst, _ | task⟩ | _ | task
  case downloading => exact Appliance.matter_downloading _
  case extracting.some | copying.some | renaming.some => exact Appliance.matter_moving _
  case resizing.some => exact Appliance.matter_resizing _
  all_goals rfl

variable {P : Plan} {p : Phase} {r : Appliance.Request} {reply : Appliance.Reply} {v : Value} {mac : String}

theorem matter_query (written : (query c m name p).request = .ok r) : Appliance.matter r.method r.path = topic p := by
  rw [← matter_route, ← query_route c m written]

theorem query_written (fits : P.Fits p) (wanted : P.Wanted m) (layout : c.layout = P.layout) :
    ∃ r, (query c m (some P.image) p).request = .ok r := by
  rcases p with _ | task | ⟨src, dst, _ | task⟩ | ⟨src, dst, _ | task⟩ | ⟨src, dst, _ | task⟩ | _ | task
  case notStarted =>
    obtain ⟨url, asked, -⟩ := wanted.image
    unfold query
    rw [asked]
    exact ⟨_, rfl⟩
  case resizing.none =>
    show ∃ r, (growQuery c m).request = .ok r
    rw [growQuery, wanted.finalPath layout]
    exact ⟨_, rfl⟩
  all_goals
    cases fits
    exact ⟨_, rfl⟩

theorem read_of_result {α β : Type} {operation : String} {method : Appliance.Method} {path : String}
    {content : Except Failure Appliance.Content} {read : Value → Except Failure α} {f : α → Except Failure β}
    {a : α} {b : β}
    (result : Appliance.resultOf reply = some v) (found : read v = .ok a) (next : f a = .ok b) :
    ((Appliance.query c.settings operation method path content read).andThen f).read reply = .ok b :=
  bind_eq_ok.2 ⟨a, (Appliance.query_read c.settings).2 ⟨v, result, found⟩, next⟩

/-- a poll of files that goes on to `next` -/
theorem pollFiles_granted {task : Int} {step reason message : String} {after : Except Failure Phase} {next : Phase}
    (known : after = .ok next) (result : Appliance.resultOf reply = some v)
    (grants : Appliance.Matter.moving.grants mac v = true) :
    ∃ verdict,
      ((Appliance.filePoll c.settings (.int task)).andThen (judgeFiles c step reason message after)).read reply =
        .ok verdict ∧ verdict.Granted (Appliance.Matter.moving.pends mac v) := by
  obtain ⟨polled, read, sound⟩ := exists_of_any grants
  obtain ⟨verdict, judged, granted⟩ := judgeFiles_granted (c := c) known (Bool.not_eq_true' _ ▸ sound)
  refine ⟨verdict, read_of_result result read judged, ?_⟩
  rwa [Appliance.Matter.pends, read]

theorem query_granted (fits : P.Fits p) (wanted : P.Wanted m) (layout : c.layout = P.layout)
    (result : Appliance.resultOf reply = some v) (grants : (topic p).grants mac v = true) :
    ∃ verdict, (query c m (some P.image) p).read reply = .ok verdict ∧ verdict.Granted ((topic p).pends mac v) := by
  have transferred := wanted.afterTransfer (p := p) layout
  rcases p with _ | task | ⟨src, dst, _ | task⟩ | ⟨src, dst, _ | task⟩ | ⟨src, dst, _ | task⟩ | _ | task
  case notStarted | extracting.none | copying.none | renaming.none =>
    obtain ⟨task, read⟩ := exists_of_isOk grants
    exact ⟨_, read_of_result result read rfl, .enter ..⟩
  case resizing.none =>
    obtain ⟨task, read⟩ := exists_of_isOk grants
    have found : (Appliance.resizeQuery c.settings .null (.int m.diskSizeBytes) (.bool false)).read reply = .ok task :=
      (Appliance.query_read c.settings).2 ⟨v, result, read⟩
    exact ⟨_, bind_eq_ok.2 ⟨task, found, rfl⟩, .enter ..⟩
  case extracting.some | copying.some => exact pollFiles_granted transferred result grants
  case renaming.some => exact pollFiles_granted rfl result grants
  case downloading =>
    obtain ⟨polled, read, sound⟩ := exists_of_any grants
    obtain ⟨polled', read', same⟩ := Appliance.DownloadTask.ofResult_task read task
    refine ⟨_, read_of_result result read' rfl, ?_⟩
    have pends : (topic (.downloading task)).pends mac v = !polled'.isDone := by
      rw [topic, Appliance.Matter.pends, read, Appliance.DownloadTask.isDone, same]
      rfl
    rw [pends]
    refine judgeDownload_granted ?_
    rw [Appliance.DownloadTask.isError, same]
    exact Bool.not_eq_true' _ ▸ sound
  case resizing.some =>
    obtain ⟨polled, read, sound⟩ := exists_of_any grants
    obtain ⟨polled', read', done, error⟩ := Appliance.DiskTask.ofResult_task read task
    refine ⟨_, read_of_result result read' rfl, ?_⟩
    have pends : (topic (.resizing (some task))).pends mac v = !polled'.done := by
      rw [topic, Appliance.Matter.pends, read, done]
      rfl
    rw [pends]
    refine judgeResize_granted ?_
    rw [done, error]
    exact Bool.not_eq_true' _ ▸ sound

end ImagePipeline

namespace Event

def Lists (mac : String) (addresses : List Value) (e : Event) : Prop :=
  ∃ r reply v, e.said = .sent r reply ∧ Appliance.matter r.method r.path = .listing ∧
    Appliance.resultOf reply = some v ∧
    Appliance.addressesFor mac v = .ok addresses

end Event

section Rules

open World

variable {S : Scene} {c : Context} {mac : String} {h : Held} {m : Machine}

namespace Store

theorem bootstrapEntry_congr {secret other : String} {data entry : Value}
    (found : bootstrapEntry secret data = .ok entry) :
    bootstrapEntry other data = .ok entry := by
  unfold bootstrapEntry at found ⊢
  split at found
  · cases value : Fields.get? _ "value" with
    | none => rw [value] at found; cases found
    | some v => rw [value] at found; exact found
  · cases found
  · cases found
  · cases found

theorem getOwner_succeeds {Q : List Event → Option Value → Held → Prop} (quiet : S.Quiet)
    (owned : ∃ name, m.ownerName = .ok name ∧ name ≠ .null)
    (hQ : ∀ es owner secret, Tally mac es [] 0 → bootstrapSecret owner = .ok secret → secret ≠ .null →
      Q es (some owner) h) :
    (S.serving mac).Succeeds h (getOwner c.settings m) Q := by
  obtain ⟨name, named, set⟩ := owned
  unfold getOwner
  refine .bind (.lift named ?_)
  rw [if_neg set]
  refine .bind (fetch_succeeds quiet fun e owner said grants => .pure ?_)
  obtain ⟨secret, read, there⟩ := exists_of_any grants
  have known : owner ≠ .null := by
    rintro rfl
    cases read
  have kept : (some owner).filter (· ≠ .null) = some owner := Option.filter_some_pos (decide_eq_true known)
  rw [kept]
  exact hQ _ owner secret ((Tally.called said).append .nil) read (of_decide_eq_true there)

theorem getBootstrapData_succeeds {ns name : Value} {Q : List Event → Option (List UInt8) → Held → Prop}
    (quiet : S.Quiet)
    (hQ : ∀ es bytes text, Tally mac es [] 0 → Utf8.decode bytes = .ok text → Q es (some bytes) h) :
    (S.serving mac).Succeeds h (getBootstrapData ns name) Q := by
  unfold getBootstrapData
  refine .bind (fetch_succeeds quiet fun e secret said grants => ?_)
  obtain ⟨text, read⟩ := exists_of_isOk grants
  obtain ⟨data, there, read⟩ := bind_eq_ok.1 read
  obtain ⟨entry, found, read⟩ := bind_eq_ok.1 read
  obtain ⟨bytes, decoded, read⟩ := bind_eq_ok.1 read
  refine .bind (.lift there (.bind (.lift (bootstrapEntry_congr found) (.bind (.lift decoded (.pure ?_))))))
  cases utf8 : Utf8.decode bytes with
  | error p => rw [utf8] at read; cases read
  | ok text => exact hQ _ bytes text (.called said) utf8

end Store

namespace Appliance

/-- where nothing is submitted to -/
theorem start_not_submission (id : Int) : vmPath (.int id) ++ "/start" ∉ ImagePipeline.submissionPaths ++ ["/vm/"] := by
  intro mem
  rcases List.mem_append.1 mem with submission | order
  · exact command_ne_submission (.int id) (.inl rfl) submission rfl
  · exact vmPath_append_ne (.int id) (by decide) (List.mem_singleton.1 order)

theorem startVm_succeeds {id : Int} {Q : List Event → Unit → Held → Prop} (quiet : S.Quiet)
    (hQ : ∀ es, Tally mac es [] 0 → Q es () h) : (S.serving mac).Succeeds h (startVm c.settings (.int id)) Q := by
  rw [startVm_eq]
  refine Query.ask_succeeds quiet rfl fun e reply v said result _ pends => ?_
  refine ⟨(), (query_read c.settings).2 ⟨v, result, rfl⟩, hQ _ ?_⟩
  have tally : Tally mac [e] [] (e.pends mac).toNat := .send said (.inr (start_not_submission id))
  rwa [pends, matter_start] at tally

theorem getVm_succeeds {id : Int} {Q : List Event → KnownVm → Held → Prop} (quiet : S.Quiet)
    (hQ : ∀ es known, Tally mac es [] 0 → known.vm.mac = .string mac → Q es known h) :
    (S.serving mac).Succeeds h (getVm c.settings (.int id)) Q := by
  rw [getVm_eq]
  refine Query.ask_succeeds quiet rfl fun e reply v said result grants pends => ?_
  rw [matter_looking] at grants pends
  obtain ⟨known, read, seen⟩ := exists_of_any grants
  refine ⟨known, (query_read c.settings).2 ⟨v, result, read⟩, hQ _ known ?_ (of_decide_eq_true seen)⟩
  have tally : Tally mac [e] [] (e.pends mac).toNat := .send said (.inl rfl)
  rwa [pends] at tally

theorem createVm_succeeds {path text : String} {Q : List Event → KnownVm → Held → Prop} (quiet : S.Quiet)
    (hQ : ∀ es known, Tally mac es ["/vm/"] 0 → (∃ e ∈ es, e.created? = some known.number) →
      (known.vm.mac.isTruthy = true → known.vm.mac = .string mac) → Q es known h) :
    (S.serving mac).Succeeds h (createVm c.settings (Boot.order m path text)) Q := by
  rw [createVm_eq]
  refine Query.ask_succeeds quiet rfl fun e reply v said result grants pends => ?_
  obtain ⟨known, found, seen⟩ := exists_of_any grants
  refine ⟨known, (query_read c.settings).2 ⟨v, result, found⟩,
    hQ _ known ?_ ⟨e, List.mem_singleton.2 rfl, ?_⟩ fun set => ?_⟩
  · have tally : Tally mac [e] ["/vm/"] (e.pends mac).toNat :=
      .submit said rfl (List.mem_append_right _ (List.mem_singleton.2 rfl))
    rwa [pends] at tally
  · rw [Event.created?, said]
    refine (if_pos ⟨rfl, rfl⟩).trans ?_
    rw [numberIn, result, Option.bind_some, found]
    rfl
  · rw [set] at seen
    exact of_decide_eq_true seen

end Appliance

namespace Boot

theorem userData_succeeds {Q : List Event → Option String → Held → Prop} (quiet : S.Quiet)
    (owned : ∃ name, m.ownerName = .ok name ∧ name ≠ .null) (hQ : ∀ es text, Tally mac es [] 0 → Q es (some text) h) :
    (S.serving mac).Succeeds h (userData c m) Q := by
  unfold userData
  refine .bind (Store.getOwner_succeeds quiet owned fun es owner secret tally read set => ?_)
  refine .bind (.lift read ?_)
  rw [if_neg set]
  refine .bind (Store.getBootstrapData_succeeds quiet fun es' bytes text tally' utf8 => ?_)
  dsimp only
  rw [utf8]
  refine .pure ?_
  rw [List.nil_append, List.append_nil]
  exact hQ _ text (tally.append tally')

def lastingId (m : Machine) (number : Int) : Value := m.spec.providerId.orElse (.string (providerId (.int number)))

theorem ensureProviderId_succeeds {number : Int} {Q : List Event → Machine → Held → Prop} (quiet : S.Quiet)
    (inHand : InHand S h m) (kept : m.isBeingDeleted = false) (asked : m.spec.imageUrl.isTruthy = true)
    (known : m.status.vmId = some number)
    (hQ : ∀ es saved h', Tally mac es [] 0 → (m.amended m.finalizers (lastingId m number)).Stamps saved →
      InHand S h' saved →
      Q es saved h') : (S.serving mac).Succeeds h (ensureProviderId m) Q := by
  unfold ensureProviderId
  rw [known]
  cases set : m.spec.providerId.isTruthy with
  | true =>
    have same : lastingId m number = m.spec.providerId := Value.orElse_eq_self set
    refine .pure (hQ [] m h .nil ?_ inHand)
    rw [same]
    exact .mk m.resourceVersion m.stored
  | false =>
    have given : lastingId m number = .string (providerId (.int number)) := Value.orElse_of_unset set
    rw [given] at hQ
    have named : (Value.string (providerId (.int number))).isTruthy = true := by simp [Value.isTruthy, providerId]
    refine .bind (Checkout.save_succeeds .whole ?_)
    refine Checkout.amend_succeeds quiet inHand kept asked (.inr named)
      fun e c reply saved h' said stamps inHand' => .pure ?_
    exact hQ _ saved h' ((Tally.called said).append .nil) stamps inHand'

end Boot

namespace Discovery

open Appliance

theorem current_succeeds {id : Int} {known : Option Vm} {Q : List Event → Vm → Held → Prop} (quiet : S.Quiet)
    (seen : ∀ vm, known = some vm → vm.mac.isTruthy = true → vm.mac = .string mac)
    (hQ : ∀ es vm, Tally mac es [] 0 → vm.mac = .string mac → Q es vm h) :
    (S.serving mac).Succeeds h (current c id known) Q := by
  have anew : (S.serving mac).Succeeds h (do return (← getVm c.settings (.int id)).vm) Q := by
    refine .bind (getVm_succeeds quiet fun es known tally same => .pure ?_)
    rw [List.append_nil]
    exact hQ es known.vm tally same
  cases known with
  | none => exact anew
  | some vm =>
    unfold current
    dsimp only
    split
    · rename_i set
      exact .pure (hQ [] vm .nil (seen vm rfl set))
    · exact anew

theorem tryAddresses_succeeds {Q : List Event → Option (List Value) → Held → Prop} (quiet : S.Quiet)
    (hQ : ∀ e addresses, Tally mac [e] [] addresses.isEmpty.toNat → e.Lists mac addresses → Q [e] (some addresses) h) :
    (S.serving mac).Succeeds h (tryAddresses c.settings (.string mac)) Q := by
  unfold tryAddresses findAddresses
  refine .tryCatch (.map (.bind (.lift rfl (.bind ?_))))
  rw [lanHosts_eq]
  refine Query.ask_succeeds quiet rfl fun e reply v said result grants pends => ?_
  rw [matter_listing] at grants pends
  obtain ⟨addresses, listed⟩ := exists_of_isOk grants
  obtain ⟨items, there, rest⟩ := bind_eq_ok.1 listed
  obtain ⟨hosts, read, found⟩ := bind_eq_ok.1 rest
  refine ⟨hosts, (query_read c.settings).2 ⟨v, result, bind_eq_ok.2 ⟨items, there, read⟩⟩, .lift found ?_⟩
  refine hQ e addresses ?_ ⟨_, reply, v, said, matter_listing _, result, listed⟩
  have tally : Tally mac [e] [] (e.pends mac).toNat := .send said (.inl rfl)
  rwa [pends, Matter.pends, listed] at tally

/-- what has come of a look for addresses: none yet, or the machine is ready under them -/
inductive Looked (c : Context) (mac : String) (m : Machine) : List Event → Outcome → Machine → Prop
  | waits {es : List Event} {after : Number} (tally : Tally mac es [] 1) : Looked c mac m es (.requeue after) m
  | found {es : List Event} {saved : Machine} (addresses : List Value) (tally : Tally mac es [] 0)
      (listed : ∃ e ∈ es, e.Lists mac addresses) (some : addresses ≠ [])
      (stamps : { m with status := (markReady c m addresses).status.rendered }.Stamps saved) :
      Looked c mac m es .done saved

theorem discover_succeeds {number : Int} {known : Option Vm} {Q : List Event → Outcome → Held → Prop} (quiet : S.Quiet)
    (inHand : InHand S h m) (asked : m.spec.imageUrl.isTruthy = true) (set : mac ≠ "")
    (numbered : m.status.vmId = some number) (unreached : m.status.addresses = [])
    (seen : ∀ vm, known = some vm → vm.mac.isTruthy = true → vm.mac = .string mac)
    (hQ : ∀ es o m' h', Looked c mac m es o m' → InHand S h' m' → Q es o h') :
    (S.serving mac).Succeeds h (discover c m known) Q := by
  have there : (Value.string mac).isTruthy = true := by simp [Value.isTruthy, set]
  unfold discover
  rw [unreached, numbered]
  refine .bind (current_succeeds quiet seen fun es vm tally same => ?_)
  rw [same, there]
  refine .bind (tryAddresses_succeeds quiet fun e addresses look listed => ?_)
  cases addresses with
  | nil => exact .pure (hQ _ _ m h (.waits (tally.append (look.append .nil))) inHand)
  | cons address rest =>
    have shape : (markReady c m (address :: rest)).status.progress.IsObject := inHand.shape
    refine .bind (Checkout.save_succeeds .status ?_)
    refine Checkout.restate_succeeds quiet inHand asked shape
      fun e' call reply saved h' said stamps inHand' => .pure ?_
    have all := tally.append (look.append ((Tally.called said).append .nil))
    exact hQ _ _ saved h' (.found (address :: rest) all ⟨e, by simp, listed⟩ (List.cons_ne_nil _ _) stamps) inHand'

end Discovery

end Rules

end VmOperator
