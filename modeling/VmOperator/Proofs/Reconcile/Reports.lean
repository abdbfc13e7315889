import VmOperator.Proofs.Appliance.Documented
import VmOperator.Proofs.Reconcile.Endings
import VmOperator.Proofs.Resource.Documented

/-! A world in which nothing is said against the documented types, and what goes wrong in it (`Exchange.misbehaves`).
`Reports` holds of an action that ends well, or fails with a fault after something went wrong or was stated; it is had
part by part. Here it is had for the requests, the writes of the machine, and what is looked up. -/

namespace VmOperator

namespace Store

open Value

def ownerShape : Value → Bool := orNull (record [("spec", record [("bootstrap", record [])])])

def isEncoded (v : Value) : Bool := (Appliance.decodeBytes v).isOk

def secretShape : Value → Bool := record [("data", record [("value", isEncoded)])]

def documents (kind : Kind) (o : Value) : Bool :=
  if kind = .machines then Machine.shape o else if kind = .secrets then secretShape o else ownerShape o

end Store

namespace Exchange

def documented : Exchange → Bool
  | .sent r reply => Appliance.answers r.method r.path reply
  | .called (.get kind ..) (.ok o) => Store.documents kind o
  | .called (.replace ..) (.ok o) | .called (.replaceStatus ..) (.ok o) => Machine.shape o
  | .called .. => true

/-- a refusal that the operator goes on from: of a stop, of a listing, or of a look for what does not exist -/
def passesOver (r : Appliance.Request) (reply : Appliance.Reply) : Bool :=
  "/stop".toList.isSuffixOf r.path.toList ||
    match Appliance.matter r.method r.path with
    | .listing => true
    | .looking => match (Appliance.refusal "" "" reply).notFound with
      | .ok missing => missing
      | .error _ => false
    | _ => false

/-- a refusal that says neither that an object is missing nor that another writer was first, and is not passed over -/
def misbehaves : Exchange → Bool
  | .sent r reply => (Appliance.resultOf reply).isNone && !passesOver r reply
  | .called (.get ..) (.refused status _) => !status.isNumber 404 && !status.isNumber 409
  | .called _ (.refused status _) => !status.isNumber 409
  | .called _ (.ok _) => false

end Exchange

def World.documented : World := fun _ e => e.said.documented = true

/-- nothing went wrong that has to be reported -/
def Behaved (es : List Event) : Prop := ∀ e ∈ es, e.said.misbehaves = false

theorem Behaved.nil : Behaved [] := List.forall_mem_nil _

theorem Behaved.append {es es' : List Event} (first : Behaved es) (second : Behaved es') : Behaved (es ++ es') :=
  List.forall_mem_append.2 ⟨first, second⟩

/-- all went well, with a result as `P` says, or the failure is a fault -/
structure Reports {α : Type} (p : Action α) (P : α → Prop) : Prop where
  reported : ∀ h, World.documented.Yields h p (fun es a _ => Behaved es ∧ P a) fun _ e _ => ∃ f, e = .fault f

namespace Reports

variable {α β : Type} {p : Action α} {P : α → Prop}

theorem pure {a : α} (hP : P a) : Reports (Pure.pure a) P := ⟨fun _ => .pure ⟨.nil, hP⟩⟩

theorem fault (f : Fault) : Reports (Action.fault f) P := ⟨fun _ => .throw ⟨f, rfl⟩⟩

theorem lift {r : Except Failure α} (gives : Gives r P) : Reports (Action.ofExcept r) P := by
  obtain ⟨a, rfl, hP⟩ := gives
  exact pure hP

theorem faulty {r : Except Failure α} {f : Fault} (failed : r = .error (.fault f)) : Reports (Action.ofExcept r) P :=
  failed ▸ fault f

theorem mono {P' : α → Prop} (reports : Reports p P) (hP : ∀ a, P a → P' a) : Reports p P' :=
  ⟨fun h => (reports.reported h).mono (fun _ a _ ⟨behaved, holds⟩ => ⟨behaved, hP a holds⟩) fun _ _ _ => id⟩

theorem bind {f : α → Action β} {P : β → Prop} (reports : Reports p fun a => Reports (f a) P) :
    Reports (p >>= f) P := by
  refine ⟨fun h => .bind ((reports.reported h).mono (fun es a h' ⟨behaved, next⟩ => ?_) fun _ _ _ => id)⟩
  exact (next.reported h').mono (fun _ _ _ ⟨more, holds⟩ => ⟨behaved.append more, holds⟩) fun _ _ _ => id

theorem map {f : α → β} {P : β → Prop} (reports : Reports p fun a => P (f a)) : Reports (f <$> p) P := by
  rw [map_eq_pure_bind]
  exact bind (reports.mono fun _ => pure)

end Reports

section Requests

open Appliance

variable {α β : Type} {P : α → Prop} {s : Settings}

/-- what a request comes to: its result is read, or it was refused -/
def Answered (q : Query α) (P : α → Prop) : Prop := ∀ r reply, q.request = .ok r → answers r.method r.path reply = true →
  (resultOf reply).isSome = true ∧ Gives (q.read reply) P ∨
    resultOf reply = none ∧ ∃ operation url, q.read reply = .error (.fault (.appliance (refusal operation url reply)))

/-- the request was refused with this fault; that is nothing to report where it is passed over -/
structure Refused (r : Request) (es : List Event) (e : Failure) (reply : Reply) : Prop where
  fault : ∃ operation url, e = .fault (.appliance (refusal operation url reply))
  result : resultOf reply = none
  answered : answers r.method r.path reply = true
  passed : Exchange.passesOver r reply = true → Behaved es

theorem ask_ends {q : Query α} {r : Request} (written : q.request = .ok r) (answered : Answered q P) {h : Held} :
    World.documented.Yields h q.ask (fun es a _ => Behaved es ∧ P a) fun es e _ => ∃ reply, Refused r es e reply := by
  have documented {e : Event} {h : Held} {reply : Reply} (said : e.said = .sent r reply)
      (happens : World.documented h e) : answers r.method r.path reply = true := by
    rw [World.documented, said] at happens
    exact happens
  refine .ask (fun e failed => ?_) (fun e r' reply a same said happens read => ?_)
    fun e r' reply f same said happens read => ?_
  · rw [written] at failed
    cases failed
  · cases written.symm.trans same
    rcases answered r reply same (documented said happens) with ⟨granted, a', read', holds⟩ | ⟨-, operation, url, refused⟩
    · cases read.symm.trans read'
      refine ⟨List.forall_mem_singleton.2 ?_, holds⟩
      rw [said, Exchange.misbehaves, Option.isNone_eq_false_iff.2 granted]
      rfl
    · cases read.symm.trans refused
  · cases written.symm.trans same
    rcases answered r reply same (documented said happens) with ⟨-, a', read', -⟩ | ⟨none, operation, url, refused⟩
    · cases read.symm.trans read'
    · cases read.symm.trans refused
      refine ⟨reply, ⟨operation, url, rfl⟩, none, documented said happens, fun passed => List.forall_mem_singleton.2 ?_⟩
      rw [said, Exchange.misbehaves, passed, Bool.not_true, Bool.and_false]

theorem Reports.ask {q : Query α} (written : ∃ r, q.request = .ok r) (answered : Answered q P) : Reports q.ask P := by
  obtain ⟨r, written⟩ := written
  refine ⟨fun h => (ask_ends written answered).mono (fun _ _ _ => id) fun es e h' ⟨reply, refused⟩ => ?_⟩
  obtain ⟨operation, url, same⟩ := refused.fault
  exact ⟨_, same⟩

theorem answered_query {operation path : String} {method : Method} {content : Except Failure Content}
    {read : Value → Except Failure α} (gives : ∀ v, documents method path v = true → Gives (read v) P) :
    Answered (query s operation method path content read) P := by
  intro r reply written documented
  obtain ⟨rfl, rfl⟩ := method_path_of_written written
  rcases query_answered gives documented with granted | ⟨none, refused⟩
  · exact .inl granted
  · exact .inr ⟨none, _, _, refused⟩

theorem Answered.andThen {q : Query α} {f : α → Except Failure β} {P' : β → Prop} (answered : Answered q P)
    (gives : ∀ a, P a → Gives (f a) P') : Answered (q.andThen f) P' := by
  intro r reply written documented
  rcases answered r reply written documented with ⟨granted, a, read, holds⟩ | ⟨none, operation, url, refused⟩
  · refine .inl ⟨granted, ?_⟩
    unfold Query.andThen
    dsimp only
    rw [read]
    exact gives a holds
  · refine .inr ⟨none, operation, url, ?_⟩
    unfold Query.andThen
    dsimp only
    rw [refused]
    rfl

theorem documents_get (path : String) (v : Value) : documents .get path v = (matter .get path).documents v := by
  simp [documents]

theorem getVm_reports (id : Int) : Reports (getVm s (.int id)) fun known => known.vm.mac.isText = true := by
  rw [getVm_eq]
  refine .ask ⟨_, rfl⟩ (answered_query fun v documented => KnownVm.ofResult_gives ?_)
  rwa [documents_get, matter_looking] at documented

theorem createVm_reports {m : Machine} {path userData : String} :
    Reports (createVm s (Boot.order m path userData)) fun known => known.vm.mac.isText = true := by
  rw [createVm_eq]
  exact .ask ⟨_, rfl⟩ (answered_query fun v documented => KnownVm.ofResult_gives documented)

theorem command_reports (operation : String) (method : Method) (path : String) :
    Reports (command s operation method path).ask fun _ => True :=
  .ask ⟨_, rfl⟩ (answered_query fun _ _ => .ok trivial)

theorem startVm_reports (id : Value) : Reports (startVm s id) fun _ => True := startVm_eq s id ▸ command_reports ..

theorem deleteVm_reports (id : Value) : Reports (deleteVm s id) fun _ => True := deleteVm_eq s id ▸ command_reports ..

theorem removeFiles_reports (first second : String) :
    Reports (removeFiles s [.string first, .string second]) fun _ => True := by
  rw [removeFiles_eq]
  exact .ask ⟨_, rfl⟩ (answered_query fun v documented => FileTask.ofResult_gives documented)

end Requests

section Writes

variable {m : Machine}

/-- what is read after an accepted write is typed -/
theorem typed_of_documented {o : Value} {saved : Machine} (documented : Machine.shape o = true)
    (read : Machine.ofValue o = .ok saved) : saved.Typed := by
  obtain ⟨m, read', typed⟩ := Machine.ofValue_gives documented
  cases read.symm.trans read'
  exact typed

theorem readable_of_documented {o : Value} {f : Failure} (documented : Machine.shape o = true) :
    Machine.ofValue o ≠ .error f := by
  obtain ⟨m, read, -⟩ := Machine.ofValue_gives documented
  rw [read]
  nofun

theorem documented_written {part : Checkout.Part} {e : Event} {x o : Value} (said : e.said = .called (part.on m x) (.ok o))
    (happens : World.documented h e) : Machine.shape o = true := by
  rw [World.documented, said] at happens
  cases part <;> exact happens

theorem behaved_written {part : Checkout.Part} {e : Event} {x : Value} {reply : Store.Reply}
    (said : e.said = .called (part.on m x) reply)
    (taken : ∀ status reason, reply = .refused status reason → status.isNumber 409 = true) :
    Behaved [e] := by
  refine List.forall_mem_singleton.2 ?_
  rw [said]
  cases reply with
  | ok => cases part <;> rfl
  | refused status reason =>
    have conflict := taken status reason rfl
    cases part <;> exact congrArg (!·) conflict

theorem save_reports (part : Checkout.Part) (writable : ∃ x, m.toValue = .ok x) :
    Reports (part.save m) fun saved => ∀ m', saved = some m' → m'.Typed := by
  obtain ⟨x, written⟩ := writable
  refine ⟨fun h => (Checkout.save_ends part m).mono fun es r h' ended => ?_⟩
  cases ended with
  | unwritable failed =>
    rw [written] at failed
    cases failed
  | accepted _ said happens read =>
    refine ⟨behaved_written said nofun, fun m' same => ?_⟩
    cases same
    exact typed_of_documented (documented_written said happens) read
  | unreadable _ said happens read => exact absurd read (readable_of_documented (documented_written said happens))
  | lost _ said happens conflict => exact ⟨behaved_written said fun _ _ same => by cases same; exact conflict, nofun⟩
  | refused => exact ⟨_, rfl⟩

/-- what a fetch of the machine comes to -/
theorem looks_reports {h h' : Held} {ns name : Value} {es : List Event} {r : Except Failure (Option Machine)}
    (looks : Store.Looks World.documented h ns name es r h') :
    match r with
    | .ok found => Behaved es ∧ ∀ m, found = some m → m.Typed
    | .error f => (∃ fault, f = .fault fault) ∧ ((∃ l, f = .fault (.conflict l)) → Behaved es) := by
  have shape {e : Event} {o : Value} (said : e.said = .called (.get .machines ns name) (.ok o))
      (happens : World.documented h e) : Machine.shape o = true := by
    rw [World.documented, said] at happens
    exact happens
  cases looks with
  | found said happens read =>
    refine ⟨List.forall_mem_singleton.2 (by rw [said]; rfl), fun m same => ?_⟩
    cases same
    exact typed_of_documented (shape said happens) read
  | unreadable said happens read => exact absurd read (readable_of_documented (shape said happens))
  | missing said _ gone => exact ⟨List.forall_mem_singleton.2 (by rw [said, Exchange.misbehaves, gone]; rfl), nofun⟩
  | @refused _ _ _ status _ said =>
    refine ⟨⟨_, rfl⟩, fun ⟨l, same⟩ => List.forall_mem_singleton.2 ?_⟩
    cases conflict : status.isNumber 409 with
    | true => rw [said, Exchange.misbehaves, conflict, Bool.not_true, Bool.and_false]
    | false =>
      rw [Store.refusal_of_other conflict] at same
      cases same

theorem rewrites_reports {change : Machine → Machine} (stored : ∀ m : Machine, (change m).stored = m.stored) {more : Nat}
    {h h' : Held} {m : Machine} {es : List Event} {r : Machine × Except Failure Unit} (typed : m.Typed)
    (rewrites : Checkout.Rewrites World.documented change more h m es r h') :
    match r.2 with
    | .ok () => Behaved es ∧ r.1.Typed
    | .error f => ∃ fault, f = .fault fault := by
  induction rewrites with
  | unwritable failed =>
    obtain ⟨x, written⟩ := typed.exists_written (stored _)
    rw [written] at failed
    cases failed
  | accepted _ said happens read =>
    exact ⟨behaved_written said nofun, typed_of_documented (documented_written said happens) read⟩
  | unreadable _ said happens read => exact absurd read (readable_of_documented (documented_written said happens))
  | refused => exact ⟨_, rfl⟩
  | stopped _ _ _ _ looks why =>
    rcases why with ⟨fault, reported, -⟩ | rfl
    · exact ⟨fault, reported⟩
    · exact (looks_reports looks).1
  | @again _ _ _ _ _ _ _ _ _ _ _ _ r r' _ said _ conflict looks basis rest ih =>
    have lost := behaved_written said fun _ _ same => by cases same; exact conflict
    obtain ⟨looked, typed⟩ : Behaved _ ∧ _ := by
      rcases basis with ⟨rfl, l, rfl⟩ | rfl
      · exact ⟨(looks_reports looks).2 ⟨l, rfl⟩, typed⟩
      · exact ⟨(looks_reports looks).1, (looks_reports looks).2 _ rfl⟩
    have ended := ih typed
    split at ended
    · exact ⟨lost.append (looked.append ended.1), ended.2⟩
    · exact ended

theorem saveStatusSurely_reports {change : Machine → Machine} (stored : ∀ m : Machine, (change m).stored = m.stored)
    {m : Machine} (typed : m.Typed) : Reports (Checkout.saveStatusSurely change m) Machine.Typed := by
  refine ⟨fun h => World.Ensures.bind ((Checkout.writeRefreshing_ends 4 m).mono fun es r h' rewrites => ?_)⟩
  refine World.Ensures.done ?_
  have ended := rewrites_reports stored typed rewrites
  obtain ⟨m', r⟩ := r
  rw [List.append_nil]
  cases r with
  | ok => exact ended
  | error => exact ended

/-- the same for a change of what was stored last -/
theorem saveStatus_reports {m' : Machine} (typed : m.Typed) (stored : m'.stored = m.stored) :
    Reports (Checkout.saveStatus m') fun saved => ∀ m'', saved = some m'' → m''.Typed :=
  save_reports .status (typed.exists_written stored)

end Writes

section Looks

open Appliance

variable {s : Settings} {c : Context} {m : Machine}

theorem stop_passes (id : Value) (reply : Reply) :
    Exchange.passesOver ⟨.post, vmPath id ++ "/stop", .none⟩ reply = true := by
  have suffix : "/stop".toList.isSuffixOf (vmPath id ++ "/stop").toList = true := by
    rw [List.isSuffixOf_iff_suffix, String.toList_append]
    exact List.suffix_append ..
  rw [Exchange.passesOver, suffix]
  rfl

theorem listing_passes (interface : String) (reply : Reply) :
    Exchange.passesOver ⟨.get, "/lan/browser/" ++ interface ++ "/", .none⟩ reply = true := by
  rw [Exchange.passesOver, matter_listing]
  exact Bool.or_true _

theorem notFound_refusal (operation url : String) (reply : Reply) :
    (refusal operation url reply).notFound = (refusal "" "" reply).notFound := by
  cases reply with
  | unreachable => rfl
  | answer status body => cases body <;> rfl

theorem missing_passes {id : Int} {reply : Reply} (missing : (refusal "" "" reply).notFound = .ok true) :
    Exchange.passesOver ⟨.get, vmPath (.int id), .none⟩ reply = true := by
  rw [Exchange.passesOver, matter_looking]
  dsimp only
  rw [missing]
  exact Bool.or_true _

/-- a code as documented can be looked up -/
theorem notFound_gives {f : ApplianceFault} (code : Value.orNull Value.isText f.errorCode = true) :
    Gives f.notFound fun _ => True := by
  unfold ApplianceFault.notFound
  split
  · exact .ok trivial
  · split
    · exact .ok trivial
    · rename_i same
      rw [same] at code
      cases code
    · rename_i same
      rw [same] at code
      cases code
    · rename_i same
      rw [same] at code
      cases code
    · exact .ok trivial

theorem tryKill_reports (number : Int) : Reports (Teardown.tryKill c number) fun _ => True := by
  refine ⟨fun h => .tryCatch ?_⟩
  rw [killVm_eq]
  refine (ask_ends rfl (answered_query (P := fun _ => True) fun _ _ => .ok trivial)).mono (fun _ _ _ => id)
    fun es e h' ⟨reply, refused⟩ => ?_
  obtain ⟨operation, url, rfl⟩ := refused.fault
  refine .pure ?_
  rw [List.append_nil]
  exact ⟨refused.passed (stop_passes _ _), trivial⟩

theorem lookFor_reports (number : Int) : Reports (Teardown.lookFor c number) fun _ => True := by
  have seen : Answered (vmQuery c.settings (.int number)) fun known => known.vm.mac.isText = true := by
    refine answered_query fun v documented => KnownVm.ofResult_gives ?_
    rwa [documents_get, matter_looking] at documented
  refine ⟨fun h => .tryCatch (.map ?_)⟩
  rw [getVm_eq]
  refine (ask_ends rfl seen).mono (fun _ _ _ ended => ⟨ended.1, trivial⟩) fun es e h' ⟨reply, refused⟩ => ?_
  obtain ⟨operation, url, rfl⟩ := refused.fault
  have answered := refused.answered
  rw [answers, refused.result, matter_looking] at answered
  obtain ⟨missing, found, -⟩ := notFound_gives (f := refusal "" "" reply) answered
  refine .bind (.lift (fun missing' same => ?_) fun e same => ?_)
  · rw [notFound_refusal, found] at same
    cases same
    split
    · rename_i gone
      refine .pure ?_
      rw [List.append_nil, List.append_nil]
      exact ⟨refused.passed (missing_passes (found.trans (congrArg _ gone))), trivial⟩
    · exact .throw ⟨_, rfl⟩
  · rw [notFound_refusal, found] at same
    cases same

theorem addressesIn_gives (wanted : String) {hosts : List LanHost} (texts : ∀ host ∈ hosts, host.mac.isText = true) :
    Gives (Discovery.addressesIn wanted hosts) fun _ => True := by
  induction hosts with
  | nil => exact .ok trivial
  | cons host hosts ih =>
    obtain ⟨text, rest⟩ := List.forall_mem_cons.1 texts
    unfold Discovery.addressesIn
    refine .bind ((Value.toText_gives text).mono fun mac _ => ?_)
    split
    · exact .ok trivial
    · exact ih rest

theorem tryAddresses_reports {mac : Value} (text : mac.isText = true) :
    Reports (Discovery.tryAddresses s mac) fun _ => True := by
  have listed : Answered (hostsQuery s s.lanInterface) fun hosts => ∀ host ∈ hosts, host.mac.isText = true := by
    refine answered_query fun v documented => hosts_gives ?_
    rwa [documents_get, matter_listing] at documented
  obtain ⟨name, read, -⟩ := Value.toText_gives text
  refine ⟨fun h => .tryCatch (.map (.bind (.lift (fun mac same => .bind ?_) fun e same => ?_)))⟩
  · rw [lanHosts_eq]
    refine (ask_ends rfl listed).mono (fun es hosts h' ⟨behaved, texts⟩ => ?_) fun es e h' ⟨reply, refused⟩ => ?_
    · obtain ⟨addresses, found, -⟩ := addressesIn_gives (Text.lower mac) texts
      refine .lift (fun _ _ => ⟨?_, trivial⟩) fun e failed => ?_
      · rw [List.append_nil]
        exact behaved
      · rw [found] at failed
        cases failed
    · obtain ⟨operation, url, rfl⟩ := refused.fault
      refine .pure ?_
      rw [List.append_nil]
      exact ⟨refused.passed (listing_passes _ _), trivial⟩
  · rw [read] at same
    cases same

theorem current_reports (id : Int) {known : Option Vm} (texts : ∀ vm, known = some vm → vm.mac.isText = true) :
    Reports (Discovery.current c id known) fun vm => vm.mac.isText = true := by
  have anew : Reports (do return (← getVm c.settings (.int id)).vm) fun vm => vm.mac.isText = true :=
    .bind ((getVm_reports id).mono fun _ text => .pure text)
  unfold Discovery.current
  split
  · split
    · exact .pure (texts _ rfl)
    · exact anew
  · exact anew

theorem discover_reports (typed : m.Typed) {known : Option Vm} (texts : ∀ vm, known = some vm → vm.mac.isText = true) :
    Reports (Discovery.discover c m known) fun _ => True := by
  have kept (addresses : List Value) : (Discovery.markReady c m addresses).stored = m.stored := rfl
  unfold Discovery.discover
  split
  · exact .pure trivial
  · split
    · exact .pure trivial
    · refine .bind ((current_reports _ texts).mono fun vm text => ?_)
      split
      · exact .pure trivial
      · refine .bind ((tryAddresses_reports text).mono fun found _ => ?_)
        split
        · exact .pure trivial
        · exact .pure trivial
        · refine .bind ((saveStatus_reports typed (kept _)).mono fun saved _ => ?_)
          cases saved <;> exact .pure trivial

theorem fetch_reports {action : String} {kind : Store.Kind} {ns name : Value} :
    Reports (Store.fetch action kind ns name) fun found => ∀ o, found = some o → Store.documents kind o = true := by
  refine ⟨fun h => .call (Store.fetch_eq ..) (fun e reply found said happens read => ?_) fun e reply f _ _ read => ?_⟩
  · cases reply with
    | ok o =>
      cases read
      refine ⟨List.forall_mem_singleton.2 (by rw [said]; rfl), fun o' same => ?_⟩
      cases same
      rw [World.documented, said] at happens
      exact happens
    | refused status reason =>
      dsimp only [Store.fetched] at read
      split at read
      · rename_i gone
        cases read
        exact ⟨List.forall_mem_singleton.2 (by rw [said, Exchange.misbehaves, gone]; rfl), nofun⟩
      · cases read
  · cases reply with
    | ok => cases read
    | refused status reason =>
      dsimp only [Store.fetched] at read
      split at read
      · cases read
      · cases read
        exact ⟨_, rfl⟩

theorem bootstrapSecret_gives {owner : Value} (documented : owner ≠ .null ∧ Store.ownerShape owner = true) :
    Gives (Store.bootstrapSecret owner) fun _ => True := by
  have shape : Value.record [("spec", Value.record [("bootstrap", Value.record [])])] owner = true :=
    Value.of_orNull documented.2 documented.1
  refine .bind ((Value.section?_gives (p := Value.record [("bootstrap", Value.record [])]) shape (by simp) rfl).mono
    fun spec inner => ?_)
  refine .bind ((Value.section?_gives (p := Value.record []) inner (by simp) rfl).mono fun bootstrap any => ?_)
  exact .bind ((Value.getAny_gives any ..).mono fun _ _ => .ok trivial)

/-- an entry is found in the data of a secret, or it is reported that there is none -/
theorem bootstrapEntry_cases {data : Value}
    (shape : Value.record [("value", Store.isEncoded)] (data.orElse (.object [])) = true)
    (key : String) :
    Gives (Store.bootstrapEntry key data) (fun entry => Store.isEncoded entry = true) ∨
      ∃ f, Store.bootstrapEntry key data = .error (.fault f) := by
  obtain ⟨fs, same, there⟩ := Value.object_of_record shape
  unfold Store.bootstrapEntry
  rw [same]
  dsimp only
  cases found : Fields.get? fs "value" with
  | none => exact .inr ⟨_, rfl⟩
  | some entry => exact .inl (.ok (there _ (.head _) entry found))

theorem userData_reports (typed : m.Typed) : Reports (Boot.userData c m) fun _ => True := by
  have owner : Reports (Store.getOwner c.settings m) fun found =>
      ∀ o, found = some o → o ≠ .null ∧ Store.ownerShape o = true := by
    refine .bind (.lift (typed.ownerName_gives.mono fun name _ => ?_))
    split
    · exact .pure nofun
    · refine .bind (fetch_reports.mono fun found documented => .pure fun o same => ?_)
      obtain ⟨there, set⟩ := Option.filter_eq_some_iff.1 same
      have other : Store.documents (.owners c.settings.clusterApiVersion) o = Store.ownerShape o := by
        simp [Store.documents, Store.Kind.owners, Store.Kind.machines, Store.Kind.secrets, apiGroup]
      exact ⟨of_decide_eq_true set, other ▸ documented o there⟩
  have bootstrap (name : Value) : Reports (Store.getBootstrapData m.ns name) fun _ => True := by
    refine .bind (fetch_reports.mono fun found documented => ?_)
    cases found with
    | none => exact .pure trivial
    | some secret =>
      have shape : Store.secretShape secret = true := documented secret rfl
      have unset : Value.record [("value", Store.isEncoded)] (.object []) = true := rfl
      refine .bind (.lift ((Value.getOrElse_gives shape (.head _) unset).mono fun data record => ?_))
      rcases bootstrapEntry_cases record (Store.pairKey m.ns name) with ⟨entry, read, encoded⟩ | ⟨f, missing⟩
      · obtain ⟨bytes, decoded⟩ := exists_of_isOk encoded
        exact .bind (.lift ⟨entry, read, .bind (.lift ⟨bytes, decoded, .pure trivial⟩)⟩)
      · exact .bind (.faulty missing)
  refine .bind (owner.mono fun found documented => ?_)
  cases found with
  | none => exact .pure trivial
  | some owner =>
    have secret : Gives (Store.bootstrapSecret owner) fun _ => True := bootstrapSecret_gives (documented owner rfl)
    refine .bind (.lift (secret.mono fun secret _ => ?_))
    split
    · exact .pure trivial
    · refine .bind ((bootstrap secret).mono fun bytes _ => ?_)
      cases bytes with
      | none => exact .pure trivial
      | some bytes =>
        dsimp only
        split
        · exact .pure trivial
        · exact .fault _

end Looks

end VmOperator
