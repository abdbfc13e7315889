import VmOperator.Proofs.Reconcile.Posts
import VmOperator.Proofs.Rehearsal
import VmOperator.Proofs.Store.Bootstrap
import VmOperator.Proofs.Store.Content
import VmOperator.Proofs.Store.Yields

/-! A virtual machine is ordered with its complete bootstrap data or not at all. What the data is made of is read off the
machine and the content of the store, link by link (`Bootstrap.Complete`); what is found there is what the operator gathers
(`Bootstrap.gathered_eq_ok_iff`), and an order goes out on that alone (`ordered_with_complete_data`). -/

namespace VmOperator

namespace Bootstrap

variable (content : Store.Content) (s : Settings) (m : Machine)

/-- the first machine among the owners is there and names the secret -/
inductive Names (secret : Value) : Prop
  | intro (o : OwnerReference) (owner : Value) (first : OwnerReference.First m.owners o) (named : o.name ≠ .null)
      (there : content (.owners s.clusterApiVersion) m.ns o.name = some owner)
      (found : owner.under? Store.secretKeys = some secret) (set : secret.isTruthy = true)

/-- the secret is named and there, its entry decodes, and to text -/
inductive Complete (text : String) : Prop
  | intro (secret object entry : Value) (bytes : List UInt8) (names : Names content s m secret)
      (there : content .secrets m.ns secret = some object) (keeps : Store.Keeps object entry)
      (decoded : Appliance.decodeBytes entry = .ok bytes) (utf8 : Utf8.decode bytes = .ok text)

/-- the owner, the name of the secret or the secret is still to come -/
inductive Awaited : Prop
  | unowned (others : ∀ o ∈ m.owners, o.IsOther)
  | unnamed (o : OwnerReference) (first : OwnerReference.First m.owners o) (unnamed : o.name = .null)
  | owner (o : OwnerReference) (first : OwnerReference.First m.owners o)
      (missing : content (.owners s.clusterApiVersion) m.ns o.name = none)
  | secretName (o : OwnerReference) (owner : Value) (fs : Fields) (first : OwnerReference.First m.owners o)
      (named : o.name ≠ .null) (there : content (.owners s.clusterApiVersion) m.ns o.name = some owner)
      (fields : owner.fields = .ok fs) (lacks : ((fs.get? "spec").getD .null).Lacks ["bootstrap", "dataSecretName"])
  | secret (secret : Value) (names : Names content s m secret) (missing : content .secrets m.ns secret = none)

inductive Unusable : BootstrapFault → Prop
  | noValue (secret object : Value) (names : Names content s m secret) (there : content .secrets m.ns secret = some object)
      (misses : Store.Misses object) : Unusable (.noValue (Store.pairKey m.ns secret))
  | notText (secret object entry : Value) (bytes : List UInt8) (p : Utf8.Problem) (names : Names content s m secret)
      (there : content .secrets m.ns secret = some object) (keeps : Store.Keeps object entry)
      (decoded : Appliance.decodeBytes entry = .ok bytes) (broken : Utf8.decode bytes = .error p) :
      Unusable (.notText (Store.pairKey m.ns secret))

def owner : Except Failure (Option Value) := do
  let name ← m.ownerName
  if name = .null then return none
  return (content (.owners s.clusterApiVersion) m.ns name).filter (· ≠ .null)

def bytesOf (secret : Value) : Except Failure (Option (List UInt8)) :=
  match content .secrets m.ns secret with
  | none => .ok none
  | some object => do return some (← Appliance.decodeBytes (← Store.entryOf (Store.pairKey m.ns secret) object))

def textOf (secret : Value) : Except Failure (Option String) := do
  match ← bytesOf content m secret with
  | none => return none
  | some bytes =>
    match Utf8.decode bytes with
    | .ok text => return some text
    | .error _ => throw (.fault (.bootstrap (.notText (Store.pairKey m.ns secret))))

def gathered : Except Failure (Option String) := do
  match ← owner content s m with
  | none => return none
  | some owner =>
    let secret ← Store.bootstrapSecret owner
    if secret = .null then return none else textOf content m secret

variable {content s m} {text : String} {secret : Value} {f : BootstrapFault}

theorem owner_of_first {o : OwnerReference} (first : OwnerReference.First m.owners o) (named : o.name ≠ .null) :
    owner content s m = .ok ((content (.owners s.clusterApiVersion) m.ns o.name).filter (· ≠ .null)) := by
  have read : m.ownerName = .ok o.name := Machine.ownerName_go_of_first first
  rw [owner, read, ok_bind, if_neg named]
  rfl

theorem gathered_of_unnamed (read : m.ownerName = .ok .null) : gathered content s m = .ok none := by
  have own : owner content s m = .ok none := by
    rw [owner, read, ok_bind, if_pos rfl]
    rfl
  rw [gathered, own]
  rfl

theorem gathered_of_owner {o : OwnerReference} {there : Value} (first : OwnerReference.First m.owners o) (named : o.name ≠ .null)
    (found : content (.owners s.clusterApiVersion) m.ns o.name = some there) (set : there ≠ .null) :
    gathered content s m = Store.bootstrapSecret there >>= fun secret =>
      if secret = .null then .ok none else textOf content m secret := by
  rw [gathered, owner_of_first first named, found, Option.filter_some, if_pos (decide_eq_true set)]
  rfl

theorem Names.gathered_eq (names : Names content s m secret) : gathered content s m = textOf content m secret := by
  obtain ⟨o, there, first, named, found, inside, set⟩ := names
  have object : there ≠ .null := by
    rintro rfl
    cases inside
  have nonnull : secret ≠ .null := by
    rintro rfl
    cases set
  rw [gathered_of_owner first named found object, Store.bootstrapSecret_of_under? inside set, ok_bind, if_neg nonnull]

theorem names_of_gathered (read : gathered content s m = .ok (some text)) :
    ∃ secret, Names content s m secret ∧ textOf content m secret = .ok (some text) := by
  obtain ⟨found, own, read⟩ := bind_eq_ok.1 read
  obtain ⟨name, named, own⟩ := bind_eq_ok.1 own
  split at own
  next =>
    cases own
    cases read
  next nonnull =>
    cases own
    cases there : (content (.owners s.clusterApiVersion) m.ns name).filter (· ≠ .null) with
    | none =>
      rw [there] at read
      cases read
    | some owner' =>
      rw [there] at read
      obtain ⟨secret, leads, read⟩ := bind_eq_ok.1 read
      split at read
      next => cases read
      next set =>
        obtain ⟨o, first, rfl⟩ := Machine.first_of_ownerName_go named nonnull
        obtain ⟨found, truthy⟩ := Store.under?_of_bootstrapSecret leads set
        exact ⟨secret, ⟨o, owner', first, nonnull, (Option.filter_eq_some_iff.1 there).1, found, truthy⟩, read⟩

theorem bytesOf_of_keeps {object entry : Value} {bytes : List UInt8} (there : content .secrets m.ns secret = some object)
    (keeps : Store.Keeps object entry) (decoded : Appliance.decodeBytes entry = .ok bytes) :
    bytesOf content m secret = .ok (some bytes) := by
  rw [bytesOf, there]
  dsimp only
  rw [Store.entryOf_eq_ok.2 keeps, ok_bind, decoded]
  rfl

/-- what is gathered is complete data, and complete data is gathered -/
theorem gathered_eq_ok_iff : gathered content s m = .ok (some text) ↔ Complete content s m text := by
  constructor
  · intro read
    obtain ⟨secret, names, read⟩ := names_of_gathered read
    obtain ⟨found, bytes, read⟩ := bind_eq_ok.1 read
    cases there : content .secrets m.ns secret with
    | none =>
      rw [bytesOf, there] at bytes
      cases bytes
      cases read
    | some object =>
      rw [bytesOf, there] at bytes
      obtain ⟨entry, keeps, bytes⟩ := bind_eq_ok.1 bytes
      obtain ⟨bytes', decoded, same⟩ := bind_eq_ok.1 bytes
      cases same
      cases utf8 : Utf8.decode bytes' with
      | error p =>
        simp only [utf8] at read
        cases read
      | ok text' =>
        simp only [utf8] at read
        cases read
        exact ⟨secret, object, entry, bytes', names, there, Store.entryOf_eq_ok.1 keeps, decoded, utf8⟩
  · rintro ⟨secret, object, entry, bytes, names, there, keeps, decoded, utf8⟩
    rw [names.gathered_eq, textOf, bytesOf_of_keeps there keeps decoded, ok_bind]
    simp only [utf8]
    rfl

theorem gathered_of_awaited (awaited : Awaited content s m) : gathered content s m = .ok none := by
  cases awaited with
  | unowned others => exact gathered_of_unnamed (Machine.ownerName_go_of_unowned others)
  | unnamed o first unnamed => exact gathered_of_unnamed ((Machine.ownerName_go_of_first first).trans (congrArg _ unnamed))
  | owner o first missing =>
    by_cases named : o.name = .null
    · exact gathered_of_unnamed ((Machine.ownerName_go_of_first first).trans (congrArg _ named))
    · rw [gathered, owner_of_first first named, missing]
      rfl
  | secretName o there fs first named found fields lacks =>
    have object : there ≠ .null := by
      rintro rfl
      cases fields
    rw [gathered_of_owner first named found object, Store.bootstrapSecret_of_lacks fields lacks,
      ok_bind, if_pos rfl]
  | secret secret names missing =>
    rw [names.gathered_eq, textOf, bytesOf, missing]
    rfl

theorem gathered_of_unusable (unusable : Unusable content s m f) : gathered content s m = .error (.fault (.bootstrap f)) := by
  cases unusable with
  | noValue secret object names there misses =>
    rw [names.gathered_eq, textOf, bytesOf, there]
    dsimp only
    rw [Store.entryOf_of_misses misses]
    rfl
  | notText secret object entry bytes p names there keeps decoded broken =>
    rw [names.gathered_eq, textOf, bytesOf_of_keeps there keeps decoded, ok_bind]
    simp only [broken]
    rfl

theorem getOwner_finds (c : Context) : Finds content (Store.getOwner c.settings m) (owner content c.settings m) := by
  refine .bind (.lift _) fun name => ?_
  split
  · exact .pure _
  · refine .bind (.fetch _ ?_ _ _) fun found => .pure _
    exact fun same => absurd (show "machines" = "freeboxmachines" from congrArg Store.Kind.plural same) (by decide)

theorem getBootstrapData_finds (secret : Value) :
    Finds content (Store.getBootstrapData m.ns secret) (bytesOf content m secret) := by
  have found : bytesOf content m secret = .ok (content .secrets m.ns secret) >>= fun
      | none => .ok none
      | some object => object.get "data" >>= fun data => Store.bootstrapEntry (Store.pairKey m.ns secret) data >>= fun entry =>
        Appliance.decodeBytes entry >>= fun bytes => .ok (some bytes) := by
    rw [bytesOf, ok_bind]
    cases content .secrets m.ns secret with
    | none => rfl
    | some object => simp only [Store.entryOf, bind_assoc]; rfl
  rw [found]
  refine .bind (.fetch _ (by decide) _ _) fun there => ?_
  cases there with
  | none => exact .pure _
  | some object =>
    refine .bind (.lift _) fun _ => .bind (.lift _) fun _ => .bind (.lift _) fun _ => .pure _

theorem userData_finds (c : Context) : Finds content (Boot.userData c m) (gathered content c.settings m) := by
  refine .bind (getOwner_finds c) fun owner => ?_
  cases owner with
  | none => exact .pure _
  | some owner =>
    refine .bind (.lift _) fun secret => ?_
    split
    · exact .pure _
    · refine .bind (getBootstrapData_finds secret) fun bytes => ?_
      cases bytes with
      | none => exact .pure _
      | some bytes =>
        dsimp only
        cases Utf8.decode bytes with
        | ok text => exact .pure _
        | error p => exact .throw _

end Bootstrap

def Event.Carries (e : Event) (text path : String) : Prop :=
  ∃ r reply fs, e.said = .sent r reply ∧ r.content = .json fs ∧ fs.get? "cloudinit_userdata" = some (.string text) ∧
    fs.get? "disk_path" = some (.string (Appliance.encodePath path)) ∧
    fs.get? "disk_type" = some (.string (Image.diskType path).text)

namespace Boot

open Bootstrap (Complete Awaited Unusable gathered)
open World (Ensures Yields)

variable {content : Store.Content} {c : Context} {m : Machine} {path text : String} {W : World} {h h' : Held}
  {es : List Event} {r : Except Failure Outcome}

/-- the first request is the only order, and carries what it is for -/
theorem create_orders : W.Ensures h (create c m path text).run fun es _ _ =>
    ∃ e after, es = e :: after ∧ e.orders = true ∧ e.Carries text path ∧ ∀ e ∈ after, e.orders = false := by
  have ordered {e : Event} {r : Appliance.Request} {reply : Appliance.Reply}
      (written : (Appliance.createQuery c.settings (order m path text)).request = .ok r) (said : e.said = .sent r reply) :
      e.orders = true ∧ e.Carries text path := by
    obtain rfl := Except.ok.inj written
    refine ⟨decide_eq_true ?_, _, reply, _, said, rfl, rfl, rfl, rfl⟩
    rw [Event.route?, said]
  refine Yields.ensures ?_
  unfold create
  rw [Appliance.createVm_eq]
  refine .bind (.ask nofun (fun e r reply created written said _ _ => ?_) fun e r reply _ written said _ _ => ?_)
  · obtain ⟨orders, carries⟩ := ordered written said
    intro es r h' plays
    have after := PostsTo.not_orders
      (.bind (.saveStatusSurely m _) fun recorded => .afterRecord .orderless c recorded created) plays
    cases r <;> exact ⟨e, es, rfl, orders, carries, after⟩
  · obtain ⟨orders, carries⟩ := ordered written said
    exact ⟨e, [], rfl, orders, carries, List.forall_mem_nil _⟩

/-- how an invocation without a number goes on after what was gathered -/
inductive Gets (content : Store.Content) (c : Context) (m : Machine) (path : String) : List Event → Except Failure Outcome → Prop
  | ordered {looked after : List Event} {e : Event} {text : String} {r : Except Failure Outcome}
      (found : gathered content c.settings m = .ok (some text)) (looks : ∀ e ∈ looked, e.said.looksUp = true)
      (orders : e.orders = true) (carries : e.Carries text path) (after_orderless : ∀ e ∈ after, e.orders = false) :
      Gets content c m path (looked ++ e :: after) r
  | waited {es : List Event} (found : gathered content c.settings m = .ok none) (looks : ∀ e ∈ es, e.said.looksUp = true) :
      Gets content c m path es (.ok c.poll)
  | failed {es : List Event} {f : Failure} (found : gathered content c.settings m = .error f)
      (looks : ∀ e ∈ es, e.said.looksUp = true) : Gets content c m path es (.error f)

theorem ensure_gets (unnumbered : m.status.vmId = none) :
    (World.keeping content).Ensures h (ensure c m (.string path)).run fun es r _ => Gets content c m path es r := by
  unfold ensure
  rw [unnumbered]
  dsimp only
  rw [ExceptT.run_bind]
  refine .bind ((Bootstrap.userData_finds c h).mono fun es r h' ⟨found, looks⟩ => ?_)
  subst found
  cases found : gathered content c.settings m with
  | error f =>
    refine .done ?_
    rw [List.append_nil]
    exact .failed found looks
  | ok text? =>
    cases text? with
    | none =>
      refine .done ?_
      rw [List.append_nil]
      exact .waited found looks
    | some text =>
      refine create_orders.mono ?_
      rintro _ r h'' ⟨e, after, rfl, orders, carries, orderless⟩
      exact .ordered found looks orders carries orderless

/-- what an invocation without a number sends and comes to, by what the store has -/
structure OrdersComplete (content : Store.Content) (c : Context) (m : Machine) (path : String) (es : List Event)
    (r : Except Failure Outcome) : Prop where
  ordered : (∃ e ∈ es, e.orders = true) ↔ ∃ text, Complete content c.settings m text
  carried : ∀ text, Complete content c.settings m text → ∀ e ∈ es, e.orders = true → e.Carries text path
  quiet : (¬∃ text, Complete content c.settings m text) → ∀ e ∈ es, e.said.looksUp = true
  awaited : Awaited content c.settings m → r = .ok (.requeue c.settings.pollInterval)
  unusable : ∀ f, Unusable content c.settings m f → r = .error (.fault (.bootstrap f))

theorem not_orders_of_looksUp {e : Event} (looks : e.said.looksUp = true) : e.orders = false := by
  refine decide_eq_false fun route => ?_
  unfold Event.route? at route
  split at route
  next said =>
    rw [said] at looks
    cases looks
  next => cases route

theorem quiet_of_gets (found : ∀ text, gathered content c.settings m ≠ .ok (some text))
    (gets : Gets content c m path es r) : (∀ e ∈ es, e.said.looksUp = true) ∧
      r = gathered content c.settings m >>= fun _ => .ok c.poll := by
  cases gets with
  | ordered found' => exact absurd found' (found _)
  | waited found looks => exact ⟨looks, by rw [found]; rfl⟩
  | failed found looks => exact ⟨looks, by rw [found]; rfl⟩

theorem ordersComplete_of_gets (gets : Gets content c m path es r) : OrdersComplete content c m path es r := by
  by_cases complete : ∃ text, Complete content c.settings m text
  · obtain ⟨text, complete⟩ := complete
    have gathers := Bootstrap.gathered_eq_ok_iff.2 complete
    have only (text' : String) (other : Complete content c.settings m text') : text' = text := by
      have same := (Bootstrap.gathered_eq_ok_iff.2 other).symm.trans gathers
      exact Option.some.inj (Except.ok.inj same)
    cases gets with
    | @ordered looked after e text' r found looks orders carries orderless =>
      obtain rfl := only text' (Bootstrap.gathered_eq_ok_iff.1 found)
      constructor
      · exact ⟨fun _ => ⟨text', complete⟩, fun _ => ⟨e, by simp, orders⟩⟩
      · intro text other e' mem orders'
        obtain rfl := only text other
        rcases List.mem_append.1 mem with before | rest
        · cases orders'.symm.trans (not_orders_of_looksUp (looks e' before))
        · rcases List.mem_cons.1 rest with rfl | rest
          · exact carries
          · cases orders'.symm.trans (orderless e' rest)
      · exact fun none => absurd ⟨text', complete⟩ none
      · exact fun awaited => absurd ((Bootstrap.gathered_of_awaited awaited).symm.trans found) nofun
      · exact fun f unusable => absurd ((Bootstrap.gathered_of_unusable unusable).symm.trans found) nofun
    | waited found => cases gathers.symm.trans found
    | failed found => cases gathers.symm.trans found
  · have incomplete (text : String) : gathered content c.settings m ≠ .ok (some text) := fun found =>
      complete ⟨text, Bootstrap.gathered_eq_ok_iff.1 found⟩
    obtain ⟨looks, result⟩ := quiet_of_gets incomplete gets
    constructor
    · refine ⟨fun ⟨e, mem, orders⟩ => ?_, fun found => absurd found complete⟩
      cases orders.symm.trans (not_orders_of_looksUp (looks e mem))
    · exact fun text found => absurd ⟨text, found⟩ complete
    · exact fun _ => looks
    · intro awaited
      rw [result, Bootstrap.gathered_of_awaited awaited]
      rfl
    · intro f unusable
      rw [result, Bootstrap.gathered_of_unusable unusable]
      rfl

/-- A virtual machine is only ordered with its complete bootstrap data. Of a machine without a number, whatever the store has:
one is ordered exactly if the first machine of the cluster's group among its owners is in the store, names the secret, and
that secret is there with an entry that decodes to text; the order then carries this text and the disk that was given. In
every other case objects are looked up and nothing else is sent or written: the invocation is made again after a while where
the owner, the name or the secret is still to come, and fails where the secret has no entry or none that is text. -/
theorem ordered_with_complete_data {path : String} (unnumbered : m.status.vmId = none)
    (plays : (World.keeping content).Plays h (ensure c m (.string path)).run es r h') :
    OrdersComplete content c m path es r :=
  ordersComplete_of_gets (ensure_gets unnumbered es r h' plays)

def stocked : Store.Content := fun kind ns name =>
  if ns ≠ .string "default" then none
  else if kind = .owners "v1beta2" ∧ name = .string "worker" then
    some (.object [("spec", .object [("bootstrap", .object [("dataSecretName", .string "boot")])])])
  else if kind = .secrets ∧ name = .string "boot" then some (.object [("data", .object [("value", .string "YWJj")])])
  else none

/-- the sample is ordered with the text of its secret -/
theorem ordered_with_complete_data_stocked : ∃ m es r h', m.status.vmId = none ∧
    (World.keeping stocked).Plays Sample.held (ensure Sample.context m (.string "/disks/worker.raw")).run es r h' ∧
    (∃ e ∈ es, e.orders = true ∧ e.Carries "abc" "/disks/worker.raw") ∧
    OrdersComplete stocked Sample.context m "/disks/worker.raw" es r := by
  have played : (Machine.ofValue Sample.object).toOption.any (fun m => decide (m.status.vmId = none) &&
      (gathered stocked Sample.context.settings m).toOption.any (· = some "abc") &&
      (Sample.alone.rehearse (ensure Sample.context m (.string "/disks/worker.raw")).run Sample.held
        (Sample.ordering 11 ++ [.refusal (.int 500) .null])).any fun x =>
          x.1.all (fun e => stocked.answers e.said) && x.1.any Event.orders) = true := by decide +kernel
  obtain ⟨m, read, seen⟩ := exists_of_any played
  simp only [Bool.and_eq_true, decide_eq_true_eq] at seen
  obtain ⟨⟨unnumbered, found⟩, rehearsed⟩ := seen
  obtain ⟨text, gathers, rfl⟩ : ∃ text, gathered stocked Sample.context.settings m = .ok text ∧ text = some "abc" := by
    obtain ⟨text, gathers, same⟩ := exists_of_any found
    exact ⟨text, gathers, of_decide_eq_true same⟩
  obtain ⟨es, r, h', plays, seen⟩ := Sample.alone.exists_plays _ _ _ _ rehearsed
  simp only [Bool.and_eq_true, List.all_eq_true, List.any_eq_true] at seen
  obtain ⟨answered, e, mem, orders⟩ := seen
  have kept : (World.keeping stocked).Plays Sample.held _ es r h' := plays.inWorld.within fun _ e mem _ => answered e mem
  have complete := ordered_with_complete_data unnumbered kept
  exact ⟨m, es, r, h', unnumbered, kept,
    ⟨e, mem, orders, complete.carried "abc" (Bootstrap.gathered_eq_ok_iff.1 gathers) e mem orders⟩, complete⟩

end Boot

end VmOperator
