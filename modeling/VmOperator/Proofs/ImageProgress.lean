import VmOperator.Proofs.Rehearsal
import VmOperator.Proofs.Reconcile.TaskRecord

/-! The image pipeline only moves forward. Over any run of one machine the stored phase changes along one edge
an invocation, each to a later phase; a step is submitted again only after the write of its task was lost; and an
invocation sends the request of the stored phase and no other until the image is over, none once it is settled. -/

namespace VmOperator

open ImagePipeline (route)

/-- the image is ready or has failed -/
def MachineStatus.Settled (s : MachineStatus) : Prop :=
  ({ status := s } : Machine).imageReady = true ∨ ∃ reason, ({ status := s } : Machine).failedImageReason? = .ok (some reason)

theorem MachineStatus.Settled.of_same {s s' : MachineStatus} (settled : s.Settled)
    (same : ({ status := s' } : Machine).imageCondition? = ({ status := s } : Machine).imageCondition?) : s'.Settled := by
  unfold Settled Machine.imageReady Machine.failedImageReason? at *
  rwa [same]

namespace Held

def Settled (h : Held) : Prop := ∃ s, h.status = some s ∧ s.Settled

def ImageReady (h : Held) : Prop := ∃ s, h.status = some s ∧ ({ status := s } : Machine).imageReady = true

/-- an image that is ready was made so by its resize -/
def Resized (h : Held) : Prop := h.ImageReady → ∃ task, h.phase? = some (.resizing (some task))

def Reaches (rank : Nat) (h : Held) : Prop := ∀ p, h.phase? = some p → rank ≤ p.rank

end Held

namespace Event

def Moves (e : Event) : Prop := ∃ v w, e.before.progress? = some v ∧ e.after.progress? = some w ∧ v ≠ w

/-- an accepted status takes the stored phase along one edge, to a later phase -/
def Forward (e : Event) : Prop := e.acceptsStatus = true ∧ ∃ p q : Phase, e.before.phase? = some p ∧
  e.after.progress? = some (.object q.encode) ∧ p.Leads q ∧ p.rank < q.rank

end Event

namespace Reconcile

open ImagePipeline (Job)

variable {S : Scene} {c : Context} {st st' : Stage} {e : Event} {es : List Event} {past : List Invocation} {h : Held}
  {start : Held}

/-- the reply was read, and the next phase waits to be written -/
theorem Founded.leads {m : Machine} {next : Phase} {message : String} {outcome : Outcome}
    (founded : Founded c es h (.judged m (.enter next message outcome))) :
    ∃ p, h.phase? = some p ∧ p.Leads next := by
  obtain ⟨status, name, p, r, reply, ⟨_, -, asks⟩, read⟩ := founded
  exact ⟨p, Held.phase?_of_decode status asks.decoded, (ImagePipeline.query_enters read).leads⟩

theorem Deed.forward (deed : Deed S c st e st') (founded : Founded c es e.before st) (encoded : Encoded e.before)
    (moves : e.Moves) : e.Forward ∧ st' = .ended := by
  obtain ⟨v, w, before, after, changed⟩ := moves
  cases deed.advances encoded with
  | same progress =>
    obtain ⟨s', status', rfl⟩ := Option.map_eq_some_iff.1 after
    obtain ⟨s, status, same⟩ := progress s' status'
    rw [Held.progress?, status, Option.map_some, ← same] at before
    exact absurd (Option.some.inj before).symm changed
  | moved m next message outcome stage status written accepted ended =>
    subst stage
    obtain ⟨p, read, leads⟩ := founded.leads
    obtain ⟨s', status', progress⟩ := written
    refine ⟨⟨accepted, p, next, read, ?_, leads, leads.rank_lt⟩, ended⟩
    rw [Held.progress?, status', Option.map_some, progress]

/-- the events of an invocation that move the phase, or end it -/
structure Moved (es : List Event) (st : Stage) : Prop where
  ended : (∃ e ∈ es, e.Moves) → st = .ended
  once : es.Pairwise fun e e' => ¬(e.Moves ∧ e'.Moves)
  forward : ∀ e ∈ es, e.Moves → e.Forward

theorem Deed.ended (deed : Deed S c .ended e st') : st' = .ended ∧ e.after = e.before ∧ e.acceptsStatus = false := by
  cases deed with
  | sent table => cases table
  | vain stays idle held => cases stays <;> exact ⟨rfl, rfl, Event.acceptsStatus_of_idle idle held held⟩
  | restated table => cases table
  | replaced table => cases table

theorem Moved.snoc (moved : Moved es st) (deed : Deed S c st e st') (founded : Founded c es e.before st)
    (encoded : Encoded e.before) : Moved (es ++ [e]) st' := by
  have forward := deed.forward founded encoded
  have still (before : ∃ e' ∈ es, e'.Moves) : ¬e.Moves := by
    obtain rfl := moved.ended before
    rintro ⟨v, w, hv, hw, changed⟩
    rw [deed.ended.2.1, hv] at hw
    exact changed (Option.some.inj hw)
  constructor
  case ended =>
    intro moves
    rcases exists_of_snoc moves with old | moves
    · obtain rfl := moved.ended old
      exact deed.ended.1
    · exact (forward moves).2
  case once => exact pairwise_snoc moved.once fun e' mem moves => still ⟨e', mem, moves.1⟩ moves.2
  case forward => exact forall_snoc moved.forward fun moves => (forward moves).1

theorem Run.moved (sound : start.Sound S) (encoded : Encoded start) (run : Run S start past h) :
    ∀ i ∈ past, ∃ st, Moved i.events st := by
  have each := run.each (I := fun _ es st _ => Moved es st) sound encoded (fun _ _ => ⟨by simp, .nil, by simp⟩)
    fun c es st h e st' moved _ _ founded encoded deed => moved.snoc deed founded encoded
  intro i hi
  obtain ⟨st, -, moved⟩ := each i hi
  exact ⟨st, moved⟩

def Stage.Awaits (k : Job) (st : Stage) : Prop :=
  st = .ended ∨ ∃ m next message outcome, st = .judged m (.enter next message outcome) ∧ next.rank = k.rank

theorem Deed.awaits {k : Job} (deed : Deed S c st e st') (awaits : st.Awaits k) :
    st'.Awaits k ∧ e.acceptsStatus = false ∨ e.acceptsStatus = true ∧ ∃ m next message outcome,
      st = .judged m (.enter next message outcome) ∧ next.rank = k.rank ∧
      ∃ s, e.after.status = some s ∧ s.progress = .object next.encode := by
  rcases awaits with rfl | ⟨m, next, message, outcome, rfl, rank⟩
  · exact .inl ⟨.inl deed.ended.1, deed.ended.2.2⟩
  cases deed with
  | sent table => cases table
  | vain stays idle held =>
    have quiet := Event.acceptsStatus_of_idle idle held held
    cases stays with
    | ended => exact .inl ⟨.inl rfl, quiet⟩
    | same => exact .inl ⟨.inr ⟨m, next, message, outcome, rfl, rank⟩, quiet⟩
  | restated table copy copied object written =>
    cases table
    obtain rfl := Option.some.inj copy
    refine .inr ⟨rfl, m, next, message, outcome, rfl, rank,
      (ImagePipeline.entering c next message m).status.rendered, ?_, progress_rendered rfl⟩
    rw [Held.status, Option.bind_some, status_restated (.enter m next message outcome) copied written]
    rfl
  | replaced table => cases table

/-- the events of a kind of submission are counted against the lost ones, until its phase is stored -/
structure Paced (k : Job) (past : List Invocation) (es : List Event) (st : Stage) (h : Held) : Prop where
  awaits : unsaved (Event.submits k) es = true → st.Awaits k
  counted : Counted (Event.submits k) past es (h.Reaches k.rank)

variable {k : Job}

theorem Deed.reaches (deed : Deed S c st e st') (founded : Founded c es e.before st) (encoded : Encoded e.before)
    {rank : Nat} (reaches : e.before.Reaches rank) : e.after.Reaches rank := by
  intro q read
  obtain ⟨s', status', decoded⟩ := Option.bind_eq_some_iff.1 read
  cases deed.advances encoded with
  | same progress =>
    obtain ⟨s, status, same⟩ := progress s' status'
    rw [same] at decoded
    exact reaches q (Held.phase?_of_decode status (ok_of_toOption decoded))
  | moved m next message outcome stage status written =>
    subst stage
    obtain ⟨p, before, leads⟩ := founded.leads
    obtain ⟨s, status, progress⟩ := written
    rw [Held.phase?_of_encode status progress read]
    exact Nat.le_trans (reaches p before) (Nat.le_of_lt leads.rank_lt)

theorem Deed.submits (deed : Deed S c st e st') (tracks : Tracks S e.before st) (founded : Founded c es e.before st)
    (submits : e.submits k = true) : (∃ m, st = .imaging m) ∧ st'.Awaits k ∧ ¬e.before.Reaches k.rank := by
  obtain ⟨-, -, path, -, route, mem, -⟩ := Event.submits_route submits
  have pipelined : e.Pipelined := by
    obtain ⟨p, routed⟩ := ImagePipeline.route_of_job mem
    exact ⟨p, by rw [route, routed]⟩
  obtain ⟨m, name, p, r, reply, rfl, status, asks, -, rfl⟩ := deed.pipelined tracks founded pipelined
  obtain ⟨next, message, outcome, read, rank, -⟩ :=
    ImagePipeline.Asked.enters ⟨asks.decoded, asks.written, asks.said⟩ submits
  refine ⟨⟨m, rfl⟩, .inr ⟨m, next, message, outcome, by rw [Stage.heard, read], rank⟩, fun reaches => ?_⟩
  have reached := reaches p (Held.phase?_of_decode status asks.decoded)
  have below := ImagePipeline.rank_of_submission (Option.some.inj (asks.route.symm.trans route)) mem
  omega

theorem Paced.snoc (paced : Paced k past es st e.before) (deed : Deed S c st e st') (tracks : Tracks S e.before st)
    (founded : Founded c es e.before st) (encoded : Encoded e.before) : Paced k past (es ++ [e]) st' e.after := by
  constructor
  case awaits =>
    intro waiting
    rcases unsaved_of_snoc waiting with ⟨lost, quiet⟩ | submits
    · rcases deed.awaits (paced.awaits lost) with ⟨awaits, -⟩ | ⟨accepted, -⟩
      · exact awaits
      · rw [quiet] at accepted
        cases accepted
    · exact (deed.submits tracks founded submits).2.1
  case counted =>
    refine paced.counted.snoc (deed.reaches founded encoded) (fun submits => ?_) fun waiting accepted => ?_
    · obtain ⟨⟨m, rfl⟩, -, below⟩ := deed.submits tracks founded submits
      refine ⟨below, Bool.eq_false_iff.2 fun lost => ?_⟩
      rcases paced.awaits lost with ended | ⟨_, _, _, _, judged, -⟩
      · cases ended
      · cases judged
    · rcases deed.awaits (paced.awaits waiting) with ⟨-, quiet⟩ | ⟨-, m, next, message, outcome, rfl, rank, s, status, written⟩
      · rw [quiet] at accepted
        cases accepted
      obtain ⟨p, before, leads⟩ := founded.leads
      refine ⟨fun reaches => ?_, fun q read => ?_⟩
      · exact absurd (reaches p before) (Nat.not_le.2 (rank ▸ leads.rank_lt))
      · rw [Held.phase?_of_encode status written read]
        exact Nat.le_of_eq rank.symm

theorem Held.Reaches.drift {h h' : Held} {rank : Nat} (drift : S.Drifts h h') (reaches : h.Reaches rank) :
    h'.Reaches rank := by
  intro p read
  rw [Held.phase?, Held.status_drift drift] at read
  exact reaches p read

theorem Run.paced (k : Job) (sound : start.Sound S) (encoded : Encoded start) (run : Run S start past h) :
    (events past).countP (Event.submits k) ≤ losses (Unkept S k) past + 1 := by
  -- a second submission needs the phase before it to be stored still, so the record of the first was lost
  have kept := run.keeps_founded (P := fun _ => True)
    (J := fun past h => Counted (Event.submits k) past [] (h.Reaches k.rank))
    (I := fun past _ es st h => Paced k past es st h) sound encoded .first
    (fun past c h _ counted => ⟨by simp [unsaved], counted⟩) ?step ?ends fun _ _ => trivial
  case step =>
    intro past c es st h e st' _ paced drift tracks founded encoded deed
    have paced : Paced k past es st e.before := ⟨paced.awaits, paced.counted.imp (Held.Reaches.drift drift)⟩
    exact paced.snoc deed tracks founded encoded
  case ends => exact fun past c es st h r _ paced => paced.counted.ends c r
  exact kept.few_of_lost fun i mem => unkept_of_unsaved k (run.noted k i mem)

theorem head?_snoc {first : Event} (mem : first ∈ (es ++ [e]).head?) : first ∈ es.head? ∨ es = [] ∧ first = e := by
  cases es with
  | nil => exact .inr ⟨rfl, (Option.some.inj mem).symm⟩
  | cons => exact .inl mem

def Stage.Beyond : Stage → Prop
  | .ordering _ | .created .. | .naming .. | .running .. => True
  | _ => False

/-- a request is the pipeline's, of the phase in the copy, or comes once the image is over, or takes the machine down -/
theorem Deed.requests (deed : Deed S c st e st') {target : Appliance.Method × String} (requests : e.route? = some target) :
    (∃ m p, st = .imaging m ∧ Phase.decode m.status.progress = .ok p ∧ target = route p) ∨ st.Beyond ∨
      st.side? = some .down := by
  cases deed with
  | vain | fetched | reread | restated | replaced => cases requests
  | sent table written =>
    cases table with
    | image m name p asked sound named decoded =>
      refine .inl ⟨m, p, rfl, decoded, ?_⟩
      rw [← ImagePipeline.query_route c m written]
      exact (Option.some.inj requests).symm
    | create | start | ask | hosts => exact .inr (.inl trivial)
    | look | kill | delete | remove => exact .inr (.inr rfl)

/-- the image was ready at first, or the task of the resize that was stored at first is found done -/
def Over (first : Event) (es : List Event) : Prop :=
  first.before.ImageReady ∨ ∃ task, first.before.phase? = some (.resizing (some task)) ∧ ∃ e ∈ es, e.Finds task

theorem Over.snoc {first : Event} (finished : Over first es) (e : Event) : Over first (es ++ [e]) := by
  rcases finished with ready | ⟨task, read, e', mem, finds⟩
  · exact .inl ready
  · exact .inr ⟨task, read, e', List.mem_append_left _ mem, finds⟩

theorem beyond_provisioning {m : Machine} (beyond : (Stage.provisioning m).Beyond) : m.imageReady = true := by
  unfold Stage.provisioning at beyond
  split at beyond
  · assumption
  · exact beyond.elim

theorem beyond_fetched {m : Machine} (beyond : (Stage.fetched m).Beyond) : m.imageReady = true :=
  Stage.fetched_cases (Q := fun st => st.Beyond → m.imageReady = true) nofun (fun _ _ _ => nofun) (fun _ _ => nofun)
    (fun _ _ => beyond_provisioning) (fun _ _ => nofun) beyond

/-- how an invocation comes to its virtual machine -/
theorem Deed.beyond (deed : Deed S c st e st') (tracks : Tracks S e.before st) (founded : Founded c es e.before st)
    (beyond : st'.Beyond) : st.Beyond ∨ (st = .start ∨ ∃ m, st = .bare m) ∧ e.before.ImageReady ∨
      (∃ m v, st = .judged m v) ∧ ∃ task, e.before.phase? = some (.resizing (some task)) ∧ ∃ e' ∈ es, e'.Finds task := by
  cases deed with
  | sent table =>
    cases table with
    | create | start | ask | hosts => exact .inl trivial
    | look => exact absurd beyond (Stage.lookedFor_cases (Q := fun st => ¬st.Beyond) id (fun _ _ _ => id) id)
    | kill => exact beyond.elim
    | image | delete | remove => exact absurd beyond (Stage.heard_cases (Q := fun st => ¬st.Beyond) (fun _ _ => id) id)
  | vain stays =>
    cases stays with
    | ended => exact beyond.elim
    | same => exact .inl beyond
    | named => exact .inl trivial
  | fetched object next =>
    rcases next with rfl | ⟨m, copy, rfl⟩
    · exact beyond.elim
    · have status := (copied_of_copyOf tracks.sound object copy.toCopyOf).status object
      have ready : m.imageReady = true := beyond_fetched beyond
      exact .inr (.inl ⟨.inl rfl, m.status, status, ready⟩)
  | reread => exact .inl trivial
  | restated table _ _ _ _ _ _ next =>
    cases table with
    | finish m =>
      obtain ⟨status, name, p, r, reply, ⟨e', mem, asks⟩, read⟩ := founded
      obtain ⟨task, rfl, finds⟩ := asks.finds read
      exact .inr (.inr ⟨⟨m, _, rfl⟩, task, Held.phase?_of_decode status asks.decoded, e', mem, finds⟩)
    | record | publish => exact .inl trivial
    | _ => exact absurd beyond (next.cases (Q := fun st => ¬st.Beyond) id fun _ _ => id)
  | replaced table copy copied object _ _ _ next =>
    cases table with
    | hold m =>
      rcases next with rfl | ⟨m', again, rfl⟩
      · exact beyond.elim
      · obtain rfl := Option.some.inj copy
        have same := again.toCopyOf.status_eq ((status_replaced ..).trans copied.copy.status)
        have ready := beyond_provisioning beyond
        rw [Machine.imageReady, Machine.imageCondition?, same] at ready
        exact .inr (.inl ⟨.inr ⟨m, rfl⟩, m.status, copied.status object, ready⟩)
    | name => exact .inl trivial
    | _ => exact absurd beyond (next.cases (Q := fun st => ¬st.Beyond) id fun _ _ => id)

/-- an invocation keeps to the request of the phase that it found, until the image is over -/
structure KeepsOwn (S : Scene) (es : List Event) (st : Stage) (h : Held) : Prop where
  begun : st = .start ↔ es = []
  unmoved : st.Unmoved → ∀ first ∈ es.head?, h.status = first.before.status
  down : st.side? = some .down → Tears S es
  beyond : st.Beyond → ∀ first ∈ es.head?, Over first es
  requests : ∀ first ∈ es.head?, Tears S es ∨ Preceded (fun e before => ∀ target, e.route? = some target →
    (∃ p, first.before.phase? = some p ∧ target = route p) ∨ Over first before) es

theorem KeepsOwn.status (keeps : KeepsOwn S es st e.before) (unmoved : st.Unmoved) {first : Event}
    (mem : first ∈ (es ++ [e]).head?) : e.before.status = first.before.status := by
  rcases head?_snoc mem with old | ⟨-, rfl⟩
  · exact keeps.unmoved unmoved first old
  · rfl

theorem KeepsOwn.snoc (keeps : KeepsOwn S es st e.before) (deed : Deed S c st e st') (tracks : Tracks S e.before st)
    (founded : Founded c es e.before st) : KeepsOwn S (es ++ [e]) st' e.after := by
  constructor
  case begun => exact ⟨fun start => absurd start deed.begun, by simp⟩
  case unmoved =>
    intro unmoved first mem
    obtain ⟨was, stays, -⟩ := deed.unmoved unmoved
    rw [stays]
    exact keeps.status was mem
  case down => exact deed.tears keeps.begun.1 keeps.down
  case beyond =>
    intro beyond first mem
    rcases deed.beyond tracks founded beyond with was | ⟨early, s, status, ready⟩ | ⟨⟨m, v, rfl⟩, task, read, e', found, finds⟩
    · rcases head?_snoc mem with old | ⟨none, -⟩
      · exact (keeps.beyond was first old).snoc e
      · rw [keeps.begun.2 none] at was
        exact was.elim
    · have unmoved : st.Unmoved := by rcases early with rfl | ⟨m, rfl⟩ <;> trivial
      exact .inl ⟨s, (keeps.status unmoved mem).symm.trans status, ready⟩
    · rw [Held.phase?, keeps.status trivial mem] at read
      exact .inr ⟨task, read, e', List.mem_append_left _ found, finds⟩
  case requests =>
    intro first mem
    by_cases down : st.side? = some .down
    · exact .inl ((keeps.down down).snoc e)
    rcases head?_snoc mem with old | ⟨rfl, rfl⟩
    · refine (keeps.requests first old).imp (·.snoc e) fun preceded => preceded.snoc fun target requests => ?_
      rcases deed.requests requests with ⟨m, p, rfl, decoded, own⟩ | beyond | torn
      · have status := (keeps.unmoved trivial first old).symm.trans founded.2
        exact .inl ⟨p, Held.phase?_of_decode status decoded, own⟩
      · exact .inr (keeps.beyond beyond first old)
      · exact absurd torn down
    · obtain rfl := keeps.begun.2 rfl
      refine .inr (Preceded.nil.snoc fun target requests => ?_)
      rcases deed.requests requests with ⟨_, _, none, -⟩ | none | none <;> cases none

structure Inquired (es : List Event) (st : Stage) : Prop where
  early : st.Early → ∀ e ∈ es, ¬e.Pipelined
  once : es.Pairwise fun e e' => ¬(e.Pipelined ∧ e'.Pipelined)
  own : ∀ first ∈ es.head?, ∀ p, first.before.phase? = some p → ∀ e ∈ es, e.Pipelined → e.route? = some (route p)

theorem Inquired.snoc (inquired : Inquired es st) (keeps : KeepsOwn S es st e.before) (deed : Deed S c st e st')
    (tracks : Tracks S e.before st) (founded : Founded c es e.before st) : Inquired (es ++ [e]) st' := by
  constructor
  case early =>
    intro early
    obtain ⟨early, quiet⟩ := deed.early early
    refine forall_snoc (inquired.early early) ?_
    rintro ⟨p, routed⟩
    cases quiet.symm.trans routed
  case once =>
    refine pairwise_snoc inquired.once fun e' mem ⟨before, now⟩ => ?_
    obtain ⟨m, -, -, -, -, rfl, -⟩ := deed.pipelined tracks founded now
    exact inquired.early trivial e' mem before
  case own =>
    intro first mem p read
    refine forall_snoc (fun e' old pipelined => ?_) fun pipelined => ?_
    · rcases head?_snoc mem with mem | ⟨rfl, -⟩
      · exact inquired.own first mem p read e' old pipelined
      · cases old
    · obtain ⟨m, name, q, r, reply, rfl, status, asks, -⟩ := deed.pipelined tracks founded pipelined
      have found := Held.phase?_of_decode ((keeps.status trivial mem).symm.trans status) asks.decoded
      obtain rfl := Option.some.inj (found.symm.trans read)
      exact asks.route

theorem Run.inquired (sound : start.Sound S) (encoded : Encoded start) (run : Run S start past h) :
    ∀ i ∈ past, ∃ st h, KeepsOwn S i.events st h ∧ Inquired i.events st := by
  refine run.each (I := fun _ es st h => KeepsOwn S es st h ∧ Inquired es st) sound encoded
    (fun _ _ => ⟨⟨by simp, by simp, nofun, nofun, by simp⟩, by simp, .nil, by simp⟩) ?_
  intro c es st h e st' ⟨keeps, inquired⟩ drift tracks founded _ deed
  have keeps : KeepsOwn S es st e.before :=
    { keeps with unmoved := fun unmoved => by rw [Held.status_drift drift]; exact keeps.unmoved unmoved }
  exact ⟨keeps.snoc deed tracks founded, inquired.snoc keeps deed tracks founded⟩

theorem Deed.resized (deed : Deed S c st e st') (founded : Founded c es e.before st) (encoded : Encoded e.before)
    (resized : e.before.Resized) : e.after.Resized := by
  rintro ⟨s', status', ready⟩
  cases deed.impact with
  | same status =>
    rw [Held.phase?, status]
    exact resized ⟨s', status.symm.trans status', ready⟩
  | released _ _ _ _ _ gone =>
    rw [Held.status, gone] at status'
    cases status'
  | @restated _ _ _ m table copy before after =>
    obtain rfl := Option.some.inj (after.symm.trans status')
    have found : ∃ task, e.before.phase? = some (.resizing (some task)) := by
      rcases table.ready (m := m) ready with ⟨m', rfl⟩ | ready
      · obtain ⟨status, name, p, r, reply, ⟨e', mem, asks⟩, read⟩ := founded
        obtain ⟨task, rfl, -⟩ := asks.finds read
        exact ⟨task, Held.phase?_of_decode status asks.decoded⟩
      · exact resized ⟨m.status, before, ready⟩
    rcases table.progress copy with same | ⟨next, message, outcome, rfl, -⟩
    · obtain ⟨p, progress⟩ := encoded _ before
      rw [Held.phase?, after, Option.bind_some, progress_rendered (same.trans progress), ← progress]
      rwa [Held.phase?, before, Option.bind_some] at found
    · -- nothing comes after the resize
      obtain ⟨task, last⟩ := found
      obtain ⟨p, read, leads⟩ := founded.leads
      obtain rfl := Option.some.inj (last.symm.trans read)
      cases leads with
      | rename moved | skip moved => cases moved

theorem Held.Resized.drift {h h' : Held} (drift : S.Drifts h h') (resized : h.Resized) : h'.Resized := by
  rintro ⟨s, status, ready⟩
  rw [Held.phase?, Held.status_drift drift]
  exact resized ⟨s, (Held.status_drift drift).symm.trans status, ready⟩

theorem Run.resized (sound : start.Sound S) (empty : start.status = some {}) (run : Run S start past h) :
    ∀ e ∈ events past, e.before.Resized := by
  have first : start.Resized := by
    rintro ⟨s, status, ready⟩
    obtain rfl := Option.some.inj (empty.symm.trans status)
    cases ready
  have kept := run.keeps_founded (P := fun _ => True) (J := fun past h => h.Resized ∧ ∀ e ∈ events past, e.before.Resized)
    (I := fun past _ es _ h => h.Resized ∧ ∀ e ∈ events past ++ es, e.before.Resized) sound (encoded_of_empty empty)
    ⟨first, by simp [events]⟩ ?begins ?step ?ends fun _ _ => trivial
  case begins =>
    rintro past c h - ⟨resized, each⟩
    rw [List.append_nil]
    exact ⟨resized, each⟩
  case step =>
    rintro past c es st h e st' - ⟨resized, each⟩ drift tracks founded encoded deed
    have before := Held.Resized.drift drift resized
    rw [← List.append_assoc]
    exact ⟨deed.resized founded encoded before, forall_snoc each before⟩
  case ends =>
    rintro past c es st h r - each
    rw [events_snoc]
    exact each
  exact kept.2

/-- an invocation that finds a phase sends the request of that phase and nothing else, unless the machine is being
deleted, and until the resize is found done, now or before -/
def AsksOwn (S : Scene) (i : Invocation) : Prop :=
  ∀ first ∈ i.events.head?, ∀ p, first.before.phase? = some p → Tears S i.events ∨
    ∀ before e after target, i.events = before ++ e :: after → e.route? = some target →
      target = route p ∨ ∃ task, p = .resizing (some task) ∧ (first.before.ImageReady ∨ ∃ e' ∈ before, e'.Finds task)

theorem KeepsOwn.asksOwn {i : Invocation} (keeps : KeepsOwn S i.events st h) (resized : ∀ e ∈ i.events, e.before.Resized) :
    AsksOwn S i := by
  intro first mem p read
  refine (keeps.requests first mem).imp_right fun preceded before e after target split requests => ?_
  rcases preceded before e after split target requests with ⟨p', own, same⟩ | finished
  · obtain rfl := Option.some.inj (own.symm.trans read)
    exact .inl same
  · right
    rcases finished with ready | ⟨task, own, found⟩
    · obtain ⟨task, own⟩ := resized first (List.mem_of_mem_head? mem) ready
      exact ⟨task, Option.some.inj (read.symm.trans own), .inl ready⟩
    · exact ⟨task, Option.some.inj (read.symm.trans own), .inr found⟩

/-- a machine whose image the pipeline asks for is not settled -/
theorem Asks.unsettled {m : Machine} {name : Option String} {p : Phase} {r : Appliance.Request} {reply : Appliance.Reply}
    (asks : Asks c m name p e r reply) : ¬m.status.Settled := by
  rintro (ready | ⟨reason, failed⟩)
  · exact Bool.false_ne_true (asks.unready.symm.trans ready)
  · exact nomatch asks.sound.symm.trans failed

theorem Deed.settled (deed : Deed S c st e st') (founded : Founded c es e.before st)
    (settled : ∀ s, e.before.status = some s → s.Settled) : ∀ s, e.after.status = some s → s.Settled := by
  intro s' hs'
  cases deed.impact with
  | same status => exact settled s' (status.symm.trans hs')
  | released _ _ _ _ _ gone =>
    rw [Held.status, gone] at hs'
    cases hs'
  | restated table copy before after =>
    obtain rfl := Option.some.inj (after.symm.trans hs')
    have settled := settled _ before
    cases table with
    | enter | fail | finish =>
      obtain rfl := Option.some.inj copy
      obtain ⟨-, _, _, _, _, ⟨_, -, asks⟩, -⟩ := founded
      exact absurd settled asks.unsettled
    | record =>
      exact settled.of_same (Machine.imageCondition?_setCondition _ _ (by decide) ..)
    | publish =>
      refine settled.of_same ?_
      refine (Machine.imageCondition?_setCondition _ _ (by decide) ..).trans ?_
      refine (Machine.imageCondition?_setCondition _ _ (by decide) ..).trans ?_
      exact Machine.imageCondition?_setCondition _ _ (by decide) ..
    | await | forget => exact settled.of_same rfl

/-- once the image is settled it stays so, and nothing is asked for it -/
structure Closed (past : List Invocation) (es : List Event) (h : Held) : Prop where
  settled : (∃ e ∈ events past ++ es, e.before.Settled ∨ e.after.Settled) → ∀ s, h.status = some s → s.Settled
  closed : (events past ++ es).Pairwise fun e e' => e.before.Settled ∨ e.after.Settled → ¬e'.Pipelined
  unsettled : ∀ e ∈ events past ++ es, e.Pipelined → ¬e.before.Settled

theorem Closed.snoc (closed : Closed past es e.before) (deed : Deed S c st e st') (tracks : Tracks S e.before st)
    (founded : Founded c es e.before st) : Closed past (es ++ [e]) e.after := by
  have unsettled (pipelined : e.Pipelined) : ∃ s, e.before.status = some s ∧ ¬s.Settled := by
    obtain ⟨m, name, p, r, reply, -, status, asks, -⟩ := deed.pipelined tracks founded pipelined
    exact ⟨m.status, status, asks.unsettled⟩
  constructor <;> rw [← List.append_assoc]
  case settled =>
    intro was
    rcases exists_of_snoc was with old | was
    · exact deed.settled founded (closed.settled old)
    rcases was with ⟨s, status, settled⟩ | ⟨s, status, settled⟩
    · exact deed.settled founded fun s' hs' => Option.some.inj (status.symm.trans hs') ▸ settled
    · exact fun s' hs' => Option.some.inj (status.symm.trans hs') ▸ settled
  case closed =>
    apply pairwise_snoc closed.closed
    intro e' mem was pipelined
    obtain ⟨s, status, open_⟩ := unsettled pipelined
    exact open_ (closed.settled ⟨e', mem, was⟩ s status)
  case unsettled =>
    refine forall_snoc closed.unsettled ?_
    rintro pipelined ⟨s', status', settled⟩
    obtain ⟨s, status, open_⟩ := unsettled pipelined
    exact open_ (Option.some.inj (status'.symm.trans status) ▸ settled)

theorem Run.closed (sound : start.Sound S) (encoded : Encoded start) (run : Run S start past h) : Closed past [] h := by
  refine run.keeps_founded (P := fun _ => True) (J := fun past h => Closed past [] h)
    (I := fun past _ es _ h => Closed past es h) sound encoded ⟨by simp [events], by simp [events], by simp [events]⟩
    (fun _ _ _ _ closed => closed) ?step ?ends fun _ _ => trivial
  case step =>
    intro past c es st h e st' _ closed drift tracks founded encoded deed
    have closed : Closed past es e.before :=
      { closed with settled := fun was => by rw [Held.status_drift drift]; exact closed.settled was }
    exact closed.snoc deed tracks founded
  case ends =>
    intro past c es st h r _ closed
    constructor <;> rw [List.append_nil, events_snoc]
    case settled => exact closed.settled
    case closed => exact closed.closed
    case unsettled => exact closed.unsettled

/-- in every run from an empty status, whatever the appliance and the store answer and others write beside
the status: an invocation moves the stored phase once at most, along one edge to a later phase; it sends the request of
the phase that it found, at most once, and nothing else as long as the machine is not being deleted and its resize not
found done; for all submissions of a step but one, the write of the task came second or
raised; and none is sent once the image is ready or has failed -/
theorem image_only_forward (sound : start.Sound S) (empty : start.status = some {}) (run : Run S start past h) :
    (∀ i ∈ past, (∀ e ∈ i.events, e.Moves → e.Forward) ∧ (i.events.Pairwise fun e e' => ¬(e.Moves ∧ e'.Moves)) ∧
      AsksOwn S i ∧ (i.events.Pairwise fun e e' => ¬(e.Pipelined ∧ e'.Pipelined)) ∧
      ∀ first ∈ i.events.head?, ∀ p, first.before.phase? = some p →
        ∀ e ∈ i.events, e.Pipelined → e.route? = some (route p)) ∧
    (∀ k, (events past).countP (Event.submits k) ≤ losses (Unkept S k) past + 1) ∧
    ((events past).Pairwise fun e e' => e.before.Settled ∨ e.after.Settled → ¬e'.Pipelined) ∧
    ∀ e ∈ events past, e.Pipelined → ¬e.before.Settled := by
  have encoded := encoded_of_empty empty
  have resized := run.resized sound empty
  have closed := run.closed sound encoded
  have pairs := closed.closed
  have unsettled := closed.unsettled
  rw [List.append_nil] at pairs unsettled
  refine ⟨fun i hi => ?_, fun k => run.paced k sound encoded, pairs, unsettled⟩
  obtain ⟨_, moved⟩ := run.moved sound encoded i hi
  obtain ⟨_, _, keeps, inquired⟩ := run.inquired sound encoded i hi
  have asksOwn := keeps.asksOwn fun e he => resized e (List.mem_flatMap.2 ⟨i, hi, he⟩)
  exact ⟨moved.forward, moved.once, asksOwn, inquired.once, inquired.own⟩

/-- others may do what they like beside the status -/
def careless : Scene where
  ns := "default"
  name := "worker"
  allows _ _ := True

/-- a whole run through all four steps, the last of which goes on to the virtual machine -/
theorem image_only_forward_provisioning : Sample.held.Sound careless ∧ Sample.held.status = some {} ∧
    ∃ past h, Run careless Sample.held past h ∧
      (h.phase? = some (.resizing (some 10)) ∧ past.length = 9) ∧
      (∀ k, (events past).countP (Event.submits k) ≤ losses (Unkept careless k) past + 1) ∧
      ∀ i ∈ past, (∀ e ∈ i.events, e.Moves → e.Forward) ∧ (i.events.Pairwise fun e e' => ¬(e.Moves ∧ e'.Moves)) ∧
        AsksOwn careless i := by
  have sound : Sample.held.Sound careless := Sample.sound _
  have empty : Sample.held.status = some {} := by decide +kernel
  refine ⟨sound, empty, ?_⟩
  obtain ⟨past, h, run, seen⟩ := careless.exists_run Sample.held Sample.provisioning
    (fun r => decide (r.2.phase? = some (.resizing (some 10)) ∧ r.1.length = 9)) (by decide +kernel)
  obtain ⟨each, counted, -, -⟩ := image_only_forward sound empty run
  exact ⟨past, h, run, of_decide_eq_true seen, counted, fun i hi => ⟨(each i hi).1, (each i hi).2.1, (each i hi).2.2.1⟩⟩

/-- an invocation that finds a task sends the poll of that task and nothing else -/
def PollsOnly (i : Invocation) : Prop :=
  ∀ first ∈ i.events.head?, ∀ p, first.before.phase? = some p → p.task?.isSome = true →
    ∀ e ∈ i.events, ∀ target, e.route? = some target → target = route p

/-- the poll that finds the resize done is followed by the order of the virtual machine -/
theorem not_polls_only : ¬∀ (S : Scene) (start : Held) (past : List Invocation) (h : Held), start.Sound S →
    start.status = some {} → Run S start past h → ∀ i ∈ past, PollsOnly i := by
  intro only
  obtain ⟨past, h, run, seen⟩ := careless.exists_run Sample.held Sample.provisioning
    (fun r => r.1.any fun i => decide ((i.events.head?.bind (·.before.phase?)) = some (.resizing (some 10))) &&
      i.events.any fun e => decide (e.route? = some (.post, "/vm/"))) (by decide +kernel)
  simp only [List.any_eq_true, Bool.and_eq_true, decide_eq_true_eq] at seen
  obtain ⟨i, hi, found, e, he, ordered⟩ := seen
  obtain ⟨first, head, phase⟩ := Option.bind_eq_some_iff.1 found
  have same := only careless Sample.held past h (Sample.sound _) (by decide +kernel) run i hi first head _ phase rfl e he _
    ordered
  cases same

end Reconcile

end VmOperator
