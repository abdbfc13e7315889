import VmOperator.Proofs.FinalizerGate
import VmOperator.Proofs.Reconcile.Stopping
import VmOperator.Proofs.Rehearsal

/-! The wait for the stop of a virtual machine that is to be deleted. An invocation that finds it running deletes it once it
was given the full count, and waits otherwise (`Invocation.Exact`). Over a run the count tells how many looks were counted,
so the wait is over after as many of them as the settings ask for (`stop_polling_bounded`). -/

namespace VmOperator

namespace Event

def restates (e : Event) : Bool :=
  match e.said with
  | .called (.replaceStatus ..) _ => true
  | _ => false

variable {e : Event} {route : Appliance.Method × String}

theorem not_restates_of_route (routed : e.route? = some route) : ¬e.restates = true := by
  unfold route? at routed
  unfold restates
  cases said : e.said with
  | sent => exact nofun
  | called =>
    rw [said] at routed
    cases routed

theorem not_acceptsStatus_of_route (routed : e.route? = some route) : ¬e.acceptsStatus = true := by
  intro accepts
  refine not_restates_of_route routed ?_
  unfold acceptsStatus at accepts
  unfold restates
  split at accepts
  · rename_i said
    rw [said]
  · cases accepts

end Event

def Held.stopAttempts? (h : Held) : Option Int := h.status.map (·.stopAttempts)

namespace Teardown

open Appliance (vmPath)
open Reconcile (forget await)

/-- an invocation of the teardown, on the machine that it was given -/
structure Invocation where
  context : Context
  machine : Machine
  events : List Event
  result : Except Failure Outcome

namespace Invocation

variable (i : Invocation) (number : Int)

def count : Int := i.machine.status.stopAttempts

def Sends (method : Appliance.Method) (path : String) : Prop := ∃ e ∈ i.events, e.route? = some (method, path)

def Deletes : Prop := i.Sends .delete (vmPath (.int number))

def Finds (stopped : Bool) : Prop := ∃ e ∈ i.events, Teardown.Finds i.context.settings number stopped e

/-- it asks to be called again and deletes nothing; its one write of the status raises the stored count by one, or comes
second -/
structure Waits : Prop where
  requeues : ∃ after, i.result = .ok (.requeue after)
  keeps : ∀ path, ¬i.Sends .delete path
  counts : ∃ w, i.events.filter Event.restates = [w] ∧
    ((w.acceptsStatus = true ∧ w.before.stopAttempts? = some i.count ∧ w.after.stopAttempts? = some (i.count + 1)) ∨
      (w.loses = true ∧ w.after = w.before))

/-- what an invocation does with a recorded virtual machine that may be looked for `limit` times -/
structure Exact (limit : Int) : Prop where
  looks : i.Finds number true ↔ ¬i.Finds number false
  deletes : i.Deletes number ↔ i.Finds number true ∨ limit ≤ i.count
  waits : ¬i.Deletes number → i.Waits
  stops : i.Sends .post (stopPath number) ↔ i.Finds number false ∧ i.count = 0 ∧ 0 < limit

variable {i number} {S : Scene} {e : Event} {es : List Event} {s : Settings} {stopped stopped' : Bool}

theorem route_of_finds (finds : Teardown.Finds s number stopped e) : e.route? = some (.get, vmPath (.int number)) := by
  obtain ⟨reply, -, said, -⟩ := finds
  rw [Event.route?, said]
  rfl

/-- there is one look, so one thing is found -/
theorem finds_iff (finds : Teardown.Finds s number stopped e)
    (others : ∀ e' ∈ es, e'.route? ≠ some (.get, vmPath (.int number))) :
    (∃ e' ∈ e :: es, Teardown.Finds s number stopped' e') ↔ stopped' = stopped := by
  constructor
  · rintro ⟨e', mem, finds'⟩
    rcases List.mem_cons.1 mem with rfl | mem
    · obtain ⟨_, _, said, read, rfl⟩ := finds
      obtain ⟨_, _, said', read', rfl⟩ := finds'
      cases said.symm.trans said'
      cases read.symm.trans read'
      rfl
    · exact absurd (route_of_finds finds') (others e' mem)
  · rintro rfl
    exact ⟨e, List.mem_cons_self .., finds⟩

theorem deletes_of_deleting (deleting : Deleting i.context i.machine number i.events) : i.Deletes number := by
  obtain ⟨c, m, es, r⟩ := i
  cases deleting with
  | @mk _ d _ _ _ _ delete => exact ⟨d, by simp, delete⟩

theorem exact_of_deleting (deleting : Deleting i.context i.machine number i.events) :
    i.Exact number i.context.settings.stopPollAttempts := by
  have deletes := deletes_of_deleting deleting
  obtain ⟨c, m, es, r⟩ := i
  cases deleting with
  | @mk e d es stopped found ended delete clears =>
    have others : ∀ e' ∈ d :: es, e'.route? ≠ some (.get, vmPath (.int number)) := by
      refine List.forall_mem_cons.2 ⟨by rw [delete]; nofun, fun e' mem routed => ?_⟩
      cases (clears e' mem).route _ _ routed
    have finds {b : Bool} : Finds ⟨c, m, e :: d :: es, r⟩ number b ↔ b = stopped := finds_iff found others
    refine ⟨?looks, iff_of_true deletes (ended.imp_left fun stop => finds.2 stop.symm), fun kept => absurd deletes kept,
      iff_of_false ?unstopped ?ended⟩
    case looks =>
      rw [finds, finds]
      cases stopped <;> simp
    case unstopped =>
      rintro ⟨e', mem, routed⟩
      rcases List.mem_cons.1 mem with rfl | mem
      · cases (route_of_finds found).symm.trans routed
      rcases List.mem_cons.1 mem with rfl | mem
      · cases delete.symm.trans routed
      · have same := congrArg Prod.snd ((clears e' mem).route _ _ routed)
        exact Reconcile.vmPath_ne_remove (.int number) "/stop" same
    case ended =>
      rintro ⟨running, zero, positive⟩
      obtain rfl := finds.1 running
      have late : c.settings.stopPollAttempts ≤ m.status.stopAttempts := ended.resolve_left nofun
      have counted : m.status.stopAttempts = 0 := zero
      dsimp only at positive
      omega

theorem exact_of_waiting (waiting : Waiting S i.context i.machine number i.events i.result) :
    i.Exact number i.context.settings.stopPollAttempts := by
  obtain ⟨c, m, es, r⟩ := i
  generalize events : es = es' at waiting
  dsimp only at waiting
  cases waiting with
  | @mk e w kills after found due killed first counts =>
    subst events
    obtain ⟨x, reply, said⟩ := counts.said
    have unrouted : w.route? = none := by rw [Event.route?, said]
    have writes : w.restates = true := by rw [Event.restates, said]
    have others : ∀ e' ∈ kills ++ [w], ∀ path, e'.route? ≠ some (.get, path) ∧ e'.route? ≠ some (.delete, path) := by
      refine List.forall_mem_append.2 ⟨fun k mem path => ?_, List.forall_mem_singleton.2 fun path => ?_⟩
      · rw [killed k mem]
        constructor <;> simp
      · rw [unrouted]
        constructor <;> simp
    have finds {b : Bool} : Finds ⟨c, m, e :: (kills ++ [w]), .ok (.requeue after)⟩ number b ↔ b = false :=
      finds_iff found fun e' mem => (others e' mem _).1
    have keeps : ∀ path, ¬Sends ⟨c, m, e :: (kills ++ [w]), .ok (.requeue after)⟩ .delete path := by
      rintro path ⟨e', mem, routed⟩
      rcases List.mem_cons.1 mem with rfl | mem
      · cases (route_of_finds found).symm.trans routed
      · exact (others e' mem path).2 routed
    refine ⟨?looks, iff_of_false (keeps _) ?undue, fun _ => ⟨⟨after, rfl⟩, keeps, w, ?only, ?counted⟩, ?stops⟩
    case looks => simp [finds]
    case undue =>
      rintro (stopped | late)
      · cases finds.1 stopped
      · exact absurd (show c.settings.stopPollAttempts ≤ m.status.stopAttempts from late) (by omega)
    case only =>
      have asked : ∀ k ∈ kills, ¬k.restates = true := fun k mem => Event.not_restates_of_route (killed k mem)
      rw [List.filter_cons_of_neg (Event.not_restates_of_route (route_of_finds found)), List.filter_append,
        List.filter_eq_nil_iff.2 asked, List.filter_cons_of_pos writes]
      rfl
    case counted =>
      refine counts.after.imp ?_ And.right
      rintro ⟨accepted, after⟩
      refine ⟨accepted, ?_, ?_⟩
      · rw [Held.stopAttempts?, counts.before]
        rfl
      · rw [Held.stopAttempts?, after]
        rfl
    case stops =>
      constructor
      · rintro ⟨e', mem, routed⟩
        rcases List.mem_cons.1 mem with rfl | mem
        · cases (route_of_finds found).symm.trans routed
        rcases List.mem_append.1 mem with mem | mem
        · have zero := first.1 (List.ne_nil_of_mem mem)
          exact ⟨finds.2 rfl, zero, by dsimp only; omega⟩
        · rw [List.mem_singleton.1 mem, unrouted] at routed
          cases routed
      · rintro ⟨-, zero, -⟩
        obtain ⟨k, mem⟩ := List.exists_mem_of_ne_nil kills (first.2 zero)
        exact ⟨k, by simp [mem], killed k mem⟩

end Invocation

/-- one invocation after the other, each on the machine as it was just read; others may write in between -/
inductive Runs (S : Scene) (start : Held) : List Invocation → Held → Prop
  | nil : Runs S start [] start
  | snoc {past : List Invocation} {h h' h'' : Held} {c : Context} {m : Machine} {es : List Event}
      {r : Except Failure Outcome} (runs : Runs S start past h) (drift : S.Drifts h h') (inHand : InHand S h' m)
      (plays : S.Plays h' (run c m).run es r h'') : Runs S start (past ++ [⟨c, m, es, r⟩]) h''

/-- a machine with its finalizer is torn down: the virtual machine is found each time, and no write of the status is
refused but one that came second -/
structure Invocation.Polls (number limit : Int) (i : Invocation) : Prop where
  held : i.machine.hasFinalizer = true
  writable : i.machine.Writable
  limited : i.context.settings.stopPollAttempts = limit
  obliging : ∀ e ∈ i.events, obliges i.context.settings number e = true

def accepted (past : List Invocation) : Nat := (past.flatMap (·.events)).countP (·.acceptsStatus)

/-- the virtual machine is recorded and its count within a bound, or it was forgotten with its count -/
def Within (number bound : Int) (s : MachineStatus) : Prop :=
  s.vmId = some number ∧ s.stopAttempts ≤ bound ∨ s.vmId = none ∧ s.stopAttempts = 0

/-- what an invocation meets before which nothing was deleted: the count tells how many looks were counted; it deletes a
running machine only as the first one that was given the full count -/
structure Foremost (number limit first : Int) (before : List Invocation) (i : Invocation) : Prop where
  recorded : i.machine.status.vmId = some number
  counted : i.count = first + accepted before
  deletes : i.Deletes number → i.Finds number false →
    (∀ j ∈ before, j.count < limit) ∧ limit ≤ i.count ∧ accepted before = (limit - first).toNat

/-- the wait for the stop is bounded and exact, where it was counted up to `first` before -/
structure Polling (number limit first : Int) (past : List Invocation) : Prop where
  each : ∀ i ∈ past, i.machine.status.vmId = some number → i.Exact number limit
  bounded : ∀ i ∈ past, ∀ e ∈ i.events, ∀ s, e.after.status = some s → Within number (max first limit) s
  foremost : ∀ before i after, past = before ++ i :: after → (∀ j ∈ before, ¬j.Deletes number) →
    Foremost number limit first before i

structure Standing (number limit first : Int) (past : List Invocation) (h : Held) : Prop where
  polling : Polling number limit first past
  within : ∀ s, h.status = some s → Within number (max first limit) s
  kept : (∀ j ∈ past, ¬j.Deletes number) → (∃ s, h.status = some s ∧ s.vmId = some number ∧
      s.stopAttempts = first + accepted past) ∧
    (∀ j ∈ past, j.count < limit) ∧ (accepted past = 0 ∨ first + accepted past ≤ limit)

section Runs

variable {S : Scene} {start h h' h'' : Held} {number limit first : Int} {past : List Invocation} {c : Context} {m : Machine}
  {es : List Event} {r : Except Failure Outcome}

theorem accepted_snoc (past : List Invocation) (i : Invocation) :
    accepted (past ++ [i]) = accepted past + i.events.countP (·.acceptsStatus) := by
  simp [accepted]

/-- after a wait the status is as it was counted, or as it was -/
theorem Waiting.status (waiting : Waiting S c m number es r) (plays : S.Plays h' (run c m).run es r h'') :
    es.countP (·.acceptsStatus) = 1 ∧ h''.status = some (await m).status.rendered ∨
      es.countP (·.acceptsStatus) = 0 ∧ h''.status = some m.status := by
  have last := plays.inWorld.after_eq
  cases waiting with
  | @mk e w kills after found due killed first counts =>
    have rejected : kills.countP (·.acceptsStatus) = 0 :=
      List.countP_eq_zero.2 fun k mem => Event.not_acceptsStatus_of_route (killed k mem)
    have looks := Event.not_acceptsStatus_of_route (Invocation.route_of_finds found)
    have left : h'' = w.after := by rw [last, ← List.cons_append, List.getLast?_concat]; rfl
    rw [List.countP_cons_of_neg looks, List.countP_append, List.countP_singleton, rejected, left]
    rcases counts.after with ⟨accepts, after⟩ | ⟨rejects, -, same⟩
    · exact .inl ⟨by simp [accepts], after⟩
    · exact .inr ⟨by simp [rejects], same ▸ counts.before⟩

theorem Waiting.accepts (waiting : Waiting S c m number es r) :
    ∀ e ∈ es, e.acceptsStatus = true → e.after.status = some (await m).status.rendered := by
  cases waiting with
  | mk found due killed first counts =>
    have looks := Event.not_acceptsStatus_of_route (Invocation.route_of_finds found)
    refine List.forall_mem_cons.2 ⟨fun accepts => absurd accepts looks, List.forall_mem_append.2
      ⟨fun k mem accepts => absurd accepts (Event.not_acceptsStatus_of_route (killed k mem)),
        List.forall_mem_singleton.2 fun accepts => ?_⟩⟩
    rcases counts.after with ⟨-, after⟩ | ⟨rejects, -⟩
    · exact after
    · cases accepts.symm.trans rejects

theorem Deleting.accepts (deleting : Deleting c m number es) :
    ∀ e ∈ es, e.acceptsStatus = true → e.after.status = some (forget m).status.rendered := by
  cases deleting with
  | mk found ended delete clears =>
    have looks := Event.not_acceptsStatus_of_route (Invocation.route_of_finds found)
    have deletes := Event.not_acceptsStatus_of_route delete
    exact List.forall_mem_cons.2 ⟨fun accepts => absurd accepts looks, List.forall_mem_cons.2
      ⟨fun accepts => absurd accepts deletes, fun e mem => (clears e mem).status⟩⟩

theorem Waiting.due (waiting : Waiting S c m number es r) : m.status.stopAttempts < c.settings.stopPollAttempts := by
  cases waiting
  assumption

/-- every status that is accepted is within the bound -/
theorem accepts_within (polls : Invocation.Polls number limit ⟨c, m, es, r⟩) (inHand : InHand S h m)
    (plays : S.Plays h (run c m).run es r h') (within : Within number (max first limit) m.status) :
    ∀ e ∈ es, e.acceptsStatus = true → ∀ s, e.after.status = some s → Within number (max first limit) s := by
  intro e mem accepts s status
  have forgotten (after : e.after.status = some (forget m).status.rendered) : Within number (max first limit) s := by
    obtain rfl := Option.some.inj (after.symm.trans status)
    exact .inr ⟨rfl, rfl⟩
  -- a count is raised only below the limit, and the record goes together with its count
  rcases within with ⟨recorded, -⟩ | ⟨gone, -⟩
  · rcases run_attempts inHand polls.held recorded polls.writable plays polls.obliging with deleting | waiting
    · exact forgotten (deleting.accepts e mem accepts)
    · obtain rfl := Option.some.inj ((waiting.accepts e mem accepts).symm.trans status)
      have due := waiting.due
      have limited : c.settings.stopPollAttempts = limit := polls.limited
      refine .inl ⟨recorded, ?_⟩
      change m.status.stopAttempts + 1 ≤ _
      omega
  · have clears : ∀ e ∈ es, Clears m e := by
      have clearing := run_clears (S := S) (h := h) (c := c) gone es r h' plays.inWorld
      cases r with
      | ok => exact clearing
      | error => exact clearing
    exact forgotten ((clears e mem).status accepts)

theorem exact_of_polls (polls : Invocation.Polls number limit ⟨c, m, es, r⟩) (inHand : InHand S h m)
    (plays : S.Plays h (run c m).run es r h') (recorded : m.status.vmId = some number) :
    Invocation.Exact ⟨c, m, es, r⟩ number limit := by
  obtain rfl := polls.limited
  rcases run_attempts inHand polls.held recorded polls.writable plays polls.obliging with deleting | waiting
  · exact Invocation.exact_of_deleting deleting
  · exact Invocation.exact_of_waiting waiting

theorem Standing.foremost (standing : Standing number limit first past h) (status : h.status = some m.status)
    (polled : m.status.vmId = some number → Invocation.Exact ⟨c, m, es, r⟩ number limit)
    (none : ∀ j ∈ past, ¬j.Deletes number) : Foremost number limit first past ⟨c, m, es, r⟩ := by
  obtain ⟨⟨s, stored, recorded, counted⟩, below, within⟩ := standing.kept none
  obtain rfl := Option.some.inj (status.symm.trans stored)
  refine ⟨recorded, counted, fun deletes running => ?_⟩
  have poll := polled recorded
  have late : limit ≤ m.status.stopAttempts :=
    (poll.deletes.1 deletes).resolve_left fun stopped => poll.looks.1 stopped running
  exact ⟨below, late, by omega⟩

/-- an invocation after which nothing was deleted was a wait, and its look was counted or lost -/
theorem Standing.kept_snoc (standing : Standing number limit first past h) (status : h.status = some m.status)
    (polls : Invocation.Polls number limit ⟨c, m, es, r⟩) (inHand : InHand S h' m)
    (plays : S.Plays h' (run c m).run es r h'') (none : ∀ j ∈ past ++ [⟨c, m, es, r⟩], ¬j.Deletes number) :
    (∃ s, h''.status = some s ∧ s.vmId = some number ∧ s.stopAttempts = first + accepted (past ++ [⟨c, m, es, r⟩])) ∧
      (∀ j ∈ past ++ [⟨c, m, es, r⟩], j.count < limit) ∧
      (accepted (past ++ [⟨c, m, es, r⟩]) = 0 ∨ first + accepted (past ++ [⟨c, m, es, r⟩]) ≤ limit) := by
  obtain ⟨before, kept⟩ := List.forall_mem_append.1 none
  obtain ⟨⟨s, stored, recorded, counted⟩, below, within⟩ := standing.kept before
  obtain rfl := Option.some.inj (status.symm.trans stored)
  have waiting : Waiting S c m number es r := by
    rcases run_attempts inHand polls.held recorded polls.writable plays polls.obliging with deleting | waiting
    · have deletes : Invocation.Deletes ⟨c, m, es, r⟩ number := Invocation.deletes_of_deleting deleting
      exact absurd deletes (kept _ (List.mem_singleton_self _))
    · exact waiting
  have due := waiting.due
  have limited : c.settings.stopPollAttempts = limit := polls.limited
  rw [accepted_snoc]
  refine ⟨?_, List.forall_mem_append.2 ⟨below, List.forall_mem_singleton.2 ?_⟩, ?_⟩
  · rcases waiting.status plays with ⟨one, after⟩ | ⟨zero, after⟩
    · refine ⟨_, after, recorded, ?_⟩
      change m.status.stopAttempts + 1 = _
      dsimp only
      omega
    · refine ⟨_, after, recorded, ?_⟩
      dsimp only
      omega
  · change m.status.stopAttempts < limit
    omega
  · rcases waiting.status plays with ⟨one, -⟩ | ⟨zero, -⟩ <;> dsimp only <;> omega

theorem Standing.snoc (standing : Standing number limit first past h) (polls : Invocation.Polls number limit ⟨c, m, es, r⟩)
    (drift : S.Drifts h h') (inHand : InHand S h' m) (plays : S.Plays h' (run c m).run es r h'') :
    Standing number limit first (past ++ [⟨c, m, es, r⟩]) h'' := by
  have status : h.status = some m.status := (Held.status_drift drift).symm.trans inHand.status
  have within := standing.within m.status status
  have poll := exact_of_polls polls inHand plays
  obtain ⟨events, last⟩ := plays.inWorld.status_of_accepted (fun _ _ => id)
    (fun s stored => by rwa [← Option.some.inj (inHand.status.symm.trans stored)])
    (accepts_within polls inHand plays within)
  exact {
    polling := {
      each := Reconcile.forall_snoc standing.polling.each poll
      bounded := Reconcile.forall_snoc standing.polling.bounded events
      foremost := Reconcile.forall_split_snoc standing.polling.foremost (standing.foremost status poll) }
    within := last
    kept := standing.kept_snoc status polls inHand plays }

/-- Whatever others write meanwhile, as long as the virtual machine is found and no write of the status is refused but one
that came second: an invocation deletes the virtual machine exactly where it is stopped or was given the full count, and
otherwise asks to be called again, its one write raising the count by one or coming second. The stop is asked for exactly
where a running machine is given with the count zero below the limit. The count of a recorded machine stays within the
larger of the limit and what it was at first, and goes with the record. A running machine is deleted for the first time
after as many counted looks as the limit exceeds the first count. -/
theorem stop_polling_bounded {s : MachineStatus} (stored : start.status = some s) (recorded : s.vmId = some number)
    (runs : Runs S start past h) (polls : ∀ i ∈ past, i.Polls number limit) : Polling number limit s.stopAttempts past := by
  -- by induction on the run; until something is deleted the stored count carries how many looks were counted
  have standing : Standing number limit s.stopAttempts past h := by
    induction runs with
    | nil =>
      refine ⟨⟨by simp, by simp, by simp⟩, fun s' stored' => ?_, fun _ => ?_⟩
      · obtain rfl := Option.some.inj (stored.symm.trans stored')
        exact .inl ⟨recorded, Int.le_max_left ..⟩
      · exact ⟨⟨s, stored, recorded, by simp [accepted]⟩, by simp, .inl rfl⟩
    | snoc runs drift inHand plays ih =>
      obtain ⟨before, last⟩ := List.forall_mem_append.1 polls
      exact (ih before).snoc (List.forall_mem_singleton.1 last) drift inHand plays
  exact standing.polling

end Runs

section Rehearsed

variable {S : Scene} {start h h' : Held} {past is : List Invocation} {cues : List (Context × List Cue)}

def rehearse (S : Scene) (h : Held) : List (Context × List Cue) → Option (List Invocation × Held)
  | [] => some ([], h)
  | (c, cues) :: rest =>
    (h.object.bind fun o => (Machine.ofValue o).toOption).bind fun m =>
      (S.rehearse (run c m).run h cues).bind fun (es, r, h') =>
        if h.Sound S then (rehearse S h' rest).map fun (is, last) => (⟨c, m, es, r⟩ :: is, last) else none

theorem runs_of_rehearse (runs : Runs S start past h) (played : rehearse S h cues = some (is, h')) :
    Runs S start (past ++ is) h' := by
  induction cues generalizing past h is with
  | nil =>
    cases played
    rwa [List.append_nil]
  | cons cue cues ih =>
    obtain ⟨m, read, played⟩ := Option.bind_eq_some_iff.1 played
    obtain ⟨o, object, read⟩ := Option.bind_eq_some_iff.1 read
    obtain ⟨⟨es, r, h''⟩, first, played⟩ := Option.bind_eq_some_iff.1 played
    obtain ⟨sound, played⟩ := Option.ite_none_right_eq_some.1 played
    obtain ⟨⟨is, last⟩, played, same⟩ := Option.map_eq_some_iff.1 played
    cases same
    rw [List.append_cons]
    exact ih (.snoc runs .still (.of_ofValue sound object (ok_of_toOption read)) (Scene.plays_of_rehearse first)) played

theorem exists_runs (start : Held) (cues : List (Context × List Cue)) (p : List Invocation → Bool)
    (played : (rehearse S start cues).any (fun r => p r.1) = true) : ∃ past h, Runs S start past h ∧ p past = true := by
  obtain ⟨⟨past, h⟩, rehearsed, holds⟩ := (Option.any_eq_true ..).1 played
  exact ⟨past, h, runs_of_rehearse .nil rehearsed, holds⟩

end Rehearsed

def leaving (count : Int) : Value := .object [
  ("metadata", .object [("namespace", .string "default"), ("name", .string "worker"), ("resourceVersion", .string "1"),
    ("finalizers", .array [Machine.finalizerValue]), ("deletionTimestamp", .string "2024-01-01T00:00:00Z")]),
  ("spec", .object [("imageURL", .string "http://images/disk.raw"), ("vcpus", .int 1), ("memoryMB", .int 1024),
    ("diskSizeGB", .int 10)]),
  ("status", .object [("vmId", .int 5), ("teardown", .object [("stopAttempts", .int count)])])]

def limited (limit : Int) : Context := { Sample.context with settings := { stopPollAttempts := limit } }

section Decided

variable (s : Settings) (i : Invocation) (number limit : Int) (stopped : Bool) (e : Event)

instance : Decidable (Finds s number stopped e) :=
  match said : e.said with
  | .sent r reply =>
    decidable_of_iff (r = look number ∧
      ((Appliance.vmQuery s (.int number)).read reply).toOption.any (·.vm.isStopped = stopped) = true) <| by
      constructor
      · rintro ⟨rfl, found⟩
        obtain ⟨known, read, same⟩ := exists_of_any found
        exact ⟨reply, known, said, read, of_decide_eq_true same⟩
      · rintro ⟨_, known, sent, read, rfl⟩
        cases said.symm.trans sent
        exact ⟨rfl, by simp [read, Except.toOption]⟩
  | .called .. => isFalse fun ⟨_, _, sent, _⟩ => absurd (said.symm.trans sent) nofun

instance (method : Appliance.Method) (path : String) : Decidable (i.Sends method path) :=
  inferInstanceAs (Decidable (∃ e ∈ i.events, e.route? = some (method, path)))

instance : Decidable (i.Deletes number) := inferInstanceAs (Decidable (i.Sends ..))

instance : Decidable (i.Finds number stopped) :=
  inferInstanceAs (Decidable (∃ e ∈ i.events, Teardown.Finds i.context.settings number stopped e))

instance : Decidable (i.Polls number limit) :=
  decidable_of_iff (i.machine.hasFinalizer = true ∧ ((i.machine.stored.get? "spec").getD (.object [])).fields.isOk = true ∧
      i.context.settings.stopPollAttempts = limit ∧ ∀ e ∈ i.events, obliges i.context.settings number e = true)
    ⟨fun ⟨held, writable, limited, obliging⟩ => ⟨held, writable, limited, obliging⟩,
      fun ⟨held, writable, limited, obliging⟩ => ⟨held, writable, limited, obliging⟩⟩

end Decided

/-- two looks are waited for: the first stop fails, the count of it is lost, and the virtual machine never stops -/
theorem stop_polling_bounded_twice : ∃ past i h, Runs Sample.alone ⟨some (leaving 0), [.string "1"]⟩ (past ++ [i]) h ∧
    (∀ j ∈ past, ¬j.Deletes 5) ∧ i.Deletes 5 ∧ i.count = 2 ∧ accepted past = 2 := by
  obtain ⟨all, h, runs, seen⟩ := exists_runs (S := Sample.alone) ⟨some (leaving 0), [.string "1"]⟩
    [(limited 2, [.numbered 5, .reply (.unreachable "timeout"), .refusal (.int 409) .null]),
      (limited 2, [.numbered 5, .result .null, .takes "2"]),
      (limited 2, [.numbered 5, .takes "3"]),
      (limited 2, [.numbered 5, .result .null, .takes "4", .takes "5"])]
    (fun all => decide ((∀ j ∈ all, j.Polls 5 2) ∧ (∀ j ∈ all.dropLast, ¬j.Deletes 5) ∧
      ∃ i ∈ all.getLast?, i.Deletes 5 ∧ i.Finds 5 false ∧ i.count = 2)) (by decide +kernel)
  obtain ⟨polls, none, i, last, deletes, running, full⟩ := of_decide_eq_true seen
  obtain ⟨past, rfl⟩ := List.getLast?_eq_some_iff.1 last
  rw [List.dropLast_concat] at none
  have stored : Held.status ⟨some (leaving 0), [.string "1"]⟩ = some { ({} : MachineStatus) with vmId := some 5 } := by
    decide +kernel
  have foremost := (stop_polling_bounded stored rfl runs polls).foremost _ i [] rfl none
  exact ⟨_, i, h, runs, none, deletes, full, (foremost.deletes deletes running).2.2⟩

/-- a count below zero is forgotten with its virtual machine, and is zero then -/
theorem not_stop_polling_bounded : ¬∀ (S : Scene) (start h : Held) (past : List Invocation) (s : MachineStatus)
    (number limit : Int), start.status = some s → s.vmId = some number → Runs S start past h →
    (∀ i ∈ past, i.Polls number limit) → ∀ i ∈ past, ∀ e ∈ i.events, ∀ s', e.after.status = some s' →
      s'.stopAttempts ≤ max s.stopAttempts limit := by
  intro bounded
  obtain ⟨past, h, runs, seen⟩ := exists_runs (S := Sample.alone) ⟨some (leaving (-5)), [.string "1"]⟩
    [(limited (-10), [.numbered 5, .result .null, .takes "2", .refusal (.int 409) .null])]
    (fun past => decide ((∀ j ∈ past, j.Polls 5 (-10)) ∧
      ∃ i ∈ past, ∃ e ∈ i.events, e.after.stopAttempts? = some 0)) (by decide +kernel)
  obtain ⟨polls, i, hi, e, he, zero⟩ := of_decide_eq_true seen
  have stored : Held.status ⟨some (leaving (-5)), [.string "1"]⟩ =
      some { ({} : MachineStatus) with vmId := some 5, stopAttempts := -5 } := by decide +kernel
  obtain ⟨s', status, counted⟩ := Option.map_eq_some_iff.1 zero
  have below := bounded _ _ h past _ 5 (-10) stored rfl runs polls i hi e he s' status
  rw [counted] at below
  exact absurd below (by decide)

end Teardown

end VmOperator
