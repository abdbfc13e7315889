import VmOperator.Proofs.Reconcile.Endings
import VmOperator.Proofs.Resource.Clusters
import VmOperator.Reconcile.Cluster

/-! One invocation for a cluster in any world: it fetches the cluster, and where that is not provisioned it sends one
write (`cluster_course`). -/

namespace VmOperator

namespace Store

def gotCluster (key : String) : Reply → Except Failure (Option Cluster)
  | .ok o => some <$> Cluster.ofValue o
  | .refused status reason =>
    if status.isNumber 404 then .ok none else .error (.fault (refusal "get FreeboxCluster" key status reason))

theorem getCluster_eq (ns name : Value) : (getCluster ns name).run =
    .call (.get .clusters ns name) fun reply => .done (gotCluster (pairKey ns name) reply) := by
  unfold getCluster
  rw [Action.run_bind_call (fetch_eq ..)]
  congr 1
  funext reply
  cases reply with
  | ok o =>
    dsimp only [fetched, gotCluster]
    generalize Cluster.ofValue o = read
    cases read <;> rfl
  | refused status reason =>
    dsimp only [fetched, gotCluster]
    cases status.isNumber 404 <;> rfl

def writtenCluster (key : String) : Reply → Except Failure Cluster
  | .ok o => Cluster.ofValue o
  | .refused status reason => .error (.fault (refusal "update FreeboxCluster status" key status reason))

theorem updateClusterStatus_eq {k : Cluster} {x : Value} (laid : k.toValue = .ok x) :
    (updateClusterStatus k).run = .call (.replaceStatus .clusters k.ns k.name x) fun reply =>
      .done (writtenCluster k.key reply) := by
  unfold updateClusterStatus
  rw [laid]
  show Program.call _ _ = _
  congr 1
  funext reply
  cases reply <;> rfl

end Store

namespace Reconcile

open World Store

variable {W : World} {h : Held} {c : Context} {k : Cluster} {ns name : String}

inductive Publishes (W : World) (h : Held) (c : Context) (k : Cluster) : List Event → Except Failure Outcome → Held → Prop
  | unwritable {f : Failure} (failed : (markProvisioned c.now k).toValue = .error f) : Publishes W h c k [] (.error f) h
  | written {e : Event} {x o : Value} {k' : Cluster} (laid : (markProvisioned c.now k).toValue = .ok x)
      (said : e.said = .called (.replaceStatus .clusters k.ns k.name x) (.ok o)) (happens : W h e)
      (read : Cluster.ofValue o = .ok k') : Publishes W h c k [e] (.ok .done) e.after
  | unreadable {e : Event} {x o : Value} {f : Failure} (laid : (markProvisioned c.now k).toValue = .ok x)
      (said : e.said = .called (.replaceStatus .clusters k.ns k.name x) (.ok o)) (happens : W h e)
      (failed : Cluster.ofValue o = .error f) : Publishes W h c k [e] (.error f) e.after
  | lost {e : Event} {x status reason : Value} (laid : (markProvisioned c.now k).toValue = .ok x)
      (said : e.said = .called (.replaceStatus .clusters k.ns k.name x) (.refused status reason)) (happens : W h e)
      (conflict : status.isNumber 409 = true) : Publishes W h c k [e] (.ok c.step) e.after
  | refused {e : Event} {x status reason : Value} (laid : (markProvisioned c.now k).toValue = .ok x)
      (said : e.said = .called (.replaceStatus .clusters k.ns k.name x) (.refused status reason)) (happens : W h e)
      (other : status.isNumber 409 = false) : Publishes W h c k [e]
        (.ok (.failed (.store (.refused "update FreeboxCluster status" k.key status reason)))) e.after

inductive Course (W : World) (h : Held) (c : Context) (ns name : String) :
    List Event → Except Failure Outcome → Held → Prop
  | missing {e : Event} {status reason : Value}
      (said : e.said = .called (.get .clusters (.string ns) (.string name)) (.refused status reason)) (happens : W h e)
      (gone : status.isNumber 404 = true) : Course W h c ns name [e] (.ok .done) e.after
  | unfetched {e : Event} {status reason : Value}
      (said : e.said = .called (.get .clusters (.string ns) (.string name)) (.refused status reason)) (happens : W h e)
      (other : status.isNumber 404 = false) : Course W h c ns name [e]
        (.ok (.failed (refusal "get FreeboxCluster" (pairKey (.string ns) (.string name)) status reason))) e.after
  | unreadable {e : Event} {o : Value} {f : Failure}
      (said : e.said = .called (.get .clusters (.string ns) (.string name)) (.ok o)) (happens : W h e)
      (failed : Cluster.ofValue o = .error f) : Course W h c ns name [e] (.error f) e.after
  | known {e : Event} {o : Value} {k : Cluster}
      (said : e.said = .called (.get .clusters (.string ns) (.string name)) (.ok o)) (happens : W h e)
      (read : Cluster.ofValue o = .ok k) (provisioned : k.provisioned = true) : Course W h c ns name [e] (.ok .done) e.after
  | published {e : Event} {o : Value} {k : Cluster} {es : List Event} {r : Except Failure Outcome} {h' : Held}
      (said : e.said = .called (.get .clusters (.string ns) (.string name)) (.ok o)) (happens : W h e)
      (read : Cluster.ofValue o = .ok k) (new : k.provisioned = false) (publishes : Publishes W e.after c k es r h') :
      Course W h c ns name (e :: es) r h'

/-- a failure of a reader is none that is reported -/
theorem plain_error {α : Type} {x : Except Failure α} {f : Failure} (plain : Plain x) (failed : x = .error f) :
    ∀ fault, f ≠ .fault fault :=
  fun fault same => plain fault (same ▸ failed)

theorem updateClusterStatus_of_error {f : Failure} (failed : k.toValue = .error f) :
    (updateClusterStatus k).run = .done (.error f) := by
  unfold updateClusterStatus
  rw [failed]
  rfl

theorem publishCluster_yields : W.Yields h (publishCluster c k) (fun es o => Publishes W h c k es (.ok o))
    fun es e h' => (∀ f, e = .fault f → Publishes W h c k es (.ok (.failed f)) h') ∧
      ((∀ f, e ≠ .fault f) → Publishes W h c k es (.error e) h') := by
  refine .tryCatch (.bind (.map ?_))
  cases laid : (markProvisioned c.now k).toValue with
  | error f =>
    have plain := plain_error (Cluster.plain_toValue _) laid
    rw [Yields, updateClusterStatus_of_error laid]
    refine Ensures.done ?_
    cases f with
    | fault f => exact absurd rfl (plain f)
    | _ => exact .throw ⟨fun _ same => absurd same (plain _), fun _ => .unwritable laid⟩
  | ok x =>
    refine .call (updateClusterStatus_eq laid) (fun e reply k' said happens read => ?_) fun e reply f said happens failed => ?_
    · cases reply with
      | ok o => exact .pure (.written laid said happens read)
      | refused => cases read
    · cases reply with
      | ok o =>
        have plain := plain_error (Cluster.plain_ofValue o) failed
        cases f with
        | fault f => exact absurd rfl (plain f)
        | _ => exact .throw ⟨fun _ same => absurd same (plain _), fun _ => .unreadable laid said happens failed⟩
      | refused status reason =>
        cases conflict : status.isNumber 409 with
        | true =>
          rw [writtenCluster, refusal_of_conflict conflict] at failed
          cases failed
          exact .pure (.lost laid said happens conflict)
        | false =>
          rw [writtenCluster, refusal_of_other conflict] at failed
          cases failed
          refine .throw ⟨fun _ same => ?_, fun plain => absurd rfl (plain _)⟩
          cases same
          exact .refused laid said happens conflict

theorem cluster_course (c : Context) (ns name : String) : W.Ensures h (cluster c ns name).run (Course W h c ns name) := by
  refine Yields.ensures (reported_yields (.bind ?_))
  refine .call (getCluster_eq ..) (fun e reply found said happens got => ?_) fun e reply f said happens failed => ?_
  · cases reply with
    | ok o =>
      obtain ⟨k, read, rfl⟩ := map_eq_ok.1 got
      dsimp only
      split
      · rename_i provisioned
        exact .pure (.known said happens read provisioned)
      · rename_i new
        have new := Bool.eq_false_iff.2 new
        exact publishCluster_yields.mono (fun es o h' => .published said happens read new) fun es e' h' ended =>
          ⟨fun f same => .published said happens read new (ended.1 f same),
            fun plain => .published said happens read new (ended.2 plain)⟩
    | refused status reason =>
      rw [gotCluster] at got
      split at got
      · cases got
        rename_i gone
        exact .pure (.missing said happens gone)
      · cases got
  · cases reply with
    | ok o =>
      have unread : Cluster.ofValue o = .error f := by
        rw [gotCluster] at failed
        generalize Cluster.ofValue o = read at failed
        cases read <;> cases failed
        rfl
      exact ⟨fun _ same => absurd same (plain_error (Cluster.plain_ofValue o) unread _), fun _ => .unreadable said happens unread⟩
    | refused status reason =>
      rw [gotCluster] at failed
      split at failed
      · cases failed
      · rename_i other
        cases failed
        refine ⟨fun _ same => ?_, fun plain => absurd rfl (plain _)⟩
        cases same
        exact .unfetched said happens (Bool.eq_false_iff.2 other)

end Reconcile
end VmOperator
