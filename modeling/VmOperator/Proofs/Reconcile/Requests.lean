import VmOperator.Proofs.Reconcile.Effects

/-! Which requests are whose. Method and path tell the pipeline's requests and the orders of virtual machines
from all others. -/

namespace VmOperator

theorem Value.head_text_int (n : Int) : (Value.int n).text.toList.head? ≠ some 'd' := by
  change (toString n).toList.head? ≠ _
  cases n with
  | ofNat n =>
    intro head
    have mem : 'd' ∈ (Nat.repr n).toList := List.mem_of_mem_head? head
    rw [Nat.toList_repr] at mem
    cases Nat.isDigit_of_mem_toDigits (by decide) (by decide) mem
  | negSucc n =>
    change ("-" ++ Nat.repr (n + 1)).toList.head? ≠ _
    rw [String.toList_append]
    nofun

/-- texts whose beginnings differ -/
theorem append_ne_append {a b : String} (apart : ¬a.toList <+: b.toList ∧ ¬b.toList <+: a.toList) (s t : String) :
    a ++ s ≠ b ++ t := by
  intro same
  have left : a.toList <+: (a ++ s).toList := by rw [String.toList_append]; exact List.prefix_append ..
  have right : b.toList <+: (a ++ s).toList := by rw [same, String.toList_append]; exact List.prefix_append ..
  rcases List.prefix_or_prefix_of_prefix left right with h | h
  · exact apart.1 h
  · exact apart.2 h

namespace Appliance

theorem vmPath_ne_poll (id : Int) {path : String} (poll : path ∈ ImagePipeline.pollPaths) (task : String) :
    vmPath (.int id) ≠ path ++ task := by
  rcases List.mem_cons.1 poll with rfl | poll
  · exact append_ne_append (a := "/vm/") (b := "/downloads/") (by decide) _ _
  rcases List.mem_cons.1 poll with rfl | poll
  · exact append_ne_append (a := "/vm/") (b := "/fs/tasks/") (by decide) _ _
  obtain rfl := List.mem_singleton.1 poll
  intro same
  have chars := congrArg String.toList same
  rw [vmPath, String.toList_append, String.toList_append] at chars
  have rest : (Value.int id).text.toList = "disk/task/".toList ++ task.toList := List.append_cancel_left chars
  exact Value.head_text_int id (by rw [rest]; rfl)

theorem command_ne_submission (id : Value) {suffix path : String}
    (letter : suffix.toList.getLast? = some 't' ∨ suffix.toList.getLast? = some 'p')
    (submission : path ∈ ImagePipeline.submissionPaths) : vmPath id ++ suffix ≠ path := by
  rintro rfl
  have last : (vmPath id ++ suffix).toList.getLast? ∈ [some 'd', some '/'] :=
    (by decide : ∀ path ∈ ImagePipeline.submissionPaths, path.toList.getLast? ∈ [some 'd', some '/']) _ submission
  rw [String.toList_append, List.getLast?_append] at last
  rcases letter with letter | letter <;> simp [letter] at last

theorem hosts_ne_poll (interface : String) {path : String} (poll : path ∈ ImagePipeline.pollPaths) (task : String) :
    "/lan/browser/" ++ interface ++ "/" ≠ path ++ task := by
  rw [String.append_assoc]
  exact append_ne_append ((by decide : ∀ path ∈ ImagePipeline.pollPaths,
    ¬"/lan/browser/".toList <+: path.toList ∧ ¬path.toList <+: "/lan/browser/".toList) _ poll) _ _

/-- a path that goes on after the number is not the path of orders -/
theorem vmPath_append_ne (id : Value) {suffix : String} (h : 0 < suffix.length) : vmPath id ++ suffix ≠ "/vm/" := by
  intro same
  have lengths := congrArg String.length same
  rw [vmPath, String.length_append, String.length_append] at lengths
  change 4 + _ + _ = 4 at lengths
  omega

end Appliance

namespace Event

def Pipelined (e : Event) : Prop := ∃ p, e.route? = some (ImagePipeline.route p)

def orders (e : Event) : Bool := e.route? = some (.post, "/vm/")

end Event

theorem ImagePipeline.submission_of_post {r : Appliance.Request} {p : Phase} (routed : (r.method, r.path) = route p)
    (post : r.method = .post) : r.path ∈ submissionPaths := by
  rw [post] at routed
  rcases route_cases p with ⟨path, mem, target⟩ | ⟨path, -, task, target⟩ <;> rw [target] at routed
  · rw [(Prod.mk.inj routed).2]
    exact mem
  · cases (Prod.mk.inj routed).1

namespace Reconcile

variable {S : Scene} {c : Context} {st st' : Stage} {e : Event}

structure Orders (c : Context) (m : Machine) (path text : String) (e : Event) (r : Appliance.Request)
    (reply : Appliance.Reply) : Prop where
  final : ImagePipeline.finalPath c m = .ok path
  written : (Appliance.createQuery c.settings (Boot.order m path text)).request = .ok r
  said : e.said = .sent r reply

theorem Deed.ordering (deed : Deed S c st e st') (h : e.orders = true) :
    ∃ m path text r reply, st = .ordering m ∧ Orders c m path text e r reply ∧ e.after = e.before ∧
      st' = .heard (Appliance.createQuery c.settings (Boot.order m path text)) (fun known => .created m known.number path)
        reply := by
  have route := of_decide_eq_true h
  cases deed with
  | vain | fetched | reread | restated | replaced => cases route
  | @sent _ _ r _ table written reply held =>
    obtain ⟨post, path⟩ := Prod.mk.inj (Option.some.inj route)
    have away : ∀ {method : Appliance.Method} {p : String}, r.method = method ∧ r.path = p →
        method = .post ∧ p = "/vm/" := fun routed => ⟨routed.1.symm.trans post, routed.2.symm.trans path⟩
    cases table with
    | create m path' text final => exact ⟨m, path', text, r, reply, rfl, ⟨final, written, rfl⟩, rfl, rfl⟩
    | image m name p =>
      have submission := ImagePipeline.submission_of_post (ImagePipeline.query_route c m written) post
      rw [path] at submission
      exact absurd submission (by decide)
    | start | kill =>
      exact absurd (away (Appliance.method_path_of_written written)).2 (Appliance.vmPath_append_ne _ (by decide))
    | ask | hosts | look | delete => cases (away (Appliance.method_path_of_written written)).1
    | remove => exact absurd (away (Appliance.method_path_of_written written)).2 (by decide)

end Reconcile

end VmOperator
