import VmOperator.Proofs.Appliance.Query
import VmOperator.Proofs.Value.Shape
import VmOperator.Proofs.Value.Under
import VmOperator.Reconcile.Discovery

/-! A listing of the hosts in the appliance's network, told by its fields: the hardware address that a host is listed under,
and its IPv4 addresses in their order. The first host of a hardware address is the one that is found
(`addressesIn_of_lists`). -/

namespace VmOperator.Appliance

def hardware (host : Value) : Value := (host.under? ["l2ident", "id"]).getD (.string "")

/-- the address in an entry of a host, where the entry is one of IPv4 and its address is set -/
def ipv4? (entry : Value) : Option Value :=
  if entry.under? ["af"] = some (.string "ipv4") then (entry.under? ["addr"]).filter (·.isTruthy) else none

def ipv4 (host : Value) : List Value := ((host.itemsOf "l3connectivities").toOption.getD []).filterMap ipv4?

/-- the host is listed under this hardware address, whose case does not matter -/
def isUnder (mac : String) (host : Value) : Bool :=
  match hardware host with
  | .string other => Text.lower other = Text.lower mac
  | _ => false

/-- the IPv4 addresses of the first host that is listed under the hardware address -/
def seen (mac : String) (hosts : List Value) : List Value := ((hosts.find? (isUnder mac)).map ipv4).getD []

/-- a listing of these hosts; their hardware addresses are texts -/
structure Lists (reply : Reply) (hosts : List Value) : Prop where
  listed : ∃ v, resultOf reply = some v ∧ (v.orElse (.array [])).items = .ok hosts
  each : ∀ host ∈ hosts, Gives (LanHost.ofResult host) fun read => read.mac.isText = true

variable {host entry link v : Value} {mac : String} {hosts : List Value} {reply : Reply} {read : LanHost}

theorem get_eq_under? {key : String} {default : Value} (given : link.get key default = .ok v) :
    (link.under? [key]).getD default = v := by
  obtain ⟨fs, fields, rfl⟩ := Value.exists_fields_of_get given
  rw [Value.under?_of_fields fields]
  cases fs.get? key <;> rfl

theorem LanHost.toList_ipv4? {addresses : List Value} (given : addressOf entry = .ok addresses) :
    (ipv4? entry).toList = addresses := by
  obtain ⟨family, known, given⟩ := bind_eq_ok.1 given
  have same := get_eq_under? known
  unfold ipv4?
  split at given
  next ipv4 =>
    obtain ⟨address, found, given⟩ := bind_eq_ok.1 given
    have there := get_eq_under? found
    cases given
    have family : entry.under? ["af"] = some (.string "ipv4") := by
      cases there : entry.under? ["af"] with
      | none =>
        rw [there, ipv4] at same
        cases same
      | some family =>
        rw [there, ipv4] at same
        exact congrArg some same
    rw [if_pos family]
    cases unread : entry.under? ["addr"] with
    | none =>
      rw [unread] at there
      subst there
      rfl
    | some address' =>
      rw [unread] at there
      obtain rfl : address' = address := there
      rw [Option.filter_some]
      split <;> rfl
  next other =>
    cases given
    rw [if_neg]
    · rfl
    · intro ipv4
      rw [ipv4] at same
      exact other same.symm

theorem LanHost.filterMap_ipv4? {entries : List Value} {found : List (List Value)}
    (given : entries.mapM addressOf = .ok found) : entries.filterMap ipv4? = found.flatten := by
  induction entries generalizing found with
  | nil =>
    cases given
    rfl
  | cons entry entries ih =>
    rw [List.mapM_cons] at given
    obtain ⟨addresses, first, given⟩ := bind_eq_ok.1 given
    obtain ⟨rest, each, given⟩ := bind_eq_ok.1 given
    cases given
    rw [List.flatten_cons, ← ih each, ← toList_ipv4? first, List.filterMap_cons]
    cases ipv4? entry <;> rfl

theorem LanHost.of_ofResult (given : LanHost.ofResult host = .ok read) :
    hardware host = read.mac ∧ ipv4 host = read.addresses := by
  obtain ⟨link, inside, given⟩ := bind_eq_ok.1 given
  obtain ⟨entries, listed, given⟩ := bind_eq_ok.1 given
  obtain ⟨found, each, given⟩ := bind_eq_ok.1 given
  obtain ⟨mac, id, given⟩ := bind_eq_ok.1 given
  obtain ⟨name, -, given⟩ := bind_eq_ok.1 given
  cases given
  refine ⟨?_, ?_⟩
  · rw [hardware, Value.under?_of_section? inside, get_eq_under? id]
  · rw [ipv4, listed]
    exact filterMap_ipv4? each

theorem addressesIn_of_mapM {reads : List LanHost} (each : ∀ host ∈ hosts, Gives (LanHost.ofResult host) fun read =>
    read.mac.isText = true) (given : hosts.mapM LanHost.ofResult = .ok reads) (mac : String) :
    Discovery.addressesIn (Text.lower mac) reads = .ok (seen mac hosts) := by
  induction hosts generalizing reads with
  | nil =>
    cases given
    rfl
  | cons host hosts ih =>
    obtain ⟨⟨read, first, text⟩, each⟩ := List.forall_mem_cons.1 each
    obtain ⟨other, same⟩ := Value.eq_of_isText text
    rw [List.mapM_cons, first, ok_bind] at given
    obtain ⟨rest, reads', given⟩ := bind_eq_ok.1 given
    cases given
    obtain ⟨under, found⟩ := LanHost.of_ofResult first
    rw [Discovery.addressesIn, same]
    change (if Text.lower other == Text.lower mac then Except.ok read.addresses else Discovery.addressesIn _ rest) = _
    rw [seen, List.find?_cons, isUnder, under, same]
    dsimp only
    by_cases here : Text.lower other = Text.lower mac
    · rw [if_pos (beq_iff_eq.2 here), decide_eq_true here, ← found]
      rfl
    · rw [if_neg (by simpa using here), decide_eq_false here]
      exact ih each reads'

/-- a listing is read, and the hosts are gone through up to the first of the hardware address -/
theorem addressesIn_of_lists (lists : Lists reply hosts) (s : Settings) (interface : String) :
    ∃ reads, (hostsQuery s interface).read reply = .ok reads ∧
      ∀ mac, Discovery.addressesIn (Text.lower mac) reads = .ok (seen mac hosts) := by
  obtain ⟨v, result, items⟩ := lists.listed
  obtain ⟨reads, each, -⟩ := Gives.mapM lists.each
  refine ⟨reads, (query_read s).2 ⟨v, result, ?_⟩, addressesIn_of_mapM lists.each each⟩
  rw [items]
  exact each

theorem exists_fault_of_refused (refused : resultOf reply = none) (s : Settings) (interface : String) :
    ∃ fault, (hostsQuery s interface).read reply = .error (.fault (.appliance fault)) := by
  unfold hostsQuery query judged
  dsimp only
  rw [refused]
  exact ⟨_, rfl⟩

end VmOperator.Appliance
