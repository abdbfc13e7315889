import VmOperator.Image.Name
import VmOperator.Value.Basic

/-! Settings of the operator, their defaults and the order they are listed in. A delay may be an
integer, which is counted exactly; those that are read, and the defaults, are doubles. -/

namespace VmOperator

structure Settings where
  endpoint : String := "http://mafreebox.freebox.fr"
  applianceVersion : String := "v4"
  sessionToken : String := ""
  verifyCertificate : Bool := true
  requestTimeout : Int := 10
  downloads : String := ""
  storage : String := ""
  lanInterface : String := "pub"
  pollInterval : Number := .ofNat 10
  stepInterval : Number := .ofNat 1
  stopPollInterval : Number := .ofNat 1
  stopPollAttempts : Int := 30
  clusterApiVersion : String := "v1beta2"
  watchNamespace : String := ""
  workers : Int := 4
  backoffBase : Number := .ofNat 1
  backoffMax : Number := .ofNat 300
  logLevel : String := "INFO"
  logFormat : String := "json"
deriving DecidableEq, Repr

namespace Settings

/-- the address under which the appliance answers -/
def applianceUrl (s : Settings) : String :=
  Path.trimSlashes s.endpoint ++ "/api/" ++ s.applianceVersion

/-- how one setting is read out and changed, by the kind of value it takes -/
inductive Slot where
  | text (get : Settings → String) (set : String → Settings → Settings)
  | flag (get : Settings → Bool) (set : Bool → Settings → Settings)
  | count (get : Settings → Int) (set : Int → Settings → Settings)
  | delay (get : Settings → Number) (set : Number → Settings → Settings)

structure Entry where
  name : String
  slot : Slot

def entries : List Entry := [
  ⟨"freebox_endpoint", .text endpoint fun v s => { s with endpoint := v }⟩,
  ⟨"freebox_api_version", .text applianceVersion fun v s => { s with applianceVersion := v }⟩,
  ⟨"freebox_session_token", .text sessionToken fun v s => { s with sessionToken := v }⟩,
  ⟨"freebox_verify_ssl", .flag verifyCertificate fun v s => { s with verifyCertificate := v }⟩,
  ⟨"request_timeout_seconds", .count requestTimeout fun v s => { s with requestTimeout := v }⟩,
  ⟨"download_dir", .text downloads fun v s => { s with downloads := v }⟩,
  ⟨"vm_storage_path", .text storage fun v s => { s with storage := v }⟩,
  ⟨"lan_interface", .text lanInterface fun v s => { s with lanInterface := v }⟩,
  ⟨"poll_interval_seconds", .delay pollInterval fun v s => { s with pollInterval := v }⟩,
  ⟨"step_interval_seconds", .delay stepInterval fun v s => { s with stepInterval := v }⟩,
  ⟨"stop_poll_interval_seconds", .delay stopPollInterval fun v s => { s with stopPollInterval := v }⟩,
  ⟨"stop_poll_attempts", .count stopPollAttempts fun v s => { s with stopPollAttempts := v }⟩,
  ⟨"cluster_api_version", .text clusterApiVersion fun v s => { s with clusterApiVersion := v }⟩,
  ⟨"watch_namespace", .text watchNamespace fun v s => { s with watchNamespace := v }⟩,
  ⟨"workers", .count workers fun v s => { s with workers := v }⟩,
  ⟨"backoff_base_seconds", .delay backoffBase fun v s => { s with backoffBase := v }⟩,
  ⟨"backoff_max_seconds", .delay backoffMax fun v s => { s with backoffMax := v }⟩,
  ⟨"log_level", .text logLevel fun v s => { s with logLevel := v }⟩,
  ⟨"log_format", .text logFormat fun v s => { s with logFormat := v }⟩]

def Slot.value (s : Settings) : Slot → Value
  | .text get _ => .string (get s)
  | .flag get _ => .bool (get s)
  | .count get _ => .int (get s)
  | .delay get _ => .number (get s)

def toFields (s : Settings) : Fields := entries.map fun e => (e.name, e.slot.value s)

end Settings
end VmOperator
