import VmOperator.Resource.Cluster

/-! Calls to the object store and its replies. A replacement carries the version it was made from; the
store refuses one made from an older version with status 409. -/

namespace VmOperator.Store

/-- a kind of object; the core group has no name -/
structure Kind where
  group : String
  version : String
  plural : String
deriving DecidableEq, Repr

namespace Kind

def machines : Kind := ⟨apiGroup, apiVersion, "freeboxmachines"⟩
def clusters : Kind := ⟨apiGroup, apiVersion, "freeboxclusters"⟩
def owners (version : String) : Kind := ⟨"cluster.x-k8s.io", version, "machines"⟩
def secrets : Kind := ⟨"", "v1", "secrets"⟩

def text (k : Kind) : String :=
  (if k.group == "" then "" else k.group ++ "/") ++ k.version ++ "/" ++ k.plural

end Kind

inductive Verb where
  | get
  | list
  | replace
  | replaceStatus
deriving DecidableEq, Repr

def Verb.text : Verb → String
  | .get => "get"
  | .list => "list"
  | .replace => "replace"
  | .replaceStatus => "replace_status"

inductive Call where
  | get (kind : Kind) (ns name : Value)
  | list (kind : Kind) (ns : Option Value)
  | replace (kind : Kind) (ns name object : Value)
  | replaceStatus (kind : Kind) (ns name object : Value)
deriving DecidableEq, Repr

namespace Call

def verb : Call → Verb
  | .get .. => .get
  | .list .. => .list
  | .replace .. => .replace
  | .replaceStatus .. => .replaceStatus

def kind : Call → Kind
  | .get k .. | .list k .. | .replace k .. | .replaceStatus k .. => k

/-- a replacement with its object changed -/
def mapObject (f : Value → Value) : Call → Call
  | .replace k ns name object => .replace k ns name (f object)
  | .replaceStatus k ns name object => .replaceStatus k ns name (f object)
  | c => c

/-- namespace and name, or the namespace of a list, a star for all of them -/
def place : Call → String
  | .get _ ns name | .replace _ ns name _ | .replaceStatus _ ns name _ => ns.text ++ "/" ++ name.text
  | .list _ ns => ns.elim "*" Value.text

end Call

inductive Reply where
  | ok (v : Value)
  | refused (status reason : Value)
deriving DecidableEq, Repr

end VmOperator.Store
