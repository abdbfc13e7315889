import VmOperator.Bytes.Base64
import VmOperator.Bytes.Utf8
import VmOperator.Value.Access

/-! What is said to the appliance and what it says back: requests and replies, the records read out of
its results, and paths, which travel as base64 of their UTF-8 bytes. -/

namespace VmOperator.Appliance

inductive Method where
  | get
  | post
  | delete
deriving DecidableEq, Repr

def Method.text : Method → String
  | .get => "GET"
  | .post => "POST"
  | .delete => "DELETE"

inductive Content where
  | none
  | json (fields : Fields)
  | form (fields : Fields)
deriving DecidableEq, Repr

/-- a request to a path below the appliance's address -/
structure Request where
  method : Method
  path : String
  content : Content := .none
deriving DecidableEq, Repr

/-- no reply at all, or a status and a body, which is none where it is not JSON -/
inductive Reply where
  | unreachable (text : String)
  | answer (status : Value) (body : Option Value)
deriving DecidableEq, Repr

def encodePath (path : String) : String := Base64.encode (Utf8.encode path)

/-- base64 in a text of ASCII characters -/
def decodeBytes (v : Value) : Except Failure (List UInt8) := do
  let .string s := v | throw (.wrongType (.bytesOf v))
  if !Text.isAscii s.toList then throw (.badValue .notAscii)
  match Base64.decode s.toList with
  | .ok bytes => return bytes
  | .error p => throw (.badBase64 p)

def decodePath (v : Value) : Except Failure String := do
  match Utf8.decode (← decodeBytes v) with
  | .ok s => return s
  | .error p => throw (.badUtf8 p)

/-- the wire form of a path that was recorded untyped -/
def pathValue (path : Value) : Except Failure Value := return .string (encodePath (← path.toText))

structure DownloadTask where
  id : Value
  status : Value
  received : Value := .int 0
  size : Value := .int 0
deriving DecidableEq, Repr

namespace DownloadTask

def isDone (t : DownloadTask) : Bool := t.status = .string "done"

def isError (t : DownloadTask) : Bool := t.status = .string "error"

/-- the reply to a poll of `task`, which it need not name -/
def ofResult (task result : Value) : Except Failure DownloadTask := do
  return {
    id := .int (← (← result.get "id" task).toInt)
    status := ← result.get "status" (.string "")
    received := .int (← result.intOf "rx_bytes")
    size := .int (← result.intOf "size") }

end DownloadTask

/-- extraction, copy, move or removal of files -/
structure FileTask where
  id : Int
  state : Value
  type : Value
  error : Value
deriving DecidableEq, Repr

namespace FileTask

def isDone (t : FileTask) : Bool := t.state = .string "done"

def isError (t : FileTask) : Bool := t.state = .string "failed" || t.state = .string "error"

def ofResult (result : Value) : Except Failure FileTask := do
  return {
    id := ← (← result.member "id").toInt
    state := ← result.get "state" (.string "")
    type := ← result.get "type" (.string "")
    error := (← result.get "error" (.string "")).orElse (.string "") }

end FileTask

structure DiskTask where
  id : Int
  done : Bool
  error : Bool
deriving DecidableEq, Repr

def DiskTask.ofResult (task result : Value) : Except Failure DiskTask := do
  return {
    id := ← (← result.get "id" task).toInt
    done := (← result.get "done" (.bool false)).isTruthy
    error := (← result.get "error" (.bool false)).isTruthy }

structure Vm where
  id : Value
  name : Value := .string ""
  mac : Value := .string ""
  status : Value := .string ""
deriving DecidableEq, Repr

namespace Vm

def isStopped (vm : Vm) : Bool := vm.status = .string "stopped"

end Vm

/-- a virtual machine under the number that the appliance knows it by -/
structure KnownVm where
  number : Int
  vm : Vm
deriving DecidableEq, Repr

def KnownVm.ofResult (result : Value) : Except Failure KnownVm := do
  let number ← (← result.member "id").toInt
  return ⟨number, {
    id := .int number
    name := ← result.get "name" (.string "")
    mac := ← result.get "mac" (.string "")
    status := ← result.get "status" (.string "") }⟩

/-- an order for a virtual machine; its values are sent as they are, the path in wire form -/
structure VmOrder where
  name : Value
  diskPath : Value
  diskType : Value
  memory : Value
  vcpus : Value
  os : Value := .string "unknown"
  cloudInit : Value := .bool true
  userData : Value := .string ""
  screen : Value := .bool false
deriving DecidableEq, Repr

namespace VmOrder

def toFields (o : VmOrder) : Except Failure Fields := do
  return [("name", o.name), ("disk_path", ← pathValue o.diskPath), ("disk_type", o.diskType),
    ("memory", o.memory), ("vcpus", o.vcpus), ("os", o.os), ("enable_cloudinit", o.cloudInit),
    ("cloudinit_userdata", o.userData), ("enable_screen", o.screen)]

end VmOrder

/-- a host in the appliance's network -/
structure LanHost where
  mac : Value
  addresses : List Value
  primaryName : Value
deriving DecidableEq, Repr

namespace LanHost

/-- the address of an IPv4 entry, if it has one -/
def addressOf (entry : Value) : Except Failure (List Value) := do
  if (← entry.get "af") = .string "ipv4" then
    let address ← entry.get "addr"
    return if address.isTruthy then [address] else []
  else return []

def ofResult (data : Value) : Except Failure LanHost := do
  let link ← data.section? "l2ident"
  let addresses ← (← data.itemsOf "l3connectivities").mapM addressOf
  return {
    mac := ← link.get "id" (.string "")
    addresses := addresses.flatten
    primaryName := ← data.get "primary_name" (.string "") }

end LanHost
end VmOperator.Appliance
