import VmOperator.Image.Url
import VmOperator.Text.Lower

/-! Names of disk images. An image is downloaded under the last component of its URL; a compressed
name loses one suffix when it is extracted; the disk of a machine is its name and the extension of
the image. Only ASCII letters matter for suffixes: no other character lowers to one of theirs. -/

namespace VmOperator.Path

/-- the part after the last slash -/
def baseNameOf (p : List Char) : List Char := (p.reverse.takeWhile (· != '/')).reverse

/-- the extension starts at the last point of the last component, if a character other than a point
stands before it in that component -/
def splitExtOf (p : List Char) : List Char × List Char :=
  let body := (baseNameOf p).dropWhile (· == '.')
  if body.contains '.' then
    let ext := '.' :: (body.reverse.takeWhile (· != '.')).reverse
    (p.take (p.length - ext.length), ext)
  else (p, [])

def baseName (p : String) : String := String.ofList (baseNameOf p.toList)

def extension (p : String) : String := String.ofList (splitExtOf p.toList).2

/-- an absolute second part replaces the first; one slash stands between the two otherwise -/
def join (dir name : String) : String :=
  if name.toList.head? == some '/' then name
  else if dir == "" || dir.toList.getLast? == some '/' then dir ++ name
  else dir ++ "/" ++ name

/-- without slashes at its end -/
def trimSlashes (p : String) : String := String.ofList (p.toList.reverse.dropWhile (· == '/')).reverse

end VmOperator.Path

namespace VmOperator.Image

def lowerAscii (s : String) : String := String.ofList (s.toList.map Text.asciiLower)

def compressedSuffixes : List String := [".xz", ".gz", ".bz2", ".zip", ".tar"]

def defaultExtension : String := ".raw"

/-- the name that an image is downloaded under -/
def nameOfUrl (url : String) : Except Url.Problem String := (Url.path url).map Path.baseName

def isCompressed (name : String) : Bool :=
  compressedSuffixes.contains (lowerAscii (Path.extension name))

/-- without at most one compressed suffix -/
def stripCompression (name : String) : String :=
  match compressedSuffixes.find? fun suffix => suffix.toList.isSuffixOf (lowerAscii name).toList with
  | some suffix => String.ofList (name.toList.take (name.length - suffix.length))
  | none => name

/-- the extension of the disk inside the image -/
def diskExtension (name : String) : String :=
  let ext := Path.extension (stripCompression name)
  if ext == "" then defaultExtension else ext

/-- where the disk of a machine ends up -/
def finalPath (storage machine name : String) : String :=
  Path.join storage (machine ++ diskExtension name)

def extractedPath (storage name : String) : String := Path.join storage (stripCompression name)

def copiedPath (storage name : String) : String := Path.join storage name

inductive DiskType where
  | raw
  | qcow2
deriving DecidableEq, Repr

def DiskType.text : DiskType → String
  | .raw => "raw"
  | .qcow2 => "qcow2"

def diskType (path : String) : DiskType :=
  if lowerAscii (Path.extension path) == ".qcow2" then .qcow2 else .raw

/-- where images are downloaded to and where disks live -/
structure Layout where
  downloads : String
  storage : String
deriving DecidableEq, Repr

end VmOperator.Image
