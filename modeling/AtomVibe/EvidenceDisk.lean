import Mathlib.Data.List.Lex
import AtomVibe.ChainFiles
import AtomVibe.Foundations.Checked

/-!
The file system the plan and candidate evidence lies in. A path that is canonical is the list of
its components; texts are resolved to canonical paths. Names that are not UTF-8 do not occur.
-/

namespace AtomVibe.EvidenceDisk

open Checked Text JsonText

abbrev Path := List String

def pathText (path : Path) : String :=
  if path = [] then "/" else String.ofList (path.flatMap fun part => '/' :: part.toList)

/-- A file system as its readers see it. An error is the text of the I/O error. -/
structure Disk where
  canonicalize : String → Except String Path
  exists_ : Path → Bool
  read : Path → Except String ByteArray
  readDir : Path → Except String (List String)

def Disk.readToString (disk : Disk) (path : Path) : Except String String := do
  let bytes ← disk.read path
  match String.fromUTF8? bytes with
  | some text => .ok text
  | none => .error "stream did not contain valid UTF-8"

def isUnder (dir path : Path) : Bool := dir.isPrefixOf path

abbrev Files := Catalog Path ByteArray

def resolve (text : String) : Option Path :=
  if startsWith "/" text then
    some (((splitOn '/' text.toList).map String.ofList).foldl (fun path part =>
      if part = "" ∨ part = "." then path
      else if part = ".." then path.dropLast
      else path ++ [part]) [])
  else none

def isDir (files : Files) (dir : Path) : Bool :=
  files.entries.any fun file => dir.isPrefixOf file.1 && dir.length < file.1.length

def isPresent (files : Files) (path : Path) : Bool := (files.lookup path).isSome || isDir files path

def children (files : Files) (dir : Path) : List String :=
  (files.entries.filterMap fun file =>
    if dir.isPrefixOf file.1 then file.1[dir.length]? else none).dedup

def notFound : String := "No such file or directory (os error 2)"

/-- The file system that holds `files` and no links; `order` is the order of its directories. -/
def ofFiles (order : List String → List String) (files : Files) : Disk where
  canonicalize text :=
    match resolve text with
    | some path => if isPresent files path then .ok path else .error notFound
    | none => .error notFound
  exists_ path := isPresent files path
  read path :=
    match files.lookup path with
    | some bytes => .ok bytes
    | none => .error notFound
  readDir dir := if isDir files dir then .ok (order (children files dir)) else .error notFound

structure IsPart (part : String) : Prop where
  slash : '/' ∉ part.toList
  plain : part ≠ "" ∧ part ≠ "." ∧ part ≠ ".."

def IsCanonical (path : Path) : Prop := ∀ part ∈ path, IsPart part

theorem readToString_ofFiles {order : List String → List String} {files : Files} {path : Path}
    {text : String} (h : files.lookup path = some text.toByteArray) :
    (ofFiles order files).readToString path = .ok text := by
  simp only [Disk.readToString, ofFiles, h]
  rw [ok_bind, fromUTF8?_toByteArray]

end AtomVibe.EvidenceDisk
