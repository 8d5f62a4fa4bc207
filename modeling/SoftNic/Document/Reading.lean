import SoftNic.Document.Statement

/-! # Reading a document

A document is read line by line into a draft: the tree so far and the path of
the table that assignments go to.  A header opens the tables along its path,
making those that are missing; an assignment gives the open table one more
child and never replaces one.  The first line that fails ends the reading.
-/
namespace SoftNic
namespace Document

/-- Change the table at a path, making the tables on the way that are missing.
The value `blocked` is the failure when a scalar is in the way. -/
def updateAt (blocked : ConfigError) (change : Tree.Entries → Except ConfigError Tree.Entries) :
    List String → Tree.Entries → Except ConfigError Tree.Entries
  | [], es => change es
  | key :: path, es =>
    match Tree.get? key es with
    | some (.scalar _) => .error blocked
    | some (.table sub) => (updateAt blocked change path sub).map fun sub => Tree.put key (.table sub) es
    | none => (updateAt blocked change path []).map fun sub => Tree.put key (.table sub) es

/-- What has been read so far. -/
structure Draft where
  entries : Tree.Entries := []
  /-- The path of the table that assignments go to. -/
  current : List String := []

namespace Draft

/-- Open the table at a path. -/
def openTable (d : Draft) (path : List String) : Except ConfigError Draft :=
  (updateAt (.invalidTablePath path) .ok path d.entries).map fun es => ⟨es, path⟩

/-- Give the open table one more child. -/
def assign (d : Draft) (key : String) (value : Scalar) : Except ConfigError Draft :=
  let add (es : Tree.Entries) : Except ConfigError Tree.Entries :=
    match Tree.get? key es with
    | some _ => .error (.duplicateKey key)
    | none => .ok (Tree.put key (.scalar value) es)
  (updateAt (.invalidTablePath d.current) add d.current d.entries).map fun es => { d with entries := es }

/-- Do what a statement says. -/
def apply (d : Draft) : Statement → Except ConfigError Draft
  | .blank => .ok d
  | .header path => d.openTable path
  | .assignment key value => d.assign key value

end Draft

/-- Read lines into a draft; the first of them has the given number. -/
def readLines : Nat → Draft → List (List Char) → Except ConfigFailure Draft
  | _, d, [] => .ok d
  | n, d, raw :: rest =>
    match Statement.ofLine n raw with
    | .error e => .error e
    | .ok s =>
      match d.apply s with
      | .error e => .error (.refused e)
      | .ok d => readLines (n + 1) d rest

/-- The tree that a document denotes. -/
def read (text : String) : Except ConfigFailure Tree :=
  (readLines 1 {} (Text.lines text.toList)).map fun d => .table d.entries

end Document
end SoftNic
