import AtomicRules.Trace.Writer

/-!
# Where a trace goes

A destination is a named file as far as a trace is concerned: whether it can be
created, and what it holds. Creating a file empties it.

`Directory` answers the first question for a path below a directory that holds
nothing but directories: the path must not be empty, every directory on the way
must exist, and the path must not name a directory itself.

## Main results

* `Destination.create_eq_ok_iff` — a file is created exactly when there is no
  refusal.
-/

namespace AtomicRules

/-- A file that a trace is written to. -/
structure Destination where
  /-- Why the file cannot be created, if it cannot. -/
  refusal : Option DeviceError := none
  /-- The bytes of the file, if there is a file. -/
  content : Option ByteArray := none

namespace Destination

/-- Creates the file, or empties it. -/
def create (destination : Destination) : Except DeviceError Destination :=
  match destination.refusal with
  | some cause => .error cause
  | none => .ok { destination with content := some ByteArray.empty }

theorem create_eq_ok_iff {destination after : Destination} :
    destination.create = .ok after ↔
      destination.refusal = none ∧
        after = { destination with content := some ByteArray.empty } := by
  unfold create
  split
  · simp_all
  · simp_all [eq_comm]

end Destination

/-! ### Paths -/

/-- A directory, by the paths of all directories below it. -/
structure Directory where
  below : List (List String)
  deriving DecidableEq, Repr

namespace Directory

/-- The directory at a path exists. -/
def holds (directory : Directory) (path : List String) : Bool :=
  path.isEmpty || directory.below.contains path

/-- Follows path components from a directory; the answer is `none` when one of
them does not exist. -/
def follow (directory : Directory) : List String → List String → Option (List String)
  | place, [] => some place
  | place, component :: rest =>
      let next :=
        if component = "." then place
        else if component = ".." then place.dropLast
        else place ++ [component]
      if directory.holds next then directory.follow next rest else none

/-- The components of a path. Slashes in a row count as one. -/
def components (path : String) : List String :=
  ((path.toList.splitOn '/').map String.ofList).filter (· ≠ "")

/-- Why a file cannot be created at a path, if it cannot. A path that ends in a
slash asks for a directory. -/
def refusal (directory : Directory) (path : String) : Option DeviceError :=
  match (components path).getLast? with
  | none => some (if path.isEmpty then .notFound else .isADirectory)
  | some name =>
      match directory.follow [] (components path).dropLast with
      | none => some .notFound
      | some place =>
          let slashed := path.toList.getLast? = some '/'
          if slashed ∨ name = "." ∨ name = ".." ∨ directory.holds (place ++ [name]) then
            some .isADirectory
          else none

end Directory

end AtomicRules
