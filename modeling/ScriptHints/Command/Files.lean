/-!
# Files

The files of a machine held in memory: a tree of directories, files and devices, and a working
directory in it. A name is followed step by step from the working directory, or from the root if it
starts with a slash, so that different spellings of a name lead to the same file. Of several things
wrong with a name, the first one met on the way counts.

* `FileError` — why a file cannot be used, with the words for it.
* `FileTree.read`, `FileTree.create`, `FileTree.append` — read a file, start an empty one, add to
  it.
* `FileTree.machine` — the directories and devices found on every machine.
-/

namespace ScriptHints.Command

/-- Why a file cannot be used. -/
inductive FileError
  | notFound
  | isDirectory
  | notDirectory
  /-- A name, or one step of it, has too many bytes. -/
  | nameTooLong
  /-- No more bytes can be written. -/
  | noSpace
  /-- Any other reason. -/
  | other (reason : String)
  deriving DecidableEq, Repr

/-- The words for a file error. -/
def FileError.message : FileError → String
  | .notFound => "No such file or directory (os error 2)"
  | .isDirectory => "Is a directory (os error 21)"
  | .notDirectory => "Not a directory (os error 20)"
  | .nameTooLong => "File name too long (os error 36)"
  | .noSpace => "No space left on device (os error 28)"
  | .other reason => reason

/-! ## Names -/

/-- The names on the way from the root to a file. -/
abbrev Path := List String

/-- The parts of a text between slashes. There is always at least one. -/
def splitSlashes : List Char → List (List Char)
  | [] => [[]]
  | c :: cs =>
    if c = '/' then [] :: splitSlashes cs
    else
      match splitSlashes cs with
      | [] => [[c]]
      | part :: parts => (c :: part) :: parts

/-- The steps a name takes. -/
def stepsOf (name : String) : List String :=
  (splitSlashes name.toList).map String.ofList

/-- Steps without the empty ones at their end. -/
def dropTrailingSlashes (steps : List String) : List String :=
  (steps.reverse.dropWhile (· == "")).reverse

/-- The most bytes one step of a name may have. -/
def stepLimit : Nat := 255

/-- The most bytes a name may have. -/
def nameLimit : Nat := 4095

/-! ## The tree -/

/-- A file that is not kept on a disk. -/
inductive Device
  /-- Empty, and takes everything without keeping it. -/
  | null
  /-- Takes nothing. -/
  | full
  /-- Standard output. -/
  | output
  /-- Standard error. -/
  | errors
  deriving DecidableEq, Repr

/-- What a path can lead to. -/
inductive Node
  | file (bytes : ByteArray)
  | directory
  | device (device : Device)

/-- The files of a machine. -/
structure FileTree where
  /-- All files and directories but the root. -/
  nodes : List (Path × Node) := []
  /-- The working directory. -/
  workplace : Path := []

namespace FileTree

/-- What a path leads to. The empty path leads to the root. -/
def node? (t : FileTree) (path : Path) : Option Node :=
  if path = [] then some .directory else t.nodes.lookup path

/-- Looks for the last step of a path. -/
def find (t : FileTree) (path : Path) : Except FileError (Option Node) :=
  if (path.getLast?.map String.utf8ByteSize).getD 0 ≤ stepLimit then .ok (t.node? path)
  else .error .nameTooLong

/-- Puts a file or directory at a path, replacing what was there. -/
def put (t : FileTree) (path : Path) (node : Node) : FileTree :=
  { t with nodes := (path, node) :: t.nodes.filter (·.1 != path) }

/-- Follows steps from a directory. Every step but the last has to lead to a directory; a dot stays
where it is, and two dots go back up, from the root to the root. -/
def follow (t : FileTree) (here : Path) : List String → Except FileError Path
  | [] => .ok here
  | step :: steps =>
    if step = "" ∨ step = "." then follow t here steps
    else if step = ".." then follow t here.dropLast steps
    else if steps = [] then .ok (here ++ [step])
    else
      match t.find (here ++ [step]) with
      | .ok (some .directory) => follow t (here ++ [step]) steps
      | .ok (some _) => .error .notDirectory
      | .ok none => .error .notFound
      | .error e => .error e

/-- Follows steps from where a name starts. The empty name leads nowhere. -/
def resolve (t : FileTree) (name : String) (steps : List String) : Except FileError Path :=
  if name = "" then .error .notFound
  else if nameLimit < name.utf8ByteSize then .error .nameTooLong
  else t.follow (if name.toList.head? = some '/' then [] else t.workplace) steps

/-- The bytes of a file. -/
def read (t : FileTree) (name : String) : Except FileError ByteArray := do
  let path ← t.resolve name (stepsOf name)
  match ← t.find path with
  | some (.file bytes) => .ok bytes
  | some .directory => .error .isDirectory
  | some (.device .full) => .error (.other "Cannot allocate memory (os error 12)")
  | some (.device _) => .ok .empty
  | none => .error .notFound

/-- Starts an empty file in place of any that was there, giving its path. A name ending with a slash
can only mean a directory. -/
def create (t : FileTree) (name : String) : Except FileError (Path × FileTree) := do
  let steps := dropTrailingSlashes (stepsOf name)
  let path ← t.resolve name steps
  if steps ≠ stepsOf name then .error .isDirectory
  else
    match ← t.find path with
    | some .directory => .error .isDirectory
    | some (.device _) => .ok (path, t)
    | _ => .ok (path, t.put path (.file .empty))

/-- Adds bytes to the end of a file. -/
def append (t : FileTree) (path : Path) (bytes : ByteArray) : FileTree :=
  match t.node? path with
  | some (.file old) => t.put path (.file (old ++ bytes))
  | _ => t

/-- Puts a file or directory at a path together with the directories on the way to it. -/
def putDeep (t : FileTree) (path : Path) (node : Node) : FileTree :=
  let above := (List.range path.length).map path.take
  (above.foldl (fun t p => if (t.node? p).isNone then t.put p .directory else t) t).put path node

/-- A machine with the usual directories and devices, and an empty working directory. -/
def machine : FileTree :=
  let workplace := ["tmp", "scripts"]
  let directories := ["bin", "boot", "dev", "etc", "home", "lib", "media", "mnt", "opt", "proc",
    "root", "run", "sbin", "srv", "sys", "tmp", "usr", "var"]
  let devices : List (String × Device) :=
    [("null", .null), ("full", .full), ("stdin", .null), ("stdout", .output), ("stderr", .errors)]
  { nodes := (workplace, .directory) ::
      (directories.map (fun d => ([d], .directory)) ++
        devices.map (fun d => (["dev", d.1], .device d.2)))
    workplace }

end FileTree

end ScriptHints.Command
