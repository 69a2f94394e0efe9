import Assay.Datum.Written
import Assay.Files.Resolve
import Assay.Text.Case

/-!
# Guarding paths

Every path that reaches a tool is checked first. The text of the path is judged before it is resolved,
the resolved path after it: it lies in no system directory, in a temporary directory only below an
admitted root, below the root of the project and outside its denied directories; it exists, is of the
right kind, has an admitted ending, and is not too large.
-/

namespace Assay.Files

/-- The names of directories that hold nothing to analyse. -/
def deniedNames : List String :=
  [".git", ".svn", ".hg", "node_modules", "__pycache__", ".pytest_cache", ".mypy_cache", "coverage",
    "dist", "build", "target", "bin", "obj", ".idea", ".vscode", "logs", "tmp", "temp", ".cache",
    "vendor", ".venv", "venv", "cmake-build-debug", "cmake-build-release", "CMakeFiles", "x64",
    "Debug", "Release"]

/-- The directories of the system, which no path may enter. -/
def systemDirectories : List Path :=
  ["/proc", "/sys", "/dev", "/etc", "/var/log"].map Path.ofString

/-- The directories for temporary files, which a path may enter below an admitted root only. -/
def temporaryDirectories : List Path := ["/tmp", "/var/tmp"].map Path.ofString

/-- Paths with more characters than this are refused. -/
def maxPathLength : Nat := 4096

/-- What a path has to lead to. -/
inductive PathKind where
  | any
  | file
  | directory
deriving Repr, DecidableEq, Inhabited

instance : Vocabulary PathKind where
  title := "PathKind"
  members := [.any, .file, .directory]
  name
    | .any => "any"
    | .file => "file"
    | .directory => "directory"

/-- The rules that a path is checked by. -/
structure PathPolicy where
  /-- The path has to lead to something. -/
  checkExists : Bool := true
  /-- The endings admitted, in lower case; all of them if the list is empty. -/
  extensions : List String := []
  /-- The largest size admitted, in bytes. -/
  maxFileBytes : Option Int := none
  kind : PathKind := .any
  /-- The root that the path has to stay below. -/
  root : Option Path := none
  /-- The names of directories below the root that are refused. -/
  denied : List String := deniedNames
  /-- Further roots that admit a path in a temporary directory. -/
  allowedRoots : List Path := []
deriving Inhabited

/-- Why a path is refused. -/
inductive PathFault where
  | nul
  | tooLong
  | parentComponent (raw : String)
  | unresolvable (raw reason : String)
  | systemDirectory (path : Path)
  | temporaryDirectory (path : Path)
  | outsideRoot (path root : Path)
  | deniedDirectory (parts : List String) (name : String)
  | missing (path : Path)
  | notFile (path : Path)
  | notDirectory (path : Path)
  | extension (name : String)
  | tooLarge (name : String) (size : Nat) (limit : Int)
  | noProject (path : Path)
deriving Repr, DecidableEq

namespace PathFault

/-- The kind of problem that a refusal is. -/
def kind : PathFault → ProblemKind
  | nul | parentComponent _ | unresolvable _ _ => .pathTraversal
  | tooLong | systemDirectory _ | temporaryDirectory _ | deniedDirectory _ _ | notFile _
  | notDirectory _ => .blockedPath
  | outsideRoot _ _ => .escapedRoot
  | missing _ => .missingPath
  | extension _ => .disallowedExtension
  | tooLarge _ _ _ => .fileTooLarge
  | noProject _ => .projectNotFound

/-- The text of a refusal. -/
def detail : PathFault → String
  | nul => "path contains a NUL byte"
  | tooLong => "path longer than " ++ Decimal.natText maxPathLength ++ " characters"
  | parentComponent raw => "'..' component in " ++ raw
  | unresolvable raw reason => "cannot resolve " ++ raw ++ ": " ++ reason
  | systemDirectory path => path.toString ++ " is under a system directory"
  | temporaryDirectory path => path.toString ++ " is under a temporary directory"
  | outsideRoot path root => path.toString ++ " resolves outside " ++ root.toString
  | deniedDirectory parts name =>
    Path.relativeText parts ++ " is inside denied directory '" ++ name ++ "'"
  | missing path => path.toString ++ " does not exist"
  | notFile path => path.toString ++ " is not a regular file"
  | notDirectory path => path.toString ++ " is not a directory"
  | extension name => name ++ " has a disallowed extension"
  | tooLarge name size limit =>
    name ++ " is " ++ Decimal.natText size ++ " bytes (limit " ++ Decimal.intText limit ++ ")"
  | noProject path => path.toString ++ " does not exist"

/-- The refusal as a problem. -/
def problem (f : PathFault) : Problem := ⟨f.kind, f.detail⟩

/-- The refusal as a failure. -/
def failure (f : PathFault) : Failure := .problem f.problem

end PathFault

/-- A path that passed: its resolution, and its size in bytes (zero for what is no regular file). -/
structure CheckedPath where
  canonical : Path
  size : Nat
deriving Repr, DecidableEq

/-- The text of a path is refused before it is resolved. -/
def checkRaw (raw : String) : Except PathFault Unit :=
  if raw.toList.contains '\x00' then .error .nul
  else if maxPathLength < raw.length then .error .tooLong
  else if (Path.ofString raw).parts.contains ".." then .error (.parentComponent raw)
  else .ok ()

/-- The path lies at or below one of the directories. -/
def isUnderAny (p : Path) (directories : List Path) : Bool := directories.any p.isWithin

namespace Tree

/-- The outcome of a lookup, with a lookup that the file system refuses as a breach. -/
def looked {α : Type} : Except StatFault α → Except Failure α
  | .ok a => .ok a
  | .error _ => .error (.breach .fileSystem)

/-- The resolution of a path, with a loop of links as a breach. -/
def resolveOrFail (t : Tree) (p : Path) : Except Failure Path :=
  match t.resolve p with
  | .ok q => .ok q
  | .error b => .error (.breach b)

/-- The resolution of a base that a policy names. Its text was not judged before, so a NUL in it is met
here, where the operating system does not take it. -/
def resolveBase (t : Tree) (base : Path) : Except Failure Path :=
  if base.parts.any fun c => c.toList.contains '\x00' then
    .error (.breach (.badValue "embedded null byte"))
  else t.resolveOrFail base

/-- The path lies at or below the resolution of one of the bases; they are resolved one by one until
one of them admits it. -/
def admittedBy (t : Tree) (p : Path) : List Path → Except Failure Bool
  | [] => .ok false
  | base :: rest => do
    let resolved ← t.resolveBase base
    if p.isWithin resolved then return true else t.admittedBy p rest

/-- The resolved path lies in no forbidden directory of the system. -/
def checkBlocked (t : Tree) (p : Path) (policy : PathPolicy) : Except Failure Unit := do
  if isUnderAny p systemDirectories then throw (PathFault.systemDirectory p).failure
  if isUnderAny p temporaryDirectories then
    if !(← t.admittedBy p (policy.allowedRoots ++ policy.root.toList)) then
      throw (PathFault.temporaryDirectory p).failure

/-- The resolved path lies below the root, and in none of its denied directories. -/
def checkRoot (t : Tree) (p : Path) (policy : PathPolicy) : Except Failure Unit :=
  match policy.root with
  | none => .ok ()
  | some base => do
    let root ← t.resolveBase base
    match p.relativeTo? root with
    | none => throw (PathFault.outsideRoot p root).failure
    | some parts =>
      match parts.find? policy.denied.contains with
      | some name => throw (PathFault.deniedDirectory parts name).failure
      | none => return ()

/-- The path of a text with a leading home directory expanded, resolved. -/
def canonical (t : Tree) (raw : String) : Except Failure Path :=
  match t.expandHome (Path.ofString raw) with
  | none => .error (.breach (.illegalStep "Could not determine home directory."))
  | some p => t.resolveOrFail p

/-- A canonical path is of the kind and has the ending that the policy asks for. -/
def checkKind (t : Tree) (p : Path) (policy : PathPolicy) : Except Failure Unit := do
  let present ← looked (t.exists? p)
  if policy.checkExists && !present then throw (PathFault.missing p).failure
  if present && policy.kind == .file && !t.isFile p then throw (PathFault.notFile p).failure
  if present && policy.kind == .directory && !t.isDirectory p then
    throw (PathFault.notDirectory p).failure
  if !policy.extensions.isEmpty && !policy.extensions.contains (Text.lower p.suffix) then
    throw (PathFault.extension p.name).failure

/-- The size of what a path leads to; only a regular file has one. -/
def byteSize (t : Tree) (p : Path) : Nat := ((t.read? p).map Content.size).getD 0

/-- A size keeps to its limit. A refusal names the limit, and breaks off if that cannot be written out. -/
def checkSize (name : String) (size : Nat) : Option Int → Except Failure Unit
  | none => .ok ()
  | some limit =>
    if (size : Int) ≤ limit then .ok ()
    else if Decimal.isWritable limit then .error (PathFault.tooLarge name size limit).failure
    else .error (.breach Decimal.overlong)

/-- A canonical path is of the kind and has the ending and the size that the policy asks for. -/
def checkTarget (t : Tree) (p : Path) (policy : PathPolicy) : Except Failure CheckedPath := do
  t.checkKind p policy
  checkSize p.name (t.byteSize p) policy.maxFileBytes
  return ⟨p, t.byteSize p⟩

/-- Checks a path against every rule of a policy. -/
def checkPath (t : Tree) (raw : String) (policy : PathPolicy) : Except Failure CheckedPath := do
  match checkRaw raw with
  | .error f => throw f.failure
  | .ok () => pure ()
  let p ← match t.canonical raw with
    | .ok p => pure p
    | .error (.breach b) => throw (PathFault.unresolvable raw b.message).failure
    | .error f => throw f
  t.checkBlocked p policy
  t.checkRoot p policy
  t.checkTarget p policy

/-- Checks the root of a project, which may lie in a temporary directory. -/
def checkProjectRoot (t : Tree) (raw : String) : Except Failure Path := do
  match checkRaw raw with
  | .error f => throw f.failure
  | .ok () => pure ()
  let p ← t.canonical raw
  if !(← looked (t.exists? p)) then throw (PathFault.noProject p).failure
  return (← t.checkPath p.toString { kind := .directory, allowedRoots := [p] }).canonical

/-- The components that lead from the root to a path of a finding, taken from the root if it is
relative and with backslashes read as slashes. There are none for what is not below the root or in a
denied directory. -/
def relativeParts? (t : Tree) (path : String) (root : Path) (denied : List String := deniedNames) :
    Option (List String) :=
  let raw := Text.replaceChar '\\' "/" path
  if raw.isEmpty || raw.toList.contains '\x00' then none
  else
    match t.resolve (root / Path.ofString raw) with
    | .error _ => none
    | .ok resolved =>
      match t.resolve root with
      | .error _ => none
      | .ok base =>
        match resolved.relativeTo? base with
        | none | some [] => none
        | some parts => if parts.any denied.contains then none else some parts

/-- The path of a finding relative to the root, with slashes. -/
def relativePath? (t : Tree) (path : String) (root : Path) (denied : List String := deniedNames) :
    Option String :=
  (t.relativeParts? path root denied).map Path.relativeText

end Tree

end Assay.Files
