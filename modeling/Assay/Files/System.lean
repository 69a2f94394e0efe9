import Assay.Files.Tree

/-!
# A bare system

The tree of a system on which nothing is installed but its basic commands: the usual directories, and
the commands as files that may be executed.
-/

namespace Assay.Files

/-- The basic commands of a system. -/
def basicCommands : List String :=
  ["sh", "bash", "echo", "cat", "ls", "true", "false", "env", "sleep", "printf", "pwd", "kill",
    "basename", "dirname", "grep", "head", "seq", "sort", "tail", "test", "tr", "wc", "yes"]

/-- An empty directory. -/
def Node.empty : Node := .directory []

/-- The directory with the basic commands. -/
def Node.commands : Node := .directory (basicCommands.map fun name => (name, .file (.text "") true))

/-- The top of a bare system. -/
def Node.bareSystem : Node :=
  .directory
    [("tmp", .empty),
      ("etc", .directory
        [("passwd", .file (.text "root:x:0:0:root:/root:/bin/sh\n") false),
          ("hostname", .file (.text "host\n") false),
          ("hosts", .file (.text "127.0.0.1 localhost\n") false)]),
      ("proc", .directory [("self", .empty), ("sys", .empty)]),
      ("sys", .directory [("kernel", .empty)]),
      ("dev", .directory [("null", .file (.text "") false), ("shm", .empty)]),
      ("usr", .directory
        [("bin", .commands), ("lib", .empty), ("local", .directory [("bin", .empty)])]),
      ("bin", .link "usr/bin"), ("lib", .link "usr/lib"),
      ("var", .directory [("log", .empty), ("tmp", .empty)]),
      ("home", .empty), ("root", .empty), ("opt", .empty)]

/-- A bare system with a working directory and a home directory. -/
def Tree.bareSystem (workingDirectory : Place) (home : String) : Tree where
  top := .bareSystem
  workingDirectory
  home
  homes := [("root", "/root"), ("daemon", "/usr/sbin"), ("bin", "/bin"), ("nobody", "/nonexistent")]
  temporary := "/tmp"

end Assay.Files
