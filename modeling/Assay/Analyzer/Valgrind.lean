import Assay.Analyzer.Toolchain
import Assay.Readers.Valgrind

/-!
# Valgrind

Memcheck watches one built program, named by an option, and writes one report. The exit code is the
program's own and says nothing.
-/

namespace Assay.Analyzer

open Files

/-- The complaint about the options of valgrind. -/
def valgrindComplaint (settings : ToolSettings) : Option String :=
  if (settingItems settings "args").all fun d => match d with | .text _ => true | _ => false
  then none else some "args must be strings"

/-- The program to watch: a file below the project that may be executed. -/
def programOf (t : Tree) (task : Task) : Except Refusal Path :=
  match (settingText? task.settings "executable").getD "" with
  | "" => .error (.skipped "valgrind needs the 'executable' tool option naming a built program")
  | raw =>
    match checkOptionPath t task .file raw with
    | .error f => .error (.failed f)
    | .ok program =>
      if t.isExecutable program then .ok program
      else .error (.failed (Failure.of .blockedPath (program.toString ++ " is not executable")))

/-- The command for a program. -/
def valgrindInvocation (task : Task) (program : Path) : Invocation :=
  let report := task.scratch.child "memcheck.xml"
  { arguments := ["--tool=memcheck", "--leak-check=full", "--show-leak-kinds=all",
      "--track-origins=yes", "--child-silent-after-fork=yes", "--xml=yes",
      "--xml-file=" ++ report.toString, program.toString] ++
      (settingItems task.settings "args").map Datum.display
    workingDirectory := task.projectRoot
    reportFile := some report
    files := [program] }

/-- The command for the program that the options name. -/
def valgrindPlan (t : Tree) (task : Task) : Except Refusal Plan :=
  (programOf t task).map fun program => { invocations := [valgrindInvocation task program] }

/-- Reads a report of valgrind. -/
def readValgrind : Readers.Reader :=
  Readers.ofMarkup fun root document => Readers.breaching (Readers.valgrind root document)

/-- The checker of memory accesses. -/
def valgrind : Analyzer where
  name := "valgrind"
  languages := [.c, .cpp]
  category := "cpp_memory_analysis"
  policy := { command := "valgrind", inherited := ["HOME"] }
  install :=
    { steps := ["apt-get install valgrind"]
      requirements := ["Linux or an older macOS release supported by Valgrind",
        "a debug build of the program"]
      notes := "Set the 'executable' tool option to a binary under the project root; 'args' are passed through." }
  formats := ["xml"]
  requiresBuild := true
  defaultConfidence := .high
  extensions := extensionsOf [.c, .cpp]
  optionKinds := [("executable", .text), ("args", .list)]
  complaint := valgrindComplaint
  plan := valgrindPlan
  accepts := fun output _ => output.report.isSome
  read := fun task output =>
    match output.report with
    | none => .error (Readers.unreadable "valgrind wrote no XML report")
    | some report => readReport readValgrind task report
  reader := readValgrind

end Assay.Analyzer
