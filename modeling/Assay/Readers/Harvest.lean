import Assay.Issue
import Assay.Readers.Field
import Assay.Files.Path

/-!
# Harvests

A harvest is what reading the output of a tool yields: the findings in the order of the output, and
the reason for every record left out. Two harvests in a row make up one.
-/

namespace Assay.Readers

/-- The findings read and the reasons for what was left out, both in order. -/
structure Harvest where
  issues : List RawIssue := []
  drops : List String := []
deriving Repr, DecidableEq, Inhabited

namespace Harvest

/-- No more reasons than this are kept. -/
def maxReasons : Nat := 10

/-- How many records were left out. -/
def dropped (h : Harvest) : Nat := h.drops.length

/-- The first few reasons. -/
def reasons (h : Harvest) : List String := h.drops.take maxReasons

/-- One harvest after another. -/
def append (h k : Harvest) : Harvest := ⟨h.issues ++ k.issues, h.drops ++ k.drops⟩

instance : Append Harvest := ⟨append⟩

end Harvest

/-- What one record yields. A faulty record is left out with its reason, unless its fault is one that
spoils everything. -/
def harvestOne (built : Field (List RawIssue)) : Except Breach Harvest :=
  match built with
  | .ok issues => .ok { issues := issues }
  | .error .infiniteNumber => .error .infiniteNumber
  | .error fault => .ok { drops := [fault.reason] }

/-- The harvest of a row of records, each read on its own. -/
def harvest {α : Type} (build : α → Field (List RawIssue)) : List α → Except Breach Harvest
  | [] => .ok {}
  | record :: rest => do
    let first ← harvestOne (build record)
    let others ← harvest build rest
    return first ++ others

/-- The path of a finding, taken from the directory that the tool ran in if it is relative. -/
def resolve (root : Files.Path) (path : String) : String := (root / Files.Path.ofString path).toString

/-- The file field of a finding at a path. -/
def fileAt (root : Files.Path) (path : String) : Option String := cleanFile (resolve root path)

/-- The rule of a finding whose own rule is not known. -/
def unknownRule : String := "unknown"

end Assay.Readers
