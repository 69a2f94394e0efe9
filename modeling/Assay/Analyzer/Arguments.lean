import Assay.Analyzer.Basic

/-!
# Arguments

The shapes that arguments come in: flags before values, flags with lists, sources in batches. Options
that are lists are checked entry by entry.
-/

namespace Assay.Analyzer

open Files

/-- The texts that hold, each after a flag. -/
def flagged (flag : String) (values : List String) : List String :=
  values.flatMap fun value => [flag, value]

/-- An argument, if a condition holds. -/
def argumentIf (condition : Bool) (argument : String) : List String :=
  if condition then [argument] else []

/-- A flag with a list of rules, if there are any. -/
def ruleFlag (flag : String) (rules : List String) : List String :=
  if rules.isEmpty then [] else [flag ++ Text.join "," rules]

/-- A plan with one command in the root of the tool. -/
def onePlan (task : Task) (arguments : List String) : Plan :=
  { invocations := [{ arguments, workingDirectory := task.toolRoot }] }

/-- One command for every batch of sources, with the sources at the end of its arguments. -/
def batchInvocations (task : Task) (standard : Option Nat) (shared : List String) :
    List Invocation :=
  (task.batches standard).map fun files =>
    { arguments := shared ++ files.map Path.toString, workingDirectory := task.toolRoot, files }

/-- The texts of an option that is a list. -/
def settingTexts (task : Task) (name : String) : List String :=
  (settingItems task.settings name).map Datum.display

/-- The value is a text with a property. -/
def isTextWith (holds : String → Bool) : Datum → Bool
  | .text s => holds s
  | _ => false

/-- The complaint about the entries of an option that are not as they should be. -/
def entryComplaint (settings : ToolSettings) (holds : String → Bool) (name : String) :
    Option String :=
  ((settingItems settings name).find? fun d => !isTextWith holds d).map fun d =>
    "invalid entry " ++ d.shown ++ " in " ++ Text.quoted name

end Assay.Analyzer
