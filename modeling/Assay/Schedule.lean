import Assay.Registry

/-!
# Scheduling tools

Which tools run for the languages of a project. A tool that serves several of them runs once, under the
first one whose options select it. Options that name no tool, or that a tool does not take, end the run
before anything is started.
-/

namespace Assay

/-- A tool that is to run under a language, with its place in the order of reports. -/
structure Scheduled where
  order : Nat
  language : Language
  analyzer : Analyzer

namespace Registry

/-- The problem of a selection that names no tool. -/
def unknownTool (name : String) : Problem :=
  ⟨.unknownOption, "no adapter named " ++ Text.quoted name⟩

/-- The problem of options for a tool that does not serve their language. -/
def foreignTool (l : Language) (name : String) : Problem :=
  ⟨.unknownOption, l.name ++ ": no " ++ l.name ++ " adapter named " ++ Text.quoted name⟩

/-- Some tool of the name serves the language. -/
def serves (r : Registry) (l : Language) (name : String) : Bool :=
  match r.find? name with
  | some a => a.languages.contains l
  | none => false

/-- The first name in the block of a language that is none of a tool. -/
def blockProblem (r : Registry) (l : Language) (block : LanguageOptions) : Option Problem :=
  let selected := (block.toolSelection.getD []).find? fun name => !r.contains name
  let configured := (block.toolOptions.map (·.1)).find? fun name => !r.serves l name
  (selected.map unknownTool).or (configured.map (foreignTool l))

/-- Refuses options that name a tool that there is not. -/
def checkSelection (r : Registry) (o : AnalysisOptions) : Except Problem Unit :=
  match Language.all.findSome? fun l => r.blockProblem l (o.block l) with
  | some p => .error p
  | none => .ok ()

/-- A tool is scheduled already. -/
def isScheduled (planned : List Scheduled) (name : String) : Bool :=
  planned.any fun item => item.analyzer.name == name

/-- Adds a tool at the end, if it takes its options. -/
def scheduleTool (l : Language) (block : LanguageOptions) (planned : List Scheduled) (a : Analyzer) :
    Except Problem (List Scheduled) :=
  (a.checkSettings (block.settingsOf a.name)).map fun _ => planned ++ [⟨planned.length, l, a⟩]

/-- Adds the tools of a language that its options select and that are not scheduled yet. -/
def scheduleLanguage (r : Registry) (o : AnalysisOptions) (planned : List Scheduled)
    (l : Language) : Except Problem (List Scheduled) :=
  let block := o.block l
  ((r.serving l).filter fun a => !isScheduled planned a.name && block.selects a.name).foldlM
    (scheduleTool l block) planned

/-- The tools that run for some languages, in order. -/
def schedule (r : Registry) (o : AnalysisOptions) (languages : List Language) :
    Except Problem (List Scheduled) :=
  languages.foldlM (r.scheduleLanguage o) []

end Registry

end Assay
