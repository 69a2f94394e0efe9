import Assay.Files.Path
import Assay.Severity
import Assay.Text.Blank
import Assay.Text.Quoted

/-!
# Findings

A *raw* finding is what a tool said, in the tool's own terms; most of it may be missing. An *issue* is
the common form that every finding is brought into.
-/

namespace Assay

/-- A replacement that a tool proposes, with the span it replaces. -/
structure FixSuggestion where
  replacement : String
  startLine : Int
  startColumn : Int := 1
  endLine : Int
  endColumn : Int := 1
  description : Option String := none
deriving Repr, DecidableEq, Inhabited

/-- Where to read more: catalogues of weaknesses, and advisories. -/
structure References where
  cwe : Option String := none
  owasp : Option String := none
  advisoryUrl : Option String := none
deriving Repr, DecidableEq, Inhabited

/-- Nothing stands in the text. -/
def lacks (s : Option String) : Bool := (s.getD "").isEmpty

/-- No reference is given. -/
def References.isEmpty (r : References) : Bool := lacks r.cwe && lacks r.owasp && lacks r.advisoryUrl

/-- How near to each other two findings of one defect may lie. -/
structure SearchRadius where
  lines : Int := 5
  columns : Int := 10
deriving Repr, DecidableEq, Inhabited

/-- What a correlator is told about an issue. -/
structure CorrelationHints where
  searchRadius : SearchRadius := {}
  similarityFactors : List String := ["file", "line", "category", "message"]
  crossToolPatterns : List String := []
deriving Repr, DecidableEq, Inhabited

/-- A finding as a tool reported it. -/
structure RawIssue where
  file : Option String := none
  line : Option Int := none
  column : Option Int := none
  endLine : Option Int := none
  endColumn : Option Int := none
  severity : Severity := .medium
  /-- The tool's severity label was in its table. -/
  severityKnown : Bool := true
  category : Option String := none
  rule : Option String := none
  title : String
  description : String := ""
  confidence : Option Confidence := none
  tags : List String := []
  fix : Option FixSuggestion := none
  refs : Option References := none
  patternHints : List String := []
  ecosystem : Option String := none
deriving Repr, DecidableEq, Inhabited

/-- A file name without the blanks around it; a blank one counts as missing. -/
def cleanFile (s : String) : Option String :=
  let stripped := Text.strip s
  if stripped.isEmpty then none else some stripped

/-- A finding in the common form. -/
structure Issue where
  id : String
  toolName : String
  toolVersion : Option String := none
  canonicalPath : String
  startLine : Int
  startColumn : Int
  endLine : Int
  endColumn : Int
  severity : Severity
  category : Category
  subcategory : String
  title : String
  description : String := ""
  confidence : Confidence
  tags : List String := []
  fixSuggestion : Option FixSuggestion := none
  externalRefs : Option References := none
  correlationKey : String := ""
  crossToolPatterns : List String := []
  toolCategory : String := ""
  ecosystem : String := ""
  correlationHints : CorrelationHints := {}
deriving Repr, DecidableEq, Inhabited

/-- What is wrong with a path for the common form: it is relative, goes nowhere up, and is written with
slashes. -/
def Issue.pathComplaint (path : String) : Option String :=
  if path.isEmpty || path.toList.contains '\\' then
    some ("canonical path must use forward slashes: " ++ Text.quoted path)
  else
    let p := Files.Path.ofString path
    if p.isAbsolute || p.parts.contains ".." then
      some ("canonical path must stay under the project root: " ++ Text.quoted path)
    else none

end Assay
