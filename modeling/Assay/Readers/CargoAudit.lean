import Assay.Advisory.Score
import Assay.Readers.Code
import Assay.Readers.Harvest
import Assay.Labels

/-!
# Findings of cargo-audit

The output is one document that lists vulnerable packages, each with its advisory. The severity is
that of the advisory's own label, else that of its score; an advisory that is only informational is of
severity `info`.
-/

namespace Assay.Readers

namespace CargoAudit

/-- The labels of severities. -/
def severities : SeverityTable :=
  [("critical", .critical), ("high", .high), ("medium", .medium), ("moderate", .medium),
    ("low", .low), ("none", .info), ("info", .info), ("informational", .info)]

/-- The severity of an advisory, and whether the advisory tells it. -/
def severity (advisory : Datum) : Severity × Bool :=
  match advisory.get "severity" with
  | .text label => Severity.ofLabel severities (.text label)
  | _ =>
    match (text (advisory.get "cvss")).bind Advisory.score? with
    | some score => (Advisory.severityOfScore score, true)
    | none => if (advisory.get "informational").isTruthy then (.info, true) else (.medium, false)

/-- The page of an advisory. -/
def advisoryPage (id : String) : String := "https://rustsec.org/advisories/" ++ id ++ ".html"

/-- What the vulnerable parts of programs are known for. -/
def vulnerableComponents : String := "A06:2021 Vulnerable and Outdated Components"

/-- The paragraphs of a description. -/
def paragraphs (name version title : String) (advisory : Datum) (patched aliases : List String) :
    List String :=
  [name ++ " " ++ version ++ ": " ++ title] ++
    ((text (advisory.get "description")).map Text.strip).toList ++
    ["Patched versions: " ++ (if patched.isEmpty then "none available" else Text.join ", " patched)] ++
    (if aliases.isEmpty then [] else ["Aliases: " ++ Text.join ", " aliases]) ++
    ((text (advisory.get "cvss")).map fun vector => "CVSS: " ++ vector).toList

/-- The finding of one vulnerable package. -/
def record (root : Files.Path) (entry : Datum) : Field (List RawIssue) := do
  let advisory := entry.get "advisory"
  if !advisory.isTable then throw (.badValue "vulnerability without an advisory")
  let id := (text (advisory.get "id")).filter isAdvisoryId
  let package := entry.get "package"
  let name := ((text (package.get "name")).or (text (advisory.get "package"))).getD "unknown"
  let version := (text (package.get "version")).getD "?"
  let title := (text (advisory.get "title")).getD ("Vulnerability in " ++ name)
  let (severity, known) := severity advisory
  let patched ← itemTexts (entry.dig ["versions", "patched"])
  let aliases ← itemTexts (advisory.get "aliases")
  let categories ← itemTexts (advisory.get "categories")
  return [{
    file := fileAt root "Cargo.lock"
    line := some 1
    column := some 1
    severity
    severityKnown := known
    category := some (Vocabulary.name Category.vulnerability)
    rule := some (id.getD unknownRule)
    title
    description := Text.join "\n\n" (paragraphs name version title advisory patched aliases)
    confidence := some .high
    tags := ["rust", "cargo-audit", "vulnerability", "dependency"] ++ categories ++
      (if known then [] else [unknownLabelTag])
    refs := some {
      owasp := some vulnerableComponents
      advisoryUrl := (text (advisory.get "url")).or (id.map advisoryPage) }
    patternHints := ["vulnerable_dependency"] }]

end CargoAudit

/-- The findings of cargo-audit in a document. -/
def cargoAudit (root : Files.Path) (document : Datum) : Except Breach Harvest :=
  harvest (CargoAudit.record root) (document.dig ["vulnerabilities", "list"]).tables

end Assay.Readers
