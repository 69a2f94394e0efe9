import Assay.Readers.Code
import Assay.Readers.Harvest
import Assay.Labels

/-!
# Findings of gosec

The output is one document with a list of issues. A rule that is known brings its category, its place
in the catalogues of weaknesses and a hint at a remedy. A finding of high severity that gosec itself
is not sure of counts as medium.
-/

namespace Assay.Readers

namespace Gosec

/-- What is known of a rule. -/
structure Rule where
  label : String
  category : Category
  cwe : String
  owasp : Option String
  mitigation : String
  tags : List String := []

/-- The classes of the ten worst risks that rules refer to. -/
def accessRisk : Option String := some "A01:2021 Broken Access Control"
@[inherit_doc accessRisk]
def cryptoRisk : Option String := some "A02:2021 Cryptographic Failures"
@[inherit_doc accessRisk]
def injectionRisk : Option String := some "A03:2021 Injection"
@[inherit_doc accessRisk]
def configurationRisk : Option String := some "A05:2021 Security Misconfiguration"
@[inherit_doc accessRisk]
def identityRisk : Option String := some "A07:2021 Identification and Authentication Failures"

/-- The rules by their codes. -/
def rules : List (String × Rule) :=
  [("G101", ⟨"credentials", .security, "CWE-798", identityRisk,
      "Load secrets from environment variables or a secret manager instead of source code.",
      ["credentials", "injection"]⟩),
    ("G102", ⟨"network-binding", .security, "CWE-200", configurationRisk,
      "Bind to a specific interface.", []⟩),
    ("G103", ⟨"unsafe-block", .memorySafety, "CWE-242", none, "Avoid package unsafe.", []⟩),
    ("G104", ⟨"unhandled-error", .correctness, "CWE-754", none,
      "Check and handle returned errors.", []⟩),
    ("G106", ⟨"ssh-host-key", .security, "CWE-322", identityRisk, "Verify SSH host keys.", []⟩),
    ("G107", ⟨"url-taint", .security, "CWE-20", injectionRisk,
      "Validate URLs before issuing HTTP requests.", ["injection"]⟩),
    ("G108", ⟨"profiling-endpoint", .security, "CWE-200", configurationRisk,
      "Do not expose pprof.", []⟩),
    ("G109", ⟨"integer-overflow", .correctness, "CWE-190", none,
      "Check bounds after strconv.Atoi.", []⟩),
    ("G110", ⟨"decompression-bomb", .security, "CWE-409", none, "Limit decompressed sizes.", []⟩),
    ("G111", ⟨"directory-traversal", .security, "CWE-22", accessRisk,
      "Restrict http.Dir roots.", []⟩),
    ("G112", ⟨"slowloris", .security, "CWE-400", configurationRisk, "Set ReadHeaderTimeout.", []⟩),
    ("G114", ⟨"server-timeouts", .security, "CWE-676", configurationRisk,
      "Use http.Server timeouts.", []⟩),
    ("G115", ⟨"integer-conversion", .correctness, "CWE-190", none, "Check integer conversions.", []⟩),
    ("G201", ⟨"sql-injection", .security, "CWE-89", injectionRisk,
      "Use parameterized queries instead of string formatting.", []⟩),
    ("G202", ⟨"sql-injection", .security, "CWE-89", injectionRisk,
      "Use parameterized queries instead of string concatenation.", []⟩),
    ("G203", ⟨"xss", .security, "CWE-79", injectionRisk,
      "Do not mark untrusted data as safe HTML.", []⟩),
    ("G204", ⟨"command-injection", .security, "CWE-78", injectionRisk,
      "Avoid variable commands; validate arguments against an allow list.", []⟩),
    ("G301", ⟨"file-permissions", .security, "CWE-276", accessRisk,
      "Create directories 0750 or tighter.", []⟩),
    ("G302", ⟨"file-permissions", .security, "CWE-276", accessRisk,
      "Chmod files 0600 or tighter.", []⟩),
    ("G303", ⟨"temp-file", .security, "CWE-377", accessRisk, "Use os.CreateTemp.", []⟩),
    ("G304", ⟨"path-traversal", .security, "CWE-22", accessRisk,
      "Clean and confine file paths derived from input.", []⟩),
    ("G305", ⟨"path-traversal", .security, "CWE-22", accessRisk,
      "Validate archive entry names.", []⟩),
    ("G306", ⟨"file-permissions", .security, "CWE-276", accessRisk,
      "Write files 0600 or tighter.", []⟩),
    ("G307", ⟨"deferred-close", .correctness, "CWE-703", none,
      "Handle errors from deferred Close.", []⟩),
    ("G401", ⟨"weak-crypto", .security, "CWE-327", cryptoRisk, "Use SHA-256 or stronger.", []⟩),
    ("G402", ⟨"tls", .security, "CWE-295", cryptoRisk, "Do not disable TLS verification.", []⟩),
    ("G403", ⟨"weak-crypto", .security, "CWE-326", cryptoRisk,
      "Use RSA keys of 2048 bits or more.", []⟩),
    ("G404", ⟨"random", .security, "CWE-338", cryptoRisk, "Use crypto/rand for secrets.", []⟩),
    ("G405", ⟨"weak-crypto", .security, "CWE-327", cryptoRisk, "Replace DES and RC4.", []⟩),
    ("G406", ⟨"weak-crypto", .security, "CWE-328", cryptoRisk, "Replace MD4 and RIPEMD160.", []⟩),
    ("G501", ⟨"weak-crypto", .security, "CWE-327", cryptoRisk, "Do not import crypto/md5.", []⟩),
    ("G502", ⟨"weak-crypto", .security, "CWE-327", cryptoRisk, "Do not import crypto/des.", []⟩),
    ("G503", ⟨"weak-crypto", .security, "CWE-327", cryptoRisk, "Do not import crypto/rc4.", []⟩),
    ("G504", ⟨"cgi", .security, "CWE-327", configurationRisk, "Do not import net/http/cgi.", []⟩),
    ("G505", ⟨"weak-crypto", .security, "CWE-327", cryptoRisk, "Do not import crypto/sha1.", []⟩),
    ("G506", ⟨"weak-crypto", .security, "CWE-328", cryptoRisk, "Do not import md4.", []⟩),
    ("G507", ⟨"weak-crypto", .security, "CWE-328", cryptoRisk, "Do not import ripemd160.", []⟩),
    ("G601", ⟨"memory-aliasing", .memorySafety, "CWE-118", none, "Copy the range variable.", []⟩),
    ("G602", ⟨"slice-bounds", .memorySafety, "CWE-118", none,
      "Check slice bounds before indexing.", []⟩)]

/-- The tags of families of rules, by the first two characters of a code. -/
def familyTags : List (String × String) :=
  [("G2", "injection"), ("G3", "file-security"), ("G4", "cryptography"), ("G5", "imports")]

/-- The labels of severities. -/
def severities : SeverityTable := [("high", .high), ("medium", .medium), ("low", .low)]

/-- The labels of confidence. -/
def confidences : List (String × Confidence) :=
  [("high", .high), ("medium", .medium), ("low", .low)]

/-- The severity of a finding in view of the tool's confidence. -/
def discounted (severity : Severity) (confidence : Option Confidence) : Severity :=
  match severity, confidence with
  | .high, some .low => .medium
  | severity, _ => severity

/-- The first and the last line of a field such as `12` or `12-14`. -/
def lineSpan (d : Datum) : Field (Option Int × Option Int) := do
  match text d with
  | none => return (none, none)
  | some s =>
    match Text.cut '-' s.toList with
    | none =>
      let first ← wholeOfText s
      return (first, first)
    | some (start, finish) =>
      let first ← wholeOfText (String.ofList start)
      if finish.isEmpty then return (first, first)
      else return (first, ← wholeOfText (String.ofList finish))

/-- The page that describes a rule. -/
def rulePage (rule : String) : String :=
  "https://securecodewarrior.github.io/gosec-docs/rules/" ++ rule ++ ".html"

/-- The details of a finding, the remedy of its rule and the code it is about. -/
def description (details : String) (rule : Option Rule) (code : Option String) : String :=
  let mitigation := (rule.map fun r => "\n\nMitigation: " ++ r.mitigation).getD ""
  details ++ mitigation ++ (code.map fun s => "\n\n" ++ Text.stripEnd s).getD ""

/-- The finding of one issue. -/
def record (root : Files.Path) (item : Datum) : Field (List RawIssue) := do
  match text (item.get "file") with
  | none => throw (.badValue "gosec issue without a file")
  | some file =>
    let code := (text (item.get "rule_id")).filter isGosecCode
    let id := code.getD unknownRule
    let rule := rules.lookup id
    let (label, known) := Severity.ofLabel severities (item.get "severity")
    let confidence := confidences.lookup
      (Text.lower ((item.get? "confidence").getD (.text "")).display)
    let (line, endLine) ← lineSpan (item.get "line")
    let details := (text (item.get "details")).getD "gosec finding"
    let family := familyTags.lookup (Text.take 2 id)
    let cwe := (rule.map (·.cwe)).or
      ((text (item.dig ["cwe", "id"])).map fun number => "CWE-" ++ number)
    let column ← whole (item.get "column")
    return [{
      file := fileAt root file
      line, column, endLine
      severity := discounted label confidence
      severityKnown := known
      category := some (Vocabulary.name ((rule.map (·.category)).getD .security))
      rule := some id
      title := details
      description := description details rule (text (item.get "code"))
      confidence
      tags := ["go", "security", "gosec"] ++ (rule.map fun r => r.label :: r.tags).getD [] ++
        family.toList ++ (if known then [] else [unknownLabelTag])
      refs := some {
        cwe
        owasp := rule.bind (·.owasp)
        advisoryUrl := code.map rulePage } }]

end Gosec

/-- The findings of gosec in a document. -/
def gosec (root : Files.Path) (document : Datum) : Except Breach Harvest :=
  harvest (Gosec.record root) (document.get "Issues").tables

end Assay.Readers
