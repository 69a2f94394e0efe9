import Assay.Proofs.Readers.Harvest
import Assay.Proofs.Readers.Infinite
import Assay.Readers.Output

/-!
# Readers of records

Five tools report their findings as a row of records in a document of any shape. Such a document is read
exactly if none of its records overflows, and a record that cannot be read for another reason is left
out alone.
-/

namespace Assay.Readers

/-- The readers that find their records in a document. -/
inductive RecordReader where
  | clippy
  | staticcheck
  | cargoAudit
  | gosec
  | pylint
deriving Repr, DecidableEq

namespace RecordReader

/-- Reads a document. -/
def read : RecordReader → Files.Path → Datum → Except Breach Harvest
  | clippy => Readers.clippy
  | staticcheck => Readers.staticcheck
  | cargoAudit => Readers.cargoAudit
  | gosec => Readers.gosec
  | pylint => Readers.pylint

/-- The records of a document. -/
def records (k : RecordReader) (document : Datum) : List Datum :=
  match k with
  | clippy | staticcheck => document.tables
  | cargoAudit => (document.dig ["vulnerabilities", "list"]).tables
  | gosec => (document.get "Issues").tables
  | pylint => (if document.isTable then document.get "messages" else document).tables

/-- Reads one record. -/
def record : RecordReader → Files.Path → Datum → Field (List RawIssue)
  | clippy => Clippy.record
  | staticcheck => Staticcheck.record
  | cargoAudit => CargoAudit.record
  | gosec => Gosec.record
  | pylint => Pylint.record

/-- The records that meet an infinite number before they are read. -/
def Overflows : RecordReader → Datum → Prop
  | clippy => Clippy.Overflows
  | staticcheck => Staticcheck.Overflows
  | cargoAudit => fun _ => False
  | gosec => Gosec.Overflows
  | pylint => Pylint.Overflows

variable {k : RecordReader} {root : Files.Path} {r : Datum}

/-- A document is read record by record. -/
theorem read_eq_harvest (k : RecordReader) (root : Files.Path) (document : Datum) :
    k.read root document = harvest (k.record root) (k.records document) := by
  cases k <;> rfl

theorem record_eq_infinite : k.record root r = .error .infiniteNumber ↔ k.Overflows r := by
  cases k with
  | clippy => exact Clippy.record_eq_infinite
  | staticcheck => exact Staticcheck.record_eq_infinite
  | cargoAudit => exact iff_of_false (CargoAudit.record_ne_infinite root r) id
  | gosec => exact Gosec.record_eq_infinite
  | pylint => exact Pylint.record_eq_infinite

/-- **A document is read exactly if none of its records overflows**, and fails with that overflow
otherwise. A record that cannot be read for another reason, put anywhere among the others, is counted
and changes nothing else. -/
theorem read_isOk_iff (k : RecordReader) (root : Files.Path) (document : Datum) :
    ((∃ h, k.read root document = .ok h) ↔ ∀ r ∈ k.records document, ¬ k.Overflows r) ∧
      (∀ b, k.read root document = .error b → b = .infiniteNumber) ∧
      ∀ (document' r : Datum) (before after : List Datum) (fault : RecordFault) (h : Harvest),
        k.records document = before ++ after → k.records document' = before ++ r :: after →
        k.record root r = .error fault → ¬ k.Overflows r → k.read root document = .ok h →
        ∃ h', k.read root document' = .ok h' ∧ h'.issues = h.issues ∧ h'.dropped = h.dropped + 1 := by
  refine ⟨?_, ?_, ?_⟩
  · rw [read_eq_harvest, harvest_isOk]
    simp only [ne_eq, record_eq_infinite]
  · intro b hb
    rw [read_eq_harvest] at hb
    exact (harvest_eq_error.mp hb).1
  · intro document' r before after fault h hrecords hrecords' hfault hne hok
    rw [read_eq_harvest, hrecords] at hok
    rw [read_eq_harvest, hrecords']
    refine harvest_insert hfault ?_ hok
    rintro rfl
    exact hne (record_eq_infinite.mp hfault)

/-- The document of gosec with some issues. -/
def gosecDocument (issues : List Datum) : Datum := .table [("Issues", .list issues)]

/-- A nameless file does not keep a finding in another one from being read. -/
theorem read_isOk_iff_nameless :
    ∃ h', gosec.read (Files.Path.ofString "/work")
        (gosecDocument [.table [("file", .null)], .table [("file", .text "a.go")]]) = .ok h' ∧
      h'.issues.length = 1 ∧ h'.dropped = 1 := by
  have halone : (gosec.read (Files.Path.ofString "/work")
      (gosecDocument [.table [("file", .text "a.go")]])).toOption.map
        (fun h => (h.issues.length, h.dropped)) = some (1, 0) := by rfl
  cases hread : gosec.read (Files.Path.ofString "/work")
      (gosecDocument [.table [("file", .text "a.go")]]) with
  | error b =>
      rw [hread] at halone
      simp [Except.toOption] at halone
  | ok h =>
      rw [hread] at halone
      simp only [Except.toOption, Option.map_some, Option.some.injEq, Prod.mk.injEq] at halone
      obtain ⟨-, -, hinsert⟩ := read_isOk_iff gosec (Files.Path.ofString "/work")
        (gosecDocument [.table [("file", .text "a.go")]])
      obtain ⟨h', hok, hissues, hdropped⟩ :=
        hinsert (gosecDocument [.table [("file", .null)], .table [("file", .text "a.go")]])
          (.table [("file", .null)]) [] [.table [("file", .text "a.go")]]
          (.badValue "gosec issue without a file") h rfl rfl rfl (fun hover => nomatch hover.1) hread
      exact ⟨h', hok, by rw [hissues, halone.1], by rw [hdropped, halone.2]⟩

/-- An output of gosec with a finding that can be read, and one in an infinite column. -/
def overflowOutput : String :=
  "\x7b\"Issues\": [\x7b\"file\": \"a.go\"\x7d, \x7b\"file\": \"b.go\", \"column\": 1e400\x7d]\x7d"

/-- The infinite column takes the other finding with it. -/
theorem gosec_infinite_column :
    ofDocument Readers.gosec (Files.Path.ofString "/work") overflowOutput =
      .error (.breach .infiniteNumber) := by rfl

end RecordReader

end Assay.Readers
