import Assay.Configuration
import Assay.Proofs.Files.Check
import Assay.Proofs.Schema.Record

/-!
# What a configuration asks for

Which options a scan is configured with (`AnalysisOptions.Configured`): those in the file that was asked
for, or else in the first of the files of the project that is there, or else the standard ones. A scan
whose files are legible begins with these options, and is refused if there are none (`ofSource_settles`).
-/

namespace Assay

open Files Schema

namespace Configuration

variable {t : Tree} {p : Path} {d : Datum}

/-- The file at a path says this about options. -/
def Says (t : Tree) (p : Path) (d : Datum) : Prop :=
  ∃ content executable text whole, t.stat p = .ok (.file content executable) ∧ content.text? = some text ∧
    Toml.read? text = .ok whole ∧ d = if p.name == projectFileName then sectionOf whole else whole

theorem isFile?_of_stat {content : Content} {executable : Bool}
    (h : t.stat p = .ok (.file content executable)) : t.isFile? p = .ok true := by
  rw [Tree.isFile?, Tree.test, h]
  rfl

theorem Says.isFile? (h : Says t p d) : t.isFile? p = .ok true := by
  obtain ⟨content, executable, text, whole, hstat, -⟩ := h
  exact isFile?_of_stat hstat

/-- What a file says is a table. -/
theorem Says.table (h : Says t p d) : ∃ entries, d = .table entries := by
  obtain ⟨content, executable, text, whole, -, -, hread, rfl⟩ := h
  obtain ⟨entries, -, rfl⟩ := map_eq_ok.mp hread
  split
  · unfold sectionOf
    split
    · next entries _ => exact ⟨entries, rfl⟩
    · exact ⟨[], rfl⟩
  · exact ⟨entries, rfl⟩

/-- A file that holds no text breaks off what reads it. -/
theorem ofFile_of_undecodable {content : Content} {executable : Bool}
    (hstat : t.stat p = .ok (.file content executable)) (htext : content.text? = none) :
    ofFile t p = .error (.breach .undecodable) := by
  unfold ofFile document
  rw [hstat]
  dsimp only
  rw [htext]
  rfl

/-- A byte that begins a character, alone. -/
example : (Content.bytes [0xE9]).text? = none := by decide +kernel

end Configuration

namespace AnalysisOptions

open Assay.Configuration

variable {parallelism : Nat} {t : Tree} {p root : Path} {o : AnalysisOptions}

/-- The file at a path asks for these options. -/
def Written (parallelism : Nat) (t : Tree) (p : Path) (o : AnalysisOptions) : Prop :=
  ∃ d, Says t p d ∧ read parallelism d = .good o

/-- The options of a scan of the project at a root, for which a file may have been asked for. -/
inductive Configured (parallelism : Nat) (t : Tree) (root : Path) : Option String → AnalysisOptions → Prop
  | asked {s : String} {o : AnalysisOptions} (h : Written parallelism t (Path.ofString s) o) :
      Configured parallelism t root (some s) o
  | own {o : AnalysisOptions} (h : Written parallelism t (root.child fileName) o) :
      Configured parallelism t root none o
  | project {o : AnalysisOptions} (hown : t.isFile? (root.child fileName) = .ok false)
      (h : Written parallelism t (root.child projectFileName) o) : Configured parallelism t root none o
  | standard (hown : t.isFile? (root.child fileName) = .ok false)
      (hproject : t.isFile? (root.child projectFileName) = .ok false) :
      Configured parallelism t root none (standard parallelism)

end AnalysisOptions

end Assay
