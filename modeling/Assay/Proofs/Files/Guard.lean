import Assay.Files.Guard
import Assay.Proofs.Files.Resolve

/-!
# Paths of findings in the project

The path of a finding relative to a root is made of names, none of them denied, that lead from what the
root resolves to to what the path resolves to (`relativeParts?_eq_some`). Their characters come from the
path, the root, and the targets of links (`forall_mem_relativeParts`).
-/

namespace Assay.Files

/-- A root that is its own resolution, and that was read from a text. -/
structure Tree.IsCanonical (t : Tree) (root : Path) : Prop where
  written : ∃ s, root = Path.ofString s
  resolved : t.resolve root = .ok root

namespace Tree

variable {t : Tree} {root : Path} {path : String} {denied parts : List String}

theorem IsCanonical.isAbsolute (h : t.IsCanonical root) : root.isAbsolute = true :=
  t.isAbsolute_of_resolve h.resolved

/-- The path of a finding as it is read from a root: backslashes are slashes, and a relative path is taken
from the root. -/
def readFrom (root : Path) (path : String) : Path := root / Path.ofString (Text.replaceChar '\\' "/" path)

/-- A path that is read from a root stands for itself, or is added to the root. -/
theorem readFrom_cases (root : Path) (path : String) :
    let own := Path.ofString (Text.replaceChar '\\' "/" path)
    readFrom root path = own ∧ own.isAbsolute = true ∨
      readFrom root path = ⟨root.anchor, root.parts ++ own.parts⟩ := by
  intro own
  show Path.join root own = _ ∧ _ ∨ Path.join root own = _
  unfold Path.join
  split
  · next habs => exact .inl ⟨rfl, habs⟩
  · exact .inr rfl

/-- What is found relative to a root is what leads from the resolved root to the resolved path. -/
theorem relativeParts?_eq_some (h : t.relativeParts? path root denied = some parts) :
    parts ≠ [] ∧ (∀ c ∈ parts, c ∉ denied) ∧
      (t.realPath (readFrom root path)).anchor = (t.realPath root).anchor ∧
      (t.realPath (readFrom root path)).parts = (t.realPath root).parts ++ parts := by
  unfold relativeParts? at h
  dsimp only at h
  split at h
  · simp at h
  split at h
  · simp at h
  next resolved hresolved =>
  split at h
  · simp at h
  next base hbase =>
  split at h
  · simp at h
  · simp at h
  -- both resolutions were found, and something leads from the one to the other
  next parts' hne hparts =>
  split at h
  · simp at h
  next hdenied =>
  obtain rfl : parts' = parts := Option.some.inj h
  obtain rfl := t.resolve_eq_ok hresolved
  obtain rfl := t.resolve_eq_ok hbase
  refine ⟨hne, ?_, Path.relativeTo?_eq_some.mp hparts⟩
  intro c hc hden
  exact hdenied (List.any_eq_true.mpr ⟨c, hc, by simpa using hden⟩)

/-- What holds of all components of the root and of where it starts, of the path, and of the targets of
all links holds of the components of a relative path. -/
theorem forall_mem_relativeParts {P : String → Prop} (hP : t.ForallTargets P)
    (hstart : ∀ c ∈ t.startOf root, P c) (hroot : ∀ c ∈ root.parts, P c)
    (hpath : ∀ c ∈ (Path.ofString (Text.replaceChar '\\' "/" path)).parts, P c)
    (h : t.relativeParts? path root denied = some parts) : ∀ c ∈ parts, P c := by
  obtain ⟨-, -, -, hplace⟩ := relativeParts?_eq_some h
  have hall : ∀ c ∈ (t.realPath (readFrom root path)).parts, P c := by
    rcases readFrom_cases root path with ⟨hread, habs⟩ | hread
    · rw [hread]
      exact realPath_forall t hP (by simp [startOf, habs]) hpath
    · rw [hread]
      exact realPath_forall t hP hstart (List.forall_mem_append.mpr ⟨hroot, hpath⟩)
  rw [hplace] at hall
  exact fun c hc => hall c (List.mem_append_right _ hc)

theorem isName_of_mem_relativeParts (h : t.relativeParts? path root denied = some parts) :
    ∀ c ∈ parts, IsName c := by
  obtain ⟨-, -, -, hplace⟩ := relativeParts?_eq_some h
  intro c hc
  exact t.mem_realPath (by rw [hplace]; exact List.mem_append_right _ hc)

/-- Below a canonical root, the components of the path of a finding are names that can be written. -/
theorem IsCanonical.relativeParts (hroot : t.IsCanonical root)
    (h : t.relativeParts? path root denied = some parts) :
    Writable parts ∧ ∀ c ∈ parts, IsName c := by
  obtain ⟨s, hs⟩ := hroot.written
  have hstart : t.startOf root = [] := by rw [startOf, if_pos hroot.isAbsolute]
  refine ⟨?_, isName_of_mem_relativeParts h⟩
  apply forall_mem_relativeParts (fun _ target _ => writable_splitOn target) ?_ ?_ ?_ h
  · simp [hstart]
  · rw [hs]
    exact Path.writable_ofString s
  · exact Path.writable_ofString _

/-- **The path of a finding below a canonical root** is made of components that are names and not
denied. -/
theorem IsCanonical.relativePath (hroot : t.IsCanonical root)
    (h : t.relativePath? path root denied = some s) :
    s ≠ "" ∧ ∀ c ∈ Text.splitOn '/' s, IsName c ∧ c ∉ denied := by
  obtain ⟨parts, hparts, rfl⟩ := Option.map_eq_some_iff.mp h
  obtain ⟨hwritable, hnames⟩ := hroot.relativeParts hparts
  obtain ⟨hne, hdenied, -⟩ := relativeParts?_eq_some hparts
  constructor
  · exact Path.relativeText_ne_empty hne fun c hc => (hnames c hc).1
  · rw [Path.splitOn_relativeText hwritable hne]
    exact fun c hc => ⟨hnames c hc, hdenied c hc⟩

end Tree

end Assay.Files
