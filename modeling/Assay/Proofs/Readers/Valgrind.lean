import Assay.Proofs.Acceptance
import Assay.Proofs.Readers.Field
import Assay.Proofs.Recognition
import Assay.Readers.Valgrind

/-!
# Where an error of valgrind is reported

The frame that an error is reported at is chosen by the text of its path: the first one that begins like the
root, else the first one with a file. Whether it lies in the project is decided later, by what the path resolves
to and by the denied directories. So an error becomes an issue at the first frame that lies in the project if
that is the frame that is chosen (`reportedAt_iff`), as it is where no path of the stack holds links or dots
and none lies in a denied directory. A frame that leaves the root by dots is chosen before it, and the error is
lost as one outside the project (`record_leaves_root`).
-/

namespace Assay.Readers

open Files Files.Tree
open Markup (Element)

/-- A text that looks like a whole number is a numeral. -/
def HoldsNumeral (s : Option String) : Prop :=
  ∀ text ∈ s, looksWhole (Text.trim text.toList) = true → IsNumeral (Text.trim text.toList)

theorem wholeOfText?_isOk {s : Option String} : (∃ n, wholeOfText? s = .ok n) ↔ HoldsNumeral s := by
  cases s with
  | none => exact ⟨fun _ => nofun, fun _ => ⟨none, rfl⟩⟩
  | some text =>
      rw [wholeOfText?, wholeOfText_isOk, HoldsNumeral]
      simp

namespace Valgrind

variable {root : Path} {error : Element} {frames : List Element} {found : List Place} {raws : List RawIssue}

/-- The paths of the frames of an error that have a file, taken from the root. -/
def sources (root : Path) (error : Element) : List String :=
  ((error.findAll ["stack", "frame"]).filterMap framePath?).map (resolve root)

/-- The path that is chosen among those of a stack. -/
def chosen? (root : Path) (paths : List String) : Option String :=
  (paths.find? fun s => (Path.ofString s).isWithin root).or paths.head?

/-- The numbers of an error can be read: the lines of its frames with a file, and how many bytes leaked. -/
structure IsReadable (error : Element) : Prop where
  lines : ∀ frame ∈ error.findAll ["stack", "frame"], framePath? frame ≠ none →
    HoldsNumeral (frame.findText? ["line"])
  leaked : HoldsNumeral (error.findText? ["xwhat", "leakedbytes"])

/-! ## Reading an error -/

/-- The frames can be read exactly if the lines of those with a file can. -/
theorem places_isOk : (∃ found, places root frames = .ok found) ↔
    ∀ frame ∈ frames, framePath? frame ≠ none → HoldsNumeral (frame.findText? ["line"]) := by
  induction frames with
  | nil => exact ⟨fun _ => nofun, fun _ => ⟨[], rfl⟩⟩
  | cons frame rest ih =>
      rw [List.forall_mem_cons, ← ih, places]
      cases hpath : framePath? frame with
      | none => simp
      | some path =>
          rw [forall_prop_of_true (by simp), ← wholeOfText?_isOk]
          constructor
          · rintro ⟨found, h⟩
            obtain ⟨line, hline, h⟩ := bind_eq_ok.mp h
            obtain ⟨others, hothers, -⟩ := bind_eq_ok.mp h
            exact ⟨⟨line, hline⟩, others, hothers⟩
          · rintro ⟨⟨line, hline⟩, others, hothers⟩
            exact ⟨_, bind_eq_ok.mpr ⟨line, hline, bind_eq_ok.mpr ⟨others, hothers, rfl⟩⟩⟩

theorem map_path_places (h : places root frames = .ok found) :
    found.map (·.path) = (frames.filterMap framePath?).map (resolve root) := by
  induction frames generalizing found with
  | nil =>
      obtain rfl := Except.ok.inj h
      rfl
  | cons frame rest ih =>
      rw [places] at h
      cases hpath : framePath? frame with
      | none =>
          rw [hpath] at h
          rw [List.filterMap_cons_none hpath]
          exact ih h
      | some path =>
          rw [hpath] at h
          obtain ⟨line, -, h⟩ := bind_eq_ok.mp h
          obtain ⟨others, hothers, h⟩ := bind_eq_ok.mp h
          obtain rfl := pure_eq_ok.mp h
          rw [List.filterMap_cons_some hpath, List.map_cons, List.map_cons, ih hothers]

/-- The lines of places were read from texts. -/
theorem fits_of_mem_places (h : places root frames = .ok found) :
    ∀ place ∈ found, ∀ n ∈ place.line, (Datum.int n).Fits := by
  induction frames generalizing found with
  | nil =>
      obtain rfl := Except.ok.inj h
      exact fun _ hplace => nomatch hplace
  | cons frame rest ih =>
      rw [places] at h
      cases hpath : framePath? frame with
      | none =>
          rw [hpath] at h
          exact ih h
      | some path =>
          rw [hpath] at h
          obtain ⟨line, hline, h⟩ := bind_eq_ok.mp h
          obtain ⟨others, hothers, h⟩ := bind_eq_ok.mp h
          obtain rfl := pure_eq_ok.mp h
          refine List.forall_mem_cons.mpr ⟨fun n hn => ?_, ih hothers⟩
          obtain rfl : line = some n := hn
          exact Datum.fits_int.mpr (natAbs_of_wholeOfText? hline)

/-- An error is placed at the path that is chosen, if its lines can be read and one of its frames has a file. -/
theorem primaryPlace_isOk : (∃ place, primaryPlace root error = .ok place) ↔
    (∃ found, places root (error.findAll ["stack", "frame"]) = .ok found) ∧ sources root error ≠ [] := by
  unfold primaryPlace
  constructor
  · rintro ⟨place, h⟩
    obtain ⟨found, hfound, h⟩ := bind_eq_ok.mp h
    refine ⟨⟨found, hfound⟩, fun hnone => ?_⟩
    rw [sources, ← map_path_places hfound, List.map_eq_nil_iff] at hnone
    subst hnone
    exact nomatch h
  · rintro ⟨⟨found, hfound⟩, hne⟩
    rw [sources, ← map_path_places hfound] at hne
    cases found with
    | nil => simp at hne
    | cons first rest =>
        obtain ⟨place, hplace⟩ : ∃ place, ((first :: rest).find? fun p => (Path.ofString p.path).isWithin root).or
            (some first) = some place := by
          cases (first :: rest).find? fun p => (Path.ofString p.path).isWithin root with
          | some place => exact ⟨place, rfl⟩
          | none => exact ⟨first, rfl⟩
        refine ⟨place, bind_eq_ok.mpr ⟨_, hfound, ?_⟩⟩
        rw [List.head?_cons, hplace]
        rfl

theorem chosen?_of_primaryPlace {place : Place} (h : primaryPlace root error = .ok place) :
    chosen? root (sources root error) = some place.path := by
  obtain ⟨found, hfound, h⟩ := bind_eq_ok.mp h
  have hchosen : chosen? root (found.map (·.path)) =
      ((found.find? fun p => (Path.ofString p.path).isWithin root).or found.head?).map (·.path) := by
    rw [chosen?, List.find?_map, List.head?_map, Option.map_or]
    rfl
  rw [sources, ← map_path_places hfound, hchosen]
  split at h
  · next hplace =>
    rw [hplace, pure_eq_ok.mp h]
    rfl
  · exact nomatch h

theorem fits_of_primaryPlace {place : Place} (h : primaryPlace root error = .ok place) :
    ∀ n ∈ place.line, (Datum.int n).Fits := by
  obtain ⟨found, hfound, h⟩ := bind_eq_ok.mp h
  split at h
  · next chosen hchosen =>
    obtain rfl := pure_eq_ok.mp h
    refine fits_of_mem_places hfound _ ?_
    rcases Option.or_eq_some_iff.mp hchosen with hfirst | ⟨-, hfirst⟩
    · exact List.mem_of_find?_eq_some hfirst
    · exact List.mem_of_mem_head? hfirst
  · exact nomatch h

/-- **What is read of an error** of a known kind: one finding, placed at the path that is chosen. -/
theorem record_eq_ok (h : record root error = .ok raws) :
    ∃ raw path, raws = [raw] ∧ chosen? root (sources root error) = some path ∧ raw.file = cleanFile path ∧
      ∀ n ∈ raw.line, (Datum.int n).Fits := by
  unfold record at h
  dsimp only at h
  obtain ⟨-, h⟩ := guard_eq_ok.mp h
  obtain ⟨place, hplace, h⟩ := bind_eq_ok.mp h
  obtain ⟨leaked, -, h⟩ := bind_eq_ok.mp h
  rw [← pure_eq_ok.mp h]
  exact ⟨_, place.path, rfl, chosen?_of_primaryPlace hplace, by dsimp only, fits_of_primaryPlace hplace⟩

/-- **When an error is read**: its kind is not blank, its numbers can be read, and one of its frames has a
file. -/
theorem record_isOk : (∃ raws, record root error = .ok raws) ↔
    Text.strip ((error.findText? ["kind"]).getD "") ≠ "" ∧ IsReadable error ∧ sources root error ≠ [] := by
  have hreadable : IsReadable error ↔ (∃ found, places root (error.findAll ["stack", "frame"]) = .ok found) ∧
      ∃ n, wholeOfText? (error.findText? ["xwhat", "leakedbytes"]) = .ok n := by
    rw [places_isOk, wholeOfText?_isOk]
    exact ⟨fun h => ⟨h.lines, h.leaked⟩, fun h => ⟨h.1, h.2⟩⟩
  rw [hreadable]
  constructor
  · rintro ⟨raws, h⟩
    unfold record at h
    dsimp only at h
    obtain ⟨hkind, h⟩ := guard_eq_ok.mp h
    obtain ⟨place, hplace, h⟩ := bind_eq_ok.mp h
    obtain ⟨leaked, hleaked, -⟩ := bind_eq_ok.mp h
    obtain ⟨hfound, hne⟩ := primaryPlace_isOk.mp ⟨place, hplace⟩
    exact ⟨by simpa using hkind, ⟨hfound, leaked, hleaked⟩, hne⟩
  · rintro ⟨hkind, ⟨hfound, leaked, hleaked⟩, hne⟩
    obtain ⟨place, hplace⟩ := primaryPlace_isOk.mpr ⟨hfound, hne⟩
    unfold record
    dsimp only
    exact ⟨_, guard_eq_ok.mpr ⟨by simpa using hkind,
      bind_eq_ok.mpr ⟨place, hplace, bind_eq_ok.mpr ⟨leaked, hleaked, rfl⟩⟩⟩⟩

/-! ## Placing an error in the project -/

variable {profile : Profile} {t : Tree} {s path file : String} {raw : RawIssue}

/-- The error becomes one issue, which stands at the path. -/
def ReportedAt (profile : Profile) (t : Tree) (error : Element) (path : String) : Prop :=
  ∃ harvest n issue, harvestOne (record profile.root error) = .ok harvest ∧
    profile.normalize t none harvest.issues = .ok n ∧ n.issues = [issue] ∧ issue.canonicalPath = path

/-- The error is read, and left out as one outside the project. -/
def IsLost (profile : Profile) (t : Tree) (error : Element) : Prop :=
  ∃ harvest, harvestOne (record profile.root error) = .ok harvest ∧
    profile.normalize t none harvest.issues = .ok { outsideRoot := 1 }

/-- The text is a path without links, dots, backslashes and blanks around it, and if it is one below the root,
it lies in no denied directory. -/
def IsPlainPath (t : Tree) (root : Path) (denied : List String) (s : String) : Prop :=
  ∃ place, s = (Path.rooted place).toString ∧ t.IsReal place ∧ (∀ c ∈ place, IsComponent c) ∧
    '\\' ∉ s.toList ∧ Text.strip s = s ∧
    ∀ parts, (Path.rooted place).relativeTo? root = some parts → parts ≠ [] ∧ ∀ c ∈ parts, c ∉ denied

/-- Two ways to choose that agree on every path choose the same one, if the second chooses any. -/
theorem chosen?_of_agree {lies : String → Bool} {paths : List String}
    (hagree : ∀ s ∈ paths, (Path.ofString s).isWithin root = lies s) (hfirst : paths.find? lies = some s) :
    chosen? root paths = some s := by
  have hsame : paths.find? (fun s => (Path.ofString s).isWithin root) = paths.find? lies := by
    rw [← List.head?_filter, ← List.head?_filter, List.filter_congr hagree]
  rw [chosen?, hsame, hfirst]
  rfl

theorem pathOf?_of_cleanFile (h : raw.file = cleanFile file) :
    profile.pathOf? t raw = t.relativePath? (Text.strip file) profile.root profile.denied := by
  rw [Profile.pathOf?, h, cleanFile]
  split
  · next hempty =>
    rw [String.isEmpty_iff.mp hempty]
    simp [relativePath?, relativeParts?, Text.replaceChar]
  · rw [Option.bind_some]

theorem normalize_singleton {options : Option LanguageOptions} :
    profile.normalize t options [raw] = profile.normalizeOne t options raw := by
  rw [Profile.normalize]
  cases profile.normalizeOne t options raw with
  | error b => rfl
  | ok first =>
      have hempty : first ++ {} = first := by
        show Normalized.append first {} = first
        simp [Normalized.append]
      exact congrArg Except.ok hempty

theorem normalize_of_path (hsound : t.IsSound) (hroot : ∃ text, profile.root = Path.ofString text)
    (hpath : profile.pathOf? t raw = some path) (hline : ∀ n ∈ raw.line, (Datum.int n).Fits) :
    profile.normalize t none [raw] =
      if '\\' ∈ path.toList then .error (Profile.slashFault path)
      else .ok { issues := [profile.issueWith (profile.idOf path raw) path raw] } := by
  rw [normalize_singleton, Profile.normalizeOne, Profile.issue?_of_path hsound hroot hpath, Profile.issueAt_eq,
    if_pos (Profile.fits_span hline), Except.bind]
  split <;> rfl

theorem normalize_of_outside (hpath : profile.pathOf? t raw = none) :
    profile.normalize t none [raw] = .ok { outsideRoot := 1 } := by
  rw [normalize_singleton, Profile.normalizeOne, Profile.issue?, hpath]
  rfl

/-- An error yields one finding, or none that could become an issue. -/
theorem harvestOne_record {harvest : Harvest} (h : harvestOne (record root error) = .ok harvest) :
    harvest.issues = [] ∨ ∃ raw, record root error = .ok [raw] ∧ harvest.issues = [raw] := by
  cases hrecord : record root error with
  | ok raws =>
      obtain ⟨raw, -, rfl, -⟩ := record_eq_ok hrecord
      rw [hrecord] at h
      obtain rfl := Except.ok.inj h
      exact .inr ⟨raw, rfl, rfl⟩
  | error fault =>
      rw [hrecord] at h
      cases fault with
      | infiniteNumber => exact nomatch h
      | badValue text =>
          obtain rfl := Except.ok.inj h
          exact .inl rfl
      | wrongKind =>
          obtain rfl := Except.ok.inj h
          exact .inl rfl

/-- **What becomes of an error** is what becomes of the path that is chosen, once it can be read. -/
theorem exists_record (hkind : Text.strip ((error.findText? ["kind"]).getD "") ≠ "") (hreadable : IsReadable error)
    {main : String} (hmain : chosen? profile.root (sources profile.root error) = some main) :
    ∃ raw, harvestOne (record profile.root error) = .ok { issues := [raw] } ∧
      profile.pathOf? t raw = t.relativePath? (Text.strip main) profile.root profile.denied ∧
      ∀ n ∈ raw.line, (Datum.int n).Fits := by
  have hne : sources profile.root error ≠ [] := by
    intro hnone
    rw [hnone] at hmain
    exact nomatch hmain
  obtain ⟨raws, hrecord⟩ := record_isOk.mpr ⟨hkind, hreadable, hne⟩
  obtain ⟨raw, path, rfl, hpath, hfile, hline⟩ := record_eq_ok hrecord
  obtain rfl := Option.some.inj (hmain.symm.trans hpath)
  exact ⟨raw, by rw [hrecord]; rfl, pathOf?_of_cleanFile hfile, hline⟩

theorem pathOf?_of_record {main : String} (hmain : chosen? profile.root (sources profile.root error) = some main)
    (h : record profile.root error = .ok [raw]) : IsReadable error ∧
      profile.pathOf? t raw = t.relativePath? (Text.strip main) profile.root profile.denied ∧
      ∀ n ∈ raw.line, (Datum.int n).Fits := by
  obtain ⟨-, hreadable, -⟩ := record_isOk.mp ⟨_, h⟩
  obtain ⟨raw', path, hraw, hpath, hfile, hline⟩ := record_eq_ok h
  obtain rfl := List.singleton_injective hraw
  obtain rfl := Option.some.inj (hmain.symm.trans hpath)
  exact ⟨hreadable, pathOf?_of_cleanFile hfile, hline⟩

/-- **What an error can come to**: nothing, a finding outside the project, or an issue at the chosen path. -/
theorem normalized_cases (hsound : t.IsSound) (hroot : ∃ text, profile.root = Path.ofString text) {main : String}
    (hmain : chosen? profile.root (sources profile.root error) = some main) {harvest : Harvest} {n : Normalized}
    (hharvest : harvestOne (record profile.root error) = .ok harvest)
    (hn : profile.normalize t none harvest.issues = .ok n) :
    n = {} ∨ IsReadable error ∧
      ((t.relativePath? (Text.strip main) profile.root profile.denied = none ∧ n = { outsideRoot := 1 }) ∨
        ∃ path raw, t.relativePath? (Text.strip main) profile.root profile.denied = some path ∧
          '\\' ∉ path.toList ∧ n = { issues := [profile.issueWith (profile.idOf path raw) path raw] }) := by
  rcases harvestOne_record hharvest with hnone | ⟨raw, hrecord, hone⟩
  · rw [hnone] at hn
    exact .inl (Except.ok.inj hn).symm
  · obtain ⟨hreadable, hpath, hline⟩ := pathOf?_of_record (t := t) hmain hrecord
    rw [hone] at hn
    rw [← hpath]
    refine .inr ⟨hreadable, ?_⟩
    -- the one finding of a readable error lies outside the project or at a path of it
    cases hfound : profile.pathOf? t raw with
    | none =>
        rw [normalize_of_outside hfound] at hn
        exact .inl ⟨rfl, (Except.ok.inj hn).symm⟩
    | some path =>
        rw [normalize_of_path hsound hroot hfound hline] at hn
        split at hn
        · simp at hn
        · next hslash => exact .inr ⟨path, raw, rfl, hslash, (Except.ok.inj hn).symm⟩

theorem reportedAt_of_chosen (hsound : t.IsSound) (hroot : ∃ text, profile.root = Path.ofString text)
    (hkind : Text.strip ((error.findText? ["kind"]).getD "") ≠ "") {main : String}
    (hmain : chosen? profile.root (sources profile.root error) = some main) :
    ReportedAt profile t error path ↔ IsReadable error ∧
      t.relativePath? (Text.strip main) profile.root profile.denied = some path ∧ '\\' ∉ path.toList := by
  constructor
  · rintro ⟨harvest, n, issue, hharvest, hn, hissues, hissue⟩
    rcases normalized_cases hsound hroot hmain hharvest hn with
      rfl | ⟨hreadable, ⟨-, rfl⟩ | ⟨other, raw, hpath, hslash, rfl⟩⟩
    · simp at hissues
    · simp at hissues
    · obtain rfl := List.singleton_injective hissues
      obtain rfl : other = path := hissue
      exact ⟨hreadable, hpath, hslash⟩
  · rintro ⟨hreadable, hpath, hslash⟩
    obtain ⟨raw, hharvest, hfound, hline⟩ := exists_record (t := t) hkind hreadable hmain
    rw [hpath] at hfound
    refine ⟨_, { issues := [profile.issueWith (profile.idOf path raw) path raw] }, _, hharvest, ?_, rfl, rfl⟩
    rw [normalize_of_path hsound hroot hfound hline, if_neg hslash]

theorem isLost_of_chosen (hsound : t.IsSound) (hroot : ∃ text, profile.root = Path.ofString text)
    (hkind : Text.strip ((error.findText? ["kind"]).getD "") ≠ "") {main : String}
    (hmain : chosen? profile.root (sources profile.root error) = some main) :
    IsLost profile t error ↔ IsReadable error ∧
      t.relativePath? (Text.strip main) profile.root profile.denied = none := by
  constructor
  · rintro ⟨harvest, hharvest, hn⟩
    -- only a finding outside the project is counted
    rcases normalized_cases hsound hroot hmain hharvest hn with
      hnone | ⟨hreadable, ⟨hpath, -⟩ | ⟨other, raw, -, -, hissue⟩⟩
    · exact nomatch congrArg Normalized.outsideRoot hnone
    · exact ⟨hreadable, hpath⟩
    · exact nomatch congrArg Normalized.outsideRoot hissue
  · rintro ⟨hreadable, hpath⟩
    obtain ⟨raw, hharvest, hfound, -⟩ := exists_record (t := t) hkind hreadable hmain
    exact ⟨_, hharvest, normalize_of_outside (hfound.trans hpath)⟩

/-! ## Plain paths -/

/-- **For a plain path its text tells whether it lies in the project.** -/
theorem isWithin_of_isPlainPath {denied : List String} (hsound : t.IsSound) (hroot : t.IsCanonical root)
    (h : IsPlainPath t root denied s) :
    (Path.ofString s).isWithin root = (t.relativePath? s root denied).isSome := by
  obtain ⟨place, rfl, hreal, hplace, hslash, -, hbelow⟩ := h
  rw [hreal.ofString_toString hplace]
  cases hwithin : (Path.rooted place).isWithin root with
  | true =>
      obtain ⟨parts, hparts⟩ : ∃ parts, (Path.rooted place).relativeTo? root = some parts :=
        ⟨_, by rw [Path.relativeTo?, if_pos hwithin]⟩
      obtain ⟨hne, hdenied⟩ := hbelow parts hparts
      rw [relativePath?_of_isReal hsound hreal hplace hslash hroot.resolved hparts hne hdenied]
      rfl
  | false =>
      cases hfound : t.relativePath? (Path.rooted place).toString root denied with
      | none => rfl
      | some path =>
          -- what is read is placed below the root, and the text is that of the place
          obtain ⟨parts, hparts, -⟩ := Option.map_eq_some_iff.mp hfound
          have hread := resolve_readFrom_rooted hsound hreal hplace hslash root
          obtain ⟨-, -, hanchor, hplaced⟩ := relativeParts?_eq_some hparts
          rw [← t.resolve_eq_ok hread, ← t.resolve_eq_ok hroot.resolved] at hanchor hplaced
          have hbelow : (Path.rooted place).relativeTo? root = some parts :=
            Path.relativeTo?_eq_some.mpr ⟨hanchor, hplaced⟩
          rw [Path.relativeTo?, if_neg (by simp [hwithin])] at hbelow
          exact nomatch hbelow

theorem not_mem_of_isPlainPath {denied : List String} (hsound : t.IsSound) (hroot : t.IsCanonical root)
    (h : IsPlainPath t root denied s) (hpath : t.relativePath? s root denied = some path) :
    '\\' ∉ path.toList := by
  have hwithin := isWithin_of_isPlainPath hsound hroot h
  obtain ⟨place, rfl, hreal, hplace, hslash, -, hbelow⟩ := h
  rw [hreal.ofString_toString hplace, hpath, Option.isSome_some] at hwithin
  obtain ⟨parts, hparts⟩ : ∃ parts, (Path.rooted place).relativeTo? root = some parts :=
    ⟨_, by rw [Path.relativeTo?, if_pos hwithin]⟩
  obtain ⟨hne, hdenied⟩ := hbelow parts hparts
  rw [relativePath?_of_isReal hsound hreal hplace hslash hroot.resolved hparts hne hdenied] at hpath
  obtain rfl := Option.some.inj hpath
  intro hmem
  rcases Path.mem_relativeText hne hmem with hmem | ⟨c, hc, hmem⟩
  · exact absurd hmem (by decide)
  · apply hslash
    have hown : place = root.parts ++ parts := (Path.relativeTo?_eq_some.mp hparts).2
    rw [Path.toString_rooted, String.toList_append, List.mem_append]
    exact .inr (Text.mem_join_of_mem (by rw [hown]; exact List.mem_append_right _ hc) hmem)

/-- **Where an error is reported.** Let a frame of an error lie in the project, and let the first one that does
stand at `path` there. The error becomes one issue at `path` exactly if its numbers can be read, what is left of
the chosen path without blanks around it stands at `path`, too, and no backslash is in that; it is lost as one
outside the project exactly if its numbers can be read and the chosen path does not lie in it. The choice is the
first frame in the project wherever the texts of all paths tell whether they lie there, and the error is reported
there once its numbers can be read if all paths are plain. -/
theorem reportedAt_iff (hsound : t.IsSound) (hroot : t.IsCanonical profile.root)
    (hkind : Text.strip ((error.findText? ["kind"]).getD "") ≠ "")
    (hfirst : (sources profile.root error).find?
      (fun s => (t.relativePath? s profile.root profile.denied).isSome) = some s)
    (hpath : t.relativePath? s profile.root profile.denied = some path) :
    ∃ main, chosen? profile.root (sources profile.root error) = some main ∧
      (ReportedAt profile t error path ↔ IsReadable error ∧
        t.relativePath? (Text.strip main) profile.root profile.denied = some path ∧ '\\' ∉ path.toList) ∧
      (IsLost profile t error ↔ IsReadable error ∧
        t.relativePath? (Text.strip main) profile.root profile.denied = none) ∧
      ((∀ s' ∈ sources profile.root error, (Path.ofString s').isWithin profile.root =
        (t.relativePath? s' profile.root profile.denied).isSome) → main = s) ∧
      ((∀ s' ∈ sources profile.root error, IsPlainPath t profile.root profile.denied s') →
        (ReportedAt profile t error path ↔ IsReadable error)) := by
  have hwritten : ∃ text, profile.root = Path.ofString text := hroot.written
  obtain ⟨main, hmain⟩ : ∃ main, chosen? profile.root (sources profile.root error) = some main := by
    rw [chosen?]
    cases (sources profile.root error).find? fun s => (Path.ofString s).isWithin profile.root with
    | some main => exact ⟨main, rfl⟩
    | none =>
        have hmem := List.mem_of_find?_eq_some hfirst
        exact ⟨_, List.head?_eq_some_head (List.ne_nil_of_mem hmem)⟩
  have hagree (h : ∀ s' ∈ sources profile.root error, (Path.ofString s').isWithin profile.root =
      (t.relativePath? s' profile.root profile.denied).isSome) : main = s :=
    Option.some.inj (hmain.symm.trans (chosen?_of_agree h hfirst))
  refine ⟨main, hmain, reportedAt_of_chosen hsound hwritten hkind hmain,
    isLost_of_chosen hsound hwritten hkind hmain, hagree, fun hplain => ?_⟩
  -- for plain paths both ways to choose agree, so the chosen path is the first one in the project
  obtain rfl := hagree fun s' hs' => isWithin_of_isPlainPath hsound hroot (hplain s' hs')
  have hown := hplain main (List.mem_of_find?_eq_some hfirst)
  have hslash := not_mem_of_isPlainPath hsound hroot hown hpath
  obtain ⟨-, -, -, -, -, hstrip, -⟩ := hown
  rw [reportedAt_of_chosen hsound hwritten hkind hmain, hstrip]
  exact ⟨fun h => h.1, fun h => ⟨h, hpath, hslash⟩⟩

/-- What stands in the tree and is no link has a plain path. -/
theorem isPlainPath_of_at? {denied : List String} {place : Files.Place} {n : Node} (hsound : t.IsSound)
    (hn : t.top.at? place = some n) (hlink : t.target? place = none)
    (hslash : '\\' ∉ (Path.rooted place).toString.toList)
    (hstrip : Text.strip (Path.rooted place).toString = (Path.rooted place).toString)
    (hbelow : ∀ parts, (Path.rooted place).relativeTo? root = some parts → parts ≠ [] ∧ ∀ c ∈ parts, c ∉ denied) :
    IsPlainPath t root denied (Path.rooted place).toString := by
  have hcomponents : ∀ c ∈ place, IsComponent c := fun c hc =>
    isComponent_of_isEntryName ((Node.isSound_of_at? hsound.top hn).2 c hc)
  exact ⟨place, rfl, hsound.isReal_of_no_link hn hlink, hcomponents, hslash, hstrip, hbelow⟩

/-- A frame of a stack. -/
def frameAt (function directory file line : String) : Element :=
  .node "frame" none [.node "fn" (some function) [], .node "dir" (some directory) [],
    .node "file" (some file) [], .node "line" (some line) []]

/-- An invalid read with a stack. -/
def invalidRead (frames : List Element) : Element :=
  .node "error" none [.node "kind" (some "InvalidRead") [], .node "stack" none frames]

/-- What is the same for all errors of a project. -/
def memcheck : Profile :=
  { tool := "valgrind", ecosystem := "c", defaultConfidence := .high, root := Path.ofString "/project" }

/-- A project of one source. -/
def soleSource : Tree := besideOutside [("main.c", .file (.text "x") false)]

theorem soleSource_sound : soleSource.IsSound := ⟨by decide, by decide, by decide, by decide⟩

theorem soleSource_isCanonical : soleSource.IsCanonical memcheck.root := ⟨⟨"/project", rfl⟩, by decide +kernel⟩

/-- What can be read of an error shows that its numbers can be. -/
theorem isReadable_of_isOk (h : (record root error).isOk = true) : IsReadable error := by
  cases hrecord : record root error with
  | ok raws => exact (record_isOk.mp ⟨raws, hrecord⟩).2.1
  | error fault =>
      rw [hrecord] at h
      exact nomatch h

/-- A frame outside the project comes before the one that the error is reported at. -/
theorem reportedAt_iff_called :
    let error := invalidRead [frameAt "helper" "/outside" "secret.c" "4", frameAt "main" "/project" "main.c" "9"]
    ReportedAt memcheck soleSource error "main.c" := by
  intro error
  have hsources : sources memcheck.root error = [(Path.rooted ["outside", "secret.c"]).toString,
      (Path.rooted ["project", "main.c"]).toString] := by decide +kernel
  have hfirst : (sources memcheck.root error).find?
      (fun s => (soleSource.relativePath? s memcheck.root memcheck.denied).isSome) = some "/project/main.c" := by
    decide +kernel
  have hplain : ∀ s ∈ sources memcheck.root error,
      IsPlainPath soleSource memcheck.root memcheck.denied s := by
    rw [hsources]
    refine List.forall_mem_cons.mpr ⟨?_, List.forall_mem_singleton.mpr ?_⟩
    · refine isPlainPath_of_at? (n := .file (.text "x") false) soleSource_sound rfl (by decide +kernel)
        (by decide +kernel) (by decide +kernel) ?_
      have hnone : (Path.rooted ["outside", "secret.c"]).relativeTo? memcheck.root = none := by decide +kernel
      rw [hnone]
      exact nofun
    · refine isPlainPath_of_at? (n := .file (.text "x") false) soleSource_sound rfl (by decide +kernel)
        (by decide +kernel) (by decide +kernel) ?_
      have hown : (Path.rooted ["project", "main.c"]).relativeTo? memcheck.root = some ["main.c"] := by
        decide +kernel
      intro parts hparts
      obtain rfl := Option.some.inj (hown.symm.trans hparts)
      decide +kernel
  have hkind : Text.strip ((error.findText? ["kind"]).getD "") ≠ "" := by decide +kernel
  have hpath : soleSource.relativePath? "/project/main.c" memcheck.root memcheck.denied = some "main.c" := by
    decide +kernel
  have hread : (record memcheck.root error).isOk = true := by decide +kernel
  obtain ⟨-, -, -, -, -, hreported⟩ :=
    reportedAt_iff soleSource_sound soleSource_isCanonical hkind hfirst hpath
  exact (hreported hplain).mpr (isReadable_of_isOk hread)

/-- **A frame that leaves the root by dots** is chosen before the one in the project, and the error is lost. -/
theorem record_leaves_root :
    let error := invalidRead [frameAt "helper" "/project/../outside" "secret.c" "4",
      frameAt "main" "/project" "main.c" "9"]
    soleSource.IsSound ∧ soleSource.IsCanonical memcheck.root ∧
      Text.strip ((error.findText? ["kind"]).getD "") ≠ "" ∧
      (sources memcheck.root error).find?
        (fun s => (soleSource.relativePath? s memcheck.root memcheck.denied).isSome) = some "/project/main.c" ∧
      soleSource.relativePath? "/project/main.c" memcheck.root = some "main.c" ∧
      ¬ ReportedAt memcheck soleSource error "main.c" ∧ IsLost memcheck soleSource error := by
  intro error
  have hkind : Text.strip ((error.findText? ["kind"]).getD "") ≠ "" := by decide +kernel
  have hmain : chosen? memcheck.root (sources memcheck.root error) = some "/project/../outside/secret.c" := by
    decide +kernel
  have hnone : soleSource.relativePath? (Text.strip "/project/../outside/secret.c") memcheck.root memcheck.denied =
      none := by decide +kernel
  have hread : (record memcheck.root error).isOk = true := by decide +kernel
  refine ⟨soleSource_sound, soleSource_isCanonical, hkind, by decide +kernel, by decide +kernel, ?_, ?_⟩
  · rw [reportedAt_of_chosen soleSource_sound ⟨"/project", rfl⟩ hkind hmain, hnone]
    exact fun h => nomatch h.2.1
  · rw [isLost_of_chosen soleSource_sound ⟨"/project", rfl⟩ hkind hmain]
    exact ⟨isReadable_of_isOk hread, hnone⟩

end Valgrind

end Assay.Readers
