import Assay.Proofs.PropertyList
import Assay.Proofs.Readers.Harvest
import Assay.Proofs.Readers.Infinite
import Assay.Readers.Clang

/-!
# Reports of the Clang static analyzer

A report is decoded as a whole before its diagnostics are read one by one. A diagnostic that cannot be read
is left out alone, but a text that only looks like a whole number keeps the document from being decoded, and
an infinite number in a position is no fault of its diagnostic alone: `clang_isOk_iff` says when a report is
read and what it yields then.
-/

namespace Assay.Readers

namespace Clang

variable {α : Type} {line : Option Int} {found next ranges pieces files : List Datum}
  {root : Files.Path}

/-- The positions that are read of a row of ranges in search of the one that opens on a line, and what is
read after them, whether there is such a range or not. -/
def rangePositions (line : Option Int) (found next : List Datum) : List Datum → List Datum
  | [] => next
  | .list [start, finish] :: rest =>
    if start.isTable && finish.isTable then
      start.get "line" ::
        match whole (start.get "line") with
        | .ok first =>
          if first == line then finish.get "line" :: finish.get "col" :: found
          else rangePositions line found next rest
        | .error _ => []
    else rangePositions line found next rest
  | _ :: rest => rangePositions line found next rest

theorem endIn_eq_infinite {f : Option (Option Int × Option Int) → Field α}
    (hfound : ∀ e, f (some e) = .error .infiniteNumber ↔ MeetsInfinite found)
    (hnext : f none = .error .infiniteNumber ↔ MeetsInfinite next) :
    (endIn line ranges >>= f) = .error .infiniteNumber ↔
      MeetsInfinite (rangePositions line found next ranges) := by
  induction ranges with
  | nil => exact hnext
  | cons range rest ih =>
      -- of a pair the first line is read, and what is read next depends on it; all else is passed over
      by_cases hpair : ∃ start finish, range = .list [start, finish]
      · obtain ⟨start, finish, rfl⟩ := hpair
        rw [endIn, rangePositions]
        split
        · next htables =>
          rw [bind_assoc]
          refine whole_bind_eq_infinite fun first hfirst => ?_
          rw [hfirst]
          dsimp only
          split
          · next hopens =>
            simp only [bind_assoc, pure_bind]
            refine whole_bind_eq_infinite fun endLine _ => ?_
            exact whole_bind_eq_infinite fun endColumn _ => hfound _
          · exact ih
        · exact ih
      · rw [endIn, rangePositions]
        · exact ih
        · exact fun start finish h => hpair ⟨start, finish, h⟩
        · exact fun start finish h => hpair ⟨start, finish, h⟩

/-- The positions that are read along a path, and what is read after them. Ranges that are no row end the
search. -/
def pathPositions (line : Option Int) (next : List Datum) : List Datum → List Datum
  | [] => next
  | piece :: rest =>
    match items (piece.get "ranges") with
    | .ok ranges => rangePositions line next (pathPositions line next rest) ranges
    | .error _ => []

theorem endAlong_eq_infinite {f : Option Int × Option Int → Field α}
    (hnext : ∀ e, f e = .error .infiniteNumber ↔ MeetsInfinite next) :
    (endAlong line pieces >>= f) = .error .infiniteNumber ↔
      MeetsInfinite (pathPositions line next pieces) := by
  induction pieces with
  | nil => exact hnext _
  | cons piece rest ih =>
      rw [endAlong, pathPositions]
      cases hitems : items (piece.get "ranges") with
      | error fault =>
          have hne : fault ≠ .infiniteNumber := fun h => items_ne_infinite _ (h ▸ hitems)
          simpa [bind, Except.bind, MeetsInfinite] using hne
      | ok ranges =>
          show ((endIn line ranges >>= _) >>= f) = _ ↔ _
          rw [bind_assoc]
          exact endIn_eq_infinite hnext ih

/-- The positions of a diagnostic: its line, those that are read along its path, and its column. -/
def positions (diagnostic : Datum) : List Datum :=
  (diagnostic.dig ["location", "line"]) ::
    match whole (diagnostic.dig ["location", "line"]) with
    | .ok line => pathPositions line [diagnostic.dig ["location", "col"]] (diagnostic.get "path").tables
    | .error _ => []

/-- A diagnostic with a location in a file, whose positions meet an infinite number. -/
def Overflows (files : List Datum) (diagnostic : Datum) : Prop :=
  (diagnostic.get "location").isTable = true ∧
    (∃ path, fileOf (diagnostic.get "location") files = .ok path) ∧ MeetsInfinite (positions diagnostic)

theorem fileOf_ne_infinite {location : Datum} : fileOf location files ≠ .error .infiniteNumber := by
  unfold fileOf
  split
  · split <;> simp
  · split <;> simp

theorem record_eq_infinite {diagnostic : Datum} :
    record root files diagnostic = .error .infiniteNumber ↔ Overflows files diagnostic := by
  unfold record Overflows
  dsimp only
  by_cases htable : (diagnostic.get "location").isTable = true
  · simp only [htable, Bool.not_true, Bool.false_eq_true, if_false, true_and]
    cases hfile : fileOf (diagnostic.get "location") files with
    | error fault =>
        have hne : fault ≠ .infiniteNumber := fun h => fileOf_ne_infinite (h ▸ hfile)
        simpa [bind, Except.bind] using hne
    | ok path =>
        rw [and_iff_right ⟨path, rfl⟩]
        refine whole_bind_eq_infinite fun line hline => ?_
        rw [show whole (diagnostic.dig ["location", "line"]) = .ok line from hline]
        refine endAlong_eq_infinite fun e => ?_
        exact whole_bind_eq_infinite fun column _ => pure_ne_infinite
  · simp [htable, throw_bind]

end Clang

/-! ## Reports -/

/-- The table of files of a report. -/
def reportFiles (document : Datum) : List Datum :=
  match document.get "files" with
  | .list files => files
  | _ => []

/-- A report with a value is read diagnostic by diagnostic. -/
theorem clang_eq_harvest {list : Markup.Element} {document : Datum}
    (h : PropertyList.decode list = .ok document) :
    clang root list =
      (harvest (Clang.record root (reportFiles document)) (document.get "diagnostics").tables).mapError
        Failure.breach := by
  unfold clang
  rw [h]
  dsimp only
  split
  · next found hrun => exact (congrArg (Except.mapError Failure.breach) hrun).symm
  · next breach hrun => exact (congrArg (Except.mapError Failure.breach) hrun).symm

/-- A report without a value is refused for its depth, or lost with the complaint. -/
theorem clang_of_decode_error {list : Markup.Element} {b : Breach}
    (h : PropertyList.decode list = .error b) :
    clang root list = .error
      (if b = .tooDeep then Failure.of .unparseableOutput "plist nested too deeply" else .breach b) := by
  unfold clang
  rw [h]
  cases b <;> rfl

/-- **A report is read** exactly if what its value is made of is nested within the limit and readable, and
no diagnostic meets an infinite number. Otherwise it fails for one of these reasons. If it is read, every
diagnostic is read on its own: the findings are those that the diagnostics yield, in order, and a diagnostic
that cannot be read only adds its reason to those for leaving something out. -/
theorem clang_isOk_iff (root : Files.Path) (list : Markup.Element) :
    ((∃ h, clang root list = .ok h) ↔
      (∀ n c, PropertyList.Reached n list c →
        n < PropertyList.maxDepth ∧ PropertyList.IsReadable c) ∧
      ∀ document, PropertyList.decode list = .ok document →
        ∀ d ∈ (document.get "diagnostics").tables, ¬ Clang.Overflows (reportFiles document) d) ∧
    (∀ failure, clang root list = .error failure →
      (failure = Failure.of .unparseableOutput "plist nested too deeply" ∧
        PropertyList.maxDepth < PropertyList.height list) ∨
      (∃ n c b, PropertyList.Reached n list c ∧ PropertyList.Complains c b ∧ failure = .breach b) ∨
      failure = .breach .infiniteNumber) ∧
    ∀ h, clang root list = .ok h → ∃ document, PropertyList.decode list = .ok document ∧
      h.issues = (document.get "diagnostics").tables.flatMap
        (fun d => yielded (Clang.record root (reportFiles document) d)) ∧
      h.drops = (document.get "diagnostics").tables.filterMap
        fun d => leftOut? (Clang.record root (reportFiles document) d) := by
  cases hdecode : PropertyList.decode list with
  | error b =>
      rw [clang_of_decode_error hdecode, ← PropertyList.decode_isOk_iff, hdecode]
      refine ⟨by simp, ?_, by simp⟩
      rintro failure hfailure
      obtain rfl := Except.error.inj hfailure
      rcases PropertyList.value_eq_error hdecode with ⟨rfl, n, c, hreached, hdeep⟩ | ⟨n, c, hreached, hcomplains⟩
      · exact .inl ⟨if_pos rfl, Nat.lt_of_le_of_lt hdeep hreached.lt_height⟩
      -- no complaint is about the depth
      · have hne : b ≠ .tooDeep := by
          obtain ⟨-, fault, -, rfl⟩ := hcomplains
          cases fault <;> simp [RecordFault.breach]
        exact .inr (.inl ⟨n, c, b, hreached, hcomplains, if_neg hne⟩)
  | ok document =>
      rw [clang_eq_harvest hdecode]
      refine ⟨?_, ?_, ?_⟩
      · rw [← PropertyList.decode_isOk_iff, and_iff_right ⟨document, hdecode⟩]
        simp only [mapError_eq_ok, harvest_isOk, Except.ok.injEq, forall_eq', ne_eq,
          Clang.record_eq_infinite]
      · intro failure hfailure
        obtain ⟨b, hb, rfl⟩ := mapError_eq_error.mp hfailure
        obtain ⟨rfl, -⟩ := harvest_eq_error.mp hb
        exact .inr (.inr rfl)
      · intro h hread
        exact ⟨document, rfl, harvest_eq_ok (mapError_eq_ok.mp hread)⟩

namespace Clang

/-- An element with a text and nothing in it. -/
def leaf (tag text : String) : Markup.Element := .node tag (some text) []

/-- The table of these entries. -/
def dict (entries : List (String × Markup.Element)) : Markup.Element :=
  .node "dict" none (entries.flatMap fun e => [leaf "key" e.1, e.2])

/-- A diagnostic in the only file of a report. -/
def diagnosticAt (line column title : String) : Markup.Element :=
  dict [("type", leaf "string" title), ("location", dict [("line", leaf "integer" line),
    ("col", leaf "integer" column), ("file", leaf "integer" "0")])]

/-- A report on one file. -/
def reportOf (diagnostics : List Markup.Element) : Markup.Element :=
  .node "plist" none [dict [("files", .node "array" none [leaf "string" "a.c"]),
    ("diagnostics", .node "array" none diagnostics)]]

/-- Of a column that is no number nothing is known, and a diagnostic without a location is left out. -/
theorem clang_isOk_iff_malformed :
    let report := reportOf [diagnosticAt "1" "2" "first", dict [], diagnosticAt "3" "four" "second"]
    ∃ h, clang (Files.Path.ofString "/work") report = .ok h ∧
      h.issues.map (fun i => (i.title, i.line, i.column)) =
        [("first", some 1, some 2), ("second", some 3, none)] ∧
      h.drops = ["ValueError: diagnostic without a location"] ∧
      ∀ n c, PropertyList.Reached n report c → PropertyList.IsReadable c := by
  intro report
  have hread : (clang (Files.Path.ofString "/work") report).toOption.map
      (fun h => (h.issues.map fun i => (i.title, i.line, i.column), h.drops)) =
        some ([("first", some 1, some 2), ("second", some 3, none)],
          ["ValueError: diagnostic without a location"]) := by rfl
  cases hclang : clang (Files.Path.ofString "/work") report with
  | error failure => simp [hclang, Except.toOption] at hread
  | ok h =>
      rw [hclang] at hread
      obtain ⟨hissues, hdrops⟩ := Prod.mk.inj (Option.some.inj hread)
      obtain ⟨hreadable, -⟩ := (clang_isOk_iff (Files.Path.ofString "/work") report).1.mp ⟨h, hclang⟩
      exact ⟨h, rfl, hissues, hdrops, fun n c hreached => (hreadable n c hreached).2⟩

/-- **A second minus sign** in a column takes the diagnostic before it with it, where a word in its place
takes none. -/
theorem clang_loses_report :
    let report (column : String) := reportOf [diagnosticAt "1" "2" "first", diagnosticAt "3" column "second"]
    PropertyList.height (report "--4") ≤ PropertyList.maxDepth ∧
    clang (Files.Path.ofString "/work") (report "--4") =
      .error (.breach (.badValue "invalid literal for int() with base 10: '--4'")) ∧
    (clang (Files.Path.ofString "/work") (report "four")).toOption.map
      (fun h => h.issues.map RawIssue.title) = some ["first", "second"] := by
  intro report
  exact ⟨by decide, by rfl, by rfl⟩

end Clang

end Assay.Readers
