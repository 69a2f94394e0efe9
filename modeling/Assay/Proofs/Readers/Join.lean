import Assay.Proofs.Datum
import Assay.Proofs.Readers.Clang
import Assay.Proofs.Readers.Records
import Assay.Proofs.Readers.Valgrind

/-!
# Outputs in a row

Reading the records of two outputs in one gives what the two give one after the other (`harvest_joins`): no
record has an influence on how another one is read. For five tools a record is a finding or is left out with
a reason, never both, so no record is lost or counted twice (`count_harvest`). The main result, `records_join`,
says so for all tools that report in records.
-/

namespace Assay.Readers

variable {α β ε : Type} {build : α → Field (List RawIssue)} {xs ys : List α} {h first second : Harvest}

/-! ## Harvests in a row -/

/-- The harvest is that of two outputs, one after the other; it keeps only the first few reasons of all. -/
structure Harvest.IsJoin (first second h : Harvest) : Prop where
  issues : h.issues = first.issues ++ second.issues
  dropped : h.dropped = first.dropped + second.dropped
  reasons : h.reasons = (first.reasons ++ second.reasons).take maxReasons

theorem Harvest.isJoin_append (first second : Harvest) : first.IsJoin second (first ++ second) where
  issues := rfl
  dropped := append_dropped first second
  reasons := by
    rw [reasons, reasons, reasons, append_drops, List.take_append, List.take_append, List.take_take,
      List.take_take, List.length_take]
    congr 2
    omega

/-- An output is read if two others are, and what it gives is what the others give one after the other. -/
def Joins (read : β → Except ε Harvest) (first second both : β) : Prop :=
  ∀ h₁ h₂, read first = .ok h₁ → read second = .ok h₂ → ∃ h, read both = .ok h ∧ h₁.IsJoin h₂ h

theorem harvest_joins (build : α → Field (List RawIssue)) (xs ys : List α) :
    Joins (harvest build) xs ys (xs ++ ys) := by
  intro h₁ h₂ hxs hys
  refine ⟨h₁ ++ h₂, ?_, Harvest.isJoin_append h₁ h₂⟩
  rw [harvest_append, hxs, hys]
  rfl

/-! ## Records that are counted -/

/-- A record that is read is one finding. -/
def ReadsOne (built : Field (List RawIssue)) : Prop := ∀ raws, built = .ok raws → raws.length = 1

theorem readsOne_error (fault : RecordFault) : ReadsOne (.error fault) := nofun

theorem readsOne_pure (raw : RawIssue) : ReadsOne (pure [raw]) := by
  intro raws h
  rw [← pure_eq_ok.mp h, List.length_singleton]

theorem ReadsOne.bind {x : Field α} {f : α → Field (List RawIssue)} (h : ∀ a, ReadsOne (f a)) :
    ReadsOne (x >>= f) := by
  intro raws hraws
  obtain ⟨a, -, ha⟩ := bind_eq_ok.mp hraws
  exact h a raws ha

/-- Every record is a finding or left out, if none is more than one finding. -/
theorem count_harvest (hone : ∀ x, ReadsOne (build x)) (hok : harvest build xs = .ok h) :
    h.issues.length + h.dropped = xs.length := by
  obtain ⟨hissues, hdrops⟩ := harvest_eq_ok hok
  rw [Harvest.dropped, hissues, hdrops]
  clear hok hissues hdrops
  induction xs with
  | nil => rfl
  | cons x xs ih =>
      rw [List.flatMap_cons, List.length_append, List.length_cons]
      cases hx : build x with
      | ok raws =>
          rw [List.filterMap_cons_none (by rw [hx]; rfl), yielded, hone x raws hx]
          omega
      | error fault =>
          rw [List.filterMap_cons_some (b := fault.reason) (by rw [hx]; rfl), yielded, List.length_cons,
            List.length_nil]
          omega

variable {root : Files.Path}

theorem Gosec.readsOne_record (item : Datum) : ReadsOne (Gosec.record root item) := by
  unfold Gosec.record
  split
  · exact readsOne_error _
  · exact .bind fun _ => .bind fun _ => readsOne_pure _

theorem CargoAudit.readsOne_record (entry : Datum) : ReadsOne (CargoAudit.record root entry) := by
  unfold CargoAudit.record
  dsimp only
  split
  · exact readsOne_error _
  · exact .bind fun _ => .bind fun _ => .bind fun _ => readsOne_pure _

theorem Pylint.readsOne_record (item : Datum) : ReadsOne (Pylint.record root item) := by
  unfold Pylint.record
  split
  · exact readsOne_error _
  · exact .bind fun _ => .bind fun _ => .bind fun _ => .bind fun _ => readsOne_pure _

theorem Clang.readsOne_record (files : List Datum) (diagnostic : Datum) :
    ReadsOne (Clang.record root files diagnostic) := by
  unfold Clang.record
  dsimp only
  split
  · exact readsOne_error _
  · exact .bind fun _ => .bind fun _ => .bind fun _ => .bind fun _ => readsOne_pure _

theorem Valgrind.readsOne_record (error : Markup.Element) : ReadsOne (Valgrind.record root error) := by
  unfold Valgrind.record
  dsimp only
  split
  · exact readsOne_error _
  · exact .bind fun _ => .bind fun _ => readsOne_pure _

namespace RecordReader

/-- The field of a document that its records stand in. -/
def place (k : RecordReader) (document : Datum) : Datum :=
  match k with
  | clippy | staticcheck => document
  | cargoAudit => document.dig ["vulnerabilities", "list"]
  | gosec => document.get "Issues"
  | pylint => if document.isTable then document.get "messages" else document

theorem records_eq_tables (k : RecordReader) (document : Datum) :
    k.records document = (k.place document).tables := by
  cases k <;> rfl

/-- Every record of the tool is a finding or left out. The others also print records that report nothing. -/
def countsAll : RecordReader → Bool
  | gosec | cargoAudit | pylint => true
  | clippy | staticcheck => false

theorem readsOne_record {k : RecordReader} (hk : k.countsAll = true) (r : Datum) :
    ReadsOne (k.record root r) := by
  cases k with
  | gosec => exact Gosec.readsOne_record r
  | cargoAudit => exact CargoAudit.readsOne_record r
  | pylint => exact Pylint.readsOne_record r
  | clippy | staticcheck => exact nomatch hk

/-- Records in one list are read as those in two. -/
theorem read_joins {k : RecordReader} {a b c : Datum} {xs ys : List Datum} (ha : k.place a = .list xs)
    (hb : k.place b = .list ys) (hc : k.place c = .list (xs ++ ys)) : Joins (k.read root) a b c := by
  have htables : k.records c = k.records a ++ k.records b := by
    rw [records_eq_tables, records_eq_tables, records_eq_tables, ha, hb, hc]
    exact List.filter_append ..
  intro h₁ h₂ h
  rw [read_eq_harvest] at *
  rw [read_eq_harvest, htables]
  exact harvest_joins _ _ _ h₁ h₂ h

end RecordReader

/-! ## Reports of the Clang static analyzer -/

namespace Clang

open Markup (Element)
open PropertyList

variable {before after : List (String × Element)} {diagnostics : List Element} {e : Element}

/-- The element is a report with these diagnostics, which stand between other entries: the table of files
and whatever else there is. -/
def IsReport (before after : List (String × Element)) (diagnostics : List Element) (e : Element) : Prop :=
  ∃ body rest array, e.tag = "plist" ∧ e.children = body :: rest ∧ body.tag = "dict" ∧
    keyed body.children = before ++ ("diagnostics", array) :: after ∧
    array.tag = "array" ∧ array.children = diagnostics

/-- The levels that are left for a diagnostic, below the frame, the table of entries and the list of
diagnostics. -/
def diagnosticDepth : Nat := maxDepth - 4

/-- The value of a report is made of the values of its entries. -/
theorem decode_of_isReport (h : IsReport before after diagnostics e) {document : Datum} :
    decode e = .ok document ↔ ∃ values items others,
      entriesWith (value (diagnosticDepth + 2)) before = .ok values ∧
      diagnostics.mapM (value diagnosticDepth) = .ok items ∧
      entriesWith (value (diagnosticDepth + 2)) after = .ok others ∧
      document = Datum.ofEntries (values ++ ("diagnostics", .list items) :: others) := by
  obtain ⟨body, rest, array, htag, hchildren, hbody, hkeyed, harray, hdiagnostics⟩ := h
  rw [decode, show maxDepth = diagnosticDepth + 4 from rfl, value_plist htag hchildren, value_dict hbody, hkeyed,
    entriesWith_eq_mapM, entriesWith_eq_mapM, entriesWith_eq_mapM, List.mapM_append, List.mapM_cons,
    value_array harray, values, hdiagnostics]
  -- the entries before, the diagnostics and the entries after are read in this order
  cases before.mapM fun entry => (value (diagnosticDepth + 2) entry.2).map (entry.1, ·) with
  | error b => simp [bind, Except.bind, Except.map]
  | ok values =>
      cases diagnostics.mapM (value diagnosticDepth) with
      | error b => simp [bind, Except.bind, Except.map]
      | ok items =>
          cases after.mapM fun entry => (value (diagnosticDepth + 2) entry.2).map (entry.1, ·) with
          | error b => simp [bind, Except.bind, Except.map]
          | ok others => simp [bind, Except.bind, Except.map, pure, Except.pure, eq_comm]

/-- Values of entries have the keys of the entries. -/
theorem keys_entriesWith {item : Element → Except Breach Datum} {entries : List (String × Element)}
    {values : List (String × Datum)} (h : entriesWith item entries = .ok values) :
    values.map Prod.fst = entries.map Prod.fst := by
  induction entries generalizing values with
  | nil =>
      obtain rfl := Except.ok.inj h
      rfl
  | cons entry entries ih =>
      obtain ⟨value, -, h⟩ := bind_eq_ok.mp h
      obtain ⟨others, hothers, h⟩ := bind_eq_ok.mp h
      obtain rfl := pure_eq_ok.mp h
      rw [List.map_cons, List.map_cons, ih hothers]

/-- Of the entries of a report, the diagnostics count if no later entry replaces them, and all others are
what they would be with other diagnostics. -/
theorem get_ofEntries {values others : List (String × Datum)} (hlast : "diagnostics" ∉ others.map Prod.fst)
    (items : List Datum) :
    (Datum.ofEntries (values ++ ("diagnostics", .list items) :: others)).get "diagnostics" = .list items ∧
      ∀ key ≠ "diagnostics", (Datum.ofEntries (values ++ ("diagnostics", .list items) :: others)).get key =
        (Datum.ofEntries (values ++ others)).get key := by
  constructor
  · rw [Datum.get, Datum.get?_ofEntries, List.reverse_append, List.reverse_cons, Datum.lookup_append,
      Datum.lookup_append, Datum.lookup_of_not_mem (by simpa using hlast), Datum.lookup_cons, if_pos rfl]
    rfl
  · intro key hkey
    rw [Datum.get, Datum.get, Datum.get?_ofEntries, Datum.get?_ofEntries, List.reverse_append,
      List.reverse_append, List.reverse_cons, Datum.lookup_append, Datum.lookup_append, Datum.lookup_append,
      Datum.lookup_cons, if_neg (Ne.symm hkey)]
    congr 2
    exact Option.or_none

/-- A report that is read has a value, and its diagnostics are read one by one. -/
theorem clang_eq_ok {root : Files.Path} {list : Element} : clang root list = .ok h ↔
    ∃ document, decode list = .ok document ∧
      harvest (Clang.record root (reportFiles document)) (document.get "diagnostics").tables = .ok h := by
  cases hdecode : decode list with
  | error b => simp [clang_of_decode_error hdecode]
  | ok document => simp [clang_eq_harvest hdecode, mapError_eq_ok]

theorem reportFiles_congr {d d' : Datum} (h : d.get "files" = d'.get "files") :
    reportFiles d = reportFiles d' := by
  rw [reportFiles, reportFiles, h]

/-- Diagnostics in one report are read as those in two with the same other entries. -/
theorem clang_joins {root : Files.Path} {a b c : Element} {xs ys : List Element}
    (hlast : "diagnostics" ∉ after.map Prod.fst) (ha : IsReport before after xs a)
    (hb : IsReport before after ys b) (hc : IsReport before after (xs ++ ys) c) : Joins (clang root) a b c := by
  intro h₁ h₂ hread₁ hread₂
  obtain ⟨d₁, hdecode₁, hread₁⟩ := clang_eq_ok.mp hread₁
  obtain ⟨d₂, hdecode₂, hread₂⟩ := clang_eq_ok.mp hread₂
  obtain ⟨values, items₁, others, hvalues, hitems₁, hothers, rfl⟩ := (decode_of_isReport ha).mp hdecode₁
  obtain ⟨values₂, items₂, others₂, hvalues₂, hitems₂, hothers₂, rfl⟩ := (decode_of_isReport hb).mp hdecode₂
  obtain rfl : values = values₂ := Except.ok.inj (hvalues.symm.trans hvalues₂)
  obtain rfl : others = others₂ := Except.ok.inj (hothers.symm.trans hothers₂)
  have hitems : (xs ++ ys).mapM (value diagnosticDepth) = .ok (items₁ ++ items₂) := by
    rw [List.mapM_append, hitems₁, hitems₂]
    rfl
  -- the three values differ in their diagnostics only
  have hlast : "diagnostics" ∉ others.map Prod.fst := by rwa [keys_entriesWith hothers]
  obtain ⟨hown₁, hfiles₁⟩ := @get_ofEntries values others hlast items₁
  obtain ⟨hown₂, hfiles₂⟩ := @get_ofEntries values others hlast items₂
  obtain ⟨hown, hfiles⟩ := @get_ofEntries values others hlast (items₁ ++ items₂)
  have hfiles := hfiles "files" (by decide)
  have hfiles₁ := (hfiles₁ "files" (by decide)).trans hfiles.symm
  have hfiles₂ := (hfiles₂ "files" (by decide)).trans hfiles.symm
  rw [hown₁, reportFiles_congr hfiles₁] at hread₁
  rw [hown₂, reportFiles_congr hfiles₂] at hread₂
  obtain ⟨h, hread, hjoin⟩ := harvest_joins _ _ _ h₁ h₂ hread₁ hread₂
  have hdecode := (decode_of_isReport hc).mpr ⟨values, _, others, hvalues, hitems, hothers, rfl⟩
  refine ⟨h, clang_eq_ok.mpr ⟨_, hdecode, ?_⟩, hjoin⟩
  rw [hown]
  exact (congrArg (harvest _) (List.filter_append ..)).trans hread

end Clang

/-! ## All tools that report in records -/

/-- **Records are read one by one**: with the records of two outputs in one, the findings, the count of what
was left out and the reasons are those of the two outputs, one after the other. Five tools account for every
record, as a finding or as left out. -/
theorem records_join (root : Files.Path) :
    (∀ (k : RecordReader) (a b c : Datum) (xs ys : List Datum), k.place a = .list xs →
      k.place b = .list ys → k.place c = .list (xs ++ ys) → Joins (k.read root) a b c) ∧
    (∀ (before after : List (String × Markup.Element)) (a b c : Markup.Element) (xs ys : List Markup.Element),
      "diagnostics" ∉ after.map Prod.fst → Clang.IsReport before after xs a →
      Clang.IsReport before after ys b → Clang.IsReport before after (xs ++ ys) c →
      Joins (clang root) a b c) ∧
    (∀ a b c : Markup.Element, c.childrenOf "error" = a.childrenOf "error" ++ b.childrenOf "error" →
      Joins (valgrind root) a b c) ∧
    (∀ (k : RecordReader) (document : Datum) (h : Harvest), k.countsAll = true →
      k.read root document = .ok h → h.issues.length + h.dropped = (k.records document).length) ∧
    (∀ (list : Markup.Element) (h : Harvest), clang root list = .ok h →
      ∃ document, PropertyList.decode list = .ok document ∧
        h.issues.length + h.dropped = (document.get "diagnostics").tables.length) ∧
    ∀ (document : Markup.Element) (h : Harvest), valgrind root document = .ok h →
      h.issues.length + h.dropped = (document.childrenOf "error").length := by
  refine ⟨fun k a b c xs ys => RecordReader.read_joins, fun before after a b c xs ys => Clang.clang_joins,
    ?_, ?_, ?_, ?_⟩
  · intro a b c herrors
    simp only [Joins, valgrind, herrors]
    exact harvest_joins (Valgrind.record root) _ _
  · intro k document h hk hread
    rw [RecordReader.read_eq_harvest] at hread
    exact count_harvest (RecordReader.readsOne_record hk) hread
  · intro list h hread
    obtain ⟨document, hdecode, hread⟩ := Clang.clang_eq_ok.mp hread
    exact ⟨document, hdecode, count_harvest (Clang.readsOne_record _) hread⟩
  · intro document h hread
    exact count_harvest Valgrind.readsOne_record hread

/-- Of two outputs with one record each, the record of the first is left out and that of the second is a finding;
and so it is with both records in one output. -/
theorem records_join_pairs :
    let root := Files.Path.ofString "/work"
    let issues : List Datum := [.table [("file", .null)], .table [("file", .text "a.go")]]
    let diagnostics := [Clang.dict [], Clang.diagnosticAt "1" "2" "first"]
    let errors := [Valgrind.invalidRead [], Valgrind.invalidRead [Valgrind.frameAt "main" "/work" "a.c" "9"]]
    let document : List Markup.Element → Markup.Element := .node "valgrindoutput" none
    (∃ h, RecordReader.gosec.read root (RecordReader.gosecDocument issues) = .ok h ∧
      h.dropped = 1 ∧ h.issues.length = 1) ∧
    (∃ h, clang root (Clang.reportOf diagnostics) = .ok h ∧ h.dropped = 1 ∧ h.issues.length = 1) ∧
    ∃ h, valgrind root (document errors) = .ok h ∧ h.dropped = 1 ∧ h.issues.length = 1 := by
  intro root issues diagnostics errors document
  obtain ⟨hrecords, hclang, hvalgrind, hcount, hcountClang, hcountValgrind⟩ := records_join root
  refine ⟨?_, ?_, ?_⟩
  · obtain ⟨h₁, hread₁, hdropped₁⟩ := exists_of_toOption_map (f := Harvest.dropped) (b := 1)
      (x := RecordReader.gosec.read root (RecordReader.gosecDocument [.table [("file", .null)]])) (by rfl)
    obtain ⟨h₂, hread₂, hdropped₂⟩ := exists_of_toOption_map (f := Harvest.dropped) (b := 0)
      (x := RecordReader.gosec.read root (RecordReader.gosecDocument [.table [("file", .text "a.go")]])) (by rfl)
    obtain ⟨h, hread, hjoin⟩ := hrecords .gosec _ _ (RecordReader.gosecDocument issues) _ _ rfl rfl rfl
      h₁ h₂ hread₁ hread₂
    have hdropped : h.dropped = 1 := by rw [hjoin.dropped, hdropped₁, hdropped₂]
    have htotal : h.issues.length + h.dropped = 2 := hcount .gosec _ h rfl hread
    exact ⟨h, hread, hdropped, by omega⟩
  · have hreport (diagnostics : List Markup.Element) : Clang.IsReport
        [("files", .node "array" none [Clang.leaf "string" "a.c"])] [] diagnostics
        (Clang.reportOf diagnostics) := ⟨_, _, _, rfl, rfl, rfl, rfl, rfl, rfl⟩
    obtain ⟨h₁, hread₁, hdropped₁⟩ := exists_of_toOption_map (f := Harvest.dropped) (b := 1)
      (x := clang root (Clang.reportOf [Clang.dict []])) (by rfl)
    obtain ⟨h₂, hread₂, hdropped₂⟩ := exists_of_toOption_map (f := Harvest.dropped) (b := 0)
      (x := clang root (Clang.reportOf [Clang.diagnosticAt "1" "2" "first"])) (by rfl)
    obtain ⟨h, hread, hjoin⟩ := hclang _ _ _ _ (Clang.reportOf diagnostics) _ _ (by simp)
      (hreport _) (hreport _) (hreport _) h₁ h₂ hread₁ hread₂
    have hdropped : h.dropped = 1 := by rw [hjoin.dropped, hdropped₁, hdropped₂]
    obtain ⟨value, hdecode, htotal⟩ := hcountClang _ h hread
    have hlength : (PropertyList.decode (Clang.reportOf diagnostics)).toOption.map
        (fun value => (value.get "diagnostics").tables.length) = some 2 := by rfl
    rw [hdecode] at hlength
    have htables : (value.get "diagnostics").tables.length = 2 := Option.some.inj hlength
    exact ⟨h, hread, hdropped, by omega⟩
  · obtain ⟨h₁, hread₁, hdropped₁⟩ := exists_of_toOption_map (f := Harvest.dropped) (b := 1)
      (x := valgrind root (document [Valgrind.invalidRead []])) (by rfl)
    have hkept : (valgrind (Files.Path.ofString "/work") (.node "valgrindoutput" none
        [Valgrind.invalidRead [Valgrind.frameAt "main" "/work" "a.c" "9"]])).toOption.map Harvest.dropped =
          some 0 := by decide +kernel
    obtain ⟨h₂, hread₂, hdropped₂⟩ := exists_of_toOption_map hkept
    obtain ⟨h, hread, hjoin⟩ := hvalgrind _ _ (document errors) rfl h₁ h₂ hread₁ hread₂
    have hdropped : h.dropped = 1 := by rw [hjoin.dropped, hdropped₁, hdropped₂]
    have htotal : h.issues.length + h.dropped = 2 := hcountValgrind _ h hread
    exact ⟨h, hread, hdropped, by omega⟩

end Assay.Readers
