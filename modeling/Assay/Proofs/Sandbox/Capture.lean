import Assay.Analyzer.Clang
import Assay.Proofs.Analyzer.Analysis
import Assay.Sandbox.Watch

/-!
# What is captured

Output that is read in pieces is captured as if it came in one: what fits under the cap is kept, and the
output has overflowed if it reaches the cap (`captureChunks_eq`). A stream under watch captures the same,
whenever its pieces are written (`captured_ofPieces`). A report in a file is refused at the same size as
printed output. The main result is `capture_boundary`.
-/

namespace Assay.Sandbox

/-! ## Reading in pieces -/

section Pieces

variable {α : Type} {cap : Nat} {kept : List α} {chunks : List (List α)}

/-- **The pieces do not matter**: what is kept already and what is read in pieces is captured like one
output. Less than the cap is kept at every step. -/
theorem captureChunks_eq (hkept : kept.length < cap) (hchunks : ∀ c ∈ chunks, c ≠ []) :
    captureChunks cap kept chunks = capture cap (kept ++ chunks.flatten) := by
  induction chunks generalizing kept with
  | nil =>
      have htake : (kept ++ [].flatten).take cap = kept := by simp [List.take_of_length_le hkept.le]
      have hreach : ¬ cap ≤ (kept ++ [].flatten).length := by simpa using hkept
      simp only [captureChunks, capture, htake, decide_eq_false hreach]
  | cons chunk rest ih =>
      obtain ⟨hchunk, hrest⟩ := List.forall_mem_cons.mp hchunks
      rw [captureChunks, if_neg (by simpa using hchunk), List.flatten_cons]
      split
      · next hroom =>
        have hreach : cap ≤ (kept ++ (chunk ++ rest.flatten)).length := by
          simp only [List.length_append]
          omega
        rw [capture, decide_eq_true hreach, List.take_append, List.take_of_length_le hkept.le,
          List.take_append_of_le_length hroom]
      · next hroom =>
        rw [ih (by rw [List.length_append]; omega) hrest, List.append_assoc]

end Pieces

/-! ## Streams under watch -/

/-- A stream to which pieces have been written, each at its time. -/
def Stream.ofPieces (cap : Nat) (pieces : List (Time × Bytes)) : Stream :=
  pieces.foldl (fun s piece => s.push cap piece.1 piece.2) {}

/-- The stream holds all that was written, or as much of it as reaches the cap. -/
structure Stream.Holds (cap : Nat) (s : Stream) (written : Bytes) : Prop where
  begins : s.bytes <+: written
  size : s.size = s.bytes.length
  /-- While the stream has not overflowed, nothing of it is missing. -/
  whole : s.overflowAt = none → s.bytes = written ∧ written.length < cap
  full : s.overflowAt ≠ none → cap ≤ s.bytes.length

namespace Stream

variable {cap : Nat} {s : Stream} {written : Bytes}

/-- One more piece that is written. It is read unless the stream has overflowed before. -/
theorem Holds.push (h : s.Holds cap written) (now : Time) (piece : Bytes) :
    (s.push cap now piece).Holds cap (written ++ piece) := by
  unfold Stream.push
  split
  · next hskip =>
    refine ⟨h.begins.trans (List.prefix_append _ _), h.size, fun hnone => ?_, h.full⟩
    obtain rfl : piece = [] := by simpa [hnone] using hskip
    rw [List.append_nil]
    exact h.whole hnone
  · next hread =>
    have hnone : s.overflowAt = none := by
      rw [Bool.or_eq_true, not_or] at hread
      exact Option.not_isSome_iff_eq_none.mp hread.2
    obtain ⟨heq, -⟩ := h.whole hnone
    have hbytes : Stream.bytes ⟨piece :: s.pieces, s.size + piece.length,
        if cap ≤ s.size + piece.length then some now else none⟩ = written ++ piece := by
      rw [← heq, bytes, bytes, List.reverse_cons, List.flatten_append, List.flatten_singleton]
    have hsize : s.size + piece.length = (written ++ piece).length := by
      rw [h.size, heq, List.length_append]
    refine ⟨hbytes ▸ List.prefix_rfl, by rw [hbytes, hsize], fun hbelow => ⟨hbytes, ?_⟩, fun hreach => ?_⟩
    · rw [← hsize]
      simpa using hbelow
    · rw [hbytes, ← hsize]
      simpa using hreach

/-- **What is captured of a stream** is what is captured of all that was written. -/
theorem Holds.captured_eq (h : s.Holds cap written) : s.captured cap = capture cap written := by
  unfold Stream.captured
  cases hoverflow : s.overflowAt with
  | none =>
      obtain ⟨heq, hless⟩ := h.whole hoverflow
      rw [if_neg (by simp), heq, capture, List.take_of_length_le hless.le,
        decide_eq_false (Nat.not_le.mpr hless)]
  | some t =>
      have hfull := h.full (by simp [hoverflow])
      have hreach : cap ≤ written.length := hfull.trans h.begins.length_le
      have htake : s.bytes.take cap = written.take cap := by
        obtain ⟨rest, rfl⟩ := h.begins
        exact (List.take_append_of_le_length hfull).symm
      rw [Option.isSome_some, if_pos rfl, capture, capture, decide_eq_true hfull, decide_eq_true hreach, htake]

theorem Holds.foldl (h : s.Holds cap written) (pieces : List (Time × Bytes)) :
    (pieces.foldl (fun s piece => s.push cap piece.1 piece.2) s).Holds cap
      (written ++ (pieces.map (·.2)).flatten) := by
  induction pieces generalizing s written with
  | nil => simpa using h
  | cons piece pieces ih => simpa using ih (h.push piece.1 piece.2)

/-- **A stream under watch** captures what is captured of its pieces in a row, whenever they are written. -/
theorem captured_ofPieces (hcap : 1 ≤ cap) (pieces : List (Time × Bytes)) :
    (ofPieces cap pieces).captured cap = capture cap (pieces.map (·.2)).flatten := by
  have hempty : Holds cap {} [] := ⟨List.prefix_rfl, rfl, fun _ => ⟨rfl, hcap⟩, fun h => absurd rfl h⟩
  exact (hempty.foldl pieces).captured_eq

end Stream

end Assay.Sandbox

namespace Assay

open Sandbox Files

/-! ## Printed output and reports in files -/

namespace Analyzer

variable {a : Analyzer} {request : Request} {invocation : Invocation} {limit : Nat}

/-- A report is taken if it stays below the cap; one that nobody asked for is not looked at. -/
theorem reportText_isOk {report : Option Content} :
    (∃ text, a.reportText limit invocation report = .ok text) ↔
      ∀ file ∈ invocation.reportFile, ∀ content ∈ report, content.size < limit := by
  unfold reportText
  split
  · next file content hfile =>
    simp only [hfile, Option.mem_some_iff, forall_eq']
    split
    · next hlimit => simp [Nat.not_lt.mpr hlimit]
    · next hlimit => simp [Nat.lt_of_not_le hlimit]
  · next hneither =>
    refine iff_of_true ⟨none, rfl⟩ fun file hfile content hcontent => ?_
    exact absurd hcontent (hneither file content hfile)

theorem reportText_error {report : Option Content} {p : Problem}
    (h : a.reportText limit invocation report = .error p) : p.kind = .outputOverflow := by
  unfold reportText at h
  split at h
  · split at h
    · obtain rfl := Except.error.inj h
      rfl
    · simp at h
  · simp at h

section Replies

variable {reply : Reply} (htimedOut : reply.outcome.timedOut = false)
  (hcancelled : reply.outcome.cancelled = false)

include htimedOut hcancelled

/-- **A reply has an output** exactly if its streams have not overflowed and the report that was asked for
stays below the cap, unless the command was stopped for another reason. -/
theorem outputOf_isOk : (∃ output, a.outputOf request invocation reply = .ok output) ↔
    reply.outcome.overflowed = false ∧
      ∀ file ∈ invocation.reportFile, ∀ content ∈ reply.report, content.size < request.limits.maxOutputBytes := by
  rw [← reportText_isOk (a := a), outputOf]
  cases hstopped : a.stopped? request reply.outcome with
  | some p =>
      have hoverflowed : ¬ reply.outcome.overflowed = false := fun h => by
        simp [stopped?_eq_none.mpr ⟨htimedOut, h, hcancelled⟩] at hstopped
      simp [hoverflowed]
  | none =>
      rw [and_iff_right (stopped?_eq_none.mp hstopped).2.1]
      exact map_isOk

theorem outputOf_error {p : Problem} (h : a.outputOf request invocation reply = .error p) :
    p.kind = .outputOverflow := by
  unfold outputOf at h
  split at h
  · next hstopped =>
    obtain rfl := Except.error.inj h
    rw [stopped?, if_neg (by simp [htimedOut])] at hstopped
    split at hstopped
    · obtain rfl := Option.some.inj hstopped
      rfl
    · rw [if_neg (by simp [hcancelled])] at hstopped
      simp at hstopped
  · exact reportText_error (map_eq_error.mp h)

end Replies

/-- **The cap on output** is met alike by every way to read it. A stream that is read in pieces is kept up to
the cap and has overflowed exactly if it reaches it, whatever the pieces are and whenever they are written. A
command's printed output is taken exactly if it is smaller than the cap, and so is the report that it wrote
to a file; either is refused for too much output. -/
theorem capture_boundary {cap : Nat} (hcap : 1 ≤ cap) {chunks : List Bytes} (hchunks : ∀ c ∈ chunks, c ≠ []) :
    captureChunks cap [] chunks = ⟨chunks.flatten.take cap, cap ≤ chunks.flatten.length⟩ ∧
      (∀ others : List Bytes, (∀ c ∈ others, c ≠ []) → others.flatten = chunks.flatten →
        captureChunks cap [] others = captureChunks cap [] chunks) ∧
      (∀ pieces : List (Time × Bytes), pieces.map (·.2) = chunks →
        (Stream.ofPieces cap pieces).captured cap = captureChunks cap [] chunks) ∧
      ∀ (a : Analyzer) (request : Request) (invocation : Invocation) (file : Path) (content : Content)
        (exitCode : Int), request.limits.maxOutputBytes = cap → invocation.reportFile = some file →
        let read := captureChunks cap [] chunks
        let printed := a.outputOf request invocation
          ⟨{ exitCode, stdout := read.kept, overflowed := read.overflowed }, none⟩
        let written := a.outputOf request invocation ⟨{ exitCode }, some content⟩
        ((∃ output, printed = .ok output) ↔ chunks.flatten.length < cap) ∧
          ((∃ output, written = .ok output) ↔ content.size < cap) ∧
          ∀ p, printed = .error p ∨ written = .error p → p.kind = .outputOverflow := by
  have hread : captureChunks cap [] chunks = capture cap ([] ++ chunks.flatten) :=
    captureChunks_eq hcap hchunks
  refine ⟨hread, fun others hothers heq => ?_, fun pieces hpieces => ?_, ?_⟩
  · rw [captureChunks_eq hcap hothers, heq, hread]
  · rw [Stream.captured_ofPieces hcap, hpieces, hread]
    rfl
  · intro a request invocation file content exitCode hlimit hfile read printed written
    refine ⟨?_, ?_, ?_⟩
    · rw [outputOf_isOk rfl rfl, and_iff_left (by simp)]
      simp [read, hread, capture]
    · rw [outputOf_isOk rfl rfl]
      simp [hfile, hlimit]
    · rintro p (hp | hp)
      · exact outputOf_error rfl rfl hp
      · exact outputOf_error rfl rfl hp

/-- Four bytes reach a cap of three, in two pieces of a stream and in a file. -/
theorem capture_boundary_reached :
    let request : Request := { (default : Request) with limits := { maxOutputBytes := 3 } }
    let report := Path.rooted ["tmp", "report.plist"]
    let invocation : Invocation := ⟨[], Path.rooted [], some report, []⟩
    (∀ c ∈ [[1, 2], [3, 4]], c ≠ ([] : Bytes)) ∧ request.limits.maxOutputBytes = 3 ∧
      captureChunks 3 [] [[1, 2], [3, 4]] = ⟨([1, 2, 3] : Bytes), true⟩ ∧
      ¬ (∃ output, clang.outputOf request invocation ⟨{ stdout := [1, 2, 3], overflowed := true }, none⟩ =
        .ok output) ∧
      ¬ ∃ output, clang.outputOf request invocation ⟨{}, some (.text "abcd")⟩ = .ok output := by
  intro request report invocation
  have hchunks : ∀ c ∈ [[1, 2], [3, 4]], c ≠ ([] : Bytes) := by decide
  have hcap : 1 ≤ 3 := by decide
  obtain ⟨hread, -, -, hreplies⟩ := capture_boundary hcap hchunks
  obtain ⟨hprinted, hwritten, -⟩ := hreplies clang request invocation report (.text "abcd") 0 rfl rfl
  exact ⟨hchunks, rfl, hread, fun h => absurd (hprinted.mp h) (by decide),
    fun h => absurd (hwritten.mp h) (by decide)⟩

end Analyzer

end Assay
