import Assay.Advisory.Score
import Assay.Proofs.Text.Split

/-!
# What the score of a vector depends on

A vector gives a metric the value that stands in its last part for it (`Gives`). Whether it has a score, and
which one, depends on the values of the base metrics alone, not on their order, on earlier parts for them or on
further metrics (`score?_spec`). A scope that is none stands for an unchanged one (`score?_strayScope`).
-/

namespace Assay.Advisory

/-- The base metrics, each with the letters of its values. -/
def baseMetrics : List (String × List String) :=
  [("AV", ["N", "A", "L", "P"]), ("AC", ["L", "H"]), ("PR", ["N", "L", "H"]), ("UI", ["N", "R"]),
    ("S", ["U", "C"]), ("C", ["H", "L", "N"]), ("I", ["H", "L", "N"]), ("A", ["H", "L", "N"])]

/-- The part of a vector for a metric with a value. -/
def partFor (name value : String) : String := name ++ ":" ++ value

/-- The last part for the metric, the first part of the vector apart, has the value. -/
def Gives (vector name value : String) : Prop :=
  ∃ before after, (Text.splitOn '/' vector).drop 1 = before ++ partFor name value :: after ∧
    ∀ other, partFor name other ∉ after

/-- Every base metric is given with one of its letters. -/
def IsComplete (vector : String) : Prop :=
  ∀ m ∈ baseMetrics, ∃ letter ∈ m.2, Gives vector m.1 letter

variable {vector other name value : String}

/-! ## Values of metrics -/

theorem metric?_eq_some {part : String} :
    metric? part = some (name, value) ↔ part = partFor name value ∧ ':' ∉ name.toList := by
  have hparts : part = partFor name value ↔ part.toList = name.toList ++ ':' :: value.toList := by
    rw [← String.toList_inj, partFor, String.toList_append, String.toList_append, List.append_assoc]
    rfl
  rw [hparts, ← Text.cut_eq_some, metric?, Option.map_eq_some_iff]
  constructor
  · rintro ⟨⟨front, back⟩, hcut, heq⟩
    cases heq
    rwa [String.toList_ofList, String.toList_ofList]
  · intro hcut
    refine ⟨_, hcut, ?_⟩
    show (String.ofList name.toList, String.ofList value.toList) = (name, value)
    rw [String.ofList_toList, String.ofList_toList]

/-- The value that a part has for a metric. -/
def valueFor? (name part : String) : Option String :=
  (metric? part).bind fun m => if name = m.1 then some m.2 else none

theorem valueFor?_eq_some {part : String} (hname : ':' ∉ name.toList) :
    valueFor? name part = some value ↔ part = partFor name value := by
  unfold valueFor?
  rw [Option.bind_eq_some_iff]
  constructor
  · rintro ⟨⟨front, back⟩, hmetric, hvalue⟩
    obtain ⟨rfl, hback⟩ := Option.ite_none_right_eq_some.mp hvalue
    cases hback
    exact (metric?_eq_some.mp hmetric).1
  · intro hpart
    exact ⟨(name, value), metric?_eq_some.mpr ⟨hpart, hname⟩, if_pos rfl⟩

theorem lookup_filterMap (name : String) (parts : List String) :
    (parts.filterMap metric?).lookup name = parts.findSome? (valueFor? name) := by
  induction parts with
  | nil => rfl
  | cons part parts ih =>
      rw [List.findSome?_cons, valueFor?]
      cases hmetric : metric? part with
      | none =>
          rw [List.filterMap_cons_none hmetric]
          exact ih
      | some m =>
          rw [List.filterMap_cons_some hmetric, List.lookup_cons, Option.bind_some, ih]
          by_cases hname : name = m.1
          · rw [if_pos hname, beq_iff_eq.mpr hname]
          · rw [if_neg hname, beq_eq_false_iff_ne.mpr hname]

theorem get?_metrics (hname : ':' ∉ name.toList) :
    (metrics vector).get? name = some value ↔ Gives vector name value := by
  unfold Metrics.get? metrics Gives
  rw [← List.filterMap_reverse, lookup_filterMap, List.findSome?_eq_some_iff]
  -- what stands before the part in the reversed row stands after it in the vector
  constructor
  · rintro ⟨later, part, earlier, hparts, hvalue, hlater⟩
    obtain rfl := (valueFor?_eq_some hname).mp hvalue
    refine ⟨earlier.reverse, later.reverse, ?_, ?_⟩
    · rw [← List.reverse_inj, hparts]
      simp
    · intro other hmem
      have hnone := hlater _ (List.mem_reverse.mp hmem)
      rw [(valueFor?_eq_some hname).mpr rfl] at hnone
      exact nomatch hnone
  · rintro ⟨before, after, hparts, hafter⟩
    refine ⟨after.reverse, _, before.reverse, ?_, (valueFor?_eq_some hname).mpr rfl, ?_⟩
    · rw [hparts]
      simp
    · intro part hpart
      cases hvalue : valueFor? name part with
      | none => rfl
      | some other =>
          obtain rfl := (valueFor?_eq_some hname).mp hvalue
          exact absurd (List.mem_reverse.mp hpart) (hafter other)

theorem get?_congr (hname : ':' ∉ name.toList)
    (h : ∀ value, Gives other name value ↔ Gives vector name value) :
    (metrics other).get? name = (metrics vector).get? name := by
  apply Option.ext
  intro value
  rw [get?_metrics hname, get?_metrics hname]
  exact h value

/-! ## Letters -/

theorem AttackVector.ofLetter?_isSome {s : String} :
    (ofLetter? s).isSome ↔ s ∈ ["N", "A", "L", "P"] := by
  unfold ofLetter?
  split <;> simp_all

theorem Complexity.ofLetter?_isSome {s : String} : (ofLetter? s).isSome ↔ s ∈ ["L", "H"] := by
  unfold ofLetter?
  split <;> simp_all

theorem Privileges.ofLetter?_isSome {s : String} : (ofLetter? s).isSome ↔ s ∈ ["N", "L", "H"] := by
  unfold ofLetter?
  split <;> simp_all

theorem Interaction.ofLetter?_isSome {s : String} : (ofLetter? s).isSome ↔ s ∈ ["N", "R"] := by
  unfold ofLetter?
  split <;> simp_all

theorem Impact.ofLetter?_isSome {s : String} : (ofLetter? s).isSome ↔ s ∈ ["H", "L", "N"] := by
  unfold ofLetter?
  split <;> simp_all

/-! ## Scores -/

theorem isSome_bind {α β : Type} {o : Option α} {f : α → Option β} {p : Prop}
    (h : ∀ a, (f a).isSome ↔ p) : (o.bind f).isSome ↔ o.isSome ∧ p := by
  cases o with
  | none => simp
  | some a => simp [h]

/-- A vector has a score if each of its metrics is read; of the scope there has to be some text. -/
theorem ofMetrics?_isSome {ms : Metrics} : (Base.ofMetrics? ms).isSome ↔
    (ms.get? "S").isSome ∧ ((ms.get? "PR").bind Privileges.ofLetter?).isSome ∧
      ((ms.get? "C").bind Impact.ofLetter?).isSome ∧ ((ms.get? "I").bind Impact.ofLetter?).isSome ∧
      ((ms.get? "A").bind Impact.ofLetter?).isSome ∧
      ((ms.get? "AV").bind AttackVector.ofLetter?).isSome ∧
      ((ms.get? "AC").bind Complexity.ofLetter?).isSome ∧
      ((ms.get? "UI").bind Interaction.ofLetter?).isSome := by
  have hlast {α β : Type} {o : Option α} {f : α → β} : (o.bind fun a => some (f a)).isSome ↔ o.isSome := by
    rw [isSome_bind (p := True) fun _ => by simp, and_true]
  unfold Base.ofMetrics?
  exact isSome_bind fun _ => isSome_bind fun _ => isSome_bind fun _ => isSome_bind fun _ =>
    isSome_bind fun _ => isSome_bind fun _ => isSome_bind fun _ => hlast

theorem bind_get?_isSome {α : Type} {ofLetter? : String → Option α} {letters : List String}
    (hname : ':' ∉ name.toList) (hletters : ∀ s, (ofLetter? s).isSome ↔ s ∈ letters) :
    (((metrics vector).get? name).bind ofLetter?).isSome ↔ ∃ letter ∈ letters, Gives vector name letter := by
  simp only [← get?_metrics hname, ← hletters]
  cases (metrics vector).get? name with
  | none => simp
  | some s => simp

theorem score?_isSome : (score? vector).isSome ↔ (∃ s, Gives vector "S" s) ∧
    ∀ m ∈ baseMetrics, m.1 ≠ "S" → ∃ letter ∈ m.2, Gives vector m.1 letter := by
  have hscope : ((metrics vector).get? "S").isSome ↔ ∃ s, Gives vector "S" s := by
    rw [Option.isSome_iff_exists]
    exact exists_congr fun s => get?_metrics (by decide)
  rw [score?, Option.isSome_map, ofMetrics?_isSome, hscope,
    bind_get?_isSome (by decide) fun _ => Privileges.ofLetter?_isSome,
    bind_get?_isSome (by decide) fun _ => Impact.ofLetter?_isSome,
    bind_get?_isSome (by decide) fun _ => Impact.ofLetter?_isSome,
    bind_get?_isSome (by decide) fun _ => Impact.ofLetter?_isSome,
    bind_get?_isSome (by decide) fun _ => AttackVector.ofLetter?_isSome,
    bind_get?_isSome (by decide) fun _ => Complexity.ofLetter?_isSome,
    bind_get?_isSome (by decide) fun _ => Interaction.ofLetter?_isSome]
  simp only [baseMetrics, List.forall_mem_cons, List.not_mem_nil, false_implies, implies_true, and_true,
    ne_eq, String.reduceEq, not_false_eq_true, not_true_eq_false, forall_const, true_and]
  constructor
  · rintro ⟨hs, hpr, hc, hi, ha, hav, hac, hui⟩
    exact ⟨hs, hav, hac, hpr, hui, hc, hi, ha⟩
  · rintro ⟨hs, hav, hac, hpr, hui, hc, hi, ha⟩
    exact ⟨hs, hpr, hc, hi, ha, hav, hac, hui⟩

/-- A vector whose scope has one of its letters, if it has any, has a score exactly if it is complete. -/
theorem score?_isSome_iff_isComplete (hscope : ∀ s, Gives vector "S" s → s ∈ ["U", "C"]) :
    (score? vector).isSome ↔ IsComplete vector := by
  rw [score?_isSome]
  constructor
  · rintro ⟨⟨s, hs⟩, hrest⟩ m hm
    by_cases hname : m.1 = "S"
    · have hm : m = ("S", ["U", "C"]) := by
        have hall : ∀ m ∈ baseMetrics, m.1 = "S" → m = ("S", ["U", "C"]) := by decide
        exact hall m hm hname
      rw [hm]
      exact ⟨s, hscope s hs, hs⟩
    · exact hrest m hm hname
  · intro hcomplete
    obtain ⟨s, -, hs⟩ := hcomplete ("S", ["U", "C"]) (by decide)
    exact ⟨⟨s, hs⟩, fun m hm _ => hcomplete m hm⟩

/-- Vectors that give the metrics but the scope the same values have the same score, if their scopes mean the
same. -/
theorem score?_congr
    (h : ∀ m ∈ baseMetrics, m.1 ≠ "S" → ∀ value, Gives other m.1 value ↔ Gives vector m.1 value)
    (hscope : ((metrics other).get? "S").map Scope.ofLetter = ((metrics vector).get? "S").map Scope.ofLetter) :
    score? other = score? vector := by
  have hget : ∀ m ∈ baseMetrics, m.1 ≠ "S" → (metrics other).get? m.1 = (metrics vector).get? m.1 := by
    intro m hm hname
    have hcolon : ∀ m ∈ baseMetrics, ':' ∉ m.1.toList := by decide
    exact get?_congr (hcolon m hm) (h m hm hname)
  simp only [baseMetrics, List.forall_mem_cons, ne_eq, String.reduceEq, not_false_eq_true, forall_const] at hget
  obtain ⟨hav, hac, hpr, hui, -, hc, hi, ha, -⟩ := hget
  unfold score? Base.ofMetrics?
  rw [hav, hac, hpr, hui, hc, hi, ha]
  cases hother : (metrics other).get? "S" with
  | none =>
      rw [hother] at hscope
      rw [Option.map_eq_none_iff.mp hscope.symm]
  | some s =>
      rw [hother] at hscope
      obtain ⟨s', hs', hsame⟩ := Option.map_eq_some_iff.mp hscope.symm
      rw [hs']
      simp only [bind, Option.bind_some, hsame]

/-- **What the score of a vector depends on.** A vector has one exactly if it gives a scope and each of the
other base metrics with one of its letters, so if its scope is none but `U` or `C`, exactly if it is complete.
Vectors that give the base metrics the same values have the same score, and every scope but `C` stands for
`U`. -/
theorem score?_spec (vector : String) :
    ((score? vector).isSome ↔ (∃ s, Gives vector "S" s) ∧
        ∀ m ∈ baseMetrics, m.1 ≠ "S" → ∃ letter ∈ m.2, Gives vector m.1 letter) ∧
      ((∀ s, Gives vector "S" s → s ∈ ["U", "C"]) → ((score? vector).isSome ↔ IsComplete vector)) ∧
      (∀ other, (∀ m ∈ baseMetrics, ∀ value, Gives other m.1 value ↔ Gives vector m.1 value) →
        score? other = score? vector) ∧
      ∀ other s, Gives vector "S" s → s ≠ "C" → Gives other "S" "U" →
        (∀ m ∈ baseMetrics, m.1 ≠ "S" → ∀ value, Gives other m.1 value ↔ Gives vector m.1 value) →
          score? other = score? vector := by
  refine ⟨score?_isSome, score?_isSome_iff_isComplete, fun other hsame => ?_,
    fun other s hs hne hother hsame => score?_congr hsame ?_⟩
  · apply score?_congr fun m hm _ => hsame m hm
    rw [get?_congr (by decide) (hsame ("S", ["U", "C"]) (by decide))]
  · rw [(get?_metrics (by decide)).mpr hs, (get?_metrics (by decide)).mpr hother, Option.map_some,
      Option.map_some, Scope.ofLetter, Scope.ofLetter, if_neg (by decide), if_neg (by simpa using hne)]

/-- A vector that gives every base metric, but a scope that is none. -/
def strayScope : String := "CVSS:3.1/AV:N/AC:L/PR:N/UI:N/S:X/C:H/I:H/A:H"

/-- Three vectors of one score: the second gives the same metrics in another order and one that does not count, the
third a scope that is none. -/
theorem score?_spec_reordered :
    let vector := "CVSS:3.1/AV:N/AC:L/PR:N/UI:N/S:U/C:H/I:H/A:H"
    let reordered := "CVSS:3.1/E:P/A:H/I:H/C:H/S:U/UI:N/PR:N/AC:L/AV:N"
    (score? vector).isSome ∧ IsComplete vector ∧ score? reordered = score? vector ∧
      score? vector = score? strayScope := by
  intro vector reordered
  have hgives {v w : String} {name value : String} (hname : ':' ∉ name.toList)
      (h : (metrics v).get? name = (metrics w).get? name) : Gives v name value ↔ Gives w name value := by
    rw [← get?_metrics hname, ← get?_metrics hname, h]
  have hcolon : ∀ m ∈ baseMetrics, ':' ∉ m.1.toList := by decide
  have hsame : ∀ m ∈ baseMetrics, (metrics reordered).get? m.1 = (metrics vector).get? m.1 := by decide +kernel
  have hstray : ∀ m ∈ baseMetrics, m.1 ≠ "S" → (metrics vector).get? m.1 = (metrics strayScope).get? m.1 := by
    decide +kernel
  have hscope : Gives vector "S" "U" := (get?_metrics (by decide)).mp (by decide +kernel)
  have hscore : (score? vector).isSome := by decide +kernel
  obtain ⟨-, hcomplete, hagree, -⟩ := score?_spec vector
  obtain ⟨-, -, -, hanyScope⟩ := score?_spec strayScope
  refine ⟨hscore, (hcomplete fun s hs => ?_).mp hscore,
    hagree reordered fun m hm value => hgives (hcolon m hm) (hsame m hm),
    hanyScope vector "X" ((get?_metrics (by decide)).mp (by decide +kernel)) (by decide) hscope
      fun m hm hne value => hgives (hcolon m hm) (hstray m hm hne)⟩
  have hone := (get?_metrics (by decide)).mpr hs
  rw [(get?_metrics (by decide)).mpr hscope] at hone
  obtain rfl := Option.some.inj hone
  decide

theorem score?_strayScope : (score? strayScope).isSome ∧ ¬ IsComplete strayScope := by
  constructor
  · decide +kernel
  · intro hcomplete
    obtain ⟨letter, hletter, hgives⟩ := hcomplete ("S", ["U", "C"]) (by decide)
    have hget := (get?_metrics (by decide)).mpr hgives
    have hstray : (metrics strayScope).get? "S" = some "X" := by decide +kernel
    rw [hstray] at hget
    cases hget
    exact absurd hletter (by decide)

end Assay.Advisory
